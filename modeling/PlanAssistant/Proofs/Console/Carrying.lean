import Mathlib.Data.List.TakeWhile
import PlanAssistant.Proofs.Console.Addressing
import PlanAssistant.Proofs.Console.Progress
import PlanAssistant.Proofs.Engine.Filing
import PlanAssistant.Proofs.Engine.Supply

/-!
A dialogue from its task to the end of its session.  While nothing is interrupted from outside, every turn
has a result, and as long as there are answers, the dialogue goes on after each question and ends with the
first result that puts none.  `Carried` tells of such a dialogue turn by turn; what holds of its end is
proved by induction on it.
-/
namespace PlanAssistant

/-- The exit code tells of the outcome. -/
structure Ending.TellsOf (outcome : Outcome) (ending : Ending) : Prop where
  completed : ending = .exit 0 ↔ outcome = .completed
  failed : ending = .exit 1 ↔ outcome = .failed
  cancelled : ending = .exit 130 ↔ outcome = .cancelled

/-- Whether a turn puts a question. -/
def TurnReport.asks {ρ κ : Type} (report : TurnReport ρ κ) : Bool :=
  match report.result with
  | .ok result => result.outcome == .clarification
  | .error _ => false

namespace Dialogue

open PlanAssistant.Action

variable {ρ κ : Type}

/-! ### One turn -/

/-- A result that puts no question ends the dialogue. -/
theorem conclude_ends (cost : Float) {result : TurnResult} (h : result.outcome ≠ .clarification) :
    ∃ ending, (conclude cost result).2 = .ends ending ∧ ending.TellsOf result.outcome := by
  unfold conclude
  cases hq : result.outcome with
  | clarification => exact absurd hq h
  | completed => exact ⟨.exit 0, rfl, by simp, by simp, by simp⟩
  | failed => exact ⟨.exit 1, rfl, by simp, by simp, by simp⟩
  | cancelled => exact ⟨.exit 130, rfl, by simp, by simp, by simp⟩

theorem conclude_question (cost : Float) {result : TurnResult} (h : result.outcome = .clarification) :
    conclude cost result = ([.markdown result.response, question], .asks) := by
  unfold conclude
  rw [h]

section

variable [Interpreter]

section Turns

variable (engine : Engine ρ κ) (births : Births) (dialogue : Dialogue ρ) (text : String)

theorem report_eq_take : dialogue.report engine births text = engine.take births dialogue.memory
    ⟨{ text, token := .live }, dialogue.memory.files, dialogue.memory.replies⟩ := rfl

variable {engine births dialogue text}

/-- A result decides whether the dialogue goes on, and adds its cost. -/
theorem turn_of_result {result : TurnResult}
    (h : (dialogue.report engine births text).result = .ok result) :
    (dialogue.turn engine births text).2 = (conclude (dialogue.cost + result.cost) result).2 ∧
      (dialogue.turn engine births text).1.cost = dialogue.cost + result.cost := by
  unfold report at h
  unfold Dialogue.turn
  dsimp only
  rw [h]
  dsimp only
  cases (conclude (dialogue.cost + result.cost) result).2 <;> exact ⟨rfl, rfl⟩

theorem said_of_result {result : TurnResult}
    (h : (dialogue.report engine births text).result = .ok result) :
    dialogue.said engine births text = (conclude (dialogue.cost + result.cost) result).1 := by
  unfold said
  rw [h]

theorem turn_of_question {result : TurnResult}
    (h : (dialogue.report engine births text).result = .ok result) (hq : result.outcome = .clarification) :
    (dialogue.turn engine births text).2 = .asks := by
  rw [(turn_of_result h).1, conclude_question _ hq]

/-- The emitter has published what the engine remembers. -/
def Abreast (dialogue : Dialogue ρ) : Prop := dialogue.terminal.emitter.history = dialogue.memory.history

theorem Settled.history_followed (h : dialogue.Settled births) (ha : dialogue.Abreast)
    (engine : Engine ρ κ) (text : String) :
    (dialogue.followed engine births text).emitter.history =
      (dialogue.report engine births text).memory.history := by
  obtain ⟨s, sessions, -, -, -, -, -, hh⟩ := engine.take_trail births h.lawful.consistent_held
    ⟨{ text, token := .live }, dialogue.memory.files, dialogue.memory.replies⟩
  rw [← report_eq_take] at hh
  obtain ⟨hp, hs, -⟩ := h.staged_report engine text
  -- what the events tell of is what the engine has published
  have hshown : s :: sessions = (dialogue.report engine births text).events.filterMap Event.shown? := by
    rw [hh, Update.map_session_extend] at hp
    exact List.append_cancel_left hp
  rw [hp] at hs
  have hf := h.attends.followAll (dialogue.report engine births text).events hs
  unfold followed
  rw [hf.stopSpinner.history_drain, Terminal.emitter_stopSpinner, h.attends.history_followAll _ hs, ha,
    hh, hshown]

/-- A result that puts no question leaves the emitter as the turn has, but stopped. -/
theorem Settled.emitter_of_concluded (h : dialogue.Settled births) {result : TurnResult}
    (hr : (dialogue.report engine births text).result = .ok result)
    (hq : result.outcome ≠ .clarification) :
    (dialogue.turn engine births text).1.terminal.emitter =
      (dialogue.followed engine births text).emitter.stop := by
  obtain ⟨ending, hends, -⟩ := conclude_ends (dialogue.cost + result.cost) hq
  obtain ⟨ha, hdrained⟩ := h.attends_followed engine text
  have hsaid := dialogue.progressOf_said engine births text
  unfold said followed report at *
  unfold Dialogue.turn
  dsimp only at *
  rw [hr] at hsaid ⊢
  dsimp only
  rw [hends]
  dsimp only
  rw [Terminal.close_eq, (ha.act _ hsaid).drain_eq hdrained]
  rfl

end Turns

/-! ### Turn after turn -/

/-- A dialogue that gets a result for every input and ends with the first one that puts no question: its
turns, the results that put questions, the last result, and how the dialogue stands after it. -/
inductive Carried (engine : Engine ρ κ) (births : Births) (final : TurnResult) (last : Dialogue ρ) :
    Dialogue ρ → List (Dialogue ρ × String) → List TurnResult → Prop
  | concludes {dialogue : Dialogue ρ} {text : String} (settled : dialogue.Settled births)
      (reported : (dialogue.report engine births text).result = .ok final)
      (concluded : final.outcome ≠ .clarification)
      (left : last = (dialogue.turn engine births text).1) :
    Carried engine births final last dialogue [(dialogue, text)] []
  | asks {dialogue : Dialogue ρ} {text : String} {result : TurnResult}
      {turns : List (Dialogue ρ × String)} {asked : List TurnResult} (settled : dialogue.Settled births)
      (reported : (dialogue.report engine births text).result = .ok result)
      (puts : result.outcome = .clarification)
      (later : Carried engine births final last (dialogue.turn engine births text).1 turns asked) :
    Carried engine births final last dialogue ((dialogue, text) :: turns) (result :: asked)

namespace Carried

variable {engine : Engine ρ κ} {births : Births} {final : TurnResult} {dialogue last : Dialogue ρ}
  {turns : List (Dialogue ρ × String)} {asked : List TurnResult}

theorem results (h : Carried engine births final last dialogue turns asked) :
    turns.map (fun turn => (turn.1.report engine births turn.2).result) =
      (asked ++ [final]).map .ok := by
  induction h with
  | concludes settled reported => rw [List.map_singleton, reported]; rfl
  | asks settled reported puts later ih => rw [List.map_cons, ih, reported]; rfl

theorem questions (h : Carried engine births final last dialogue turns asked) :
    ∀ r ∈ asked, r.outcome = .clarification := by
  induction h with
  | concludes => exact fun _ hr => absurd hr List.not_mem_nil
  | asks settled reported puts later ih => exact List.forall_mem_cons.mpr ⟨puts, ih⟩

theorem concluded (h : Carried engine births final last dialogue turns asked) :
    final.outcome ≠ .clarification := by
  induction h with
  | concludes settled reported concluded => exact concluded
  | asks settled reported puts later ih => exact ih

/-- The costs are added up in the order of the turns. -/
theorem cost (h : Carried engine births final last dialogue turns asked) :
    last.cost = (asked ++ [final]).foldl (fun cost r => cost + r.cost) dialogue.cost := by
  induction h with
  | concludes settled reported concluded left =>
    rw [left]
    exact (turn_of_result reported).2
  | asks settled reported puts later ih =>
    rw [ih, (turn_of_result reported).2]
    rfl

/-- The user is told every result in its turn. -/
theorem addressed_actions (h : Carried engine births final last dialogue turns asked) :
    addressed last.terminal.actions = addressed dialogue.terminal.actions ++
      (asked.flatMap fun r => [.markdown r.response, question]) ++ (conclude last.cost final).1 := by
  induction h with
  | concludes settled reported concluded left =>
    rw [left, settled.addressed_turn, said_of_result reported, (turn_of_result reported).2]
    simp
  | @asks _ _ result _ _ settled reported puts later ih =>
    rw [ih, settled.addressed_turn, said_of_result reported, conclude_question _ puts]
    simp

/-- Every input is filed in the first session, and every result names it. -/
theorem session {inputs : List String} (h : Carried engine births final last dialogue turns asked)
    (hw : dialogue.memory.Waits inputs) :
    (∃ s, last.memory.session = some s ∧
      s.Filed (inputs ++ turns.map (fun turn => Text.strip turn.2)) ∧ s.id = (births 1).1 ∧
      last.memory.born = 1) ∧ ∀ r ∈ asked ++ [final], r.sessionId = (births 1).1 := by
  induction h generalizing inputs with
  | @concludes dialogue text settled reported concluded left =>
    rw [report_eq_take] at reported
    rw [left, memory_turn, report_eq_take]
    exact ⟨engine.filed_take settled.lawful hw _,
      List.forall_mem_singleton.mpr (engine.sessionId_take settled.lawful hw reported)⟩
  | @asks dialogue text result turns asked settled reported puts later ih =>
    rw [report_eq_take] at reported
    have hnext := engine.waits_take settled.lawful hw reported puts
    rw [← report_eq_take, ← memory_turn] at hnext
    obtain ⟨hsession, hids⟩ := ih hnext
    rw [List.append_assoc] at hsession
    exact ⟨hsession,
      List.forall_mem_cons.mpr ⟨engine.sessionId_take settled.lawful hw reported, hids⟩⟩

/-- Everything published was delivered, and the dispatcher has stopped. -/
theorem delivered (h : Carried engine births final last dialogue turns asked) (ha : dialogue.Abreast) :
    last.terminal.emitter.delivered.map (·.update) = last.memory.history ∧
      last.terminal.emitter.isIdle = true ∧ last.terminal.emitter.dispatching = false := by
  induction h with
  | @concludes dialogue text settled reported concluded left =>
    obtain ⟨hattends, hdrained⟩ := settled.attends_followed engine text
    have hhistory := settled.history_followed ha engine text
    have hidle : (dialogue.followed engine births text).emitter.isIdle = true := by
      simp [Emitter.isIdle, hdrained, hattends.free]
    have hcomplete := hattends.complete
    rw [hdrained, List.append_nil, hhistory] at hcomplete
    rw [left, memory_turn, settled.emitter_of_concluded reported concluded, Emitter.stop, if_pos hidle]
    exact ⟨hcomplete, hidle, rfl⟩
  | @asks dialogue text _ _ _ settled reported puts later ih =>
    refine ih ?_
    obtain ⟨-, -, -, hterminal⟩ := turn_of_asks engine births dialogue text (turn_of_question reported puts)
    unfold Abreast
    rw [hterminal, memory_turn]
    exact settled.history_followed ha engine text

end Carried

/-! ### Answers -/

/-- The answers that count: an empty one is asked for again. -/
def given (answers : List String) : List String := answers.filter (!·.isEmpty)

omit [Interpreter] in
theorem given_of_unanswered {answers : List String} (h : answers.dropWhile (·.isEmpty) = []) :
    given answers = [] := by
  rw [List.dropWhile_eq_nil_iff] at h
  exact List.filter_eq_nil_iff.mpr fun answer ha => by simp [h answer ha]

omit [Interpreter] in
theorem given_of_answered {answers rest : List String} {answer : String}
    (h : answers.dropWhile (·.isEmpty) = answer :: rest) : given answers = answer :: given rest := by
  induction answers with
  | nil => contradiction
  | cons first answers ih =>
    cases he : first.isEmpty with
    | true =>
      rw [List.dropWhile_cons_of_pos he] at h
      rw [given, List.filter_cons_of_neg (by simp [he])]
      exact ih h
    | false =>
      rw [List.dropWhile_cons_of_neg (by simp [he])] at h
      obtain ⟨rfl, rfl⟩ := List.cons.inj h
      rw [given, List.filter_cons_of_pos (by simp [he])]
      rfl

section Questions

variable (engine : Engine ρ κ) (births : Births)

/-- How many turns of a dialogue put questions. -/
def questions (dialogue : Dialogue ρ) (text : String) (answers : List String) : Nat :=
  (dialogue.turns engine births text answers).countP fun turn =>
    (turn.1.report engine births turn.2).asks

variable {engine births} {dialogue next : Dialogue ρ} {text : String} {answers : List String}

theorem questions_of_ends {ending : Ending}
    (h : dialogue.turn engine births text = (next, .ends ending)) (answers : List String) :
    dialogue.questions engine births text answers = 0 := by
  have hn : (dialogue.report engine births text).asks = false := by
    unfold TurnReport.asks
    split
    · next result hr =>
      refine Bool.eq_false_iff.mpr fun hq => ?_
      have hv := turn_of_question hr (beq_iff_eq.mp hq)
      rw [h] at hv
      contradiction
    · rfl
  rw [questions, (carryOn_of_ends h answers).2, List.countP_singleton, hn, if_neg Bool.false_ne_true]

theorem asks_of_turn (h : (dialogue.turn engine births text).2 = .asks) :
    (dialogue.report engine births text).asks = true := by
  obtain ⟨result, hr, hq, -⟩ := turn_of_asks engine births dialogue text h
  unfold TurnReport.asks
  rw [hr]
  exact beq_iff_eq.mpr hq

theorem questions_of_unanswered (h : dialogue.turn engine births text = (next, .asks))
    (ha : answers.dropWhile (·.isEmpty) = []) : dialogue.questions engine births text answers = 1 := by
  rw [questions, (carryOn_of_unanswered h ha).2, List.countP_singleton,
    asks_of_turn (congrArg Prod.snd h), if_pos rfl]

theorem questions_of_answered {answer : String} {rest : List String}
    (h : dialogue.turn engine births text = (next, .asks))
    (ha : answers.dropWhile (·.isEmpty) = answer :: rest) :
    dialogue.questions engine births text answers = next.questions engine births answer rest + 1 := by
  rw [questions, (carryOn_of_answered h ha).2, List.countP_cons, asks_of_turn (congrArg Prod.snd h),
    if_pos rfl, questions]

end Questions

/-! ### A whole dialogue -/

section Supplying

variable {engine : Engine (List Reply) Request} {endpoint : Endpoint} {births : Births}
  {dialogue : Dialogue (List Reply)}

theorem Settled.supplied (h : dialogue.Settled births) (hp : engine.provider = endpoint.provider)
    (text : String) :
    let report := dialogue.report engine births text
    report.memory.replies <:+ dialogue.memory.replies ∧
      (∀ r, report.result = .ok r → r.outcome = .clarification →
        report.memory.replies.length < dialogue.memory.replies.length) ∧
      (Calm dialogue.memory.replies → ∃ r, report.result = .ok r) := by
  intro report
  have hlive : Token.live ≠ .absent := nofun
  have hr : report = _ := report_eq_take engine births dialogue text
  rw [hr]
  exact Engine.supplied_take hp h.lawful.consistent_held hlive

/-- A question has used up a reply. -/
theorem Settled.length_of_asks (h : dialogue.Settled births) (hp : engine.provider = endpoint.provider)
    {text : String} {next : Dialogue (List Reply)}
    (ht : dialogue.turn engine births text = (next, .asks)) :
    next.memory.replies.length < dialogue.memory.replies.length := by
  obtain ⟨result, hr, hq, -⟩ := turn_of_asks engine births dialogue text (congrArg Prod.snd ht)
  have hlt := (h.supplied hp text).2.1 result hr hq
  rwa [← memory_turn, ht] at hlt

/-- There are at most as many questions as replies. -/
theorem Settled.questions_le (h : dialogue.Settled births) (hp : engine.provider = endpoint.provider)
    (text : String) (answers : List String) :
    dialogue.questions engine births text answers ≤ dialogue.memory.replies.length := by
  induction dialogue, text, answers using carryOn.induct engine births with
  | case1 dialogue text answers next ending ht =>
    rw [questions_of_ends ht]
    exact Nat.zero_le _
  | case2 dialogue text answers next ht ha =>
    rw [questions_of_unanswered ht ha]
    exact Nat.lt_of_le_of_lt (Nat.zero_le _) (h.length_of_asks hp ht)
  | case3 dialogue text answers next ht answer rest ha ih =>
    have hnext := h.turn (congrArg Prod.snd ht)
    rw [ht] at hnext
    rw [questions_of_answered ht ha]
    exact Nat.lt_of_le_of_lt (ih hnext) (h.length_of_asks hp ht)

/-- With an answer for every question, a dialogue in which nothing is interrupted from outside is carried
to its end. -/
theorem Settled.exists_carried (hp : engine.provider = endpoint.provider) (text : String)
    (answers : List String) (h : dialogue.Settled births) (hcalm : Calm dialogue.memory.replies)
    (hlong : dialogue.questions engine births text answers ≤ (given answers).length) :
    ∃ asked final, Carried engine births final (dialogue.carryOn engine births text answers).1 dialogue
        (dialogue.turns engine births text answers) asked ∧
      (dialogue.carryOn engine births text answers).2.TellsOf final.outcome ∧
      (dialogue.turns engine births text answers).map (·.2) =
        text :: (given answers).take asked.length := by
  induction dialogue, text, answers using carryOn.induct engine births with
  | case1 dialogue text answers next ending ht =>
    obtain ⟨result, hr⟩ := (h.supplied hp text).2.2 hcalm
    have hq : result.outcome ≠ .clarification := by
      intro hq
      have hv := turn_of_question hr hq
      rw [ht] at hv
      contradiction
    obtain ⟨ending', hends, htells⟩ := conclude_ends (dialogue.cost + result.cost) hq
    rw [← (turn_of_result hr).1, ht] at hends
    obtain rfl := Verdict.ends.inj hends
    obtain ⟨hc, hturns⟩ := carryOn_of_ends ht answers
    rw [hc, hturns]
    exact ⟨[], result, .concludes h hr hq (congrArg Prod.fst ht).symm, htells, rfl⟩
  | case2 dialogue text answers next ht ha =>
    rw [questions_of_unanswered ht ha, given_of_unanswered ha] at hlong
    contradiction
  | case3 dialogue text answers next ht answer rest ha ih =>
    obtain ⟨result, hr, hq, -⟩ := turn_of_asks engine births dialogue text (congrArg Prod.snd ht)
    have hnext := h.turn (congrArg Prod.snd ht)
    have hleft := (h.supplied hp text).1
    rw [← memory_turn] at hleft
    rw [questions_of_answered ht ha, given_of_answered ha, List.length_cons] at hlong
    rw [ht] at hnext hleft
    obtain ⟨asked, final, hcarried, htells, hinputs⟩ :=
      ih hnext (hcalm.of_suffix hleft) (Nat.le_of_succ_le_succ hlong)
    obtain ⟨hc, hturns⟩ := carryOn_of_answered ht ha
    rw [hc, hturns, given_of_answered ha]
    refine ⟨result :: asked, final, .asks h hr hq ?_, htells, ?_⟩
    · rwa [ht]
    · rw [List.map_cons, hinputs, List.length_cons, List.take_succ_cons]

end Supplying

/-- The costs of some results, added up in their order. -/
def totalCost (results : List TurnResult) : Float := results.foldl (fun cost r => cost + r.cost) 0

/-- A dialogue has carried one session from the task to its end: it put some questions, and then came to a
result that is none. -/
structure CarriedOut (engine : Engine ρ κ) (births : Births) (start : Dialogue ρ) (task : String)
    (answers : List String) (asked : List TurnResult) (final : TurnResult) (last : Dialogue ρ)
    (ending : Ending) : Prop where
  /-- Every turn has a result. -/
  results : (start.turns engine births task answers).map
    (fun turn => (turn.1.report engine births turn.2).result) = (asked ++ [final]).map .ok
  questions : ∀ r ∈ asked, r.outcome = .clarification
  concluded : final.outcome ≠ .clarification
  /-- The task is submitted, and one answer for each question. -/
  inputs : (start.turns engine births task answers).map (·.2) =
    task :: (given answers).take asked.length
  /-- They are all filed in one session, the only one that was started. -/
  session : ∃ s, last.memory.session = some s ∧ last.memory.born = 1 ∧
    s.Filed ((task :: (given answers).take asked.length).map Text.strip) ∧
    ∀ r ∈ asked ++ [final], r.sessionId = s.id
  code : ending.TellsOf final.outcome
  prompts : last.terminal.actions.filter isAsk = List.replicate asked.length question
  /-- The user is told the questions and the last result, and nothing else. -/
  told : addressed last.terminal.actions = (asked.flatMap fun r => [.markdown r.response, question]) ++
    (conclude (totalCost (asked ++ [final])) final).1
  /-- The cost of all turns is told last. -/
  cost : final.outcome = .completed → (addressed last.terminal.actions).getLast? =
    some (costLine (totalCost (asked ++ [final])))
  delivered : last.terminal.emitter.delivered.map (·.update) = last.memory.history
  idle : last.terminal.emitter.isIdle = true
  stopped : last.terminal.emitter.dispatching = false

omit [Interpreter] in
/-- The user is prompted once for every question. -/
theorem filter_isAsk_told (asked : List TurnResult) (cost : Float) {final : TurnResult}
    (h : final.outcome ≠ .clarification) :
    ((asked.flatMap fun r => [.markdown r.response, question]) ++ (conclude cost final).1).filter isAsk =
      List.replicate asked.length question := by
  induction asked with
  | nil =>
    unfold conclude
    cases hq : final.outcome with
    | clarification => exact absurd hq h
    | cancelled | failed | completed => rfl
  | cons r asked ih =>
    rw [List.flatMap_cons, List.append_assoc, List.filter_append, ih]
    rfl

/-- On an endpoint whose replies are interrupted by nobody but the user, a dialogue puts at most as many
questions as there are replies; and with an answer for each of them, it carries one session to its end. -/
theorem carriedOut_carryOn {engine : Engine (List Reply) Request} {endpoint : Endpoint}
    (hp : engine.provider = endpoint.provider) (births : Births) (files : Files.Node)
    {replies : List Reply} (hcalm : Calm replies) (task : String) (answers : List String) :
    let start : Dialogue (List Reply) := { memory := .fresh files replies }
    let carried := start.carryOn engine births task answers
    start.questions engine births task answers ≤ replies.length ∧
      (start.questions engine births task answers ≤ (given answers).length →
        ∃ asked final,
          CarriedOut engine births start task answers asked final carried.1 carried.2) := by
  intro start carried
  have hs : start.Settled births := settled_fresh births files replies
  have hw : start.memory.Waits [] := .fresh rfl rfl rfl
  refine ⟨hs.questions_le hp task answers, fun hlong => ?_⟩
  obtain ⟨asked, final, hcarried, htells, hinputs⟩ := hs.exists_carried hp task answers hcalm hlong
  obtain ⟨⟨s, hsession, hfiled, hid, hborn⟩, hids⟩ := hcarried.session hw
  obtain ⟨hdelivered, hidle, hstopped⟩ := hcarried.delivered rfl
  have htold : addressed carried.1.terminal.actions =
      (asked.flatMap fun r => [.markdown r.response, question]) ++
        (conclude (totalCost (asked ++ [final])) final).1 := by
    rw [hcarried.addressed_actions, hcarried.cost]
    rfl
  refine ⟨asked, final, hcarried.results, hcarried.questions, hcarried.concluded, hinputs,
    ⟨s, hsession, hborn, ?_, ?_⟩, htells, ?_, htold, fun hdone => ?_, hdelivered, hidle, hstopped⟩
  · rw [← hinputs, List.map_map]
    exact hfiled
  · rw [hid]
    exact hids
  · rw [← filter_isAsk_addressed, htold]
    exact filter_isAsk_told asked _ hcarried.concluded
  · have hconclude : ∀ cost, (conclude cost final).1 = [.markdown final.response] ++ [costLine cost] := by
      intro cost
      unfold conclude
      rw [hdone]
      rfl
    rw [htold, hconclude, ← List.append_assoc, List.getLast?_concat]

end

/-- A dialogue that puts a question and is interrupted by the user in its second turn, with one answer more
than it takes. -/
theorem carriedOut_carryOn_interrupted :
    let engine := Engine.ofModel default {} [] .none true false
    let births : Births := fun n => (toString n, ⟨2025, 3, 1, 9, 30, 0, 0, some 0⟩)
    let replies : List Reply :=
      [.ofText "\x7b\"action\": \"clarify\", \"question\": \"Which one?\"\x7d", .silence]
    let start : Dialogue (List Reply) := { memory := .fresh (.directory []) replies }
    let answers := ["this", "", "that"]
    engine.provider = (Endpoint.open default {} []).provider ∧ Calm replies ∧
      start.questions engine births "task" answers ≤ (given answers).length ∧
      ∃ asked final, CarriedOut engine births start "task" answers asked final
        (start.carryOn engine births "task" answers).1
        (start.carryOn engine births "task" answers).2 := by
  intro engine births replies start answers
  have hp : engine.provider = (Endpoint.open default {} []).provider := rfl
  have hcalm : Calm replies := by
    intro reply hm failure hf
    rcases List.mem_pair.mp hm with rfl | rfl
    · obtain ⟨part, hpart, ha⟩ := hf
      rw [List.mem_singleton.mp hpart] at ha
      contradiction
    · exact hf.elim
  obtain ⟨hle, hcarried⟩ := carriedOut_carryOn hp births (.directory []) hcalm "task" answers
  have hlong : start.questions engine births "task" answers ≤ (given answers).length :=
    hle.trans (by decide : replies.length ≤ (given answers).length)
  exact ⟨hp, hcalm, hlong, hcarried hlong⟩

end Dialogue
end PlanAssistant
