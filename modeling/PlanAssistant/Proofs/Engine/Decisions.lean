import PlanAssistant.Model.Endpoint
import PlanAssistant.Proofs.Decision.Fences
import PlanAssistant.Proofs.Engine.Stages
import PlanAssistant.Proofs.Json.Limits

/-!
What becomes of the orchestrator's output.  A text that holds a well-formed decision is taken for that,
and any other text for a decision to go on: then the turn puts a question that is not blank, or it comes
to the planner.  The one exception are texts beyond the limits of the JSON reader.  These end the turn as
failed, with the session where it was.
-/
namespace PlanAssistant

namespace Decision

/-! ### Decisions in values -/

/-- The text that a record gives for a key. -/
def text? (key : String) (fields : List (String × Datum)) : Option String :=
  (Datum.lookup key fields).bind Datum.asText?

/-- A value is a well-formed decision: a record with one of the two actions, and with a question to ask
if it is the action to clarify. -/
inductive WrittenAs : Datum → Decision → Prop
  | clarify {fields : List (String × Datum)} {question : String}
      (action : Datum.lookup "action" fields = some (.text "clarify"))
      (asked : Datum.lookup "question" fields = some (.text question)) :
    WrittenAs (.record fields) (.clarify (Text.strip question) (text? "reasoning" fields))
  | proceed {fields : List (String × Datum)}
      (action : Datum.lookup "action" fields = some (.text "proceed")) :
    WrittenAs (.record fields)
      (.proceed ((text? "summary" fields).map Text.strip) (text? "reasoning" fields))

theorem text?_eq_some_iff {key text : String} {fields : List (String × Datum)} :
    text? key fields = some text ↔ Datum.lookup key fields = some (.text text) := by
  unfold text?
  cases Datum.lookup key fields with
  | none => simp
  | some value => cases value <;> simp [Datum.asText?]

theorem ofDatum?_eq_some_iff {value : Datum} {decision : Decision} :
    ofDatum? value = some decision ↔ WrittenAs value decision := by
  constructor
  · intro h
    cases value with
    | record fields =>
      unfold ofDatum? ofFields? at h
      dsimp only at h
      split at h
      · next ha =>
        obtain ⟨question, hq, rfl⟩ := Option.map_eq_some_iff.mp h
        exact .clarify (text?_eq_some_iff.mp ha) (text?_eq_some_iff.mp hq)
      · next ha =>
        obtain rfl := Option.some.inj h
        exact .proceed (text?_eq_some_iff.mp ha)
      · contradiction
    | _ => nomatch h
  · intro h
    cases h with
    | clarify action asked =>
      change ofFields? _ = _
      unfold ofFields?
      rw [action, asked]
      rfl
    | proceed action =>
      change ofFields? _ = _
      unfold ofFields?
      rw [action]
      rfl

/-! ### Decisions in texts -/

/-- What is left of a stripped text is not all blank. -/
theorem exists_not_isBlank {text : String} (h : Text.strip text ≠ "") :
    ∃ c ∈ (Text.strip text).toList, Text.isBlank c = false := by
  rw [Text.strip, Ne, String.ofList_eq_empty_iff] at h
  obtain ⟨c, rest, hc⟩ := List.exists_cons_of_ne_nil h
  rw [Text.strip, String.toList_ofList]
  exact ⟨c, by simp [hc], (Text.bare_stripWhile Text.isBlank text.toList).head c (by simp [hc])⟩

/-- Cleaning leaves a text alone that repeats a character, if it is neither a fence nor a blank. -/
theorem sanitize_replicate {c : Char} (hf : c ≠ '`') (hb : Text.isBlank c = false) (count : Nat) :
    sanitize (String.ofList (List.replicate count c)) = String.ofList (List.replicate count c) := by
  have hbare : Text.Bare Text.isBlank (List.replicate count c) :=
    ⟨by simp [List.head?_replicate, hb], by simp [List.getLast?_replicate, hb]⟩
  rw [sanitize_of_notMem (by simp [hf.symm]), Text.strip, String.toList_ofList,
    Text.stripWhile_of_bare hbare]

section

variable [Interpreter]

/-- The decision that a raw text stands for: the one written in it, or else to go on, with the cleaned
text as the summary. -/
inductive Stands (raw : String) : Decision → Prop
  | written {value : Datum} {decision : Decision} (decoded : Json.parse (sanitize raw) = .ok value)
      (written : WrittenAs value decision) : Stands raw decision
  | unwritten (nothing : ∀ value decision, Json.parse (sanitize raw) = .ok value →
      ¬ WrittenAs value decision) : Stands raw (.proceed (some (sanitize raw)) none)

/-- The fault of the JSON reader that a limit is met with. -/
def Limit.fault : Limit → Json.Error
  | tooManyDigits count => .tooManyDigits count
  | nestedTooDeep => .nestedTooDeep

/-- A raw text goes beyond a limit: the JSON reader breaks off, and what it breaks off for is there. -/
structure Beyond (raw : String) (limit : Limit) : Prop where
  unread : Json.parse (sanitize raw) = .error limit.fault
  cause : Json.Cause Interpreter.jsonDepth (sanitize raw).toList limit.fault

/-- A text has its decision, unless it goes beyond a limit. -/
theorem parse_stands_or_beyond (raw : String) :
    (∃ decision, parse raw = .ok decision ∧ Stands raw decision) ∨
      ∃ limit, parse raw = .error limit ∧ Beyond raw limit := by
  unfold parse
  dsimp only
  cases hp : Json.parse (sanitize raw) with
  | ok value =>
    refine .inl ⟨_, rfl, ?_⟩
    cases hd : ofDatum? value with
    | some decision => exact .written hp (ofDatum?_eq_some_iff.mp hd)
    | none =>
      refine .unwritten fun other decision ho hw => ?_
      obtain rfl := Except.ok.inj (hp.symm.trans ho)
      exact nomatch hd.symm.trans (ofDatum?_eq_some_iff.mpr hw)
  | error fault =>
    have hc := Json.cause_of_parse hp
    cases fault with
    | malformed => exact .inl ⟨_, rfl, .unwritten fun value decision h => nomatch hp.symm.trans h⟩
    | tooManyDigits count => exact .inr ⟨.tooManyDigits count, rfl, hp, hc⟩
    | nestedTooDeep => exact .inr ⟨.nestedTooDeep, rfl, hp, hc⟩

theorem stands_of_parse {raw : String} {decision : Decision} (h : parse raw = .ok decision) :
    Stands raw decision := by
  obtain ⟨other, ho, hs⟩ | ⟨limit, hl, -⟩ := parse_stands_or_beyond raw
  · rwa [Except.ok.inj (h.symm.trans ho)]
  · exact nomatch h.symm.trans hl

theorem beyond_of_parse {raw : String} {limit : Limit} (h : parse raw = .error limit) :
    Beyond raw limit := by
  obtain ⟨decision, hd, -⟩ | ⟨other, ho, hb⟩ := parse_stands_or_beyond raw
  · exact nomatch h.symm.trans hd
  · rwa [Except.error.inj (h.symm.trans ho)]

theorem Stands.unique {raw : String} {a b : Decision} (ha : Stands raw a) (hb : Stands raw b) : a = b := by
  have hwritten : ∀ {value other : Datum} {a b : Decision}, Json.parse (sanitize raw) = .ok value →
      Json.parse (sanitize raw) = .ok other → WrittenAs value a → WrittenAs other b → a = b := by
    intro value other a b hv ho ha hb
    obtain rfl := Except.ok.inj (hv.symm.trans ho)
    exact Option.some.inj ((ofDatum?_eq_some_iff.mpr ha).symm.trans (ofDatum?_eq_some_iff.mpr hb))
  cases ha with
  | written decoded written =>
    cases hb with
    | written decoded' written' => exact hwritten decoded decoded' written written'
    | unwritten nothing => exact absurd written (nothing _ _ decoded)
  | unwritten nothing =>
    cases hb with
    | written decoded written => exact absurd written (nothing _ _ decoded)
    | unwritten => rfl

theorem parse_eq_error_iff {raw : String} {limit : Limit} :
    parse raw = .error limit ↔ Beyond raw limit := by
  refine ⟨beyond_of_parse, fun h => ?_⟩
  unfold parse
  dsimp only
  rw [h.unread]
  cases limit <;> rfl

/-- A text has the decision that it stands for, unless it is beyond a limit. -/
theorem parse_eq_ok_iff {raw : String} {decision : Decision} :
    parse raw = .ok decision ↔ Stands raw decision ∧ ∀ limit, ¬ Beyond raw limit := by
  constructor
  · refine fun h => ⟨stands_of_parse h, fun limit hb => ?_⟩
    exact nomatch h.symm.trans (parse_eq_error_iff.mpr hb)
  · rintro ⟨hs, hb⟩
    obtain ⟨other, ho, hs'⟩ | ⟨limit, -, hl⟩ := parse_stands_or_beyond raw
    · rwa [hs.unique hs']
    · exact absurd hl (hb limit)

/-- A question that is put is not blank. -/
theorem Stands.not_isBlank {raw : String} {decision : Decision} {question : String}
    (hs : Stands raw decision) (hq : decision.question? = some question) :
    ∃ c ∈ question.toList, Text.isBlank c = false := by
  cases hs with
  | unwritten => exact absurd hq (by simp [question?])
  | written decoded written =>
    cases written with
    | proceed => exact absurd hq (by simp [question?])
    | @clarify fields text action asked =>
      unfold question? at hq
      dsimp only at hq
      split at hq
      · exact nomatch hq
      · next hne =>
        obtain rfl := Option.some.inj hq
        exact exists_not_isBlank (by simpa using hne)

/-! ### Texts beyond the limits -/

theorem beyond_of_replicate {c : Char} (hf : c ≠ '`') (hb : Text.isBlank c = false) {count : Nat}
    {limit : Limit} (h : Json.parse (String.ofList (List.replicate count c)) = .error limit.fault) :
    Beyond (String.ofList (List.replicate count c)) limit := by
  rw [← sanitize_replicate hf hb] at h
  exact ⟨h, Json.cause_of_parse h⟩

theorem beyond_ones {count : Nat} (h : Json.digitLimit < count) :
    Beyond (Json.ones count) (.tooManyDigits count) :=
  beyond_of_replicate (by decide) (by decide) (Json.parse_ones h)

theorem beyond_brackets {count : Nat} (h : Interpreter.jsonDepth < count) :
    Beyond (Json.brackets count) .nestedTooDeep :=
  beyond_of_replicate (by decide) (by decide) (Json.parse_brackets h)

end

end Decision

namespace Engine

variable {ρ κ : Type} {engine : Engine ρ κ} {births : Births} {memory : Memory ρ}
  {submission : Submission ρ}

/-! ### Turns -/

section

variable [Interpreter]

/-- What a turn on a submission comes to when the orchestrator's output is a raw text. -/
inductive Orchestrated (engine : Engine ρ κ) (births : Births) (memory : Memory ρ)
    (submission : Submission ρ) (raw : String) : Prop
  /-- It puts a question that is not blank. -/
  | asks {decision : Decision} {question : String} {result : TurnResult}
      (parsed : Decision.parse raw = .ok decision)
      (asked : decision.question? = some question)
      (notBlank : ∃ c ∈ question.toList, Text.isBlank c = false)
      (ended : (engine.take births memory submission).result = .ok result)
      (outcome : result.outcome = .clarification)
      (pending : (engine.take births memory submission).memory.session.bind (·.pending) = some question)
  /-- It comes to the planner. -/
  | plans {decision : Decision} {planner : Turn ρ κ}
      (parsed : Decision.parse raw = .ok decision)
      (unasked : decision.question? = none)
      (starts : engine.Starts births memory submission .planner planner)
      (status : planner.session.status = .planning)
  /-- It fails, and the session is where it was. -/
  | fails {limit : Decision.Limit} {result : TurnResult}
      (unparsed : Decision.parse raw = .error limit)
      (ended : (engine.take births memory submission).result = .ok result)
      (outcome : result.outcome = .failed)
      (status : (engine.take births memory submission).memory.session.map (·.status) =
        some .orchestrating)

/-- A turn that takes a course with an output of the orchestrator. -/
theorem orchestrated_of_course {s : Session}
    (ho : (memory.found submission).Opens births (Text.strip submission.input.text) s)
    {ended : Except Stop (Outcome × String)} {last : Turn ρ κ}
    (hcourse : Course engine (opening (memory.found submission) submission.input s) ended last)
    (htake : engine.take births memory submission =
      ⟨result last ended, closeTurn (bornAfter memory) last, last.events⟩)
    (hs : s.status = .orchestrating) {output : StageOutput}
    (hasked : (engine.asked .orchestrator
      (opening (memory.found submission) submission.input s)).outcome = .ok output) :
    engine.Orchestrated births memory submission output.text := by
  -- all courses past the orchestrator come to the planner
  have hplans : ∀ {output' : StageOutput} {decision : Decision},
      (engine.asked .orchestrator (opening (memory.found submission) submission.input s)).outcome =
        .ok output' → Decision.parse output'.text = .ok decision → decision.question? = none →
      engine.Orchestrated births memory submission output.text := by
    intro output' decision asked parsed decided
    obtain rfl := Except.ok.inj (hasked.symm.trans asked)
    exact .plans parsed decided ⟨s, ho, .planner asked parsed decided⟩ rfl
  cases hcourse with
  | undecided asked => exact nomatch hasked.symm.trans asked
  | @unreadable output' limit asked parsed =>
    obtain rfl := Except.ok.inj (hasked.symm.trans asked)
    refine .fails parsed (by rw [htake]; rfl) rfl ?_
    rw [htake]
    exact congrArg some hs
  | @questioned output' decision question asked parsed decided =>
    obtain rfl := Except.ok.inj (hasked.symm.trans asked)
    have hblank := (Decision.stands_of_parse parsed).not_isBlank decided
    refine .asks parsed decided hblank (by rw [htake]; rfl) rfl ?_
    rw [htake]
    rfl
  | unplanned asked parsed decided => exact hplans asked parsed decided
  | unsolved asked parsed decided => exact hplans asked parsed decided
  | unkept asked parsed decided => exact hplans asked parsed decided
  | finished asked parsed decided => exact hplans asked parsed decided

/-- On a consistent session, every output of the orchestrator comes to one of the three. -/
theorem orchestrated_of_starts (hc : ∀ s, memory.session = some s → s.Consistent) {before : Turn ρ κ}
    (hs : engine.Starts births memory submission .orchestrator before) {output : StageOutput}
    (ho : (engine.asked .orchestrator before).outcome = .ok output) :
    engine.Orchestrated births memory submission output.text := by
  obtain ⟨s, hopens, hreaches⟩ := hs
  cases hreaches
  obtain ⟨s', ended, last, hopens', hcourse, htake⟩ := engine.take_course hc submission
  obtain rfl := hopens.unique hopens'
  exact orchestrated_of_course hopens hcourse htake (hopens.status_pending hc).1 ho

/-- A text has the decision it stands for unless it is beyond a limit of the reader; and after any inputs,
a turn with an output of the orchestrator puts a question that is not blank or comes to the planner, and
fails where it is only for an output beyond a limit. -/
theorem orchestrated_take (births : Births) (files : Files.Node) (replies : ρ)
    (submissions : List (Submission ρ)) {submission : Submission ρ} {before : Turn ρ κ}
    (hs : engine.Starts births (engine.after births (.fresh files replies) submissions) submission
      .orchestrator before)
    {output : StageOutput} (ho : (engine.asked .orchestrator before).outcome = .ok output) :
    (∀ raw decision, Decision.parse raw = .ok decision ↔
      Decision.Stands raw decision ∧ ∀ limit, ¬ Decision.Beyond raw limit) ∧
    (∀ raw limit, Decision.parse raw = .error limit ↔ Decision.Beyond raw limit) ∧
    engine.Orchestrated births (engine.after births (.fresh files replies) submissions) submission
      output.text := by
  refine ⟨fun _ _ => Decision.parse_eq_ok_iff, fun _ _ => Decision.parse_eq_error_iff, ?_⟩
  have hm := engine.lawful_after births files replies submissions
  exact orchestrated_of_starts (fun s h => (hm.held s h).1) hs ho

/-! ### Outputs made beforehand -/

/-- An engine that takes its outputs from a list. -/
def listed : Engine (List ReadyReply) Query where
  provider := readyProvider "listed"
  workspace := .none
  settings := {}
  watched := false
  showsReasoning := false

/-- A task, on which the orchestrator says a text and nothing more is answered. -/
def saying (text : String) : Submission (List ReadyReply) :=
  ⟨⟨"task", .absent, none⟩, .directory [], [.output [("text", .text text)]]⟩

/-- The ids and the times of creation of sessions. -/
def someBirths : Births := fun n => (toString n, ⟨2025, 3, 1, 9, 30, 0, 0, some 0⟩)

/-- The turn as it comes to the orchestrator. -/
def atOnce (text : String) : Turn (List ReadyReply) Query :=
  opening ((Memory.fresh (.directory []) []).found (saying text)) (saying text).input
    ((Session.start (someBirths 1).1 (someBirths 1).2 (Text.strip "task")).hear (Text.strip "task"))

theorem starts_saying (text : String) : listed.Starts someBirths (.fresh (.directory []) []) (saying text)
    .orchestrator (atOnce text) :=
  ⟨_, .started fun _ h => (nomatch h), .orchestrator⟩

theorem asked_saying (text : String) :
    (listed.asked .orchestrator (atOnce text)).outcome = .ok ⟨text, "", none, ""⟩ := rfl

/-- What the turn comes to in which the orchestrator says a text. -/
def reportOf (text : String) : TurnReport (List ReadyReply) Query :=
  listed.take someBirths (.fresh (.directory []) []) (saying text)

/-- The turn fails on a text that is not read. -/
theorem fails_saying {text : String} {limit : Decision.Limit} (h : Decision.parse text = .error limit) :
    (∃ result, (reportOf text).result = .ok result ∧ result.outcome = .failed) ∧
      (reportOf text).memory.session.map (·.status) = some .orchestrating := by
  have hfresh : ∀ s, (Memory.fresh (.directory []) [] : Memory (List ReadyReply)).session = some s →
      s.Consistent := fun _ h => (nomatch h)
  have ho : listed.Orchestrated someBirths (.fresh (.directory []) []) (saying text) text :=
    orchestrated_of_starts hfresh (starts_saying text) (asked_saying text)
  unfold reportOf
  cases ho with
  | asks parsed => exact nomatch parsed.symm.trans h
  | plans parsed => exact nomatch parsed.symm.trans h
  | fails _ ended outcome status => exact ⟨⟨_, ended, outcome⟩, status⟩

end

/-- A question with blanks around it, in a code fence. -/
def fencedQuestion : String :=
  "```json\n\x7b\"action\": \"clarify\", \"question\": \" Which file? \"\x7d\n```"

theorem orchestrated_take_saying_question :
    listed.Starts someBirths (listed.after someBirths (.fresh (.directory []) []) [])
        (saying fencedQuestion) .orchestrator (atOnce fencedQuestion) ∧
      (listed.asked .orchestrator (atOnce fencedQuestion)).outcome = .ok ⟨fencedQuestion, "", none, ""⟩ ∧
      (∀ raw decision, Decision.parse raw = .ok decision ↔
        Decision.Stands raw decision ∧ ∀ limit, ¬ Decision.Beyond raw limit) ∧
      (∀ raw limit, Decision.parse raw = .error limit ↔ Decision.Beyond raw limit) ∧
      listed.Orchestrated someBirths (listed.after someBirths (.fresh (.directory []) []) [])
        (saying fencedQuestion) fencedQuestion ∧
      Decision.parse fencedQuestion = .ok (.clarify "Which file?" none) ∧
      (reportOf fencedQuestion).result.toOption.map (·.outcome) = some .clarification ∧
      (reportOf fencedQuestion).memory.session.bind (·.pending) = some "Which file?" := by
  obtain ⟨hstands, hbeyond, horchestrated⟩ := orchestrated_take someBirths (.directory []) [] []
    (starts_saying fencedQuestion) (asked_saying fencedQuestion)
  exact ⟨starts_saying fencedQuestion, asked_saying fencedQuestion, hstands, hbeyond, horchestrated,
    by decide +kernel, by decide +kernel, by decide +kernel⟩

/-- A number with one digit too many. -/
def longNumber : String := Json.ones (Json.digitLimit + 1)

/-- A number with one digit too many is no decision: reading it breaks off, and the turn fails with the
session still orchestrating. -/
theorem not_orchestrated_saying_longNumber :
    (listed.asked .orchestrator (atOnce longNumber)).outcome = .ok ⟨longNumber, "", none, ""⟩ ∧
      Decision.parse longNumber = .error (.tooManyDigits 4301) ∧
      (∃ result, (reportOf longNumber).result = .ok result ∧ result.outcome = .failed) ∧
      (reportOf longNumber).memory.session.map (·.status) = some .orchestrating := by
  have hunparsed : Decision.parse longNumber = .error (.tooManyDigits (Json.digitLimit + 1)) :=
    Decision.parse_eq_error_iff.mpr (Decision.beyond_ones (Nat.lt_succ_self _))
  exact ⟨asked_saying longNumber, hunparsed, fails_saying hunparsed⟩

end Engine
end PlanAssistant
