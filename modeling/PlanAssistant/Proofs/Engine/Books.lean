import PlanAssistant.Proofs.Engine.Accounts

/-!
The books an engine keeps between and during its turns.  The chat holds the input of every turn, and after
it the response of a turn that put a question or completed; the last response is the last one in the chat.
A turn is charged for the outputs that its stages returned, one after the other from nothing on, however
it ends.
-/
namespace PlanAssistant

/-! ### What is written down of a turn -/

/-- What a turn tells the user, if it puts a question or completes. -/
def TurnReport.told? {ρ κ : Type} (report : TurnReport ρ κ) : Option String :=
  match report.result with
  | .ok result =>
    if result.outcome = .clarification ∨ result.outcome = .completed then some result.response else none
  | .error _ => none

/-- The messages about a turn in the chat: the input, and what the user is told. -/
def chatOf {ρ κ : Type} (submission : Submission ρ) (report : TurnReport ρ κ) : List Message :=
  ⟨.user, Text.strip submission.input.text⟩ :: report.told?.toList.map (⟨.assistant, ·⟩)

/-- The stage that an event is the answer of, with its output. -/
def Event.answer? {κ : Type} : Event κ → Option (Stage × StageOutput)
  | .answered stage output => some (stage, output)
  | _ => none

/-- The outputs among some events. -/
def answers {κ : Type} (events : List (Event κ)) : List (Stage × StageOutput) :=
  events.filterMap Event.answer?

/-- What outputs cost together, added up from the left. -/
def costOf (outputs : List StageOutput) : Float :=
  (outputs.filterMap (·.usage)).foldl (fun sum usage => sum + usage.cost) 0

theorem costOf_concat (outputs : List StageOutput) (output : StageOutput) :
    costOf (outputs ++ [output]) =
      match output.usage with
      | some usage => costOf outputs + usage.cost
      | none => costOf outputs := by
  cases h : output.usage <;> simp [costOf, h]

theorem answers_append {κ : Type} (a b : List (Event κ)) : answers (a ++ b) = answers a ++ answers b :=
  List.filterMap_append

theorem answers_map {κ α : Type} {form : α → Event κ} (h : ∀ a, (form a).answer? = none)
    (as : List α) : answers (as.map form) = [] := by
  unfold answers
  rw [List.filterMap_map, List.filterMap_eq_nil_iff]
  exact fun a _ => h a

/-- The last response is the last one in the chat. -/
def Memory.Recalls {ρ : Type} (memory : Memory ρ) : Prop :=
  memory.lastResponse = (Role.assistant.said memory.chat).getLast?.getD ""

namespace Engine

variable {ρ κ : Type}

/-! ### Apart from the stages -/

@[simp] theorem answers_publishWith (change : Session → Session) (turn : Turn ρ κ) :
    answers (turn.publishWith change).events = answers turn.events := by
  unfold Turn.publishWith Turn.publish
  dsimp only
  rw [answers_append]
  exact List.append_nil _

@[simp] theorem answers_respond (response : String) (turn : Turn ρ κ) :
    answers (turn.respond response).events = answers turn.events := rfl

@[simp] theorem answers_completed (saveFailed : Bool) (files : Files.Node) (planPath : Option String)
    (turn : Turn ρ κ) :
    answers (completed saveFailed (stored files planPath turn)).events = answers turn.events :=
  answers_publishWith ({ · with status := .completed }) (stored files planPath turn)

section Charges

variable {turn last : Turn ρ κ}

/-- The cost of a turn so far is that of the outputs so far. -/
def Charged (turn : Turn ρ κ) : Prop := turn.cost = costOf ((answers turn.events).map (·.2))

theorem Charged.publishWith (h : Charged turn) (change : Session → Session) :
    Charged (turn.publishWith change) := by
  rw [Charged, answers_publishWith]
  exact h

/-- A turn in which something was said to the user, or nothing. -/
def Says (turn last : Turn ρ κ) (response? : Option String) : Prop :=
  last.chat = turn.chat ++ response?.toList.map (⟨.assistant, ·⟩) ∧
    last.lastResponse = response?.getD turn.lastResponse

theorem says_nothing (hchat : last.chat = turn.chat) (hlast : last.lastResponse = turn.lastResponse) :
    Says turn last none := ⟨hchat.trans (List.append_nil _).symm, hlast⟩

theorem says_respond (hchat : last.chat = turn.chat) (response : String) :
    Says turn (last.respond response) (some response) := by
  refine ⟨?_, rfl⟩
  rw [← hchat]
  rfl

theorem result_cost {last : Turn ρ κ} {ended : Except Stop (Outcome × String)} {r : TurnResult}
    (h : result last ended = .ok r) : r.cost = last.cost := by
  cases ended with
  | ok pair =>
    obtain rfl := Except.ok.inj h
    rfl
  | error stop =>
    cases stop with
    | cancelled | failed =>
      obtain rfl := Except.ok.inj h
      rfl
    | escaped escape => nomatch h

end Charges

/-- What was told last is the last response. -/
theorem recalls_take {memory : Memory ρ} (hm : memory.Recalls) {report : TurnReport ρ κ}
    {submission : Submission ρ} (hchat : report.memory.chat = memory.chat ++ chatOf submission report)
    (hlast : report.memory.lastResponse = report.told?.getD memory.lastResponse) :
    report.memory.Recalls := by
  rw [Memory.Recalls, hlast, hchat, hm]
  cases h : report.told? <;> simp [chatOf, h, Role.said]

/-! ### The outputs of a turn -/

variable [Interpreter]

section Parts

variable (engine : Engine ρ κ)

/-- The outputs that the stages of a turn return, in order. -/
def outputs (turn : Turn ρ κ) : List (Stage × StageOutput) :=
  match (engine.asked .orchestrator turn).outcome with
  | .error _ => []
  | .ok output =>
    (.orchestrator, output) ::
      match (Decision.parse output.text).map (·.question?) with
      | .ok none =>
        (match (engine.asked .planner (engine.atPlanner output turn)).outcome with
        | .error _ => []
        | .ok plan =>
          (.planner, plan) ::
            match (engine.asked .solver (engine.atSolver plan (engine.atPlanner output turn))).outcome with
            | .error _ => []
            | .ok summary => [(.solver, summary)])
      | _ => []

@[simp] theorem answers_waited (stage : Stage) (turn : Turn ρ κ) :
    answers (engine.waited stage turn).events = answers turn.events := by
  have hspan : answers (engine.span stage turn) = [] := by
    unfold span
    rw [← List.singleton_append, answers_append, answers_append, answers_map fun _ => rfl,
      answers_map fun _ => rfl]
    rfl
  rw [events_waited, answers_append, hspan, List.append_nil]

@[simp] theorem answers_served (stage : Stage) (output : StageOutput) (turn : Turn ρ κ) :
    answers (engine.served stage output turn).events = answers turn.events ++ [(stage, output)] := by
  rw [← answers_waited engine stage turn]
  unfold served Turn.account
  dsimp only
  rw [answers_append]
  split <;> rfl

@[simp] theorem answers_tooled (turn : Turn ρ κ) :
    answers (engine.tooled turn).events = answers turn.events :=
  tooled_induct (P := fun t => answers t.events = answers turn.events)
    (fun change t h => (answers_publishWith change t).trans h) rfl

@[simp] theorem answers_atPlanner (output : StageOutput) (turn : Turn ρ κ) :
    answers (engine.atPlanner output turn).events = answers turn.events ++ [(.orchestrator, output)] := by
  unfold atPlanner
  rw [answers_publishWith, answers_served]

@[simp] theorem answers_atSolver (plan : StageOutput) (turn : Turn ρ κ) :
    answers (engine.atSolver plan turn).events = answers turn.events ++ [(.planner, plan)] := by
  unfold atSolver planned
  rw [answers_publishWith, answers_tooled, answers_publishWith, answers_served]

@[simp] theorem answers_solved (summary : StageOutput) (turn : Turn ρ κ) :
    answers (engine.solved summary turn).events = answers turn.events ++ [(.solver, summary)] :=
  answers_served engine .solver summary turn

/-- A stage is among those that return an output exactly when the turn comes to it and it does. -/
theorem mem_outputs_iff {turn : Turn ρ κ} {stage : Stage} {output : StageOutput} :
    (stage, output) ∈ engine.outputs turn ↔
      ∃ before, engine.Reaches turn stage before ∧ (engine.asked stage before).outcome = .ok output := by
  constructor
  · intro h
    unfold outputs at h
    split at h
    · exact absurd h List.not_mem_nil
    next first asked =>
    rcases List.mem_cons.mp h with he | h
    · obtain ⟨rfl, rfl⟩ := Prod.mk.inj he
      exact ⟨turn, .orchestrator, asked⟩
    split at h
    · next hd =>
      cases parsed : Decision.parse first.text with
      | error limit =>
        rw [parsed] at hd
        contradiction
      | ok decision =>
        rw [parsed] at hd
        have decided : decision.question? = none := Except.ok.inj hd
        split at h
        · exact absurd h List.not_mem_nil
        next plan planned =>
        rcases List.mem_cons.mp h with he | h
        · obtain ⟨rfl, rfl⟩ := Prod.mk.inj he
          exact ⟨_, .planner asked parsed decided, planned⟩
        split at h
        · exact absurd h List.not_mem_nil
        next summary solved =>
        obtain ⟨rfl, rfl⟩ := Prod.mk.inj (List.mem_singleton.mp h)
        exact ⟨_, .solver asked parsed decided planned, solved⟩
    · exact absurd h List.not_mem_nil
  · rintro ⟨before, hr, ho⟩
    unfold outputs
    cases hr with
    | orchestrator => simp [ho]
    | planner asked parsed decided => simp [asked, parsed, decided, ho, Except.map]
    | solver asked parsed decided planned => simp [asked, parsed, decided, planned, ho, Except.map]

theorem outputs_stages (turn : Turn ρ κ) :
    (engine.outputs turn).map (·.1) <+: [.orchestrator, .planner, .solver] := by
  unfold outputs
  split
  · exact List.nil_prefix
  · split
    · split
      · exact ⟨_, rfl⟩
      · split <;> exact ⟨_, rfl⟩
    · exact ⟨_, rfl⟩

end Parts

/-! ### The books of a course -/

section Courses

variable {engine : Engine ρ κ} {turn last before : Turn ρ κ} {stage : Stage}
  {ended : Except Stop (Outcome × String)}

/-- Whatever course a turn takes, its events tell of the outputs that its stages return. -/
theorem Course.answers_eq (h : Course engine turn ended last) (hn : answers turn.events = []) :
    answers last.events = engine.outputs turn := by
  unfold outputs
  cases h with
  | undecided asked => simp [hn, asked]
  | unreadable asked parsed => simp [hn, asked, parsed, Except.map]
  | questioned asked parsed decided => simp [hn, asked, parsed, decided, Except.map]
  | unplanned asked parsed decided planned => simp [hn, asked, parsed, decided, planned, Except.map]
  | unsolved asked parsed decided planned solved =>
    simp [hn, asked, parsed, decided, planned, solved, Except.map]
  | unkept asked parsed decided planned solved reached =>
    simp [hn, reached, asked, parsed, decided, planned, solved, Except.map]
  | finished asked parsed decided planned solved reached =>
    simp [hn, reached, asked, parsed, decided, planned, solved, Except.map]

theorem Charged.waited (h : Charged turn) (stage : Stage) : Charged (engine.waited stage turn) := by
  rw [Charged, answers_waited]
  exact h

theorem Charged.served (h : Charged turn) (stage : Stage) (output : StageOutput) :
    Charged (engine.served stage output turn) := by
  rw [Charged, answers_served, List.map_append, List.map_singleton, costOf_concat, ← h]
  unfold Engine.served Turn.account
  cases output.usage <;> rfl

/-- However a turn ends, it is charged for the outputs of its stages. -/
theorem Charged.of_course (h : Charged turn) (hc : Course engine turn ended last) : Charged last :=
  hc.induct (P := Charged) h (fun change _ ht => ht.publishWith change)
    (fun stage _ _ ht => ht.waited stage) (fun stage output _ _ ht => ht.served stage output)
    fun _ _ _ _ _ ht => ht

theorem discreet_waited (hd : turn.Discreet before) (stage : Stage) :
    turn.Discreet (engine.waited stage before) := ⟨hd.files, hd.chat, hd.lastResponse⟩

theorem discreet_solved (hd : turn.Discreet before) (summary : StageOutput) :
    turn.Discreet (engine.solved summary before) := ⟨hd.files, hd.chat, hd.lastResponse⟩

/-- A turn ends with a response to its question or its finished plan, or else without one. -/
theorem Course.says (h : Course engine turn ended last) (born : Nat) :
    Says turn last (TurnReport.told? ⟨result last ended, closeTurn born last, last.events⟩) := by
  -- Only the two courses that end with a result say something; before it they were as discreet as the rest.
  have hstop : ∀ stop, TurnReport.told?
      ⟨result last (.error stop), closeTurn born last, last.events⟩ = none := by
    intro stop
    cases stop <;> rfl
  cases h with
  | undecided | unreadable =>
    rw [hstop]
    exact says_nothing rfl rfl
  | questioned => exact says_respond rfl _
  | unplanned asked parsed decided =>
    rw [hstop]
    exact says_nothing rfl rfl
  | unsolved asked parsed decided planned =>
    have hd : turn.Discreet (engine.waited .solver _) :=
      discreet_waited (Reaches.solver asked parsed decided planned).discreet .solver
    rw [hstop]
    exact says_nothing hd.chat hd.lastResponse
  | @unkept _ _ summary _ last asked parsed decided planned _ reached =>
    have hd : turn.Discreet last := by
      rw [reached]
      exact discreet_solved (Reaches.solver asked parsed decided planned).discreet summary
    rw [hstop]
    exact says_nothing hd.chat hd.lastResponse
  | @finished _ _ summary _ last files planPath _ asked parsed decided planned _ reached =>
    have hd : turn.Discreet last := by
      rw [reached]
      exact discreet_solved (Reaches.solver asked parsed decided planned).discreet summary
    have hchat : ((stored files planPath last).publishWith ({ · with status := .completed })).chat =
        turn.chat := hd.chat
    exact says_respond hchat _

end Courses

/-! ### The books of an engine -/

section Books

variable (engine : Engine ρ κ) (births : Births)

/-- The reports of turns taken one after the other, each with what was submitted. -/
def reports (memory : Memory ρ) : List (Submission ρ) → List (Submission ρ × TurnReport ρ κ)
  | [] => []
  | submission :: later =>
    let report := engine.take births memory submission
    (submission, report) :: reports report.memory later

theorem reports_concat (memory : Memory ρ) (submissions : List (Submission ρ))
    (submission : Submission ρ) :
    engine.reports births memory (submissions ++ [submission]) =
      engine.reports births memory submissions ++
        [(submission, engine.take births (engine.after births memory submissions) submission)] := by
  induction submissions generalizing memory with
  | nil => rfl
  | cons first submissions ih =>
    rw [List.cons_append, reports, ih]
    rfl

/-- What a turn is charged for: each stage at most once, in their order, and exactly those that the turn
came to and that returned an output; the cost of its result is theirs. -/
structure ChargesFor (memory : Memory ρ) (submission : Submission ρ) (report : TurnReport ρ κ) : Prop where
  stages : (answers report.events).map (·.1) <+: [.orchestrator, .planner, .solver]
  outputs : ∀ stage output, (stage, output) ∈ answers report.events ↔
    ∃ before, engine.Starts births memory submission stage before ∧
      (engine.asked stage before).outcome = .ok output
  cost : ∀ result, report.result = .ok result →
    result.cost = costOf ((answers report.events).map (·.2))

/-- A turn enters its input and its response into the books, and is charged for its outputs. -/
theorem books_take {memory : Memory ρ} (hc : ∀ s, memory.session = some s → s.Consistent)
    (submission : Submission ρ) :
    let report := engine.take births memory submission
    report.memory.chat = memory.chat ++ chatOf submission report ∧
      report.memory.lastResponse = report.told?.getD memory.lastResponse ∧
      engine.ChargesFor births memory submission report := by
  intro report
  obtain ⟨s, ended, turn, ho, hcourse, he⟩ := engine.take_course hc submission
  have hr : report = _ := he
  obtain ⟨hchat, hlast⟩ := hcourse.says (bornAfter memory)
  have hanswers : answers turn.events =
      engine.outputs (opening (memory.found submission) submission.input s) :=
    hcourse.answers_eq rfl
  have hcharged : Charged turn := Charged.of_course (by rfl) hcourse
  rw [hr]
  refine ⟨?_, hlast, ?_, ?_, ?_⟩
  · refine hchat.trans ?_
    change (memory.chat ++ [_]) ++ _ = _
    rw [List.append_assoc]
    rfl
  · dsimp only
    rw [hanswers]
    exact engine.outputs_stages _
  · intro stage output
    dsimp only
    rw [hanswers, mem_outputs_iff]
    constructor
    · rintro ⟨before, hreach, hout⟩
      exact ⟨before, ⟨s, ho, hreach⟩, hout⟩
    · rintro ⟨before, ⟨s', ho', hreach⟩, hout⟩
      obtain rfl := ho.unique ho'
      exact ⟨before, hreach, hout⟩
  · exact fun r hres => (result_cost hres).trans hcharged

/-- After any turns, however they ended, the chat holds them one after the other and the last response is
the last one of them; and the next turn is charged for the outputs that its stages return. -/
theorem books_after (files : Files.Node) (replies : ρ) (submissions : List (Submission ρ)) :
    let memory := engine.after births (.fresh files replies) submissions
    memory.chat = (engine.reports births (.fresh files replies) submissions).flatMap
        (fun (submission, report) => chatOf submission report) ∧
      memory.Recalls ∧
      ∀ submission, engine.ChargesFor births memory submission (engine.take births memory submission) := by
  have hc : ∀ submissions, ∀ s,
      (engine.after births (.fresh files replies) submissions).session = some s → s.Consistent :=
    fun submissions s hs => ((engine.lawful_after births files replies submissions).held s hs).1
  refine ⟨?_, ?_, fun submission => (engine.books_take births (hc submissions) submission).2.2⟩
  · induction submissions using List.reverseRecOn with
    | nil => rfl
    | append_singleton submissions submission ih =>
      rw [after_concat, reports_concat, List.flatMap_append, ← ih,
        (engine.books_take births (hc submissions) submission).1, List.flatMap_singleton]
  · induction submissions using List.reverseRecOn with
    | nil => rfl
    | append_singleton submissions submission ih =>
      obtain ⟨hchat, hlast, -⟩ := engine.books_take births (hc submissions) submission
      rw [after_concat]
      exact recalls_take ih hchat hlast

end Books
end Engine
end PlanAssistant
