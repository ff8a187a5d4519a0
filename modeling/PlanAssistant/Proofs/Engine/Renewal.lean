import PlanAssistant.Proofs.Engine.Storage

/-!
New sessions in old engines.  A turn that starts a session goes as it would in an engine that remembers
nothing.  The two turns are alike: they differ in what was published and said before, and so in the numbers
of their snapshots.  Rules for the steps a turn is made of carry this through each part of a turn, where a
part may look at nothing in which turns that are alike differ.
-/
namespace PlanAssistant

open Files

variable {ρ κ α β : Type}

/-! ### Turns that are alike -/

/-- An event up to the number of a snapshot. -/
def Event.unnumbered : Event κ → Event κ
  | published update => published { update with sequence := 0 }
  | event => event

/-- One turn is like another, after some sessions were published earlier. -/
structure Turn.Alike (earlier : List Session) (old new : Turn ρ κ) : Prop where
  session : old.session = new.session
  files : old.files = new.files
  replies : old.replies = new.replies
  token : old.token = new.token
  interruptAt : old.interruptAt = new.interruptAt
  cost : old.cost = new.cost
  events : old.events.map Event.unnumbered = new.events.map Event.unnumbered
  history : old.history.map (·.session) = earlier ++ new.history.map (·.session)

namespace Turn.Alike

variable {earlier : List Session} {old new : Turn ρ κ}

theorem withSession (h : Alike earlier old new) (s : Session) :
    Alike earlier { old with session := s } { new with session := s } :=
  { h with session := rfl }

theorem withFiles (h : Alike earlier old new) (files : Node) :
    Alike earlier { old with files } { new with files } :=
  { h with files := rfl }

theorem append (h : Alike earlier old new) (more : List (Event κ)) :
    Alike earlier { old with events := old.events ++ more } { new with events := new.events ++ more } :=
  { h with events := by rw [List.map_append, List.map_append, h.events] }

theorem publish (h : Alike earlier old new) : Alike earlier old.publish new.publish :=
  { h with
    events := by
      change (old.events ++ [_]).map Event.unnumbered = (new.events ++ [_]).map Event.unnumbered
      rw [List.map_append, List.map_append, h.events, h.session]
      rfl
    history := by
      change (old.history ++ [_]).map Update.session = earlier ++ (new.history ++ [_]).map Update.session
      rw [List.map_append, List.map_append, h.history, List.append_assoc, h.session]
      rfl }

theorem publishWith (h : Alike earlier old new) (change : Session → Session) :
    Alike earlier (old.publishWith change) (new.publishWith change) := by
  unfold Turn.publishWith
  rw [h.session]
  exact (h.withSession _).publish

theorem publishRecords (h : Alike earlier old new) (reports : List (List StepRecord)) :
    Alike earlier (reports.foldl Turn.publishRecords old) (reports.foldl Turn.publishRecords new) := by
  induction reports generalizing old new with
  | nil => exact h
  | cons records reports ih => exact ih (h.publishWith _)

theorem respond (h : Alike earlier old new) (response : String) :
    Alike earlier (old.respond response) (new.respond response) :=
  { h with }

theorem note (h : Alike earlier old new) (stage : Stage) (completion : Completion ρ κ) :
    Alike earlier (old.note stage completion) (new.note stage completion) :=
  { (h.append _).append _ with
    replies := rfl
    token := rfl }

theorem account (h : Alike earlier old new) (showsReasoning : Bool) (stage : Stage)
    (output : StageOutput) :
    Alike earlier (old.account showsReasoning stage output) (new.account showsReasoning stage output) :=
  { h.append _ with
    cost := by
      unfold Turn.account
      rw [h.cost] }

/-- The numbers of snapshots are no reports. -/
theorem reportCount_unnumbered (turn : Turn ρ κ) :
    Turn.reportCount { turn with events := turn.events.map Event.unnumbered } = turn.reportCount := by
  unfold Turn.reportCount
  rw [List.countP_map]
  refine List.countP_congr fun event _ => ?_
  cases event <;> exact Iff.rfl

theorem reportCount (h : Alike earlier old new) : old.reportCount = new.reportCount := by
  rw [← reportCount_unnumbered old, ← reportCount_unnumbered new, h.events]
  rfl

theorem nextInterrupt (h : Alike earlier old new) : old.nextInterrupt = new.nextInterrupt := by
  unfold Turn.nextInterrupt
  rw [h.interruptAt, h.reportCount]

end Turn.Alike

/-! ### Steps that agree -/

/-- Two steps end in the same way on two turns, and leave turns that are alike. -/
structure AgreeAt (earlier : List Session) (old new : Turn ρ κ) (step step' : TurnM ρ κ α) : Prop where
  ended : (step.run.run old).1 = (step'.run.run new).1
  alike : (step.run.run old).2.Alike earlier (step'.run.run new).2

namespace AgreeAt

variable {earlier : List Session} {old new : Turn ρ κ}

theorem ends (h : old.Alike earlier new) (a : α) :
    AgreeAt earlier old new (pure a : TurnM ρ κ α) (pure a) := ⟨rfl, h⟩

theorem stops (h : old.Alike earlier new) (stop : Stop) :
    AgreeAt earlier old new (throw stop : TurnM ρ κ α) (throw stop) := ⟨rfl, h⟩

theorem sets {old' new' : Turn ρ κ} (h : old'.Alike earlier new') :
    AgreeAt earlier old new (set old' : TurnM ρ κ PUnit) (set new') := ⟨rfl, h⟩

theorem modifies {f f' : Turn ρ κ → Turn ρ κ} (h : (f old).Alike earlier (f' new)) :
    AgreeAt earlier old new (modify f : TurnM ρ κ PUnit) (modify f') := ⟨rfl, h⟩

/-- What follows a step agrees on all turns the step can leave. -/
theorem andThen {step step' : TurnM ρ κ α} {next next' : α → TurnM ρ κ β}
    (hs : AgreeAt earlier old new step step')
    (hn : ∀ a old new, old.Alike earlier new → AgreeAt earlier old new (next a) (next' a)) :
    AgreeAt earlier old new (step >>= next) (step' >>= next') := by
  obtain ⟨hended, halike⟩ := hs
  cases ho : step.run.run old with
  | mk ended left =>
    cases ho' : step'.run.run new with
    | mk ended' left' =>
      rw [ho, ho'] at hended halike
      obtain rfl : ended = ended' := hended
      cases ended with
      | error stop => exact ⟨by rw [run_bind, run_bind, ho, ho'], by rwa [run_bind, run_bind, ho, ho']⟩
      | ok a =>
        obtain ⟨hended, halike⟩ := hn a left left' halike
        exact ⟨by rwa [run_bind, run_bind, ho, ho'], by rwa [run_bind, run_bind, ho, ho']⟩

/-- What follows a look at the turn may depend on it. -/
theorem looks {next next' : Turn ρ κ → TurnM ρ κ α} (h : AgreeAt earlier old new (next old) (next' new)) :
    AgreeAt earlier old new (get >>= next) (get >>= next') := by
  obtain ⟨hended, halike⟩ := h
  exact ⟨by rwa [run_bind, run_bind], by rwa [run_bind, run_bind]⟩

end AgreeAt

namespace Engine

/-! ### Openings and results -/

theorem result_eq {earlier : List Session} {old new : Turn ρ κ} (h : old.Alike earlier new)
    (ended : Except Stop (Outcome × String)) : result old ended = result new ended := by
  unfold result
  rw [h.session, h.cost]

/-- An input that starts a session is taken as an engine takes it that remembers nothing. -/
theorem accept_fresh {births births' : Births} {memory : Memory ρ}
    (hleft : Session.goingOn? memory.session = none) (hb : births' 1 = births (memory.born + 1))
    (files : Node) (replies : ρ) (text : String) :
    accept births memory text = accept births' (.fresh files replies) text := by
  unfold accept Session.accept
  rw [hleft, show (Memory.fresh files replies).born + 1 = 1 from rfl, hb]
  rfl

theorem alike_opening (memory : Memory ρ) (input : TurnInput) (s : Session) :
    (opening memory input s : Turn ρ κ).Alike (memory.history.map (·.session))
      (opening (.fresh memory.files memory.replies) input s) :=
  Turn.Alike.publish ⟨rfl, rfl, rfl, rfl, rfl, rfl, rfl, (List.append_nil _).symm⟩

/-! ### The parts of a turn -/

section Parts

variable {earlier : List Session} {old new : Turn ρ κ}

theorem agree_change (h : old.Alike earlier new) (change : SessionM Unit) :
    AgreeAt earlier old new (Engine.change change : TurnM ρ κ Unit) (Engine.change change) := by
  unfold Engine.change
  refine .looks ?_
  dsimp only
  rw [h.session]
  generalize new.session.perform change = performed
  obtain ⟨done, s⟩ := performed
  refine .andThen (.sets (h.withSession s)) fun _ old new h => ?_
  cases done with
  | ok => exact .ends h ()
  | error move => exact .stops h _

theorem agree_moveOn (h : old.Alike earlier new) (target : Status) (more : Session → Session) :
    AgreeAt earlier old new (moveOn target more : TurnM ρ κ Unit) (moveOn target more) :=
  .andThen (agree_change h _) fun _ _ _ h => .modifies (h.publishWith more)

theorem agree_pause (h : old.Alike earlier new) (question : String) :
    AgreeAt earlier old new (pause question : TurnM ρ κ String) (pause question) := by
  unfold pause
  refine .andThen (agree_change h _) fun _ old new h =>
    .andThen (.modifies h.publish) fun _ old new h => .looks ?_
  dsimp only
  rw [h.session]
  exact .andThen (.modifies (h.respond _)) fun _ _ _ h => .ends h _

variable [Interpreter] (engine : Engine ρ κ)

theorem agree_runStage (h : old.Alike earlier new) (stage : Stage) (messages : List Message) :
    AgreeAt earlier old new (engine.runStage stage messages) (engine.runStage stage messages) := by
  unfold runStage
  refine .looks ?_
  dsimp only
  rw [h.token, h.replies, h.nextInterrupt]
  generalize engine.provider.run _ _ _ _ = completion
  refine .andThen (.sets ((h.append _).note stage completion)) fun _ old new h => ?_
  cases completion.outcome with
  | error error => exact .stops h _
  | ok output => exact .andThen (.modifies (h.account _ stage output)) fun _ _ _ h => .ends h output

theorem agree_orchestrate (h : old.Alike earlier new) :
    AgreeAt earlier old new engine.orchestrate engine.orchestrate := by
  unfold orchestrate
  refine .looks ?_
  rw [h.session]
  refine .andThen (engine.agree_runStage h _ _) fun output old new h => ?_
  cases Decision.parse output.text with
  | ok decision => exact .ends h decision
  | error limit => exact .stops h _

theorem agree_plan (h : old.Alike earlier new) : AgreeAt earlier old new engine.plan engine.plan := by
  unfold plan
  refine .andThen (agree_moveOn h _ _) fun _ old new h => .looks ?_
  rw [h.session]
  exact .andThen (engine.agree_runStage h _ _) fun output _ _ h => .modifies (h.publishWith _)

theorem agree_runTools (h : old.Alike earlier new) :
    AgreeAt earlier old new engine.runTools engine.runTools := by
  unfold runTools
  refine .andThen (agree_moveOn h _ _) fun _ old new h => .modifies ?_
  dsimp only
  rw [h.files, h.session]
  exact (h.publishRecords _).publishWith _

theorem agree_solve (h : old.Alike earlier new) : AgreeAt earlier old new engine.solve engine.solve := by
  unfold solve
  refine .andThen (agree_moveOn h _ _) fun _ old new h => .looks ?_
  dsimp only
  rw [h.session]
  refine .andThen (engine.agree_runStage h _ _) fun output old new h => .modifies ?_
  rw [h.session]
  exact h.withSession _

theorem agree_store (h : old.Alike earlier new) : AgreeAt earlier old new engine.store engine.store := by
  have hkeeping : engine.keeping? old.files old.session = engine.keeping? new.files new.session := by
    rw [h.files, h.session]
  have hafter : engine.filesAfter old.files old.session = engine.filesAfter new.files new.session := by
    rw [h.files, h.session]
  constructor <;> rw [run_store, run_store, hkeeping]
  · cases engine.keeping? new.files new.session <;> rfl
  · cases engine.keeping? new.files new.session with
    | none =>
      dsimp only
      rw [hafter]
      exact h.withFiles _
    | some kept =>
      obtain ⟨files, planPath, saveFailed⟩ := kept
      dsimp only [stored]
      rw [h.session]
      exact (h.withFiles files).withSession _

theorem agree_finish (h : old.Alike earlier new) :
    AgreeAt earlier old new engine.finish engine.finish := by
  unfold finish
  refine .andThen (engine.agree_store h) fun saveFailed old new h =>
    .andThen (agree_moveOn h _ _) fun _ old new h => .looks ?_
  dsimp only
  rw [h.session]
  exact .andThen (.modifies (h.respond _)) fun _ _ _ h => .ends h _

/-- Whatever the engine does in a turn, it does in a turn that is alike. -/
theorem agree_advance (h : old.Alike earlier new) :
    AgreeAt earlier old new engine.advance engine.advance := by
  unfold advance
  refine .andThen (engine.agree_orchestrate h) fun decision old new h => ?_
  cases decision.question? with
  | some question => exact .andThen (agree_pause h question) fun _ _ _ h => .ends h _
  | none =>
    exact .andThen (engine.agree_plan h) fun _ _ _ h => .andThen (engine.agree_runTools h) fun _ _ _ h =>
      .andThen (engine.agree_solve h) fun _ _ _ h => .andThen (engine.agree_finish h) fun _ _ _ h => .ends h _

end Parts

/-! ### New sessions -/

/-- A turn went as another one did, in an engine that had published some sessions before. -/
structure WentLike (earlier : List Session) (report other : TurnReport ρ κ) : Prop where
  result : report.result = other.result
  /-- The same calls were made with the same arguments, and the same was told on the way. -/
  events : report.events.map Event.unnumbered = other.events.map Event.unnumbered
  session : report.memory.session = other.memory.session
  files : report.memory.files = other.memory.files
  replies : report.memory.replies = other.memory.replies
  history : report.memory.history.map (·.session) =
    earlier ++ other.memory.history.map (·.session)

section

variable [Interpreter]

theorem wentLike_submit (engine : Engine ρ κ) {births births' : Births} (memory : Memory ρ)
    (hleft : Session.goingOn? memory.session = none) (hb : births' 1 = births (memory.born + 1))
    (input : TurnInput) :
    WentLike (memory.history.map (·.session)) (engine.submit births memory input)
      (engine.submit births' (.fresh memory.files memory.replies) input) := by
  have haccept := accept_fresh hleft hb memory.files memory.replies (Text.strip input.text)
  unfold submit
  dsimp only
  rw [haccept]
  cases accept births' (.fresh memory.files memory.replies) (Text.strip input.text) with
  | mk done s =>
    cases done with
    | error move => exact ⟨rfl, rfl, rfl, rfl, rfl, (List.append_nil _).symm⟩
    | ok =>
      have hagree := engine.agree_advance (alike_opening memory input s)
      have halike := hagree.alike
      refine ⟨?_, halike.events, congrArg some halike.session, halike.files, halike.replies,
        halike.history⟩
      exact (result_eq halike _).trans (congrArg (result _) hagree.ended)

/-- Whatever an engine remembers, if its session takes no more input it does on the next input what it would
do if it remembered nothing, given the same id and time of creation for the session that starts. -/
theorem wentLike_take (engine : Engine ρ κ) {births births' : Births} {memory : Memory ρ}
    (hleft : ∀ s, memory.session = some s →
      s.status ∈ [Status.planning, Status.executingTools, Status.solving, Status.completed])
    (hb : births' 1 = births (memory.born + 1)) (files : Node) (replies : ρ)
    (submission : Submission ρ) :
    WentLike (memory.history.map (·.session)) (engine.take births memory submission)
      (engine.take births' (.fresh files replies) submission) := by
  refine engine.wentLike_submit (memory.found submission) ?_ hb submission.input
  rw [Session.goingOn?, Option.filter_eq_none_iff]
  intro s hs
  exact (by decide : ∀ status ∈ [Status.planning, Status.executingTools, Status.solving,
    Status.completed], ¬ status.takesInput = true) _ (hleft s hs)

/-- What an engine remembers that has finished a plan. -/
def onceDone : Memory (List ReadyReply) :=
  (keeper ".planmode/plans").after someBirths (.fresh (.directory []) []) [planning]

end

/-- The same task once more. -/
theorem wentLike_take_planning :
    (∀ s, onceDone.session = some s →
      s.status ∈ [Status.planning, Status.executingTools, Status.solving, Status.completed]) ∧
    onceDone.born = 1 ∧
    WentLike (onceDone.history.map (·.session))
      ((keeper ".planmode/plans").take someBirths onceDone planning)
      ((keeper ".planmode/plans").take (fun n => someBirths (n + 1)) (.fresh (.directory []) []) planning) := by
  have hstatus : onceDone.session.map (·.status) = some .completed := by decide +kernel
  have hborn : onceDone.born = 1 := by decide +kernel
  have hleft : ∀ s, onceDone.session = some s →
      s.status ∈ [Status.planning, Status.executingTools, Status.solving, Status.completed] := by
    intro s hs
    rw [hs] at hstatus
    have hcompleted : s.status = .completed := Option.some.inj hstatus
    rw [hcompleted]
    decide
  exact ⟨hleft, hborn, wentLike_take _ hleft (by rw [hborn]) (.directory []) [] planning⟩

end Engine
end PlanAssistant
