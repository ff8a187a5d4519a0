import PlanAssistant.Proofs.Document.Storing
import PlanAssistant.Proofs.Engine.Decisions

/-!
What becomes of a finished plan.  Once the solver has answered, the document is made and kept, and nothing
else of the file system is touched.  Of a turn that completes the user is told truly where the document is,
or why it is nowhere.
-/
namespace PlanAssistant

open Files

/-! ### Answers -/

/-- An answer begins with the news of the plan and then has the line. -/
def Announces (response line : String) : Prop :=
  ∃ rest, response = "## Plan ready\n" ++ line ++ "\n\n### Clarifications\n" ++ rest

theorem announces_completion (s : Session) (saveFailed : Bool) :
    Announces (Document.completion s saveFailed) (Document.storageLine s.planPath saveFailed) := by
  unfold Announces Document.completion
  simp only [String.append_assoc]
  exact ⟨_, rfl⟩

theorem storageLine_some {name : String} (h : name.isEmpty = false) (saveFailed : Bool) :
    Document.storageLine (some name) saveFailed = "Plan saved to `" ++ name ++ "`." := by
  rw [Document.storageLine, Option.filter_some, if_pos (by rw [h]; rfl)]

/-! ### Sessions without a document -/

/-- The session that still takes input has no document. -/
def Memory.Undocumented {ρ : Type} (memory : Memory ρ) : Prop :=
  ∀ s, memory.session = some s → s.status.takesInput = true → s.planPath = none

theorem Session.planPath_taken (s : Session) (input : String) : (s.taken input).planPath = s.planPath := by
  unfold taken
  split <;> rfl

theorem Memory.Opens.planPath {ρ : Type} {births : Births} {memory : Memory ρ} {text : String}
    {s : Session} (h : memory.Opens births text s) (hm : memory.Undocumented) : s.planPath = none := by
  cases h with
  | resumed held takes =>
    rw [Session.planPath_taken]
    exact hm _ held takes
  | started => rfl

namespace Engine

variable {ρ κ : Type} {engine : Engine ρ κ} {turn before last : Turn ρ κ} {files : Node} {s : Session}
  {output : StageOutput} {ended : Except Stop (Outcome × String)}

/-! ### Keeping the document -/

section

variable [Interpreter]

/-- The documents of the engine go into its workspace. -/
def KeepsInWorkspace (engine : Engine ρ κ) : Prop :=
  engine.sink = Document.keep engine.workspace engine.settings.plansDir

theorem keepsInWorkspace_of_sink? (h : engine.sink? = none) : engine.KeepsInWorkspace := by
  rw [KeepsInWorkspace, sink, h, Option.getD_none]

theorem keeping?_eq_none_iff {document : String} (hd : Document.render s = .ok document) :
    engine.keeping? files s = none ↔ Document.BreaksDown (engine.sink files s document) := by
  unfold keeping? Document.BreaksDown
  rw [hd]
  dsimp only
  split
  · next hs => exact iff_of_false (Option.some_ne_none _) (by simp [hs])
  · next hs => exact iff_of_false (Option.some_ne_none _) (by simp [hs])
  · next error hne hs =>
    refine iff_of_true rfl ⟨error, by rw [hs], fun reason he => ?_⟩
    exact hne reason he

theorem exists_of_keeping? {after : Node} {planPath : Option String} {saveFailed : Bool}
    (h : engine.keeping? files s = some (after, planPath, saveFailed)) :
    ∃ document, Document.render s = .ok document ∧
      ((engine.sink files s document = (after, .ok planPath) ∧ saveFailed = false) ∨
        ∃ error, engine.sink files s document = (after, .error (.file error)) ∧
          planPath = s.planPath ∧ saveFailed = true) := by
  unfold keeping? at h
  split at h
  · contradiction
  next document hd =>
  refine ⟨document, hd, ?_⟩
  split at h
  · next hs =>
    cases h
    exact .inl ⟨hs, rfl⟩
  · next error hs =>
    cases h
    exact .inr ⟨error, hs, rfl, rfl⟩
  · contradiction

/-- How a turn ends after the answer of the solver. -/
inductive Settles (engine : Engine ρ κ) (solved : Turn ρ κ) :
    Except Stop (Outcome × String) → Turn ρ κ → Prop
  /-- The document cannot be made, or keeping it breaks down. -/
  | unkept (kept : engine.keeping? solved.files solved.session = none) :
    Settles engine solved (.error .failed)
      { solved with files := engine.filesAfter solved.files solved.session }
  /-- The session completes. -/
  | finished {files : Node} {planPath : Option String} {saveFailed : Bool}
      (kept : engine.keeping? solved.files solved.session = some (files, planPath, saveFailed)) :
    Settles engine solved
      (.ok (.completed,
        Document.completion { solved.session with status := .completed, planPath } saveFailed))
      (completed saveFailed (stored files planPath solved))

/-- A turn on which the solver answers settles then. -/
theorem Course.settles (hc : Course engine turn ended last) (hr : engine.Reaches turn .solver before)
    (ho : (engine.asked .solver before).outcome = .ok output) :
    engine.Settles (engine.solved output before) ended last := by
  cases hr with
  | solver asked parsed decided planned =>
    cases hc with
    | undecided | unreadable | questioned | unplanned => simp_all
    | unsolved asked' _ _ planned' solved =>
      obtain rfl := Except.ok.inj (asked.symm.trans asked')
      obtain rfl := Except.ok.inj (planned.symm.trans planned')
      exact nomatch ho.symm.trans solved
    | unkept asked' _ _ planned' solved reached kept =>
      obtain rfl := Except.ok.inj (asked.symm.trans asked')
      obtain rfl := Except.ok.inj (planned.symm.trans planned')
      obtain rfl := Except.ok.inj (ho.symm.trans solved)
      subst reached
      exact .unkept kept
    | finished asked' _ _ planned' solved reached kept =>
      obtain rfl := Except.ok.inj (asked.symm.trans asked')
      obtain rfl := Except.ok.inj (planned.symm.trans planned')
      obtain rfl := Except.ok.inj (ho.symm.trans solved)
      subst reached
      exact .finished kept

theorem files_waited (stage : Stage) (turn : Turn ρ κ) : (engine.waited stage turn).files = turn.files := rfl

/-- A turn leaves the files and the path of the document alone, unless it settles. -/
theorem Course.quiet_or_settles (hc : Course engine turn ended last) :
    (last.files = turn.files ∧ last.session.planPath = turn.session.planPath ∧
      ∀ response, ended ≠ .ok (.completed, response)) ∨
    ∃ before output, engine.Reaches turn .solver before ∧
      (engine.asked .solver before).outcome = .ok output ∧
      engine.Settles (engine.solved output before) ended last := by
  cases hc with
  | undecided | unreadable | questioned | unplanned =>
    exact .inl ⟨rfl, rfl, fun _ he => nomatch he⟩
  | unsolved asked parsed decided planned =>
    have hr := Reaches.solver asked parsed decided planned
    refine .inl ⟨?_, ?_, fun _ he => nomatch he⟩
    · rw [files_waited, hr.discreet.files]
    · rw [session_waited, session_atSolver]
      rfl
  | unkept asked parsed decided planned solved reached kept =>
    subst reached
    exact .inr ⟨_, _, .solver asked parsed decided planned, solved, .unkept kept⟩
  | finished asked parsed decided planned solved reached kept =>
    subst reached
    exact .inr ⟨_, _, .solver asked parsed decided planned, solved, .finished kept⟩

/-- The turn that settles is on the session the turn began with, in the same files. -/
theorem Reaches.solved_eq (hr : engine.Reaches turn .solver before)
    (hs : turn.session.status = .orchestrating) (output : StageOutput) :
    (engine.solved output before).files = turn.files ∧ ∃ plan records,
      (engine.solved output before).session = { turn.session with
        status := .solving, plan, records, summary := some output.text } := by
  obtain ⟨plan, records, he⟩ := hr.session_eq hs
  refine ⟨hr.discreet.files, plan, records, ?_⟩
  rw [session_solved, he]
  rfl

theorem Course.planPath (hc : Course engine turn ended last)
    (hs : turn.session.status = .orchestrating) (ht : last.session.status.takesInput = true) :
    last.session.planPath = turn.session.planPath := by
  obtain ⟨-, hp, -⟩ | ⟨before, output, hr, -, hsettles⟩ := hc.quiet_or_settles
  · exact hp
  · obtain ⟨-, plan, records, he⟩ := hr.solved_eq hs output
    cases hsettles with
    | unkept =>
      rw [he] at ht
      exact nomatch ht
    | finished => exact nomatch ht

theorem undocumented_after (engine : Engine ρ κ) (births : Births) (files : Node) (replies : ρ)
    (submissions : List (Submission ρ)) :
    (engine.after births (.fresh files replies) submissions).Undocumented := by
  induction submissions using List.reverseRecOn with
  | nil => exact fun _ h => nomatch h
  | append_singleton submissions submission ih =>
    have hc := fun s hs => ((engine.lawful_after births files replies submissions).held s hs).1
    obtain ⟨s, ended, last, ho, hcourse, he⟩ := engine.take_course hc submission
    rw [after_concat, he]
    rintro t ht htakes
    obtain rfl := Option.some.inj ht
    rw [hcourse.planPath (ho.status_pending hc).1 htakes]
    exact ho.planPath ih

/-! ### Telling where the document is -/

/-- Where a document can be in the end. -/
inductive Storage where
  | saved
  | unplaced
  | refused
deriving DecidableEq

/-- It is told where the document is, and it is there. -/
def Storage.Holds (engine : Engine ρ κ) (files after : Node) (s : Session) (response : String) :
    Storage → Prop
  | saved => ∃ path document, s.planPath = some path ∧
      Announces response ("Plan saved to `" ++ path ++ "`.") ∧ Document.render s = .ok document ∧
      readBytes after (.ofText path) = .ok document.toUTF8
  | unplaced => s.planPath = none ∧ engine.workspace.root = none ∧ after = files ∧
      Announces response "Plan saved in memory (workspace folder not detected)."
  | refused => s.planPath = none ∧
      Announces response "Plan saved in memory (could not write the plan file to the workspace)." ∧
      ∃ document error, Document.render s = .ok document ∧
        (engine.sink files s document).2 = .error (.file error)

theorem Storage.Holds.unique (hk : engine.KeepsInWorkspace) {after : Node} {response : String}
    {a b : Storage} (ha : a.Holds engine files after s response)
    (hb : b.Holds engine files after s response) : a = b := by
  -- without a workspace nothing is refused
  have hrefused : engine.workspace.root = none → ¬ Storage.refused.Holds engine files after s response := by
    rintro hr ⟨-, -, document, error, -, he⟩
    rw [hk, Document.keep, Document.path?, hr] at he
    contradiction
  cases a <;> cases b <;> first | rfl | skip
  case saved.unplaced | saved.refused =>
    obtain ⟨path, document, hp, -⟩ := ha
    exact absurd (hp.symm.trans hb.1) (Option.some_ne_none path)
  case unplaced.saved | refused.saved =>
    obtain ⟨path, document, hp, -⟩ := hb
    exact absurd (hp.symm.trans ha.1) (Option.some_ne_none path)
  case unplaced.refused => exact absurd hb (hrefused ha.2.1)
  case refused.unplaced => exact absurd ha (hrefused hb.2.1)

/-- What is told of a session whose document was kept, or could not be. -/
theorem exists_storage (hk : engine.KeepsInWorkspace) (hw : engine.workspace.Opened)
    (hp : s.planPath = none) {after : Node} {planPath : Option String} {saveFailed : Bool}
    (h : engine.keeping? files s = some (after, planPath, saveFailed)) :
    ∃ storage : Storage, storage.Holds engine files after { s with status := .completed, planPath }
      (Document.completion { s with status := .completed, planPath } saveFailed) := by
  obtain ⟨document, hd, ⟨hsink, rfl⟩ | ⟨error, hsink, rfl, rfl⟩⟩ := exists_of_keeping? h
  · have hkept := hsink
    rw [hk] at hkept
    have hannounces := announces_completion { s with status := .completed, planPath } false
    cases planPath with
    | none =>
      obtain ⟨hr, rfl⟩ := Document.unkept_keep hkept
      exact ⟨.unplaced, rfl, hr, rfl, hannounces⟩
    | some path =>
      obtain ⟨hne, hread⟩ := Document.kept_keep hw hkept
      dsimp only at hannounces
      rw [storageLine_some hne] at hannounces
      exact ⟨.saved, path, document, rfl, hannounces, hd, hread⟩
  · have hannounces := announces_completion { s with status := .completed, planPath := s.planPath } true
    refine ⟨.refused, hp, ?_, document, error, hd, ?_⟩
    · dsimp only at hannounces
      rwa [hp] at hannounces ⊢
    · rw [hk] at hsink ⊢
      exact congrArg Prod.snd hsink

/-- The document of a session cannot be encoded, and its file is left empty. -/
def Empties (engine : Engine ρ κ) (after : Node) (s : Session) (place : List String) : Prop :=
  ∃ document, Document.render s = .ok document ∧ Text.encode? document = none ∧
    after.at? place = some (.file .empty) ∧
    ∃ path ∈ Document.path? engine.workspace engine.settings.plansDir s, place? after path = some place

/-- When a turn settles, a file that was there is as it was, or is the one that holds the document, or the
turn failed and it is the one that could not hold it. -/
theorem Settles.file {solved : Turn ρ κ} (hsettles : engine.Settles solved ended last)
    (hk : engine.KeepsInWorkspace) (hw : engine.workspace.Opened) {place : List String}
    {content : ByteArray} (hf : solved.files.at? place = some (.file content)) :
    last.files.at? place = some (.file content) ∨
      (∃ path ∈ last.session.planPath, place? last.files (.ofText path) = some place) ∨
      (ended = .error .failed ∧ engine.Empties last.files last.session place) := by
  have hfile := fun document =>
    Document.file_keep hw engine.settings.plansDir solved.files solved.session document hf
  cases hsettles with
  | unkept kept =>
    change (engine.filesAfter solved.files solved.session).at? place = _ ∨ _ ∨
      (_ ∧ engine.Empties (engine.filesAfter solved.files solved.session) solved.session place)
    unfold filesAfter
    cases hd : Document.render solved.session with
    | error fault => exact .inl hf
    | ok document =>
      obtain ⟨error, he, -⟩ := (keeping?_eq_none_iff hd).mp kept
      rw [hk] at he ⊢
      obtain hsame | ⟨path, hpath, -⟩ | ⟨-, hempties⟩ := hfile document
      · exact .inl hsame
      · exact nomatch he.symm.trans hpath
      · exact .inr (.inr ⟨rfl, document, hd, hempties⟩)
  | finished kept =>
    obtain ⟨document, -, hkept⟩ := exists_of_keeping? kept
    rw [hk] at hkept
    have hfile := hfile document
    obtain ⟨hsink, -⟩ | ⟨error, hsink, -⟩ := hkept
    all_goals
      rw [hsink] at hfile
      obtain hsame | ⟨path, hpath, hplace⟩ | ⟨hunencodable, -⟩ := hfile
    · exact .inl hsame
    · exact .inr (.inl ⟨path, Except.ok.inj hpath, hplace⟩)
    · exact nomatch hunencodable
    · exact .inl hsame
    · exact nomatch hpath
    · exact nomatch hunencodable

omit [Interpreter] in
theorem eq_of_result_completed {result : TurnResult} (h : Engine.result last ended = .ok result)
    (hc : result.outcome = .completed) : ended = .ok (.completed, result.response) := by
  cases ended with
  | ok pair =>
    obtain rfl := Except.ok.inj h
    obtain ⟨outcome, response⟩ := pair
    dsimp only at hc
    rw [hc]
  | error stop =>
    cases stop with
    | cancelled | failed =>
      obtain rfl := Except.ok.inj h
      exact nomatch hc
    | escaped escape => exact nomatch h

/-- After a turn on some files the user was told truly where the document is, in one way only if the turn
completed; and a file that was there is as it was, or is the one that holds the document.  Only of a turn
that failed it may be one that was to hold a document that cannot be encoded. -/
structure TellsTruly (engine : Engine ρ κ) (files : Node) (report : TurnReport ρ κ) (s : Session) :
    Prop where
  held : report.memory.session = some s
  storage : ∀ result, report.result = .ok result → result.outcome = .completed →
    ∃! storage : Storage, storage.Holds engine files report.memory.files s result.response
  untouched : ∀ place content, files.at? place = some (.file content) →
    report.memory.files.at? place = some (.file content) ∨
      (∃ path ∈ s.planPath, place? report.memory.files (.ofText path) = some place) ∨
      ((∃ result, report.result = .ok result ∧ result.outcome = .failed) ∧
        engine.Empties report.memory.files s place)

theorem tellsTruly_course (hk : engine.KeepsInWorkspace) (hw : engine.workspace.Opened)
    (hcourse : Course engine turn ended last) (hs : turn.session.status = .orchestrating)
    (hp : turn.session.planPath = none) (born : Nat) :
    engine.TellsTruly turn.files ⟨result last ended, closeTurn born last, last.events⟩ last.session := by
  refine ⟨rfl, ?_, ?_⟩
  · intro result hresult hcompleted
    have hended := eq_of_result_completed hresult hcompleted
    obtain ⟨-, -, hne⟩ | ⟨before, output, hreaches, -, hsettles⟩ := hcourse.quiet_or_settles
    · exact absurd hended (hne _)
    obtain ⟨hfiles, plan, records, hsession⟩ := hreaches.solved_eq hs output
    have hplanPath : (engine.solved output before).session.planPath = none := by
      rw [hsession]
      exact hp
    cases hsettles with
    | unkept => exact nomatch hended
    | finished kept =>
      obtain ⟨-, hresponse⟩ := Prod.mk.inj (Except.ok.inj hended)
      rw [hfiles] at kept
      obtain ⟨storage, hholds⟩ := exists_storage hk hw hplanPath kept
      rw [← hresponse]
      exact ⟨storage, hholds, fun other hother => hother.unique hk hholds⟩
  · intro place content hf
    obtain ⟨hfiles, -, -⟩ | ⟨before, output, hreaches, -, hsettles⟩ := hcourse.quiet_or_settles
    · refine .inl ?_
      change last.files.at? place = _
      rw [hfiles]
      exact hf
    · obtain ⟨hfiles, -⟩ := hreaches.solved_eq hs output
      obtain hsame | hpath | ⟨rfl, hempties⟩ := hsettles.file hk hw (by rw [hfiles]; exact hf)
      · exact .inl hsame
      · exact .inr (.inl hpath)
      · exact .inr (.inr ⟨⟨_, rfl, rfl⟩, hempties⟩)

/-- After any inputs, the turn on one more tells truly where its document is. -/
theorem tellsTruly_take (hk : engine.KeepsInWorkspace) (hw : engine.workspace.Opened) (births : Births)
    (files : Node) (replies : ρ) (submissions : List (Submission ρ)) (submission : Submission ρ) :
    ∃ s, engine.TellsTruly submission.files
      (engine.take births (engine.after births (.fresh files replies) submissions) submission) s := by
  have hm := engine.lawful_after births files replies submissions
  have hu := engine.undocumented_after births files replies submissions
  have hc := fun s hs => (hm.held s hs).1
  obtain ⟨s, ended, last, ho, hcourse, htake⟩ := engine.take_course hc submission
  rw [htake]
  exact ⟨_, tellsTruly_course hk hw hcourse (ho.status_pending hc).1 (ho.planPath hu) _⟩

end

/-! ### A workspace for plans -/

/-- An engine on outputs made beforehand, in a workspace with a directory for the plans. -/
def keeper (plansDir : String) : Engine (List ReadyReply) Query where
  provider := readyProvider "listed"
  workspace := ⟨some ⟨.root, ["ws"]⟩⟩
  settings := { plansDir }
  watched := false
  showsReasoning := false

/-- A task in an empty workspace, on which every stage answers. -/
def planning : Submission (List ReadyReply) where
  input := ⟨"task", .absent, none⟩
  files := .directory [("ws", .empty)]
  replies := [.output [("text", .text "")], .output [("text", .text "no steps")],
    .output [("text", .text "done")]]

theorem keepsInWorkspace_keeper (plansDir : String) : (keeper plansDir).KeepsInWorkspace :=
  keepsInWorkspace_of_sink? rfl

theorem opened_keeper (plansDir : String) : (keeper plansDir).workspace.Opened := by
  have h : (Workspace.open (.directory [("ws", .empty)]) ⟨.root, []⟩ "/ws").toOption =
      some ⟨some ⟨.root, ["ws"]⟩⟩ := by decide +kernel
  cases ho : Workspace.open (.directory [("ws", .empty)]) ⟨.root, []⟩ "/ws" with
  | error fault =>
    rw [ho] at h
    contradiction
  | ok workspace =>
    rw [ho] at h
    obtain rfl := Option.some.inj h
    exact ⟨_, _, _, fun _ hn => absurd hn List.not_mem_nil, ho⟩

theorem tellsTruly_take_planning :
    (keeper ".planmode/plans").KeepsInWorkspace ∧ (keeper ".planmode/plans").workspace.Opened ∧
      ((keeper ".planmode/plans").take someBirths (.fresh (.directory []) []) planning).result.toOption.map
        (·.outcome) = some .completed ∧
      ∃ s, (keeper ".planmode/plans").TellsTruly planning.files
        ((keeper ".planmode/plans").take someBirths
          ((keeper ".planmode/plans").after someBirths (.fresh (.directory []) []) []) planning) s :=
  have hk := keepsInWorkspace_keeper ".planmode/plans"
  have hw := opened_keeper ".planmode/plans"
  ⟨hk, hw, by decide +kernel, tellsTruly_take hk hw someBirths (.directory []) [] [] planning⟩

end Engine
end PlanAssistant
