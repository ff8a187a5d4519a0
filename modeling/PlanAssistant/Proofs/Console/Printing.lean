import Mathlib.Data.List.SplitBy
import PlanAssistant.Console.Terminal
import PlanAssistant.Proofs.Engine.ToolSnapshots

/-!
What the printer makes of snapshots.  Snapshots that follow one another with the same id and the same
status make a run, and for each run a label is printed, and under the label of a run in which the steps
of a plan are run, the records it has in the end.  The printer, which sees one snapshot at a time and
remembers two things, prints just these lines, as long as records only grow.
-/
namespace PlanAssistant

/-- What tells the snapshots of two runs apart. -/
def Session.key (s : Session) : String × Status := (s.id, s.status)

theorem Session.isExecuting_of_key {s t : Session} (h : s.key = t.key) :
    s.isExecuting = t.isExecuting := by
  unfold isExecuting
  rw [(Prod.mk.inj h).2]

namespace Printer

/-! ### Runs of snapshots -/

/-- The runs of snapshots with the same id and the same status. -/
def runs (sessions : List Session) : List (List Session) :=
  sessions.splitBy fun s t => s.key == t.key

/-- What is printed for a run. -/
def runLines (run : List Session) : List Action :=
  match run.getLast? with
  | none => []
  | some s => statusLine s.status :: if s.isExecuting then s.records.map stepLine else []

/-- What is printed for all runs. -/
def progressLines (sessions : List Session) : List Action := (runs sessions).flatMap runLines

theorem runLines_concat (run : List Session) (s : Session) :
    runLines (run ++ [s]) =
      statusLine s.status :: if s.isExecuting then s.records.map stepLine else [] := by
  rw [runLines, List.getLast?_concat]

/-- Where the key changes, a new run begins. -/
theorem progressLines_append {a b : List Session}
    (h : ∀ s ∈ a.getLast?, ∀ t ∈ b.head?, s.key ≠ t.key) :
    progressLines (a ++ b) = progressLines a ++ progressLines b := by
  unfold progressLines runs
  rw [List.splitBy_append, List.flatMap_append]
  intro s hs t ht
  exact beq_false_of_ne (h s hs t ht)

/-- Snapshots that all have the same key are one run. -/
theorem progressLines_of_isChain {run : List Session} (hn : run ≠ [])
    (h : run.IsChain fun s t => s.key = t.key) : progressLines run = runLines run := by
  unfold progressLines runs
  rw [List.splitBy_of_isChain hn (h.imp fun _ _ he => beq_iff_eq.mpr he), List.flatMap_singleton]

theorem progressLines_singleton (s : Session) : progressLines [s] = runLines [s] :=
  progressLines_of_isChain (List.cons_ne_nil _ _) (.singleton s)

/-- A snapshot with the key of the one before belongs to its run. -/
theorem runs_concat {sessions : List Session} {s t : Session} (hl : sessions.getLast? = some t)
    (hk : t.key = s.key) :
    ∃ front run, runs sessions = front ++ [run ++ [t]] ∧
      runs (sessions ++ [s]) = front ++ [run ++ [t] ++ [s]] := by
  have hn : sessions ≠ [] := by
    rintro rfl
    contradiction
  obtain ⟨front, last, hr⟩ : ∃ front last, runs sessions = front ++ [last] :=
    ⟨_, _, (List.dropLast_append_getLast (List.splitBy_ne_nil.mpr hn)).symm⟩
  obtain ⟨hflat, hne, hchain, hparts⟩ := List.splitBy_eq_iff.mp hr
  have hlast : last ≠ [] := by
    rintro rfl
    simp at hne
  obtain ⟨run, x, rfl⟩ : ∃ run x, last = run ++ [x] :=
    ⟨_, _, (List.dropLast_append_getLast hlast).symm⟩
  -- The runs join to all snapshots, so the last run ends in the last snapshot.
  have hx : x = t := by
    rw [hflat, List.flatten_append, List.flatten_singleton, ← List.append_assoc,
      List.getLast?_concat] at hl
    exact Option.some.inj hl
  subst hx
  refine ⟨front, run, hr, List.splitBy_eq_iff.mpr ⟨?_, ?_, ?_, ?_⟩⟩
  · rw [hflat]
    simp
  · simpa using fun h => hne (List.mem_append_left _ h)
  · intro m hm
    rcases List.mem_append.mp hm with hm | hm
    · exact hchain m (List.mem_append_left _ hm)
    · rw [List.mem_singleton.mp hm]
      refine (hchain _ (by simp)).append (.singleton s) ?_
      intro a ha b hb
      rw [List.getLast?_concat] at ha
      obtain rfl := Option.mem_some.mp ha
      obtain rfl := Option.mem_some.mp hb
      exact beq_iff_eq.mpr hk
  · rw [List.isChain_append] at hparts ⊢
    refine ⟨hparts.1, .singleton _, fun a ha b hb => ?_⟩
    obtain ⟨h1, h2, h3⟩ := hparts.2.2 a ha (run ++ [x]) rfl
    obtain rfl := Option.mem_some.mp hb
    refine ⟨h1, by simp, ?_⟩
    rwa [List.head_append_of_ne_nil]

/-! ### One snapshot after the other -/

/-- The steps of a plan are run at most once among some snapshots, and their records only grow. -/
inductive Staged : List Session → Prop
  | nil : Staged []
  | concat {sessions : List Session} {s : Session} (earlier : Staged sessions)
      (grows : s.isExecuting = true → (∀ t ∈ sessions, t.isExecuting = false) ∨
        ∃ t, sessions.getLast? = some t ∧ t.key = s.key ∧ t.records <+: s.records) :
    Staged (sessions ++ [s])

namespace Staged

variable {sessions more : List Session} {s : Session}

theorem concat_iff : Staged (sessions ++ [s]) ↔ Staged sessions ∧
    (s.isExecuting = true → (∀ t ∈ sessions, t.isExecuting = false) ∨
      ∃ t, sessions.getLast? = some t ∧ t.key = s.key ∧ t.records <+: s.records) := by
  refine ⟨fun h => ?_, fun h => .concat h.1 h.2⟩
  generalize hl : sessions ++ [s] = all at h
  cases h with
  | nil => simp at hl
  | concat earlier grows =>
    obtain ⟨rfl, hs⟩ := List.append_inj' hl rfl
    obtain rfl := List.singleton_inj.mp hs
    exact ⟨earlier, grows⟩

/-- A beginning of staged snapshots is staged. -/
theorem of_append (h : Staged (sessions ++ more)) : Staged sessions := by
  induction more using List.reverseRecOn with
  | nil => rwa [List.append_nil] at h
  | append_singleton more s ih =>
    rw [← List.append_assoc] at h
    exact ih (concat_iff.mp h).1

/-- Snapshots during which no steps are run do no harm. -/
theorem append_idle (h : Staged sessions) (hm : ∀ s ∈ more, s.isExecuting = false) :
    Staged (sessions ++ more) := by
  induction more using List.reverseRecOn with
  | nil => rwa [List.append_nil]
  | append_singleton more s ih =>
    obtain ⟨hm, hs⟩ := List.forall_mem_append.mp hm
    rw [← List.append_assoc]
    refine .concat (ih hm) fun he => ?_
    rw [hs s (List.mem_singleton_self s)] at he
    contradiction

/-- The steps of a plan may be run once, with records that grow. -/
theorem append_showing (h : Staged sessions) (hi : ∀ s ∈ sessions, s.isExecuting = false)
    {passed : List (List StepRecord)} (hp : passed.Pairwise (· <+: ·)) (s : Session) :
    Staged (sessions ++ Engine.showing s passed) := by
  induction passed using List.reverseRecOn with
  | nil => exact (List.append_nil sessions).symm ▸ h
  | append_singleton passed records ih =>
    obtain ⟨hp, -, hr⟩ := List.pairwise_append.mp hp
    rw [Engine.showing, List.map_append, List.map_singleton, ← List.append_assoc]
    refine .concat (ih hp) fun _ => ?_
    cases hl : passed.getLast? with
    | none =>
      rw [List.getLast?_eq_none_iff.mp hl]
      exact .inl (by simpa [Engine.showing] using hi)
    | some before =>
      refine .inr ⟨{ s with status := .executingTools, records := before }, ?_, rfl, ?_⟩
      · rw [List.getLast?_append, List.getLast?_map, hl]
        rfl
      · exact hr before (List.mem_of_getLast? hl) records (List.mem_singleton_self _)

end Staged

/-- What the printer remembers of the snapshots it has seen. -/
structure Knows (sessions : List Session) (printer : Printer) : Prop where
  last : printer.last = sessions.getLast?.map Session.key
  idle : (∀ t ∈ sessions, t.isExecuting = false) → printer.stepsSeen = 0
  steps : ∀ t, sessions.getLast? = some t → t.isExecuting = true → printer.stepsSeen = t.records.length

theorem knows_nil : Knows [] {} := ⟨rfl, fun _ => rfl, fun _ h => nomatch h⟩

section Following

variable {sessions : List Session} {printer : Printer} {s t : Session}

/-- A snapshot with the key of the one before brings no label. -/
theorem showStatus_same (h : Knows sessions printer) (hl : sessions.getLast? = some t)
    (hk : t.key = s.key) : printer.showStatus s = (printer, []) := by
  have hp : printer.last = some (s.id, s.status) := by
    rw [h.last, hl, Option.map_some, hk]
    rfl
  unfold showStatus
  rw [hp, if_pos (beq_self_eq_true _)]

/-- Any other snapshot brings its label. -/
theorem showStatus_other (h : Knows sessions printer)
    (hk : ∀ t, sessions.getLast? = some t → t.key ≠ s.key) :
    (printer.showStatus s).2 = [statusLine s.status] ∧
      (printer.showStatus s).1.last = some s.key ∧
      (printer.stepsSeen = 0 → (printer.showStatus s).1.stepsSeen = 0) := by
  have hp : ¬ (printer.last == some (s.id, s.status)) = true := by
    rw [beq_iff_eq, h.last, Option.map_eq_some_iff]
    rintro ⟨t, hl, he⟩
    exact hk t hl he
  unfold showStatus
  rw [if_neg hp]
  refine ⟨rfl, rfl, fun h0 => ?_⟩
  dsimp only
  rw [h0, ite_self]

theorem showSteps_executing (h : s.isExecuting = true) :
    printer.showSteps s =
      ({ printer with stepsSeen := s.records.length },
        (s.records.drop printer.stepsSeen).map stepLine) := if_pos h

theorem showSteps_idle (h : s.isExecuting = false) : printer.showSteps s = (printer, []) :=
  if_neg (Bool.eq_false_iff.mp h)

theorem follow_eq (update : Update) :
    printer.follow update =
      (((printer.showStatus update.session).1.showSteps update.session).1,
        (printer.showStatus update.session).2 ++
          ((printer.showStatus update.session).1.showSteps update.session).2) := rfl

theorem knows_concat_idle (hl : printer.last = some s.key)
    (h0 : (∀ t ∈ sessions, t.isExecuting = false) → printer.stepsSeen = 0)
    (hs : s.isExecuting = false) : Knows (sessions ++ [s]) printer where
  last := by rw [List.getLast?_concat, hl, Option.map_some]
  idle := fun hi => h0 fun t ht => hi t (List.mem_append_left _ ht)
  steps := by
    intro t ht he
    rw [List.getLast?_concat] at ht
    rw [← Option.some.inj ht, hs] at he
    contradiction

theorem knows_concat_executing (hl : printer.last = some s.key)
    (hn : printer.stepsSeen = s.records.length) (hs : s.isExecuting = true) :
    Knows (sessions ++ [s]) printer where
  last := by rw [List.getLast?_concat, hl, Option.map_some]
  idle := by
    intro hi
    rw [hi s (by simp)] at hs
    contradiction
  steps := by
    intro t ht _
    rw [List.getLast?_concat] at ht
    rw [← Option.some.inj ht, hn]

/-- A snapshot that carries a run on brings the records that are new. -/
theorem follow_same {update : Update} (h : Knows sessions printer) (hl : sessions.getLast? = some t)
    (hk : t.key = update.session.key)
    (hr : update.session.isExecuting = true → t.records <+: update.session.records) :
    Knows (sessions ++ [update.session]) (printer.follow update).1 ∧
      progressLines (sessions ++ [update.session]) =
        progressLines sessions ++ (printer.follow update).2 := by
  have hlast : printer.last = some update.session.key := by rw [h.last, hl, Option.map_some, hk]
  have hstatus : t.status = update.session.status := (Prod.mk.inj hk).2
  obtain ⟨front, run, hfront, hruns⟩ := runs_concat hl hk
  rw [follow_eq, showStatus_same h hl hk]
  unfold progressLines
  rw [hfront, hruns, List.flatMap_append, List.flatMap_append, List.flatMap_singleton,
    List.flatMap_singleton, runLines_concat, runLines_concat, Session.isExecuting_of_key hk, hstatus]
  cases he : update.session.isExecuting with
  | false =>
    rw [showSteps_idle he]
    exact ⟨knows_concat_idle hlast h.idle he, by simp⟩
  | true =>
    have hseen := h.steps t hl ((Session.isExecuting_of_key hk).trans he)
    obtain ⟨more, hmore⟩ := hr he
    rw [showSteps_executing he]
    refine ⟨knows_concat_executing hlast rfl he, ?_⟩
    rw [hseen, ← hmore, List.drop_left]
    simp

/-- A snapshot that begins a run brings its label, and all its records. -/
theorem follow_other {update : Update} (h : Knows sessions printer)
    (hk : ∀ t, sessions.getLast? = some t → t.key ≠ update.session.key)
    (hi : update.session.isExecuting = true → ∀ t ∈ sessions, t.isExecuting = false) :
    Knows (sessions ++ [update.session]) (printer.follow update).1 ∧
      progressLines (sessions ++ [update.session]) =
        progressLines sessions ++ (printer.follow update).2 := by
  obtain ⟨hlines, hlast, hseen⟩ := showStatus_other h hk
  have hnew : progressLines (sessions ++ [update.session]) =
      progressLines sessions ++ runLines [update.session] := by
    rw [progressLines_append, progressLines_singleton]
    intro x hx y hy
    obtain rfl := Option.mem_some.mp hy
    exact hk x hx
  have hrun := runLines_concat [] update.session
  rw [List.nil_append] at hrun
  rw [follow_eq, hnew, hrun, hlines]
  cases he : update.session.isExecuting with
  | false =>
    rw [showSteps_idle he]
    exact ⟨knows_concat_idle hlast (fun hn => hseen (h.idle hn)) he, by simp⟩
  | true =>
    rw [showSteps_executing he, hseen (h.idle (hi he))]
    exact ⟨knows_concat_executing hlast rfl he, by simp⟩

/-- Each snapshot brings just the lines that are missing. -/
theorem follow_concat {update : Update} (h : Knows sessions printer)
    (hs : Staged (sessions ++ [update.session])) :
    Knows (sessions ++ [update.session]) (printer.follow update).1 ∧
      progressLines (sessions ++ [update.session]) =
        progressLines sessions ++ (printer.follow update).2 := by
  have hg := (Staged.concat_iff.mp hs).2
  by_cases hk : ∃ t, sessions.getLast? = some t ∧ t.key = update.session.key
  · obtain ⟨t, hl, hk⟩ := hk
    refine follow_same h hl hk fun he => ?_
    rcases hg he with hidle | ⟨x, hx, -, hr⟩
    · have ht := hidle t (List.mem_of_getLast? hl)
      rw [Session.isExecuting_of_key hk, he] at ht
      contradiction
    · rwa [Option.some.inj (hl.symm.trans hx)]
  · refine follow_other h (fun t hl he => hk ⟨t, hl, he⟩) fun he => ?_
    rcases hg he with hidle | ⟨x, hx, hxk, -⟩
    · exact hidle
    · exact absurd ⟨x, hx, hxk⟩ hk

end Following

end Printer

/-! ### Progress among what is shown -/

namespace Action

/-- What a line begins with that tells of the progress of a session. -/
def progressMarks : List String := ["[bold blue]▸", "  [green]✓", "  [red]✗"]

/-- Whether a line tells of the progress of a session. -/
def isProgress : Action → Bool
  | .print markup => progressMarks.any fun mark => mark.toList.isPrefixOf markup.toList
  | _ => false

/-- The lines that tell of the progress of a session. -/
def progressOf (actions : List Action) : List Action := actions.filter isProgress

theorem progressOf_append (a b : List Action) :
    progressOf (a ++ b) = progressOf a ++ progressOf b := List.filter_append ..

theorem progressOf_eq_nil {actions : List Action} (h : ∀ a ∈ actions, a.isProgress = false) :
    progressOf actions = [] :=
  List.filter_eq_nil_iff.mpr fun a ha => Bool.eq_false_iff.mp (h a ha)

theorem isProgress_print (mark : String) {head : String} (hm : mark ∈ progressMarks)
    (hp : mark.toList <+: head.toList) (rest : String) :
    (Action.print (head ++ rest)).isProgress = true := by
  refine List.any_eq_true.mpr ⟨mark, hm, List.isPrefixOf_iff_prefix.mpr ?_⟩
  rw [String.toList_append]
  exact hp.trans (List.prefix_append _ _)

theorem not_isProgress_print {head : String}
    (h : ∀ mark ∈ progressMarks, mark.toList.length ≤ head.toList.length ∧ ¬ mark.toList <+: head.toList)
    (rest : String) : (Action.print (head ++ rest)).isProgress = false := by
  refine List.any_eq_false.mpr fun mark hm hp => ?_
  obtain ⟨hl, hn⟩ := h mark hm
  rw [List.isPrefixOf_iff_prefix, String.toList_append] at hp
  exact hn (List.prefix_of_prefix_length_le hp (List.prefix_append _ _) hl)

theorem isProgress_statusLine (status : Status) : (Printer.statusLine status).isProgress = true :=
  isProgress_print "[bold blue]▸" (by decide) (by decide) _

theorem isProgress_stepLine (record : StepRecord) : (Printer.stepLine record).isProgress = true := by
  unfold Printer.stepLine
  dsimp only
  rw [String.append_assoc]
  split
  · exact isProgress_print "  [red]✗" (by decide) (by decide) _
  · exact isProgress_print "  [green]✓" (by decide) (by decide) _

/-- All that the printer prints tells of the progress. -/
theorem progressOf_follow (printer : Printer) (update : Update) :
    progressOf (printer.follow update).2 = (printer.follow update).2 := by
  refine List.filter_eq_self.mpr fun a ha => ?_
  rw [Printer.follow_eq] at ha
  rcases List.mem_append.mp ha with ha | ha
  · unfold Printer.showStatus at ha
    split at ha
    · contradiction
    · rw [List.mem_singleton.mp ha]
      exact isProgress_statusLine _
  · unfold Printer.showSteps at ha
    split at ha
    · obtain ⟨record, -, rfl⟩ := List.mem_map.mp ha
      exact isProgress_stepLine record
    · contradiction

end Action
end PlanAssistant
