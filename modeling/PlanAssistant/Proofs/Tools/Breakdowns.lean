import PlanAssistant.Proofs.Pattern.Faults
import PlanAssistant.Proofs.Tools.SearchOrder
import PlanAssistant.Tools.Pass

/-!
Which arguments a tool has no result for.  Listing and reading always have one, and so has a search, with
one exception: a pattern that breaks off the reading of patterns.  What is merely no pattern is searched
for as it stands.
-/
namespace PlanAssistant.Tools

open Files Traversal

section Breakdowns

variable [Interpreter]

/-- A search breaks off: it could begin, but its pattern is not read, for a cause that is in it. -/
structure BreaksOff (workspace : Workspace) (tree : Node) (argument : String) (fault : Pattern.Fault) :
    Prop where
  named : (splitArgument argument).1 ≠ ""
  start : (searchStart? workspace tree argument).isSome = true
  unread : Pattern.read (splitArgument argument).1 = .error fault
  notMalformed : fault ≠ .malformed
  cause : Pattern.Cause Interpreter.patternDepth (splitArgument argument).1.toList fault

theorem Query.ofText_eq_error_iff {text : String} {fault : Pattern.Fault} :
    Query.ofText text = .error fault ↔ Pattern.read text = .error fault ∧ fault ≠ .malformed := by
  unfold Query.ofText
  split
  · next node hr => simp [hr]
  · next hr =>
    rw [hr]
    exact ⟨nofun, fun h => absurd (Except.error.inj h.1).symm h.2⟩
  · next other hne hr =>
    rw [hr, Except.error.injEq, Except.error.injEq]
    exact ⟨fun h => ⟨h, h ▸ hne⟩, And.left⟩

section Search

variable {workspace : Workspace} {tree : Node} {argument : String}

theorem searchText_eq_error_iff {fault : Pattern.Fault} :
    searchText workspace tree argument = .error fault ↔ BreaksOff workspace tree argument fault := by
  constructor
  · intro h
    have hp : (splitArgument argument).1 ≠ "" := fun hp => by
      rw [searchText_of_empty hp] at h
      exact nomatch h
    cases hs : searchStart? workspace tree argument with
    | none =>
      rw [searchText_of_none hp hs] at h
      exact nomatch h
    | some start =>
      rw [searchText_of_some hp hs] at h
      have hq : Query.ofText (splitArgument argument).1 = .error fault := by
        cases hq : Query.ofText (splitArgument argument).1 with
        | ok query =>
          rw [hq] at h
          exact nomatch h
        | error other =>
          rw [hq] at h
          exact congrArg Except.error (Except.error.inj h)
      obtain ⟨hr, hn⟩ := Query.ofText_eq_error_iff.mp hq
      exact ⟨hp, by rw [hs]; rfl, hr, hn, Pattern.cause_of_read hr⟩
  · intro h
    obtain ⟨start, hs⟩ := Option.isSome_iff_exists.mp h.start
    rw [searchText_of_some h.named hs, Query.ofText_eq_error_iff.mpr ⟨h.unread, h.notMalformed⟩]
    rfl

/-- What a search for a text that is no pattern reports: the lines that hold it without regard to case, of
the same files. -/
def FindsFragment (workspace : Workspace) (tree : Node) (argument : String) (start : FilePath) : Prop :=
  let small := Text.lower (splitArgument argument).1
  let setting : Search.Setting := ⟨workspace, tree, .fragment small⟩
  (∀ line, setting.query.accepts line = Text.contains (Text.lower line) small) ∧
    ∃ order, IsBreadthFirst setting.entered start order ∧
      searchText workspace tree argument =
        .ok (.ofOutput (combined ((setting.reported order).map (·.text (workspace.root.getD start)))))

theorem findsFragment {start : FilePath} (hp : (splitArgument argument).1 ≠ "")
    (hs : searchStart? workspace tree argument = some start)
    (hm : Pattern.read (splitArgument argument).1 = .error .malformed) :
    FindsFragment workspace tree argument start := by
  have hq : Query.ofText (splitArgument argument).1 =
      .ok (.fragment (Text.lower (splitArgument argument).1)) := by
    rw [Query.ofText, hm]
  obtain ⟨order, ho⟩ := Search.exists_order
    ⟨workspace, tree, .fragment (Text.lower (splitArgument argument).1)⟩ start
  refine ⟨fun _ => rfl, order, ho, ?_⟩
  rw [searchText_of_some hp hs, hq, ← Search.found_run _ ho]
  rfl

end Search

/-- A tool has a result for every argument, but for a search whose pattern breaks off the reading; and a
search for a text that is no pattern finds it as a fragment. -/
theorem ofWorkspace_eq_error_iff (workspace : Workspace) (tree : Node) (tool : Tool) (argument : String) :
    (∀ fault, Performer.ofWorkspace workspace tree tool argument = .error fault ↔
      tool = .searchText ∧ BreaksOff workspace tree argument fault) ∧
    ∀ start, (splitArgument argument).1 ≠ "" → searchStart? workspace tree argument = some start →
      Pattern.read (splitArgument argument).1 = .error .malformed →
        FindsFragment workspace tree argument start := by
  refine ⟨fun fault => ?_, fun start hp hs hm => findsFragment hp hs hm⟩
  cases tool with
  | listFiles => exact ⟨nofun, fun h => nomatch h.1⟩
  | readFile => exact ⟨nofun, fun h => nomatch h.1⟩
  | searchText =>
    rw [Performer.ofWorkspace, searchText_eq_error_iff]
    exact ⟨fun h => ⟨rfl, h⟩, fun h => h.2⟩

end Breakdowns

theorem ofWorkspace_eq_error_iff_bracket :
    let workspace : Workspace := ⟨some (.ofText "/ws")⟩
    (splitArgument "two(").1 ≠ "" ∧
      searchStart? workspace loopedTree "two(" = some ⟨.root, ["ws"]⟩ ∧
      Pattern.read (splitArgument "two(").1 = .error .malformed ∧
      (∀ fault, Performer.ofWorkspace workspace loopedTree .searchText "two(" = .error fault ↔
        Tool.searchText = .searchText ∧ BreaksOff workspace loopedTree "two(" fault) ∧
      FindsFragment workspace loopedTree "two(" ⟨.root, ["ws"]⟩ := by
  intro workspace
  have hp : (splitArgument "two(").1 ≠ "" := by decide +kernel
  have hs : searchStart? workspace loopedTree "two(" = some ⟨.root, ["ws"]⟩ := by decide +kernel
  have hm : Pattern.read (splitArgument "two(").1 = .error .malformed := by rfl
  obtain ⟨herror, hfragment⟩ := ofWorkspace_eq_error_iff workspace loopedTree .searchText "two("
  exact ⟨hp, hs, hm, herror, hfragment _ hp hs hm⟩

/-- A count of ten digits breaks a search off, and is not found as a fragment. -/
theorem not_findsFragment_largeCount :
    let workspace : Workspace := ⟨some (.ofText "/ws")⟩
    searchStart? workspace loopedTree "a\x7b9999999999\x7d" = some ⟨.root, ["ws"]⟩ ∧
      Performer.ofWorkspace workspace loopedTree .searchText "a\x7b9999999999\x7d" =
        .error .countTooLarge ∧
      ¬ FindsFragment workspace loopedTree "a\x7b9999999999\x7d" ⟨.root, ["ws"]⟩ := by
  intro workspace
  have hp : (splitArgument "a\x7b9999999999\x7d").1 ≠ "" := by decide +kernel
  have hs : searchStart? workspace loopedTree "a\x7b9999999999\x7d" = some ⟨.root, ["ws"]⟩ := by
    decide +kernel
  have hq : Query.ofText (splitArgument "a\x7b9999999999\x7d").1 = .error .countTooLarge := by rfl
  have herror : searchText workspace loopedTree "a\x7b9999999999\x7d" = .error .countTooLarge := by
    rw [searchText_of_some hp hs, hq]
    rfl
  refine ⟨hs, herror, fun h => ?_⟩
  obtain ⟨-, order, -, hok⟩ := h
  exact nomatch herror.symm.trans hok

end PlanAssistant.Tools
