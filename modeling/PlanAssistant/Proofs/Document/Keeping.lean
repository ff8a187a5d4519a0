import PlanAssistant.Document.Writer
import PlanAssistant.Proofs.Files.Making
import PlanAssistant.Proofs.Files.Straight

/-!
Where plan documents are kept.  An attempt to keep one makes directories that beginnings of its path lead
to and writes the file the path leads to, and changes nothing else.  So it stays inside the workspace just
when these lie there, as they do when the path is straight and goes through the root.  Nothing sees to it
that they do: the directory for the plans may be any.
-/
namespace PlanAssistant.Document

open Files

variable {workspace : Workspace} {plansDir text : String} {before : Node} {path : FilePath} {s : Session}

section Keeping

variable [Interpreter]

/-! ### Attempts -/

/-- What an attempt to write a text to a path comes to. -/
inductive Attempted (path : FilePath) (text : String) (before : Node) : Written → Prop
  /-- It fails, with some directories made. -/
  | failed {after : Node} {error : WriteError} (made : MakesAlong path before after)
      (early : error ≠ .unencodable) : Attempted path text before (after, .error error)
  /-- The directories are made and the file is emptied, and then the text cannot be encoded. -/
  | emptied {middle after : Node} {place : List String} (made : MakesAlong path before middle)
      (writes : Writes place .empty middle after) (leads : place? after path = some place)
      (bare : Text.encode? text = none) : Attempted path text before (after, .error .unencodable)
  /-- The directories are made, and then the file is written. -/
  | written {middle after : Node} {place : List String} (made : MakesAlong path before middle)
      (writes : Writes place text.toUTF8 middle after) (leads : place? after path = some place)
      (encoded : Text.encode? text = some text.toUTF8) :
    Attempted path text before (after, .ok (some path.text))

/-- The attempt came to the file. -/
def Opens (written : Written) : Prop := ∀ error, written.2 = .error error → error = .unencodable

theorem attempted_writeText {middle : Node} (made : MakesAlong path before middle) (text : String) :
    Attempted path text before (writeText middle path text) := by
  unfold writeText
  split
  · exact .failed made WriteError.noConfusion
  next hw =>
  obtain ⟨place, hwrites, hleads⟩ := writes_writeBytes hw
  cases he : Text.encode? text with
  | none =>
    rw [he] at hwrites
    exact .emptied made hwrites hleads he
  | some content =>
    obtain rfl := Text.eq_of_encode? he
    rw [he] at hwrites
    exact .written made hwrites hleads he

theorem attempted_writeAt (before : Node) (path : FilePath) (text : String) :
    Attempted path text before (writeAt before path text) := by
  have hmade := (makesAlong_makeDirectories before path.parent).mono (List.dropLast_prefix path.names)
  unfold writeAt
  split
  · exact .failed (.refl path before) WriteError.noConfusion
  split
  · next error hm =>
    rw [hm] at hmade
    exact .failed hmade (by cases error <;> exact WriteError.noConfusion)
  · next hm =>
    rw [hm] at hmade
    split
    · exact .failed hmade WriteError.noConfusion
    · exact attempted_writeText hmade text

namespace Attempted

variable {written : Written}

theorem grows (h : Attempted path text before written) : Grows before written.1 := by
  cases h with
  | failed made => exact made.grows
  | emptied made writes | written made writes => exact made.grows.trans writes.grows

/-- What has changed is a directory that was made on the way, or the file the path leads to. -/
theorem changed (h : Attempted path text before written) {place : List String}
    (hne : written.1.mark? place ≠ before.mark? place) :
    (before.mark? place = none ∧ OnWay written.1 path place) ∨
      (Opens written ∧ place? written.1 path = some place) := by
  cases h with
  | failed made => exact .inl ⟨made.mark?_eq_none_of_ne hne, made.onWay hne⟩
  | @emptied middle after file made writes leads | @written middle after file made writes leads =>
    by_cases hp : place = file
    · subst hp
      exact .inr ⟨fun error he => by cases he <;> rfl, leads⟩
    · rw [writes.others place hp] at hne
      exact .inl ⟨made.mark?_eq_none_of_ne hne, writes.grows.onWay (made.onWay hne)⟩

/-- No link is made. -/
theorem link (h : Attempted path text before written) {place : List String} {target : String}
    (hl : written.1.mark? place = some (.link target)) : before.mark? place = some (.link target) := by
  cases h with
  | failed made => exact made.mark?_of_ne_directory hl (by simp)
  | @emptied middle after file made writes | @written middle after file made writes =>
    by_cases hp : place = file
    · subst hp
      rw [writes.held] at hl
      cases hl
    · rw [writes.others place hp] at hl
      exact made.mark?_of_ne_directory hl (by simp)

theorem straight (h : Attempted path text before written) {names : List String}
    (hs : Straight before names) : Straight written.1 names where
  plain := hs.plain
  unlinked := fun part hp target hl => hs.unlinked part hp target (h.link hl)

/-- An attempt that fails before it comes to the file writes none. -/
theorem file_of_error (h : Attempted path text before written) {error : WriteError}
    (he : written.2 = .error error) (hne : error ≠ .unencodable) {place : List String}
    {content : ByteArray} (hf : written.1.mark? place = some (.file content)) :
    before.mark? place = some (.file content) := by
  cases h with
  | failed made => exact made.mark?_of_ne_directory hf (by simp)
  | emptied => exact absurd (Except.error.inj he).symm hne
  | written => cases he

/-- An attempt that fails at the text leaves the file empty where the path leads, and writes no other. -/
theorem file_of_unencodable (h : Attempted path text before written)
    (he : written.2 = .error .unencodable) : Text.encode? text = none ∧
      ∃ place, place? written.1 path = some place ∧ written.1.mark? place = some (.file .empty) ∧
        ∀ other content, other ≠ place → written.1.mark? other = some (.file content) →
          before.mark? other = some (.file content) := by
  cases h with
  | failed made early => exact absurd (Except.error.inj he) early
  | @emptied middle after file made writes leads bare =>
    refine ⟨bare, file, leads, writes.held, fun other content ho hf => ?_⟩
    rw [writes.others other ho] at hf
    exact made.mark?_of_ne_directory hf (by simp)
  | written => cases he

/-- An attempt that succeeds leaves the text where the path leads. -/
theorem file_of_ok (h : Attempted path text before written) {name : Option String}
    (hk : written.2 = .ok name) : name = some path.text ∧ ∃ place,
      place? written.1 path = some place ∧ written.1.mark? place = some (.file text.toUTF8) := by
  cases h with
  | failed | emptied => cases hk
  | written _ writes leads => exact ⟨(Except.ok.inj hk).symm, _, leads, writes.held⟩

end Attempted

/-! ### Inside the workspace -/

/-- A place inside the root of the workspace. -/
def Within (workspace : Workspace) (tree : Node) (place : List String) : Prop :=
  ∃ root ∈ workspace.root, LiesIn tree root place

instance (workspace : Workspace) (tree : Node) (place : List String) :
    Decidable (Within workspace tree place) :=
  inferInstanceAs (Decidable (∃ root ∈ workspace.root, LiesIn tree root place))

/-- Keeping a document stays inside the workspace: nothing is done, or it fails with nothing written, or the
document is in a file inside, or an empty file is where a document that cannot be encoded would be; and
nothing outside has changed. -/
structure KeepsInside (workspace : Workspace) (plansDir : String) (before : Node) (s : Session)
    (text : String) (written : Written) : Prop where
  unkept : written.2 = .ok none → written.1 = before
  failed : ∀ error, written.2 = .error error → error ≠ .unencodable → ∀ place content,
    written.1.mark? place = some (.file content) → before.mark? place = some (.file content)
  emptied : written.2 = .error .unencodable → ∃ path ∈ path? workspace plansDir s,
    ∃ place ∈ place? written.1 path, Within workspace written.1 place ∧
      written.1.mark? place = some (.file .empty) ∧ ∀ other content, other ≠ place →
        written.1.mark? other = some (.file content) → before.mark? other = some (.file content)
  kept : ∀ name, written.2 = .ok (some name) → ∃ path ∈ path? workspace plansDir s, name = path.text ∧
    ∃ place ∈ place? written.1 path, Within workspace written.1 place ∧
      written.1.mark? place = some (.file text.toUTF8)
  outside : ∀ place, ¬ Within workspace written.1 place →
    written.1.mark? place = before.mark? place

/-- What a path leads to is inside if it is opened, and so is what its beginnings lead to that was not
there before. -/
structure LeadsInside (workspace : Workspace) (path : FilePath) (before : Node) (written : Written) :
    Prop where
  whole : Opens written → ∀ place ∈ place? written.1 path, Within workspace written.1 place
  parts : ∀ part, part <+: path.names → ∀ place ∈ place? written.1 ⟨path.anchor, part⟩,
    before.mark? place = none → Within workspace written.1 place

/-- A path through a root that is there, over no link and never upwards. -/
structure Sheltered (tree : Node) (root path : FilePath) : Prop where
  present : ∃ base, place? tree root = some base
  under : root.names <+: path.names
  straight : Straight tree path.names

/-- Without a workspace nothing is done, and else an attempt is made at the path. -/
theorem attempted_keep (workspace : Workspace) (plansDir : String) (before : Node) (s : Session)
    (text : String) :
    (workspace.root = none ∧ path? workspace plansDir s = none ∧
      keep workspace plansDir before s text = (before, .ok none)) ∨
    ∃ path, path? workspace plansDir s = some path ∧
      keep workspace plansDir before s text = writeAt before path text ∧
      Attempted path text before (keep workspace plansDir before s text) := by
  unfold keep
  cases hp : path? workspace plansDir s with
  | none => exact .inl ⟨Option.map_eq_none_iff.mp hp, rfl, rfl⟩
  | some path => exact .inr ⟨path, rfl, rfl, attempted_writeAt before path text⟩

theorem keepsInside_unkept (workspace : Workspace) (plansDir : String) (before : Node) (s : Session)
    (text : String) : KeepsInside workspace plansDir before s text (before, .ok none) where
  unkept := fun _ => rfl
  failed := fun _ he => nomatch he
  emptied := fun he => nomatch he
  kept := fun _ hk => nomatch hk
  outside := fun _ _ => rfl

theorem keepsInside_iff {written : Written} (hp : path? workspace plansDir s = some path)
    (ha : Attempted path text before written) :
    KeepsInside workspace plansDir before s text written ↔ LeadsInside workspace path before written := by
  refine ⟨fun hk => ⟨?_, ?_⟩, fun hl => ⟨?_, ?_, ?_, ?_, ?_⟩⟩
  · intro hopens place hplace
    have hin : ∃ path ∈ path? workspace plansDir s, ∃ place ∈ place? written.1 path,
        Within workspace written.1 place := by
      cases he : written.2 with
      | ok name =>
        obtain ⟨rfl, -⟩ := ha.file_of_ok he
        obtain ⟨path, hpath, -, place, hplace, hin, -⟩ := hk.kept _ he
        exact ⟨path, hpath, place, hplace, hin⟩
      | error error =>
        obtain rfl := hopens error he
        obtain ⟨path, hpath, place, hplace, hin, -⟩ := hk.emptied he
        exact ⟨path, hpath, place, hplace, hin⟩
    obtain ⟨path', hp', place', hplace', hin⟩ := hin
    obtain rfl := Option.some.inj (hp.symm.trans hp')
    obtain rfl := Option.some.inj (hplace.symm.trans hplace')
    exact hin
  · intro part _ place hplace hnew
    obtain ⟨node, hw⟩ := walk_of_place? hplace
    refine Classical.byContradiction fun hout => ?_
    have hnone := (hk.outside place hout).trans hnew
    rw [mark?_of_at? (at?_of_walk hw)] at hnone
    contradiction
  · intro he
    exact nomatch (ha.file_of_ok he).1
  · exact fun error he hne place content hf => ha.file_of_error he hne hf
  · intro he
    obtain ⟨-, place, hplace, hempty, hothers⟩ := ha.file_of_unencodable he
    have hopens : Opens written := fun error he' => (Except.error.inj (he.symm.trans he')).symm
    exact ⟨path, hp, place, hplace, hl.whole hopens place hplace, hempty, hothers⟩
  · intro name he
    obtain ⟨hname, place, hplace, hf⟩ := ha.file_of_ok he
    have hopens : Opens written := fun error he' => nomatch he.symm.trans he'
    exact ⟨path, hp, Option.some.inj hname, place, hplace, hl.whole hopens place hplace, hf⟩
  · intro place hout
    refine Classical.byContradiction fun hne => hout ?_
    obtain ⟨hnew, part, hpart, hplace⟩ | ⟨hopens, hplace⟩ := ha.changed hne
    · exact hl.parts part hpart place hplace hnew
    · exact hl.whole hopens place hplace

/-- What lies on a straight way through the root and is not above it is inside. -/
theorem leadsInside_of_sheltered {written : Written} {root : FilePath} (hr : workspace.root = some root)
    (ha : Attempted path text before written) (h : Sheltered before root path) :
    LeadsInside workspace path before written := by
  obtain ⟨base, hb⟩ := h.present
  have hstraight := ha.straight h.straight
  obtain rfl := (h.straight.of_prefix h.under).eq_of_place? hb
  have hinside : ∀ place, root.names <+: place → Within workspace written.1 place := fun place hp =>
    ⟨root, hr, root.names, ha.grows.place? hb, hp⟩
  refine ⟨?_, ?_⟩
  · intro _ place hplace
    obtain rfl := hstraight.eq_of_place? hplace
    exact hinside _ h.under
  · intro part hpart place hplace hnew
    obtain rfl := (hstraight.of_prefix hpart).eq_of_place? hplace
    refine hinside _ ?_
    rcases List.prefix_or_prefix_of_prefix hpart h.under with ⟨more, hmore⟩ | hin
    · by_cases hm : more = []
      · have heq : root.names = place := by rw [← hmore, hm, List.append_nil]
        exact heq ▸ List.prefix_rfl
      · -- what is above the root was there before
        obtain ⟨node, hw⟩ := walk_of_place? hb
        have hd := mark?_of_below hm (by rw [hmore]; exact at?_of_walk hw)
        rw [hnew] at hd
        contradiction
    · exact hin

/-- Keeping a document does nothing without a workspace.  With one it stays inside just when the file is,
if it is opened, and all that is made on the way there; and surely does when the path is straight through
the root. -/
theorem keepsInside_keep_iff (workspace : Workspace) (plansDir : String) (before : Node) (s : Session)
    (text : String) :
    (workspace.root = none → keep workspace plansDir before s text = (before, .ok none)) ∧
    (KeepsInside workspace plansDir before s text (keep workspace plansDir before s text) ↔
      ∀ path ∈ path? workspace plansDir s,
        LeadsInside workspace path before (keep workspace plansDir before s text)) ∧
    ∀ root ∈ workspace.root, ∀ path ∈ path? workspace plansDir s, Sheltered before root path →
      KeepsInside workspace plansDir before s text (keep workspace plansDir before s text) := by
  obtain ⟨-, hp, hkeep⟩ | ⟨path, hp, -, ha⟩ := attempted_keep workspace plansDir before s text
  · have hk := keepsInside_unkept workspace plansDir before s text
    rw [hkeep, hp]
    refine ⟨fun _ => rfl, iff_of_true hk ?_, ?_⟩
    · rintro path hpath
      contradiction
    · rintro root - path hpath
      contradiction
  · rw [keepsInside_iff hp ha, hp]
    refine ⟨fun hr => ?_, ?_, ?_⟩
    · rw [path?, hr] at hp
      exact nomatch hp
    · exact ⟨fun h path' hp' => Option.some.inj hp' ▸ h, fun h => h path rfl⟩
    · intro root hr path' hp' h
      obtain rfl := Option.some.inj hp'
      exact leadsInside_of_sheltered hr ha h

end Keeping

/-- The default directory for the plans, in a workspace that is empty. -/
theorem keepsInside_keep_default :
    let workspace : Workspace := ⟨some ⟨.root, ["ws"]⟩⟩
    let s : Session := ⟨"00000001", ⟨2025, 3, 4, 5, 6, 7, 0, some 0⟩, "t", [], .solving, [], none, none, [],
      none, none, []⟩
    keep .none ".planmode/plans" (.directory [("ws", .empty)]) s "doc" =
        (.directory [("ws", .empty)], .ok none) ∧
      KeepsInside workspace ".planmode/plans" (.directory [("ws", .empty)]) s "doc"
        (keep workspace ".planmode/plans" (.directory [("ws", .empty)]) s "doc") := by
  intro workspace s
  refine ⟨(keepsInside_keep_iff .none ".planmode/plans" _ s "doc").1 rfl, ?_⟩
  have hp : path? workspace ".planmode/plans" s =
      some ⟨.root, ["ws", ".planmode", "plans", "plan-20250304-050607-00000001.md"]⟩ := by decide +kernel
  refine (keepsInside_keep_iff workspace ".planmode/plans" _ s "doc").2.2 _ rfl _ hp ⟨⟨["ws"], ?_⟩, ?_, ?_⟩
  · decide +kernel
  · exact List.prefix_append ["ws"] _
  · exact straight_of_linkCount rfl (by decide +kernel)

/-- A directory for the plans next to the root. -/
theorem not_keepsInside_keep_above :
    let workspace : Workspace := ⟨some ⟨.root, ["ws"]⟩⟩
    let s : Session := ⟨"00000001", ⟨2025, 3, 4, 5, 6, 7, 0, some 0⟩, "t", [], .solving, [], none, none, [],
      none, none, []⟩
    ¬ KeepsInside workspace "../out" (.directory [("ws", .empty)]) s "doc"
      (keep workspace "../out" (.directory [("ws", .empty)]) s "doc") := by
  intro workspace s h
  have hout := h.outside ["out"] (by decide +kernel)
  have hnew : ((keep workspace "../out" (.directory [("ws", .empty)]) s "doc").1.mark? ["out"]).isSome =
      true := by decide +kernel
  rw [hout] at hnew
  exact absurd hnew (by decide +kernel)

end PlanAssistant.Document
