import PlanAssistant.Proofs.Document.Keeping

/-!
What becomes of an attempt to keep a document.  In a workspace that was opened at a root, the path of a
document is absolute and is read back from its text.  An attempt that fails does so for a reason of the
file system, with three exceptions: the directory for the plans is taken for no path, too many of its
directories are missing, or the document cannot be encoded, which leaves its file empty.
-/
namespace PlanAssistant

open Files

/-- The workspace was opened at a root given as text. -/
def Workspace.Opened [Interpreter] (workspace : Workspace) : Prop :=
  ∃ (tree : Node) (here : FilePath) (root : String), (∀ name ∈ here.names, Nameable name) ∧
    Workspace.open tree here root = .ok workspace

/-- The root of a workspace that was opened is a real path. -/
theorem Workspace.Opened.root_real [Interpreter] {workspace : Workspace} (h : workspace.Opened)
    {root : FilePath} (hr : workspace.root = some root) :
    root.isAbsolute = true ∧ root.refusal? = Option.none ∧ ∀ name ∈ root.names, Nameable name := by
  obtain ⟨tree, here, text, hn, ho⟩ := h
  unfold Workspace.open at ho
  split at ho
  · obtain rfl := Except.ok.inj ho
    contradiction
  · cases hres : resolve tree (here.join (.ofText text)) with
    | error fault =>
      rw [hres] at ho
      contradiction
    | ok real =>
      rw [hres] at ho
      obtain rfl := Except.ok.inj ho
      obtain rfl := Option.some.inj hr
      have hnames := nameable_resolve (nameable_join_ofText hn text) hres
      obtain ⟨resolved, hresolved, rfl, htaken, -⟩ := resolution_of_resolve hres
      exact ⟨isAbsolute_resolution hresolved, htaken, fun name hm => (hnames name hm).1.1⟩

/-- The id has only letters, digits and hyphens, as those of new sessions do. -/
def Session.PlainId (s : Session) : Prop := ∀ c ∈ s.id.toList, c.isAlphanum = true ∨ c = '-'

namespace Document

variable {workspace : Workspace} {plansDir text : String} {files : Node} {path root : FilePath}
  {s : Session}

/-! ### The path of a document -/

/-- The name of the file of a session. -/
def fileName (s : Session) : String := "plan-" ++ s.createdAt.fileStamp ++ "-" ++ s.shortId ++ ".md"

theorem path?_of_root (hr : workspace.root = some root) (plansDir : String) (s : Session) :
    path? workspace plansDir s =
      some ((root.join (.ofText plansDir)).join (.ofText (fileName s))) := by
  rw [path?, hr]
  rfl

theorem toList_fileName (s : Session) : (fileName s).toList =
    'p' :: ("lan-" ++ s.createdAt.fileStamp ++ "-" ++ s.shortId ++ ".md").toList := by
  simp [fileName]

theorem anchor_fileName (s : Session) : (FilePath.ofText (fileName s)).anchor = .here := by
  rw [FilePath.ofText, toList_fileName]
  simp [FilePath.anchorOf]

theorem names_fileName_ne_nil (s : Session) : (FilePath.ofText (fileName s)).names ≠ [] := by
  intro h
  have hp : ∃ name ∈ (FilePath.ofText (fileName s)).names, 'p' ∈ name.toList := by
    rw [exists_mem_ofText_iff (by decide) (by decide), toList_fileName]
    exact List.mem_cons_self
  rw [h] at hp
  obtain ⟨name, hn, -⟩ := hp
  exact absurd hn List.not_mem_nil

theorem join_fileName (base : FilePath) (s : Session) : base.join (.ofText (fileName s)) =
    ⟨base.anchor, base.names ++ (FilePath.ofText (fileName s)).names⟩ := by
  rw [FilePath.join, FilePath.isAbsolute, anchor_fileName]
  rfl

theorem isAbsolute_join (hr : root.isAbsolute = true) (path : FilePath) :
    (root.join path).isAbsolute = true := by
  unfold FilePath.join
  split
  · assumption
  · exact hr

theorem text_ne_empty (ha : path.isAbsolute = true) : path.text.isEmpty = false := by
  obtain ⟨anchor, names⟩ := path
  cases anchor with
  | here => contradiction
  | root | doubleRoot => simp [FilePath.text, Anchor.text]

theorem isDigit_of_mem_pad {width n : Nat} {c : Char} (h : c ∈ (Instant.pad width n).toList) :
    c.isDigit = true := by
  rw [Instant.pad, String.toList_ofList, List.mem_append] at h
  rcases h with h | h
  · rw [List.eq_of_mem_replicate h]
    decide
  · exact Nat.isDigit_of_mem_toDigits (by decide) (by decide) h

/-- The characters in the names of files of sessions. -/
def isFileCharacter (c : Char) : Bool := c.isAlphanum || c == '-' || c == '.'

theorem isFileCharacter_of_mem_pad {width n : Nat} {c : Char}
    (h : c ∈ (Instant.pad width n).toList) : isFileCharacter c = true := by
  simp [isFileCharacter, Char.isAlphanum, isDigit_of_mem_pad h]

theorem toNat_lt_of_isFileCharacter {c : Char} (h : isFileCharacter c = true) : c.toNat < 0x80 := by
  have hletter : c.isAlphanum = (decide (65 ≤ c.val ∧ c.val ≤ 90) || (97 ≤ c.val && c.val ≤ 122) ||
      (48 ≤ c.val && c.val ≤ 57)) := rfl
  simp only [isFileCharacter, hletter, Bool.or_eq_true, Bool.and_eq_true, decide_eq_true_eq, beq_iff_eq,
    UInt32.le_iff_toNat_le] at h
  rcases h with (((⟨-, h⟩ | ⟨-, h⟩) | ⟨-, h⟩) | rfl) | rfl
  · exact Nat.lt_of_le_of_lt h (by decide)
  · exact Nat.lt_of_le_of_lt h (by decide)
  · exact Nat.lt_of_le_of_lt h (by decide)
  · decide
  · decide

theorem isFileCharacter_of_mem_fileStamp {t : Instant} {c : Char} (h : c ∈ t.fileStamp.toList) :
    isFileCharacter c = true := by
  simp only [Instant.fileStamp, String.toList_append, List.mem_append] at h
  rcases h with (((((h | h) | h) | h) | h) | h) | h
  case inl.inl.inl.inr =>
    obtain rfl : c = '-' := by simpa using h
    rfl
  all_goals exact isFileCharacter_of_mem_pad h

theorem isFileCharacter_of_mem_fileName (hs : s.PlainId) {c : Char} (h : c ∈ (fileName s).toList) :
    isFileCharacter c = true := by
  have hstart : "plan-".toList.all isFileCharacter = true := by decide +kernel
  have hend : ".md".toList.all isFileCharacter = true := by decide +kernel
  simp only [fileName, String.toList_append, List.mem_append] at h
  rcases h with (((h | h) | h) | h) | h
  · exact List.all_eq_true.mp hstart c h
  · exact isFileCharacter_of_mem_fileStamp h
  · obtain rfl : c = '-' := by simpa using h
    rfl
  · rw [Session.shortId, Text.take, String.toList_ofList] at h
    simpa [isFileCharacter, or_assoc] using (hs c (List.mem_of_mem_take h)).imp_right Or.inl
  · exact List.all_eq_true.mp hend c h

/-- The name of the file of a session with a plain id is one proper name. -/
theorem ofText_fileName (hs : s.PlainId) :
    FilePath.ofText (fileName s) = ⟨.here, [fileName s]⟩ := by
  refine ofText_of_nameable ⟨?_, fun h => ?_⟩
  · rw [isPlainName, Bool.and_eq_true, bne_iff_ne, bne_iff_ne, Ne, Ne, ← String.toList_inj,
      ← String.toList_inj, toList_fileName]
    simp
  · exact absurd (isFileCharacter_of_mem_fileName hs h) (by decide)

variable [Interpreter]

theorem refusal?_fileName (hs : s.PlainId) : refusal? (fileName s).toList = none := by
  rw [refusal?_eq_none_iff]
  intro c hc
  have hfile := isFileCharacter_of_mem_fileName hs hc
  refine isPathCharacter_of_lt ?_ (Nat.lt_trans (toNat_lt_of_isFileCharacter hfile) (by decide))
  rintro rfl
  exact absurd hfile (by decide)

/-- The path of a document is read back from its text. -/
theorem ofText_text_path (hw : workspace.Opened) (hp : path? workspace plansDir s = some path) :
    path.isAbsolute = true ∧ FilePath.ofText path.text = path := by
  obtain ⟨root, hr, rfl⟩ := Option.map_eq_some_iff.mp hp
  obtain ⟨habs, -, hn⟩ := hw.root_real hr
  have habs' := isAbsolute_join (isAbsolute_join habs (.ofText plansDir)) (.ofText (fileName s))
  refine ⟨habs', ofText_text habs' ?_ (nameable_join_ofText (nameable_join_ofText hn plansDir) _)⟩
  change (FilePath.join _ (.ofText (fileName s))).names ≠ []
  rw [join_fileName]
  exact List.append_ne_nil_of_right_ne_nil _ (names_fileName_ne_nil s)

/-! ### What is kept -/

theorem readBytes_of_place? {tree : Node} {place : List String} {content : ByteArray}
    (hp : place? tree path = some place) (hf : tree.mark? place = some (.file content)) :
    readBytes tree path = .ok content := by
  obtain ⟨node, hw⟩ := walk_of_place? hp
  obtain rfl := Option.some.inj ((at?_of_walk hw).symm.trans (mark?_eq_file.mp hf))
  rw [readBytes, status, hw]

/-- A path is given back with a workspace only, and then the text is read from it. -/
theorem kept_keep (hw : workspace.Opened) {after : Node} {name : String}
    (h : keep workspace plansDir files s text = (after, .ok (some name))) :
    name.isEmpty = false ∧ readBytes after (.ofText name) = .ok text.toUTF8 := by
  obtain ⟨-, -, hkeep⟩ | ⟨path, hp, -, ha⟩ := attempted_keep workspace plansDir files s text
  · cases h.symm.trans hkeep
  · rw [h] at ha
    obtain ⟨hname, place, hplace, hf⟩ := ha.file_of_ok rfl
    obtain rfl := Option.some.inj hname
    obtain ⟨habs, hread⟩ := ofText_text_path hw hp
    rw [hread]
    exact ⟨text_ne_empty habs, readBytes_of_place? hplace hf⟩

/-- No path is given back without a workspace only, and then nothing was done. -/
theorem unkept_keep {after : Node} (h : keep workspace plansDir files s text = (after, .ok none)) :
    workspace.root = none ∧ after = files := by
  obtain ⟨hr, -, hkeep⟩ | ⟨path, -, -, ha⟩ := attempted_keep workspace plansDir files s text
  · exact ⟨hr, congrArg Prod.fst (h.symm.trans hkeep)⟩
  · rw [h] at ha
    exact nomatch (ha.file_of_ok rfl).1

/-- A file that was there is as it was, or is the one the path that is given back leads to, or the one that
was emptied for a text that cannot be encoded. -/
theorem file_keep (hw : workspace.Opened) (plansDir : String) (files : Node) (s : Session)
    (text : String) {place : List String} {content : ByteArray}
    (hf : files.at? place = some (.file content)) :
    (keep workspace plansDir files s text).1.at? place = some (.file content) ∨
      (∃ name, (keep workspace plansDir files s text).2 = .ok (some name) ∧
        place? (keep workspace plansDir files s text).1 (.ofText name) = some place) ∨
      ((keep workspace plansDir files s text).2 = .error .unencodable ∧ Text.encode? text = none ∧
        (keep workspace plansDir files s text).1.at? place = some (.file .empty) ∧
        ∃ path ∈ path? workspace plansDir s,
          place? (keep workspace plansDir files s text).1 path = some place) := by
  obtain ⟨-, -, hkeep⟩ | ⟨path, hp, -, ha⟩ := attempted_keep workspace plansDir files s text
  · rw [hkeep]
    exact .inl hf
  by_cases hm : (keep workspace plansDir files s text).1.mark? place = files.mark? place
  · exact .inl (mark?_eq_file.mp (hm.trans (mark?_of_at? hf)))
  · obtain ⟨hnew, -⟩ | ⟨hopens, hplace⟩ := ha.changed hm
    · rw [mark?_of_at? hf] at hnew
      contradiction
    cases hk : (keep workspace plansDir files s text).2 with
    | ok name =>
      obtain ⟨rfl, -⟩ := ha.file_of_ok hk
      exact .inr (.inl ⟨path.text, rfl, by rwa [(ofText_text_path hw hp).2]⟩)
    | error error =>
      obtain rfl := hopens error hk
      obtain ⟨hbare, place', hplace', hempty, -⟩ := ha.file_of_unencodable hk
      obtain rfl := Option.some.inj (hplace'.symm.trans hplace)
      exact .inr (.inr ⟨rfl, hbare, mark?_eq_file.mp hempty, path, hp, hplace⟩)

/-! ### Attempts that break down -/

/-- The attempt ended in a failure that is none of the file system. -/
def BreaksDown (written : Written) : Prop :=
  ∃ error, written.2 = .error error ∧ ∀ reason, error ≠ .file reason

/-- A text can be kept as the document of a session, or fails to be for a reason of the file system.  The
directory for the plans can be had, and when the text cannot be encoded no other could be kept either. -/
def Storable (workspace : Workspace) (plansDir : String) (files : Node) (s : Session) (text : String) :
    Prop :=
  ∀ root ∈ workspace.root, refusal? plansDir.toList = none ∧
    ¬ TooDeep files (root.join (.ofText plansDir)) ∧ (Text.encode? text = none →
      ∃ reason, (keep workspace plansDir files s "").2 = .error (.file reason))

theorem encode?_empty : Text.encode? "" = some .empty := rfl

/-- What keeps a text from its file keeps every text from it, except that it cannot be encoded. -/
theorem breaksDown_writeText_iff (files : Node) (path : FilePath) (text : String) :
    BreaksDown (writeText files path text) ↔
      Text.encode? text = none ∧ ∀ reason, (writeText files path "").2 ≠ .error (.file reason) := by
  cases he : Text.encode? text with
  | some content =>
    refine iff_of_false ?_ (by simp)
    rintro ⟨error, herror, hne⟩
    rw [writeText, he] at herror
    split at herror
    · exact hne _ (Except.error.inj herror).symm
    · contradiction
  | none =>
    rw [writeText, writeText, he, encode?_empty]
    dsimp only [Option.getD_none, Option.getD_some]
    cases writeBytes files path .empty with
    | error reason => simp [BreaksDown]
    | ok files => simp [BreaksDown]

theorem breaksDown_writeAt_iff (hn : path.parent.refusal? = none → path.refusal? = none) (files : Node)
    (text : String) : BreaksDown (writeAt files path text) ↔
      path.parent.refusal? ≠ none ∨ TooDeep files path.parent ∨
        Text.encode? text = none ∧ ∀ reason, (writeAt files path "").2 ≠ .error (.file reason) := by
  rw [← makeDirectories_eq_tooDeep_iff]
  unfold writeAt
  cases hz : path.parent.refusal? with
  | some refusal =>
    exact iff_of_true ⟨_, rfl, fun _ he => nomatch he⟩ (.inl (Option.some_ne_none refusal))
  | none =>
    rw [hn hz]
    dsimp only
    generalize makeDirectories files path.parent = made
    obtain ⟨files, failure⟩ := made
    cases failure with
    | none => simp [breaksDown_writeText_iff]
    | some error =>
      cases error with
      | file reason => simp [BreaksDown, WriteError.ofMake]
      | tooDeep => exact iff_of_true ⟨_, rfl, fun _ he => nomatch he⟩ (.inr (.inl rfl))

theorem refusal?_append (anchor : Anchor) (names more : List String) :
    FilePath.refusal? ⟨anchor, names ++ more⟩ = none ↔
      FilePath.refusal? ⟨anchor, names⟩ = none ∧ FilePath.refusal? ⟨anchor, more⟩ = none := by
  simp only [FilePath.refusal?_eq_none_iff, List.forall_mem_append]

theorem refusal?_join_iff (hr : root.refusal? = none) (text : String) :
    (root.join (.ofText text)).refusal? = none ↔ refusal? text.toList = none := by
  rw [← refusal?_ofText]
  unfold FilePath.join
  split
  · rfl
  · rw [refusal?_append]
    exact and_iff_right hr

/-- Keeping a document breaks down just when the directory for the plans cannot be had at all, or when the
document cannot be encoded. -/
theorem breaksDown_keep_iff (hw : workspace.Opened) (hs : s.PlainId) (plansDir : String) (files : Node)
    (text : String) : BreaksDown (keep workspace plansDir files s text) ↔
      ¬ Storable workspace plansDir files s text := by
  obtain ⟨root⟩ := workspace
  cases root with
  | none =>
    refine iff_of_false ?_ (not_not_intro fun _ h => nomatch h)
    rintro ⟨error, he, -⟩
    contradiction
  | some root =>
    obtain ⟨-, hroot, -⟩ := hw.root_real rfl
    have hpath : path? ⟨some root⟩ plansDir s =
        some ⟨(root.join (.ofText plansDir)).anchor,
          (root.join (.ofText plansDir)).names ++ [fileName s]⟩ := by
      rw [path?_of_root rfl, ofText_fileName hs]
      rfl
    have hparent : FilePath.parent ⟨(root.join (.ofText plansDir)).anchor,
        (root.join (.ofText plansDir)).names ++ [fileName s]⟩ = root.join (.ofText plansDir) := by
      rw [FilePath.parent, List.dropLast_concat]
    simp only [Storable, keep, hpath]
    rw [breaksDown_writeAt_iff, hparent, Ne, refusal?_join_iff hroot]
    · simp [Classical.or_iff_not_imp_left]
    · rw [hparent, refusal?_append]
      intro hz
      exact ⟨hz, FilePath.refusal?_eq_none_iff.mpr (by simpa using refusal?_fileName hs)⟩

end Document
end PlanAssistant
