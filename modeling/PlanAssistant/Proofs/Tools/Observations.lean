import PlanAssistant.Document
import PlanAssistant.Proofs.Text.Encoding
import PlanAssistant.Proofs.Tools.PassRecords
import PlanAssistant.Proofs.Tools.SearchOrder

/-!
What is shown of long outputs.  A tool cuts its output off at the limit and adds a notice of what is
missing; the answer of a completed session cuts the output off once more.  The second cut takes the first
notice away and tells how long that was.  So the answer shows what the tool gave only of texts within the
limit, and of those that miss as many characters as the notice of it has: thirty.
-/
namespace PlanAssistant

/-! ### Cutting twice -/

/-- What is said of characters that are missing. -/
def cutNotice (missing : Nat) : String := "\n... (truncated " ++ toString missing ++ " characters)"

theorem cutNotice_eq (missing : Nat) :
    cutNotice missing = "\n... (truncated " ++ toString missing ++ " characters)" := rfl

namespace Text

theorem length_append (a b : String) : length (a ++ b) = length a + length b := by
  simp [length]

theorem length_take {count : Nat} {text : String} (h : count ≤ length text) :
    length (take count text) = count := by
  rw [length] at h
  simp [length, take, h]

theorem take_append {count : Nat} {a : String} (h : length a = count) (b : String) :
    take count (a ++ b) = a := by
  rw [length] at h
  rw [take, String.toList_append, ← h, List.take_left, String.ofList_toList]

end Text

theorem truncate_of_le {value : String} (h : Text.length value ≤ outputLimit) : truncate value = value := by
  rw [truncate, if_pos h]

theorem truncate_of_lt {value : String} (h : outputLimit < Text.length value) :
    truncate value = Text.take outputLimit value ++ cutNotice (Text.length value - outputLimit) := by
  rw [truncate, if_neg (Nat.not_le.mpr h), cutNotice_eq, String.append_assoc, String.append_assoc,
    String.append_assoc]

theorem length_cutNotice (missing : Nat) :
    Text.length (cutNotice missing) = 28 + missing.repr.length := by
  have hbefore : Text.length "\n... (truncated " = 16 := by decide +kernel
  have hafter : Text.length " characters)" = 12 := by decide +kernel
  have hdigits : Text.length (toString missing) = missing.repr.length := String.length_toList
  rw [cutNotice_eq, Text.length_append, Text.length_append, hbefore, hafter, hdigits]
  omega

theorem cutNotice_injective : Function.Injective cutNotice := by
  intro a b h
  have hl := congrArg String.toList h
  simp only [cutNotice_eq, String.toList_append] at hl
  have hdigits := congrArg (fun ds => Nat.ofDigitChars 10 ds 0)
    (List.append_cancel_left (List.append_cancel_right hl))
  simpa [Nat.toString_eq_ofList_toDigits] using hdigits

/-- A text that was cut off misses as many characters in the second cut as its notice has. -/
theorem truncate_truncate_of_lt {value : String} (h : outputLimit < Text.length value) :
    truncate (truncate value) = Text.take outputLimit value ++
      cutNotice (Text.length (cutNotice (Text.length value - outputLimit))) := by
  have hlen : Text.length (Text.take outputLimit value) = outputLimit :=
    Text.length_take (Nat.le_of_lt h)
  rw [truncate_of_lt h]
  generalize hn : cutNotice (Text.length value - outputLimit) = notice
  have hpos : 0 < Text.length notice := by
    rw [← hn, length_cutNotice]
    omega
  rw [truncate_of_lt (by rw [Text.length_append]; omega), Text.take_append hlen, Text.length_append, hlen,
    Nat.add_sub_cancel_left]

/-- Thirty is the one number whose notice has as many characters. -/
theorem length_cutNotice_eq_iff (missing : Nat) :
    Text.length (cutNotice missing) = missing ↔ missing = 30 := by
  rw [length_cutNotice]
  constructor
  · intro h
    by_cases hm : missing < 10 ^ 2
    · have hle := (Nat.length_repr_le_iff (by decide)).mpr hm
      have hpos := missing.length_repr_pos
      have hcases : missing = 29 ∨ missing = 30 := by omega
      rcases hcases with rfl | rfl
      · exact absurd h (by decide)
      · rfl
    · -- from a hundred on, a number has fewer digits than it exceeds twenty-eight by
      have hgrow : ∀ more : Nat, 100 + more < 10 ^ (71 + more) := by
        intro more
        induction more with
        | zero => decide
        | succ more ih =>
          rw [← Nat.add_assoc, ← Nat.add_assoc, Nat.pow_succ]
          omega
      obtain ⟨more, rfl⟩ := Nat.exists_eq_add_of_le (Nat.le_of_not_lt hm)
      have hle := (Nat.length_repr_le_iff (k := 71 + more) (by omega)).mpr (hgrow more)
      norm_num at h hle
      omega
  · rintro rfl
    decide

/-- Cutting twice is cutting once for texts within the limit, and for those thirty characters longer. -/
theorem truncate_truncate_eq_iff (value : String) :
    truncate (truncate value) = truncate value ↔
      Text.length value ≤ outputLimit ∨ Text.length value = outputLimit + 30 := by
  by_cases h : Text.length value ≤ outputLimit
  · rw [truncate_of_le h, truncate_of_le h]
    exact iff_of_true rfl (.inl h)
  · have hlt := Nat.lt_of_not_le h
    rw [truncate_truncate_of_lt hlt, truncate_of_lt hlt, String.append_right_inj,
      cutNotice_injective.eq_iff, length_cutNotice_eq_iff]
    omega

namespace Tools

open Files Traversal

/-! ### What the tools cut off -/

/-- The text that a tool gives for an argument, before it is cut off. -/
inductive Uncut [Interpreter] (workspace : Workspace) (tree : Node) : Tool → String → String → Prop
  /-- The text of a file. -/
  | read {argument : String} {path : FilePath} {content : ByteArray}
      (named : argument ≠ "")
      (resolved : workspace.resolve? tree argument = some path)
      (bytes : readBytes tree path = .ok content) :
    Uncut workspace tree .readFile argument (contentText content)
  /-- The lines that a search found, or the word that there are none. -/
  | searched {argument : String} {start : FilePath} {setting : Search.Setting} {order : List FilePath}
      {lines : List String}
      (named : (splitArgument argument).1 ≠ "")
      (resolved : searchStart? workspace tree argument = some start)
      (setting_eq : setting.workspace = workspace ∧ setting.tree = tree ∧
        Query.ofText (splitArgument argument).1 = .ok setting.query)
      (ordered : IsBreadthFirst setting.entered start order)
      (found : lines = (setting.reported order).map (·.text (workspace.root.getD start))) :
    Uncut workspace tree .searchText argument
      (if lines.isEmpty then noResults else "\n".intercalate lines)

section Uncut

variable [Interpreter] {workspace : Workspace} {tree : Node} {tool : Tool} {argument value : String}
  {result : ToolResult}

theorem isDirectoryAt_of_readBytes {path : FilePath} {content : ByteArray}
    (h : readBytes tree path = .ok content) : isDirectoryAt tree path = .ok false := by
  unfold readBytes at h
  split at h
  · next hs => rw [isDirectoryAt, leadsTo, hs]; rfl
  · contradiction
  · contradiction

omit [Interpreter] in
theorem combined_eq_truncate (lines : List String) :
    combined lines = truncate (if lines.isEmpty then noResults else "\n".intercalate lines) := by
  unfold combined
  split
  · exact (truncate_of_le (by decide +kernel)).symm
  · rfl

/-- A tool gives its text cut off. -/
theorem Uncut.ofWorkspace (h : Uncut workspace tree tool argument value) :
    Performer.ofWorkspace workspace tree tool argument = .ok (.ofOutput (truncate value)) := by
  cases h with
  | read named resolved bytes =>
    rw [Performer.ofWorkspace, readFile, if_neg (by rwa [String.isEmpty_iff]), resolved]
    dsimp only
    rw [fileText, isDirectoryAt_of_readBytes bytes, bytes]
  | searched named resolved setting_eq ordered found =>
    obtain ⟨rfl, rfl, hq⟩ := setting_eq
    rw [Performer.ofWorkspace, searchText_of_some named resolved, hq, Except.map,
      Search.found_run _ ordered, ← found, combined_eq_truncate]

theorem exists_uncut_readFile (h : (readFile workspace tree argument).error = none) :
    ∃ value, Uncut workspace tree .readFile argument value := by
  unfold readFile at h
  split at h
  · contradiction
  next path hp =>
  split at hp
  · contradiction
  next hne =>
  unfold fileText at h
  split at h
  · contradiction
  · contradiction
  split at h
  · next content hb => exact ⟨_, .read (by rwa [Ne, ← String.isEmpty_iff]) hp hb⟩
  · contradiction

theorem exists_uncut_searchText (h : searchText workspace tree argument = .ok result)
    (he : result.error = none) : ∃ value, Uncut workspace tree .searchText argument value := by
  by_cases hp : (splitArgument argument).1 = ""
  · rw [searchText_of_empty hp] at h
    obtain rfl := Except.ok.inj h
    nomatch he
  cases hs : searchStart? workspace tree argument with
  | none =>
    rw [searchText_of_none hp hs] at h
    obtain rfl := Except.ok.inj h
    nomatch he
  | some start =>
    rw [searchText_of_some hp hs] at h
    cases hq : Query.ofText (splitArgument argument).1 with
    | error fault =>
      rw [hq] at h
      nomatch h
    | ok query =>
      obtain ⟨order, ho⟩ := Search.exists_order ⟨workspace, tree, query⟩ start
      exact ⟨_, .searched hp hs ⟨rfl, rfl, hq⟩ ho rfl⟩

/-- Reading and searching succeed only on what has a text. -/
theorem exists_uncut (ht : tool ≠ .listFiles)
    (h : Performer.ofWorkspace workspace tree tool argument = .ok result) (he : result.error = none) :
    ∃ value, Uncut workspace tree tool argument value := by
  cases tool with
  | listFiles => exact absurd rfl ht
  | readFile => exact exists_uncut_readFile (by rwa [Except.ok.inj h])
  | searchText => exact exists_uncut_searchText h he

end Uncut

/-! ### What is shown of the records -/

/-- Every record of a pass is that of a step run on some argument. -/
theorem recordOf_of_mem {perform : Performer Breakdown} {steps : List Step} {record : StepRecord}
    (h : record ∈ (Pass.run perform steps).records) :
    ∃ (step : Step) (argument : String),
      record = recordOf step argument (perform.result step.tool argument) := by
  induction steps using List.reverseRecOn with
  | nil => exact absurd h List.not_mem_nil
  | append_singleton steps step ih =>
    rw [Pass.run_concat, Pass.take, List.mem_append, List.mem_singleton] at h
    rcases h with h | h
    · exact ih h
    · exact ⟨step, _, h⟩

theorem recordOf_tool (step : Step) (argument : String) (result : ToolResult) :
    (recordOf step argument result).tool = step.tool ∧
      (recordOf step argument result).argument = argument := by
  unfold recordOf
  split <;> exact ⟨rfl, rfl⟩

theorem observation_recordOf (step : Step) (argument output : String) :
    Document.observation (recordOf step argument (.ofOutput output)) = truncate output := rfl

theorem records_run_singleton (perform : Performer Breakdown) (step : Step) :
    (Pass.run perform [step]).records =
      [recordOf step (Text.strip (Outputs.resolve [] step.argument))
        (perform.result step.tool (Text.strip (Outputs.resolve [] step.argument)))] := rfl

/-- What is shown of a text after it was cut off twice. -/
def cutTwice (value : String) : String :=
  if Text.length value ≤ outputLimit then value
  else Text.take outputLimit value ++
    cutNotice (Text.length (cutNotice (Text.length value - outputLimit)))

theorem truncate_truncate (value : String) : truncate (truncate value) = cutTwice value := by
  unfold cutTwice
  split
  · next h => rw [truncate_of_le h, truncate_of_le h]
  · next h => rw [truncate_truncate_of_lt (Nat.lt_of_not_le h)]

/-- The answer shows a record with what was observed. -/
def Observed (answer : String) (record : StepRecord) : Prop :=
  ∃ before after, answer = before ++ ("- " ++ Document.call record ++ "\n  " ++
    Document.observation record) ++ after

theorem exists_intercalate_eq (separator : String) {text : String} {texts : List String}
    (h : text ∈ texts) :
    ∃ before after, separator.intercalate texts = before ++ text ++ after := by
  induction texts with
  | nil => exact absurd h List.not_mem_nil
  | cons head rest ih =>
    by_cases hr : rest = []
    · obtain rfl : text = head := by simpa [hr] using h
      exact ⟨"", "", by simp [hr]⟩
    · rw [String.intercalate_cons_of_ne_nil hr]
      rcases List.mem_cons.mp h with rfl | h
      · exact ⟨"", separator ++ separator.intercalate rest, by simp [String.append_assoc]⟩
      · obtain ⟨before, after, ho⟩ := ih h
        exact ⟨head ++ separator ++ before, after, by rw [ho]; simp only [String.append_assoc]⟩

theorem observed_completion {s : Session} {record : StepRecord} (h : record ∈ s.records)
    (saveFailed : Bool) : Observed (Document.completion s saveFailed) record := by
  obtain ⟨front, back, hc⟩ : ∃ front back, Document.completion s saveFailed =
      front ++ Document.observations s.records ++ back := ⟨_, _, rfl⟩
  obtain ⟨before, after, ho⟩ := exists_intercalate_eq "\n"
    (List.mem_map_of_mem (f := fun record => "- " ++ Document.call record ++ "\n  " ++
      Document.observation record) h)
  have hne : s.records.isEmpty = false := by
    rw [List.isEmpty_eq_false_iff]
    exact List.ne_nil_of_mem h
  rw [Document.observations, hne, if_neg Bool.false_ne_true, ho] at hc
  exact ⟨front ++ before, after ++ back, by rw [hc]; simp only [String.append_assoc]⟩

section Records

variable [Interpreter] {workspace : Workspace} {tree : Node} {plan : String} {record : StepRecord}
  {tool : Tool}

theorem result_of_uncut {name argument value : String} (hk : Tool.ofName? name = some tool)
    (h : Uncut workspace tree tool argument value) :
    (Performer.reporting .ofPattern (.ofWorkspace workspace tree)).result name argument =
      .ofOutput (truncate value) := by
  unfold Performer.result
  rw [hk]
  dsimp only
  rw [Performer.reporting, h.ofWorkspace]
  rfl

theorem exists_uncut_of_result {name argument : String} (hk : Tool.ofName? name = some tool)
    (ht : tool ≠ .listFiles)
    (he : ((Performer.reporting .ofPattern (.ofWorkspace workspace tree)).result name argument).error =
      none) :
    ∃ value, Uncut workspace tree tool argument value := by
  obtain ⟨known, hknown, hr⟩ := Performer.result_succeeds he
  obtain rfl : tool = known := Option.some.inj (hk.symm.trans hknown)
  generalize Performer.result _ _ _ = result at hr he
  rw [Performer.reporting] at hr
  cases hw : Performer.ofWorkspace workspace tree tool argument with
  | error fault => rw [hw] at hr; nomatch hr
  | ok given =>
    rw [hw] at hr
    obtain rfl : given = result := Except.ok.inj hr
    exact exists_uncut ht hw he

/-- The answer shows what a step read or found cut off twice: that is what its tool cuts off only of
texts within the limit, and of those thirty characters longer. -/
theorem observation_eq_cutTwice (hr : record ∈ (runPlan workspace tree plan).records)
    (hk : Tool.ofName? record.tool = some tool) (ht : tool ≠ .listFiles) :
    (record.error = none ↔ ∃ value, Uncut workspace tree tool record.argument value) ∧
      (∀ value, Uncut workspace tree tool record.argument value →
        Document.observation record = cutTwice value ∧
          (Document.observation record = truncate value ↔
            Text.length value ≤ outputLimit ∨ Text.length value = outputLimit + 30)) ∧
      ∀ (s : Session) (saveFailed : Bool), record ∈ s.records →
        Observed (Document.completion s saveFailed) record := by
  obtain ⟨step, argument, rfl⟩ := recordOf_of_mem hr
  obtain ⟨htool, harg⟩ := recordOf_tool step argument
    ((Performer.reporting .ofPattern (.ofWorkspace workspace tree)).result step.tool argument)
  rw [htool] at hk
  rw [harg, recordOf_error]
  refine ⟨⟨exists_uncut_of_result hk ht, ?_⟩, ?_, fun s saveFailed h => observed_completion h saveFailed⟩
  · rintro ⟨value, hv⟩
    rw [result_of_uncut hk hv]
    rfl
  · intro value hv
    rw [result_of_uncut hk hv, observation_recordOf]
    exact ⟨truncate_truncate value, truncate_truncate_eq_iff value⟩

end Records

/-! ### A file that is too long -/

/-- A file with so many letters. -/
def letters (count : Nat) : ByteArray := ⟨Array.replicate count 0x61⟩

theorem length_contentText_letters (count : Nat) :
    Text.length (contentText (letters count)) = count := by
  have hread : Text.characters (List.replicate count 0x61) = List.replicate count (some 'a') := by
    induction count with
    | zero => simp [Text.characters]
    | succ count ih =>
      have hlead : Text.leadByte 0x61 = some (0, 0x80, 0xBF, 0x61) := by decide
      have hrest : Text.continuation 0 0x80 0xBF 0x61 (List.replicate count 0x61) =
          (some 0x61, List.replicate count 0x61) := by cases count <;> rfl
      rw [List.replicate_succ, Text.characters, hlead]
      dsimp only
      rw [hrest, ih]
      rfl
  have hlines : Text.normalizeNewlines (List.replicate count 'a') = List.replicate count 'a' := by
    clear hread
    induction count with
    | zero => rfl
    | succ count ih =>
      have hne : ∀ rest, 'a' = '\r' → List.replicate count 'a' = '\n' :: rest → False :=
        fun _ h => absurd h (by decide)
      rw [List.replicate_succ, Text.normalizeNewlines.eq_3 _ _ hne, ih]
      rfl
  rw [contentText, Text.decodeLossy, Text.toList_eq_data, letters, Array.toList_replicate, hread,
    List.map_replicate, Option.getD_some, hlines, Text.length, String.toList_ofList,
    List.length_replicate]

/-- A directory with a file that is a character too long. -/
def longTree : Node := .directory [("ws", .directory [("long.txt", .file (letters 2001))])]

/-- The text of the file. -/
def longText : String := contentText (letters 2001)

/-- The record of the step that reads it. -/
def longRecord : StepRecord :=
  recordOf ⟨"1", "ReadFile", "long.txt"⟩ "long.txt" (.ofOutput (truncate longText))

theorem length_longText : Text.length longText = outputLimit + 1 := length_contentText_letters 2001

theorem uncut_longText : Uncut ⟨some (.ofText "/ws")⟩ longTree .readFile "long.txt" longText := by
  have hpath : Workspace.resolve? ⟨some (.ofText "/ws")⟩ longTree "long.txt" =
      some ⟨.root, ["ws", "long.txt"]⟩ := by decide +kernel
  exact .read (by decide) hpath rfl

theorem records_longTree : (runPlan ⟨some (.ofText "/ws")⟩ longTree "#E1 = ReadFile[long.txt]").records =
    [longRecord] := by
  have hsteps : planSteps "#E1 = ReadFile[long.txt]" = [⟨"1", "ReadFile", "long.txt"⟩] := by
    decide +kernel
  have hargument : Text.strip (Outputs.resolve [] "long.txt") = "long.txt" := by decide +kernel
  have hknown : Tool.ofName? "ReadFile" = some .readFile := by decide +kernel
  rw [runPlan, hsteps, records_run_singleton, hargument, result_of_uncut hknown uncut_longText]
  rfl

theorem observation_longRecord :
    Document.observation longRecord = Text.take outputLimit longText ++ cutNotice 29 := by
  have hlt : outputLimit < Text.length longText := by
    rw [length_longText]
    exact Nat.lt_succ_self _
  have hnotice : Text.length (cutNotice 1) = 29 := by decide +kernel
  rw [longRecord, observation_recordOf, truncate_truncate_of_lt hlt, length_longText,
    Nat.add_sub_cancel_left, hnotice]

/-- The file is read, and what the answer shows of it is not what the tool cuts off. -/
theorem observation_eq_cutTwice_long :
    let workspace : Workspace := ⟨some (.ofText "/ws")⟩
    longRecord ∈ (runPlan workspace longTree "#E1 = ReadFile[long.txt]").records ∧
      Tool.ofName? longRecord.tool = some .readFile ∧ Tool.readFile ≠ .listFiles ∧
      (longRecord.error = none ↔
        ∃ value, Uncut workspace longTree .readFile longRecord.argument value) ∧
      (∀ value, Uncut workspace longTree .readFile longRecord.argument value →
        Document.observation longRecord = cutTwice value ∧
          (Document.observation longRecord = truncate value ↔
            Text.length value ≤ outputLimit ∨ Text.length value = outputLimit + 30)) ∧
      (∀ (s : Session) (saveFailed : Bool), longRecord ∈ s.records →
        Observed (Document.completion s saveFailed) longRecord) ∧
      longRecord.error = none ∧ Uncut workspace longTree .readFile longRecord.argument longText ∧
      Text.length longText = outputLimit + 1 ∧
      cutTwice longText = Text.take outputLimit longText ++ cutNotice 29 := by
  intro workspace
  have hr : longRecord ∈ (runPlan workspace longTree "#E1 = ReadFile[long.txt]").records := by
    rw [records_longTree]
    exact List.mem_singleton_self longRecord
  have hk : Tool.ofName? longRecord.tool = some .readFile := by decide +kernel
  obtain ⟨herror, hcut, hshown⟩ := observation_eq_cutTwice hr hk nofun
  obtain ⟨htwice, -⟩ := hcut longText uncut_longText
  exact ⟨hr, hk, nofun, herror, hcut, hshown, herror.mpr ⟨longText, uncut_longText⟩, uncut_longText,
    length_longText, htwice.symm.trans observation_longRecord⟩

/-- Of the one character that is missing, the answer says that there are twenty-nine. -/
theorem observation_ne_truncate_long :
    let workspace : Workspace := ⟨some (.ofText "/ws")⟩
    Uncut workspace longTree .readFile "long.txt" longText ∧
      (runPlan workspace longTree "#E1 = ReadFile[long.txt]").records = [longRecord] ∧
        truncate longText = Text.take outputLimit longText ++ cutNotice 1 ∧
          Document.observation longRecord = Text.take outputLimit longText ++ cutNotice 29 ∧
            Document.observation longRecord ≠ truncate longText := by
  have hlt : outputLimit < Text.length longText := by
    rw [length_longText]
    exact Nat.lt_succ_self _
  refine ⟨uncut_longText, records_longTree, ?_, observation_longRecord, ?_⟩
  · rw [truncate_of_lt hlt, length_longText, Nat.add_sub_cancel_left]
  · rw [longRecord, observation_recordOf, Ne, truncate_truncate_eq_iff, length_longText]
    omega

end Tools
end PlanAssistant
