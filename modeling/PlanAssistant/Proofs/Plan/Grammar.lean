import PlanAssistant.Plan.Step
import PlanAssistant.Proofs.Text.Stripping

/-!
The grammar of plans.  `Step.Heads` says what it is for a text to start with a step, with every choice of
blanks the grammar leaves open; the reader finds a step exactly where one heads the text, and no choice
of blanks makes it another one.  A plan written line by line, steps and prose in any order, is read back
as its steps.
-/
namespace PlanAssistant

/-! ### Classes of characters -/

namespace Text

/-- The code points of the blanks. -/
def blankCodes : List Nat :=
  [0x20, 0x85, 0xA0, 0x1680, 0x2028, 0x2029, 0x202F, 0x205F, 0x3000] ++
    (List.range' 0x9 5 ++ List.range' 0x1C 4 ++ List.range' 0x2000 11)

theorem toNat_mem_blankCodes {c : Char} (h : isBlank c = true) : c.toNat ∈ blankCodes := by
  simp only [isBlank, Bool.or_eq_true, Bool.and_eq_true, beq_iff_eq, decide_eq_true_eq] at h
  simp only [blankCodes, List.mem_append, List.mem_cons, List.not_mem_nil, or_false, List.mem_range'_1]
  omega

/-- No blank is a digit of any script. -/
theorem not_isDigit_of_isBlank {c : Char} (h : isBlank c = true) : isDigit c = false := by
  have hd : ∀ n ∈ blankCodes, digitTable.mem n = false := by decide +kernel
  exact hd c.toNat (toNat_mem_blankCodes h)

end Text

/-- No blank stands in the name of a tool. -/
theorem Step.not_isBlank_of_isToolCharacter {c : Char} (h : isToolCharacter c = true) :
    Text.isBlank c = false := by
  cases hb : Text.isBlank c with
  | false => rfl
  | true =>
    have hw : ∀ n ∈ Text.blankCodes, isToolCharacter (Char.ofNat n) = false := by decide +kernel
    have hn := hw c.toNat (Text.toNat_mem_blankCodes hb)
    rw [Char.ofNat_toNat, h] at hn
    contradiction

/-- A run of a class of characters ends in front of the first character outside of it. -/
theorem span_append {p : Char → Bool} {run : List Char} (hr : ∀ c ∈ run, p c = true) (rest : List Char)
    (he : ∀ c ∈ rest.head?, p c = false) :
    (run ++ rest).takeWhile p = run ∧ (run ++ rest).dropWhile p = rest := by
  rw [List.takeWhile_append_of_pos hr, List.dropWhile_append_of_pos hr]
  cases rest with
  | nil => simp
  | cons c rest =>
    have hc : p c = false := he c rfl
    simp [hc]

/-- What comes first and has no mark in it lies in front of the mark. -/
theorem exists_of_notMem_left {x y front back : List Char} {mark : Char}
    (h : x ++ y = front ++ mark :: back) (hx : mark ∉ x) :
    ∃ rest, front = x ++ rest ∧ y = rest ++ mark :: back := by
  rcases List.append_eq_append_iff.mp h with ⟨rest, rfl, hy⟩ | ⟨more, rfl, hm⟩
  · exact ⟨rest, rfl, hy⟩
  · cases more with
    | nil => exact ⟨[], by simp, hm.symm⟩
    | cons c more =>
      obtain ⟨rfl, -⟩ := List.cons.inj hm
      exact absurd (List.mem_append_right _ List.mem_cons_self) hx

/-- What comes last and has no mark in it lies behind the mark. -/
theorem exists_of_notMem_right {x y front back : List Char} {mark : Char}
    (h : x ++ y = front ++ mark :: back) (hy : mark ∉ y) :
    ∃ rest, back = rest ++ y ∧ x = front ++ mark :: rest := by
  rcases List.append_eq_append_iff.mp h with ⟨more, rfl, rfl⟩ | ⟨more, rfl, hm⟩
  · exact absurd (List.mem_append_right _ List.mem_cons_self) hy
  · cases more with
    | nil => exact absurd (show mark ∈ [] ++ y from hm ▸ List.mem_cons_self) hy
    | cons c more =>
      obtain ⟨rfl, hb⟩ := List.cons.inj hm
      exact ⟨more, hb, rfl⟩

namespace Step

/-! ### Steps at the head of a text -/

/-- What the grammar asks of the parts of a step. -/
structure WellFormed (step : Step) : Prop where
  number_ne : step.number.toList ≠ []
  digits : ∀ c ∈ step.number.toList, Text.isDigit c = true
  tool_ne : step.tool.toList ≠ []
  toolCharacters : ∀ c ∈ step.tool.toList, isToolCharacter c = true
  oneLine : '\n' ∉ step.argument.toList

instance (step : Step) : Decidable step.WellFormed :=
  decidable_of_iff (step.number.toList ≠ [] ∧ step.number.toList.all Text.isDigit = true ∧
      step.tool.toList ≠ [] ∧ step.tool.toList.all isToolCharacter = true ∧
      '\n' ∉ step.argument.toList) <| by
    rw [List.all_eq_true, List.all_eq_true]
    exact ⟨fun ⟨hn, hd, ht, hc, ha⟩ => ⟨hn, hd, ht, hc, ha⟩,
      fun ⟨hn, hd, ht, hc, ha⟩ => ⟨hn, hd, ht, hc, ha⟩⟩

/-- The text starts with the step.  Blanks may stand around the equals sign and after the closing
bracket, line ends among them, and a line has to end after those. -/
structure Heads (step : Step) (cs : List Char) : Prop where
  wellFormed : step.WellFormed
  spelled : ∃ before after trailing rest : List Char,
    cs = '#' :: 'E' :: (step.number.toList ++ (before ++ '=' :: (after ++ (step.tool.toList ++
      '[' :: (step.argument.toList ++ ']' :: (trailing ++ rest)))))) ∧
    (∀ c ∈ before, Text.isBlank c = true) ∧ (∀ c ∈ after, Text.isBlank c = true) ∧
    (∀ c ∈ trailing, Text.isBlank c = true) ∧ ∀ c ∈ rest.head?, c = '\n'

/-- The argument is closed by the bracket that only blanks follow. -/
theorem argument?_eq_some_iff {line argument : List Char} :
    argument? line = some argument ↔
      ∃ trailing, line = argument ++ ']' :: trailing ∧ ∀ c ∈ trailing, Text.isBlank c = true := by
  constructor
  · intro h
    unfold argument? at h
    split at h
    · next before hb =>
      have ha : before.reverse = argument := Option.some.inj h
      refine ⟨(line.reverse.takeWhile Text.isBlank).reverse, ?_, ?_⟩
      · have hl := List.takeWhile_append_dropWhile (p := Text.isBlank) (l := line.reverse)
        rw [hb] at hl
        rw [← ha, ← List.reverse_inj, List.reverse_append, List.reverse_cons, List.reverse_reverse,
          List.reverse_reverse, List.append_assoc]
        exact hl.symm
      · intro c hc
        exact List.all_eq_true.mp List.all_takeWhile c (List.mem_reverse.mp hc)
    · contradiction
  · rintro ⟨trailing, rfl, ht⟩
    have hr : ∀ c ∈ trailing.reverse, Text.isBlank c = true := by simpa using ht
    have hd := (span_append hr (']' :: argument.reverse) (by simp; decide)).2
    unfold argument?
    simp [hd]

/-- The argument stands on the line of its opening bracket, and nothing but blanks come between its
closing bracket and a line end. -/
theorem argument?_line_eq_some_iff {body argument : List Char} :
    argument? (body.takeWhile (· != '\n')) = some argument ↔
      '\n' ∉ argument ∧ ∃ trailing rest, body = argument ++ ']' :: (trailing ++ rest) ∧
        (∀ c ∈ trailing, Text.isBlank c = true) ∧ ∀ c ∈ rest.head?, c = '\n' := by
  rw [argument?_eq_some_iff]
  constructor
  · rintro ⟨trailing, hl, ht⟩
    have hne : ∀ c ∈ argument ++ ']' :: trailing, (c != '\n') = true := by
      rw [← hl]
      exact fun c => List.mem_takeWhile_imp
    refine ⟨fun hm => ?_, trailing, body.dropWhile (· != '\n'), ?_, ht, fun c hc => ?_⟩
    · simpa using hne '\n' (List.mem_append_left _ hm)
    · have hb := List.takeWhile_append_dropWhile (p := (· != '\n')) (l := body)
      rw [hl] at hb
      rw [← List.cons_append, ← List.append_assoc]
      exact hb.symm
    · simpa using Text.head?_dropWhile _ _ c hc
  · rintro ⟨hn, trailing, rest, rfl, ht, hr⟩
    refine ⟨(trailing ++ rest).takeWhile (· != '\n'), ?_, ?_⟩
    · have ha : ∀ c ∈ argument ++ [']'], (c != '\n') = true := by
        intro c hc
        rcases List.mem_append.mp hc with hc | hc
        · simpa using fun he : c = '\n' => hn (he ▸ hc)
        · obtain rfl := List.mem_singleton.mp hc
          decide
      rw [List.append_cons, List.takeWhile_append_of_pos ha, List.append_assoc]
      rfl
    · intro c hc
      induction trailing with
      | nil =>
        cases rest with
        | nil => simp at hc
        | cons d rest =>
          obtain rfl : d = '\n' := hr d rfl
          simp at hc
      | cons b trailing ih =>
        rw [List.cons_append, List.takeWhile_cons] at hc
        split at hc
        · rcases List.mem_cons.mp hc with rfl | hc
          · exact ht _ List.mem_cons_self
          · exact ih (fun d hd => ht d (List.mem_cons_of_mem _ hd)) hc
        · simp at hc

theorem call?_eq_some_iff {cs tool argument : List Char} :
    call? cs = some (tool, argument) ↔
      ∃ rest, cs = tool ++ '[' :: rest ∧ tool ≠ [] ∧ (∀ c ∈ tool, isToolCharacter c = true) ∧
        argument? (rest.takeWhile (· != '\n')) = some argument := by
  constructor
  · intro h
    unfold call? at h
    split at h
    · next c name rest hn hd =>
      obtain ⟨found, ha, he⟩ := Option.map_eq_some_iff.mp h
      obtain ⟨rfl, rfl⟩ := Prod.mk.inj he
      refine ⟨rest, ?_, List.cons_ne_nil _ _, fun c hc => List.mem_takeWhile_imp (hn ▸ hc), ha⟩
      rw [← hn, ← hd, List.takeWhile_append_dropWhile]
    · contradiction
  · rintro ⟨rest, rfl, hne, ht, ha⟩
    obtain ⟨hw, hd⟩ := span_append ht ('[' :: rest) (by simp; decide)
    unfold call?
    rw [hw, hd]
    cases tool with
    | nil => contradiction
    | cons c name => simp [ha]

theorem assigned?_eq_some_iff {cs : List Char} {call : List Char × List Char} :
    assigned? cs = some call ↔
      ∃ before after rest, cs = before ++ '=' :: (after ++ rest) ∧
        (∀ c ∈ before, Text.isBlank c = true) ∧ (∀ c ∈ after, Text.isBlank c = true) ∧
        call? rest = some call := by
  constructor
  · intro h
    unfold assigned? at h
    split at h
    · next rest hd =>
      refine ⟨cs.takeWhile Text.isBlank, rest.takeWhile Text.isBlank, rest.dropWhile Text.isBlank, ?_,
        fun _ => List.mem_takeWhile_imp, fun _ => List.mem_takeWhile_imp, h⟩
      rw [List.takeWhile_append_dropWhile, ← hd, List.takeWhile_append_dropWhile]
    · contradiction
  · rintro ⟨before, after, rest, rfl, hb, ha, hc⟩
    have hr : ∀ c ∈ rest.head?, Text.isBlank c = false := by
      obtain ⟨body, rfl, hne, ht, -⟩ := call?_eq_some_iff.mp (show call? rest = some (call.1, call.2) from hc)
      intro c hc
      cases h : call.1 with
      | nil => exact absurd h hne
      | cons d name =>
        rw [h] at hc
        obtain rfl : d = c := by simpa using hc
        exact not_isBlank_of_isToolCharacter (ht d (h ▸ List.mem_cons_self))
    unfold assigned?
    rw [(span_append hb ('=' :: (after ++ rest)) (by simp; decide)).2]
    simp only [(span_append ha rest hr).2, hc]

/-- A step is found exactly where one heads the text. -/
theorem at?_eq_some_iff {cs : List Char} {step : Step} : at? cs = some step ↔ step.Heads cs := by
  constructor
  · intro h
    unfold at? at h
    split at h
    · next rest =>
      split at h
      · contradiction
      · next hne =>
        obtain ⟨⟨tool, argument⟩, ha, rfl⟩ := Option.map_eq_some_iff.mp h
        obtain ⟨before, after, called, hs, hb, hf, hc⟩ := assigned?_eq_some_iff.mp ha
        obtain ⟨body, rfl, htne, ht, hl⟩ := call?_eq_some_iff.mp hc
        obtain ⟨hn, trailing, later, rfl, hw, hr⟩ := argument?_line_eq_some_iff.mp hl
        refine ⟨⟨?_, ?_, ?_, ?_, ?_⟩, before, after, trailing, later, ?_, hb, hf, hw, hr⟩
        · simpa using hne
        · simpa using fun c => List.mem_takeWhile_imp (p := Text.isDigit)
        · simpa using htne
        · simpa using ht
        · simpa using hn
        · simp only [String.toList_ofList]
          rw [← hs, List.takeWhile_append_dropWhile]
    · contradiction
  · rintro ⟨hw, before, after, trailing, rest, rfl, hb, hf, ht, hr⟩
    have hl := argument?_line_eq_some_iff.mpr ⟨hw.oneLine, trailing, rest, rfl, ht, hr⟩
    have hc := call?_eq_some_iff.mpr ⟨_, rfl, hw.tool_ne, hw.toolCharacters, hl⟩
    have ha := assigned?_eq_some_iff.mpr ⟨before, after, _, rfl, hb, hf, hc⟩
    have he : ∀ c ∈ (before ++ '=' :: (after ++ (step.tool.toList ++
        '[' :: (step.argument.toList ++ ']' :: (trailing ++ rest))))).head?, Text.isDigit c = false := by
      intro c hc
      cases before with
      | nil =>
        obtain rfl : '=' = c := by simpa using hc
        decide +kernel
      | cons b before =>
        obtain rfl : b = c := by simpa using hc
        exact Text.not_isDigit_of_isBlank (hb b List.mem_cons_self)
    obtain ⟨hn, hd⟩ := span_append hw.digits _ he
    unfold at?
    simp only [hn, hd, ha]
    split
    · next hne => exact absurd hne hw.number_ne
    · simp

/-! ### Line by line -/

theorem at?_of_newline {rest : List Char} (h : ∀ c ∈ rest.head?, c = '\n') : at? rest = none := by
  cases rest with
  | nil => rfl
  | cons c rest =>
    obtain rfl : c = '\n' := h c rfl
    rfl

/-- Whether a line starts in front of a line end does not matter. -/
theorem allFrom_newline {rest : List Char} (h : ∀ c ∈ rest.head?, c = '\n') (lineStart : Bool) :
    allFrom lineStart rest = allFrom false rest := by
  have hn := at?_of_newline h
  cases rest with
  | nil => rfl
  | cons c rest =>
    unfold allFrom
    cases lineStart <;> simp [hn]

/-- No step starts in the middle of a line. -/
theorem allFrom_false_append {cs : List Char} (hc : '\n' ∉ cs) (rest : List Char) :
    allFrom false (cs ++ rest) = allFrom false rest := by
  induction cs with
  | nil => rfl
  | cons c cs ih =>
    obtain ⟨hne, hcs⟩ := List.ne_and_not_mem_of_not_mem_cons hc
    have hb : (c == '\n') = false := by simpa using Ne.symm hne
    rw [List.cons_append, allFrom, hb]
    simpa using ih hcs

/-- A line gives the step at its start, and the rest of the text is read on its own. -/
theorem allFrom_line {cs rest : List Char} (hc : '\n' ∉ cs) (hr : ∀ c ∈ rest.head?, c = '\n') :
    allFrom true (cs ++ rest) = (at? (cs ++ rest)).toList ++ allFrom false rest := by
  cases cs with
  | nil =>
    rw [List.nil_append, at?_of_newline hr, allFrom_newline hr]
    rfl
  | cons c cs =>
    obtain ⟨hne, hcs⟩ := List.ne_and_not_mem_of_not_mem_cons hc
    have hb : (c == '\n') = false := by simpa using Ne.symm hne
    have hrest := allFrom_false_append hcs rest
    rw [List.cons_append, allFrom, hb, hrest]
    cases at? (c :: (cs ++ rest)) <;> rfl

end Step

/-! ### Written plans -/

/-- A line of a plan. -/
inductive PlanLine where
  | step (step : Step)
  | prose (text : String)

namespace PlanLine

/-- A line as it is written. -/
def text : PlanLine → String
  | step s => s.id ++ " = " ++ s.tool ++ "[" ++ s.argument ++ "]"
  | prose text => text

def step? : PlanLine → Option Step
  | step s => some s
  | prose _ => none

/-- A step whose parts are well-formed, or a single line of prose that starts with no hash sign. -/
def Writable : PlanLine → Prop
  | step s => s.WellFormed
  | prose text => '\n' ∉ text.toList ∧ text.toList.head? ≠ some '#'

instance : (line : PlanLine) → Decidable line.Writable
  | step s => inferInstanceAs (Decidable s.WellFormed)
  | prose text => inferInstanceAs (Decidable ('\n' ∉ text.toList ∧ text.toList.head? ≠ some '#'))

theorem toList_text_step (s : Step) :
    (step s).text.toList = '#' :: 'E' :: (s.number.toList ++ ([' '] ++ '=' :: ([' '] ++ (s.tool.toList ++
      '[' :: (s.argument.toList ++ [']']))))) := by
  simp [text, Step.id]

/-- A writable line is a single line. -/
theorem Writable.newline_notMem {line : PlanLine} (h : line.Writable) : '\n' ∉ line.text.toList := by
  cases line with
  | prose text => exact h.1
  | step s =>
    have hs : s.WellFormed := h
    have hn : '\n' ∉ s.number.toList := fun hm =>
      absurd (hs.digits _ hm) (by decide +kernel)
    have ht : '\n' ∉ s.tool.toList := fun hm => absurd (hs.toolCharacters _ hm) (by decide)
    rw [toList_text_step]
    simp [hn, ht, hs.oneLine]

/-- A written line is read as its step, whatever lines follow it. -/
theorem Writable.at?_text {line : PlanLine} (h : line.Writable) {rest : List Char}
    (hr : ∀ c ∈ rest.head?, c = '\n') : Step.at? (line.text.toList ++ rest) = line.step? := by
  cases line with
  | step s =>
    refine Step.at?_eq_some_iff.mpr ⟨h, [' '], [' '], [], rest, ?_, ?_, ?_, ?_, hr⟩
    · rw [toList_text_step]
      simp
    · simp [Text.isBlank]
    · simp [Text.isBlank]
    · simp
  | prose text =>
    change Step.at? (text.toList ++ rest) = none
    cases ht : text.toList with
    | nil => exact Step.at?_of_newline hr
    | cons c cs =>
      have hc : c ≠ '#' := fun he => h.2 (by rw [ht, he]; rfl)
      unfold Step.at?
      split
      · next he =>
        obtain ⟨rfl, -⟩ := List.cons.inj he
        contradiction
      · rfl

theorem allFrom_lines {lines : List PlanLine} (h : ∀ line ∈ lines, line.Writable) :
    Step.allFrom true (['\n'].intercalate (lines.map (·.text.toList))) = lines.filterMap step? := by
  induction lines with
  | nil => rfl
  | cons line lines ih =>
    obtain ⟨hl, hls⟩ := List.forall_mem_cons.mp h
    have hf : (line :: lines).filterMap step? = line.step?.toList ++ lines.filterMap step? := by
      cases hs : line.step? <;> simp [hs]
    cases lines with
    | nil =>
      have hn : ∀ c ∈ ([] : List Char).head?, c = '\n' := by simp
      have he : Step.allFrom false [] = [] := rfl
      have ha := Step.allFrom_line hl.newline_notMem hn
      rw [hl.at?_text hn, List.append_nil, he] at ha
      rw [hf]
      simpa using ha
    | cons next lines =>
      have hn : ∀ c ∈ ('\n' :: ['\n'].intercalate ((next :: lines).map (·.text.toList))).head?, c = '\n' := by
        simp
      have ha := Step.allFrom_line hl.newline_notMem hn
      rw [hl.at?_text hn] at ha
      rw [hf, ← ih hls, List.map_cons, List.map_cons, List.intercalate_cons_cons, List.append_assoc]
      refine ha.trans ?_
      rw [Step.allFrom]
      simp

end PlanLine

/-- A plan that is written line by line is read back as its steps, in order and as they were. -/
theorem planSteps_written (lines : List PlanLine) (h : ∀ line ∈ lines, line.Writable) :
    planSteps ("\n".intercalate (lines.map (·.text))) = lines.filterMap PlanLine.step? := by
  unfold planSteps
  rw [String.toList_intercalate, List.map_map]
  exact PlanLine.allFrom_lines h

/-- Brackets, hash signs and blanks in an argument, blank lines after a step, and prose that looks like
a step. -/
theorem planSteps_written_brackets :
    let lines : List PlanLine :=
      [.prose "Plan: look around", .step ⟨"1", "ListFiles", "."⟩, .prose "", .prose " \t",
        .step ⟨"02", "Read_File", "#E1] = [x #E9 = T[y]  "⟩, .prose " #E3 = ListFiles[.]",
        .step ⟨"1", "SearchText", "] "⟩]
    (∀ line ∈ lines, line.Writable) ∧
      planSteps ("\n".intercalate (lines.map (·.text))) =
        [⟨"1", "ListFiles", "."⟩, ⟨"02", "Read_File", "#E1] = [x #E9 = T[y]  "⟩,
          ⟨"1", "SearchText", "] "⟩] := by
  intro lines
  have hw : ∀ line ∈ lines, line.Writable := by decide +kernel
  exact ⟨hw, planSteps_written lines hw⟩

end PlanAssistant
