import PlanAssistant.Json
import PlanAssistant.Proofs.Text.Readers

/-!
The limits of the JSON reader, and what in a text goes beyond them: a whole number with too many digits
stands there digit for digit, and too deep a nesting has as many brackets.  So a text without such a
number and without so many brackets is read, or is no JSON at all.
-/
namespace PlanAssistant.Json

open Text (Reads Lasting Rest lasting_rest)

/-- The characters that open a list or a record. -/
def isOpening (c : Char) : Bool := c == '[' || c == '\x7b'

/-- Where a fault comes from in a text that is read with room for `depth` levels. -/
inductive Cause (depth : Nat) (cs : List Char) : Error → Prop
  | malformed : Cause depth cs .malformed
  | tooManyDigits {run : List Char} (digits : ∀ c ∈ run, Text.isAsciiDigit c = true)
      (inside : run <:+: cs) (long : digitLimit < run.length) :
    Cause depth cs (.tooManyDigits run.length)
  | nestedTooDeep (deep : depth < cs.countP isOpening) : Cause depth cs .nestedTooDeep

theorem lasting_cause (depth : Nat) : Lasting (Cause depth) := by
  intro cs more fault hs h
  cases h with
  | malformed => exact .malformed
  | tooManyDigits digits inside long => exact .tooManyDigits digits (inside.trans hs.isInfix) long
  | nestedTooDeep deep => exact .nestedTooDeep (Nat.lt_of_lt_of_le deep (hs.sublist.countP_le))

/-- A level deeper, there is room for one level less, and one bracket more in the whole text. -/
theorem Cause.deeper {depth : Nat} {c : Char} {cs more : List Char} {fault : Error}
    (h : Cause depth more fault) (hc : isOpening c = true) (hs : more <:+ cs) :
    Cause (depth + 1) (c :: cs) fault := by
  cases h with
  | malformed => exact .malformed
  | tooManyDigits digits inside long =>
    exact .tooManyDigits digits (inside.trans (hs.isInfix.trans (List.suffix_cons c cs).isInfix)) long
  | nestedTooDeep deep =>
    refine .nestedTooDeep ?_
    have hle := hs.sublist.countP_le (p := isOpening)
    rw [List.countP_cons_of_pos hc]
    omega

theorem span_replicate {p : Char → Bool} {c : Char} (h : p c = true) (count : Nat) :
    (List.replicate count c).span p = (List.replicate count c, []) := by
  rw [List.span_eq_takeWhile_dropWhile]
  simp [h]

/-! ### Readers of the parts -/

section Parts

variable (depth : Nat) {cs rest : List Char}

theorem skipSpaces_suffix (cs : List Char) : skipSpaces cs <:+ cs := List.dropWhile_suffix _

theorem skipSpaces_replicate {c : Char} (h : isSpace c = false) (count : Nat) :
    skipSpaces (List.replicate count c) = List.replicate count c := by
  rw [skipSpaces, List.dropWhile_replicate, h, if_neg Bool.false_ne_true]

theorem hexFour?_suffix {value : Nat} (h : hexFour? cs = some (value, rest)) : rest <:+ cs := by
  unfold hexFour? at h
  split at h
  · next a b c d more =>
    simp only [Option.bind_eq_bind, Option.bind_eq_some_iff, Option.pure_def, Option.some.injEq,
      Prod.mk.injEq] at h
    obtain ⟨_, -, _, -, _, -, _, -, -, rfl⟩ := h
    exact ⟨[a, b, c, d], rfl⟩
  · contradiction

theorem readWhole_eq_some {digits : List Char} (h : readWhole cs = some (digits, rest)) :
    digits <:+: cs ∧ rest <:+ cs ∧ ∀ c ∈ digits, Text.isAsciiDigit c = true := by
  unfold readWhole at h
  split at h
  · next more =>
    obtain ⟨rfl, rfl⟩ := Prod.mk.inj (Option.some.inj h)
    refine ⟨(List.prefix_append ['0'] more).isInfix, List.suffix_cons _ _, fun c hc => ?_⟩
    rw [List.mem_singleton.mp hc]
    rfl
  · split at h
    · next c more _ _ =>
      have hd := Option.some.inj h
      rw [show digits = ((c :: more).span Text.isAsciiDigit).1 by rw [hd],
        show rest = ((c :: more).span Text.isAsciiDigit).2 by rw [hd]]
      exact ⟨Text.span_infix _ _, Text.span_suffix _ _, Text.forall_mem_span⟩
    · contradiction
  · contradiction

theorem readFraction_suffix {digits : List Char} (h : readFraction cs = some (digits, rest)) :
    rest <:+ cs := by
  unfold readFraction at h
  split at h
  · next more =>
    dsimp only at h
    split at h
    · contradiction
    · obtain ⟨-, rfl⟩ := Prod.mk.inj (Option.some.inj h)
      exact (Text.span_suffix _ more).trans (List.suffix_cons _ more)
  · contradiction

theorem readExponent_suffix {power : Int} (h : readExponent cs = some (power, rest)) :
    rest <:+ cs := by
  unfold readExponent at h
  split at h
  · next e more =>
    split at h
    · split at h
      next negative unsigned hsign =>
      have hs : unsigned <:+ more := by
        split at hsign
        · next after =>
          obtain ⟨-, rfl⟩ := Prod.mk.inj hsign
          exact List.suffix_cons '-' after
        · next after =>
          obtain ⟨-, rfl⟩ := Prod.mk.inj hsign
          exact List.suffix_cons '+' after
        · obtain ⟨-, rfl⟩ := Prod.mk.inj hsign
          exact List.suffix_rfl
      dsimp only at h
      split at h
      · contradiction
      · obtain ⟨-, rfl⟩ := Prod.mk.inj (Option.some.inj h)
        exact (Text.span_suffix _ unsigned).trans (hs.trans (List.suffix_cons e more))
    · contradiction
  · contradiction

theorem reads_readNumber (negative : Bool) (cs : List Char) :
    Reads (Cause depth) Rest cs (readNumber negative cs) := by
  unfold readNumber
  split
  · exact .failed .malformed
  next whole rest hw =>
  obtain ⟨hin, hs, hd⟩ := readWhole_eq_some hw
  -- the digits are too many only where neither a fraction nor an exponent follows them
  cases hf : readFraction rest with
  | none =>
    rw [Option.elim_none]
    cases hp : readExponent rest with
    | none =>
      dsimp only
      split
      · next hl => exact .failed (.tooManyDigits hd hin hl)
      · exact .read hs
    | some power => exact .read ((readExponent_suffix hp).trans hs)
  | some fraction =>
    have hfs := readFraction_suffix hf
    rw [Option.elim_some]
    cases hp : readExponent fraction.2 with
    | none => exact .read (hfs.trans hs)
    | some power => exact .read ((readExponent_suffix hp).trans (hfs.trans hs))

theorem readWord?_suffix {value : Datum} (h : readWord? cs = some (value, rest)) : rest <:+ cs := by
  unfold readWord? at h
  obtain ⟨⟨word, value⟩, -, hw⟩ := Option.map_eq_some_iff.mp h
  obtain ⟨-, rfl⟩ := Prod.mk.inj hw
  exact List.drop_suffix _ _

theorem reads_readSeparator (close : Char) (cs : List Char) :
    Reads (Cause depth) Rest cs (readSeparator close cs) := by
  have hs := skipSpaces_suffix cs
  unfold readSeparator
  split
  · next c rest hc =>
    rw [hc] at hs
    have hr := (List.suffix_cons c rest).trans hs
    split
    · exact .read hr
    · split
      · exact .read hr
      · exact .failed .malformed
  · exact .failed .malformed

end Parts

variable [Interpreter]

section Strings

variable (depth : Nat) {cs rest : List Char}

theorem escapedUnit?_suffix {c : Char} (h : escapedUnit? cs = some (c, rest)) : rest <:+ cs := by
  unfold escapedUnit? at h
  simp only [Option.bind_eq_bind, Option.bind_eq_some_iff, Prod.exists] at h
  obtain ⟨unit, first, hf, h⟩ := h
  have hs := hexFour?_suffix hf
  split at h
  · split at h
    · next more _ =>
      split at h
      · next low after hl =>
        split at h
        · obtain ⟨-, rfl⟩ := Prod.mk.inj (Option.some.inj h)
          exact ((hexFour?_suffix hl).trans (List.suffix_append ['\\', 'u'] more)).trans hs
        · obtain ⟨-, rfl⟩ := Prod.mk.inj (Option.some.inj h)
          exact hs
      · obtain ⟨-, rfl⟩ := Prod.mk.inj (Option.some.inj h)
        exact hs
    · obtain ⟨-, rfl⟩ := Prod.mk.inj (Option.some.inj h)
      exact hs
  · obtain ⟨-, rfl⟩ := Prod.mk.inj (Option.some.inj h)
    exact hs

theorem reads_readString (taken cs : List Char) (steps : Nat) :
    Reads (Cause depth) Rest cs (readString taken cs steps) := by
  induction steps generalizing taken cs with
  | zero => exact .failed .malformed
  | succ steps ih =>
    have hone (c : Char) (rest : List Char) : rest <:+ c :: rest := List.suffix_cons c rest
    unfold readString
    split
    · exact .failed .malformed
    · next rest => exact .read (hone _ rest)
    · next rest =>
      split
      · next c after he =>
        exact (ih _ after).later (lasting_cause depth)
          ((escapedUnit?_suffix he).trans (List.suffix_append ['\\', 'u'] rest))
      · exact .failed .malformed
    · next c rest _ =>
      split
      · exact (ih _ rest).later (lasting_cause depth) (List.suffix_append ['\\', c] rest)
      · exact .failed .malformed
    · next c rest _ _ _ =>
      split
      · exact .failed .malformed
      · exact (ih _ rest).later (lasting_cause depth) (hone c rest)

theorem reads_readKey (cs : List Char) : Reads (Cause depth) Rest cs (readKey cs) := by
  unfold readKey
  split
  · next start =>
    have h := reads_readString depth [] start (start.length + 1)
    generalize readString [] start (start.length + 1) = key at h ⊢
    have hq := List.suffix_cons '"' start
    cases h with
    | failed h => exact .failed (lasting_cause depth hq h)
    | @read value h =>
      obtain ⟨key, rest⟩ := value
      have hs := skipSpaces_suffix rest
      dsimp only
      split
      · next more hc =>
        rw [hc] at hs
        exact .read ((skipSpaces_suffix more).trans ((List.suffix_cons ':' more).trans
          (hs.trans (h.trans hq))))
      · exact .failed .malformed
  · exact .failed .malformed

end Strings

/-! ### Values -/

/-- Whatever is read of the parts, a value is read of a text that starts with it. -/
theorem reads_readValue {steps : Nat}
    (hitems : ∀ depth taken cs, Reads (Cause depth) Rest cs (readItems steps depth taken cs))
    (hfields : ∀ depth taken cs, Reads (Cause depth) Rest cs (readFields steps depth taken cs))
    (depth : Nat) (cs : List Char) :
    Reads (Cause depth) Rest cs (readValue (steps + 1) depth cs) := by
  unfold readValue
  split
  · next rest =>
    have hq := List.suffix_cons '"' rest
    exact ((reads_readString depth [] rest _).later (lasting_cause depth) hq).map fun _ h => h
  · next rest =>
    have ho : isOpening '[' = true := by decide
    split
    · exact .failed (.nestedTooDeep (by rw [List.countP_cons_of_pos ho]; omega))
    next depth =>
    have hs := skipSpaces_suffix rest
    split
    · next after hc =>
      rw [hc] at hs
      exact .read ((List.suffix_cons ']' after).trans (hs.trans (List.suffix_cons '[' rest)))
    · exact ((hitems depth [] _).imp (fun _ h => h.deeper ho hs) fun _ h =>
        lasting_rest (hs.trans (List.suffix_cons '[' rest)) h).map fun _ h => h
  · next rest =>
    have ho : isOpening '\x7b' = true := by decide
    split
    · exact .failed (.nestedTooDeep (by rw [List.countP_cons_of_pos ho]; omega))
    next depth =>
    have hs := skipSpaces_suffix rest
    split
    · next after hc =>
      rw [hc] at hs
      exact .read ((List.suffix_cons '\x7d' after).trans (hs.trans (List.suffix_cons '\x7b' rest)))
    · exact ((hfields depth [] _).imp (fun _ h => h.deeper ho hs) fun _ h =>
        lasting_rest (hs.trans (List.suffix_cons '\x7b' rest)) h).map fun _ h => h
  · split
    · next word hw => exact .read (readWord?_suffix hw)
    · next rest _ _ _ _ =>
      exact (reads_readNumber depth true rest).later (lasting_cause depth) (List.suffix_cons '-' rest)
    · exact reads_readNumber depth false _

theorem reads_readItems {steps : Nat}
    (hvalue : ∀ depth cs, Reads (Cause depth) Rest cs (readValue steps depth cs))
    (hitems : ∀ depth taken cs, Reads (Cause depth) Rest cs (readItems steps depth taken cs))
    (depth : Nat) (taken : List Datum) (cs : List Char) :
    Reads (Cause depth) Rest cs (readItems (steps + 1) depth taken cs) := by
  unfold readItems
  have hv := hvalue depth cs
  generalize readValue steps depth cs = value at hv ⊢
  cases hv with
  | failed h => exact .failed h
  | @read value hv =>
    obtain ⟨item, rest⟩ := value
    have hs := (reads_readSeparator depth ']' rest).later (lasting_cause depth) hv
    dsimp only
    generalize readSeparator ']' rest = separator at hs ⊢
    cases hs with
    | failed h => exact .failed h
    | @read separator hs =>
      obtain ⟨separator, after⟩ := separator
      cases separator with
      | done => exact .read hs
      | more =>
        exact (hitems depth _ _).later (lasting_cause depth)
          ((skipSpaces_suffix after).trans hs)

theorem reads_readFields {steps : Nat}
    (hvalue : ∀ depth cs, Reads (Cause depth) Rest cs (readValue steps depth cs))
    (hfields : ∀ depth taken cs, Reads (Cause depth) Rest cs (readFields steps depth taken cs))
    (depth : Nat) (taken : List (String × Datum)) (cs : List Char) :
    Reads (Cause depth) Rest cs (readFields (steps + 1) depth taken cs) := by
  unfold readFields
  have hk := reads_readKey depth cs
  generalize readKey cs = key at hk ⊢
  cases hk with
  | failed h => exact .failed h
  | @read key hk =>
    obtain ⟨key, rest⟩ := key
    have hv := (hvalue depth rest).later (lasting_cause depth) hk
    dsimp only
    generalize readValue steps depth rest = value at hv ⊢
    cases hv with
    | failed h => exact .failed h
    | @read value hv =>
      obtain ⟨value, rest⟩ := value
      have hs := (reads_readSeparator depth '\x7d' rest).later (lasting_cause depth) hv
      dsimp only
      generalize readSeparator '\x7d' rest = separator at hs ⊢
      cases hs with
      | failed h => exact .failed h
      | @read separator hs =>
        obtain ⟨separator, after⟩ := separator
        cases separator with
        | done => exact .read hs
        | more =>
          exact (hfields depth _ _).later (lasting_cause depth)
            ((skipSpaces_suffix after).trans hs)

theorem reads_all (steps : Nat) :
    (∀ depth cs, Reads (Cause depth) Rest cs (readValue steps depth cs)) ∧
      (∀ depth taken cs, Reads (Cause depth) Rest cs (readItems steps depth taken cs)) ∧
        ∀ depth taken cs, Reads (Cause depth) Rest cs (readFields steps depth taken cs) := by
  induction steps with
  | zero =>
    refine ⟨fun depth cs => ?_, fun depth taken cs => ?_, fun depth taken cs => ?_⟩
    · unfold readValue
      exact .failed .malformed
    · unfold readItems
      exact .failed .malformed
    · unfold readFields
      exact .failed .malformed
  | succ steps ih =>
    obtain ⟨hvalue, hitems, hfields⟩ := ih
    exact ⟨reads_readValue hitems hfields, reads_readItems hvalue hitems, reads_readFields hvalue hfields⟩

/-- A text that is not read has the cause in it. -/
theorem cause_of_parse {text : String} {fault : Error} (h : parse text = .error fault) :
    Cause Interpreter.jsonDepth text.toList fault := by
  have hv := ((reads_all (2 * text.toList.length + 2)).1 Interpreter.jsonDepth (skipSpaces text.toList)).later
    (lasting_cause Interpreter.jsonDepth) (skipSpaces_suffix text.toList)
  unfold parse at h
  dsimp only at h
  generalize readValue _ Interpreter.jsonDepth (skipSpaces text.toList) = value at hv h
  cases hv with
  | failed hc =>
    obtain rfl := Except.error.inj h
    exact hc
  | read _ =>
    dsimp only at h
    split at h
    · contradiction
    · obtain rfl := Except.error.inj h
      exact .malformed

/-! ### Texts beyond the limits -/

/-- A number of so many ones. -/
def ones (count : Nat) : String := String.ofList (List.replicate count '1')

/-- So many opening brackets. -/
def brackets (count : Nat) : String := String.ofList (List.replicate count '[')

theorem parse_of_readValue {cs : List Char} {fault : Error} (hs : skipSpaces cs = cs)
    (h : readValue (2 * cs.length + 2) Interpreter.jsonDepth cs = .error fault) :
    parse (String.ofList cs) = .error fault := by
  unfold parse
  dsimp only
  rw [String.toList_ofList, hs, h]

/-- Numbers have no more digits than the reader takes. -/
theorem parse_ones {count : Nat} (h : digitLimit < count) :
    parse (ones count) = .error (.tooManyDigits count) := by
  have hnumber : readNumber false (List.replicate count '1') = .error (.tooManyDigits count) := by
    obtain ⟨rest, rfl⟩ : ∃ rest, count = rest + 1 := ⟨count - 1, by omega⟩
    have hwhole : readWhole (List.replicate (rest + 1) '1') =
        some (List.replicate (rest + 1) '1', []) := by
      rw [← span_replicate (p := Text.isAsciiDigit) (c := '1') (by decide)]
      rfl
    unfold readNumber
    rw [hwhole]
    dsimp only [readFraction, readExponent, Option.elim_none]
    rw [List.length_replicate, if_pos h]
  obtain ⟨rest, rfl⟩ : ∃ rest, count = rest + 1 := ⟨count - 1, by omega⟩
  have hword : readWord? (List.replicate (rest + 1) '1') = none := rfl
  refine parse_of_readValue (skipSpaces_replicate (by decide) _) ?_
  rw [List.replicate_succ] at hword hnumber ⊢
  unfold readValue
  dsimp only
  rw [hword]
  exact hnumber

/-- A list that does not close at once has items, a level deeper. -/
theorem readValue_list {steps depth : Nat} {rest : List Char}
    (h : ∀ after, skipSpaces rest ≠ ']' :: after) :
    readValue (steps + 1) (depth + 1) ('[' :: rest) =
      (readItems steps depth [] (skipSpaces rest)).map fun (items, after) => (.list items, after) := by
  unfold readValue
  dsimp only
  split
  case h_2 inner heq =>
    obtain ⟨-, rfl⟩ := List.cons.inj heq
    split
    · next after hc => exact absurd hc (h after)
    · rfl
  case h_4 hlist _ => exact (hlist rest rfl).elim
  all_goals next heq => exact absurd (List.cons.inj heq).1 (by decide)

/-- Brackets are opened no deeper than the reader follows. -/
theorem readValue_brackets {steps depth count : Nat} (hs : 2 * depth < steps) (hc : depth < count) :
    readValue steps depth (List.replicate count '[') = .error .nestedTooDeep := by
  induction depth generalizing steps count with
  | zero =>
    obtain ⟨steps, rfl⟩ : ∃ more, steps = more + 1 := ⟨steps - 1, by omega⟩
    obtain ⟨count, rfl⟩ : ∃ more, count = more + 1 := ⟨count - 1, by omega⟩
    rw [List.replicate_succ]
    unfold readValue
    rfl
  | succ depth ih =>
    obtain ⟨steps, rfl⟩ : ∃ more, steps = more + 2 := ⟨steps - 2, by omega⟩
    obtain ⟨count, rfl⟩ : ∃ more, count = more + 2 := ⟨count - 2, by omega⟩
    have hinner : readValue steps depth (List.replicate (count + 1) '[') = .error .nestedTooDeep :=
      ih (by omega) (by omega)
    have hspaces := skipSpaces_replicate (c := '[') (by decide) (count + 1)
    have hopen : ∀ after, skipSpaces (List.replicate (count + 1) '[') ≠ ']' :: after := by
      rw [hspaces, List.replicate_succ]
      exact fun after h => absurd (List.cons.inj h).1 (by decide)
    rw [List.replicate_succ, readValue_list hopen, hspaces]
    unfold readItems
    rw [hinner]
    rfl

theorem parse_brackets {count : Nat} (h : Interpreter.jsonDepth < count) :
    parse (brackets count) = .error .nestedTooDeep := by
  refine parse_of_readValue (skipSpaces_replicate (by decide) _) (readValue_brackets ?_ h)
  rw [List.length_replicate]
  omega

end PlanAssistant.Json
