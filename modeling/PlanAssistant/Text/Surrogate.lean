import PlanAssistant.Interpreter

/-!
Surrogates in texts.  A text that holds one cannot be encoded.  Names of files are more lenient: a byte
that could not be read as text is a surrogate in them, and is written as that byte again.
-/
namespace PlanAssistant.Text

theorem not_isSurrogate_toNat (c : Char) : isSurrogate c.toNat = false := by
  have hvalid : c.toNat < 0xD800 ∨ 0xDFFF < c.toNat ∧ c.toNat < 0x110000 := c.valid
  simp only [isSurrogate, Bool.and_eq_false_iff, decide_eq_false_iff_not]
  omega

variable [Interpreter]

/-- The code point of a character, or of the surrogate it stands for. -/
def codePoint (c : Char) : Nat := (Interpreter.surrogate? c).getD c.toNat

/-- Whether a character stands for no surrogate. -/
def isProper (c : Char) : Bool := (Interpreter.surrogate? c).isNone

/-- What a text is in a file, unless it holds a surrogate. -/
def encode? (text : String) : Option ByteArray :=
  if text.toList.all isProper then some text.toUTF8 else none

theorem eq_of_encode? {text : String} {content : ByteArray} (h : encode? text = some content) :
    content = text.toUTF8 := by
  unfold encode? at h
  split at h
  · exact (Option.some.inj h).symm
  · contradiction

/-! ### The order of texts -/

def codePoints (text : String) : List Nat := text.toList.map codePoint

/-- Texts are ordered by their code points. -/
def precedes (a b : String) : Bool := (codePoints a).lex (codePoints b) fun x y => decide (x < y)

theorem precedes_iff {a b : String} :
    precedes a b = true ↔ List.Lex (· < ·) (codePoints a) (codePoints b) := by
  rw [precedes, List.lex_eq_true_iff_lex]
  simp only [decide_eq_true_eq]

theorem precedes_asymm {a b : String} (h : precedes a b = true) : precedes b a = false := by
  rw [← Bool.not_eq_true, precedes_iff]
  exact List.lex_asymm Nat.lt_asymm (precedes_iff.mp h)

theorem precedes_trans {a b c : String} (h : precedes a b = true) (h' : precedes b c = true) :
    precedes a c = true :=
  precedes_iff.mpr (List.lex_trans Nat.lt_trans (precedes_iff.mp h) (precedes_iff.mp h'))

theorem codePoint_inj {c d : Char} (h : codePoint c = codePoint d) : c = d := by
  -- no character has the code of a surrogate
  have hapart : ∀ {e : Char} {code : Nat}, isSurrogate code = true → code ≠ e.toNat := by
    rintro e _ hcode rfl
    exact nomatch hcode.symm.trans (not_isSurrogate_toNat e)
  unfold codePoint at h
  cases hc : Interpreter.surrogate? c with
  | some code =>
    obtain ⟨hcode, rfl⟩ := (Interpreter.surrogate?_eq_some_iff c code).mp hc
    cases hd : Interpreter.surrogate? d with
    | some other =>
      obtain ⟨-, rfl⟩ := (Interpreter.surrogate?_eq_some_iff d other).mp hd
      rw [hc, hd] at h
      exact congrArg Interpreter.standIn h
    | none =>
      rw [hc, hd] at h
      exact absurd h (hapart hcode)
  | none =>
    cases hd : Interpreter.surrogate? d with
    | some other =>
      obtain ⟨hother, rfl⟩ := (Interpreter.surrogate?_eq_some_iff d other).mp hd
      rw [hc, hd] at h
      exact absurd h.symm (hapart hother)
    | none =>
      rw [hc, hd] at h
      exact Char.toNat_inj.mp h

/-- Of two texts one precedes the other, unless they are the same. -/
theorem eq_of_not_precedes {a b : String} (h : precedes a b = false) (h' : precedes b a = false) :
    a = b := by
  rw [← Bool.not_eq_true, precedes_iff] at h h'
  have hcodes : codePoints a = codePoints b := List.le_antisymm h' h
  exact String.toList_inj.mp ((List.map_inj_right fun _ _ => codePoint_inj).mp hcodes)

theorem not_precedes_trans {a b c : String} (h : precedes b a = false) (h' : precedes c b = false) :
    precedes c a = false := by
  cases hab : precedes a b with
  | false => rwa [eq_of_not_precedes hab h]
  | true =>
    rw [← Bool.not_eq_true] at h' ⊢
    exact fun hca => h' (precedes_trans hca hab)

/-! ### Names of files -/

/-- Surrogates that a byte is read as. -/
def isEscapedByte (code : Nat) : Bool := 0xDC80 ≤ code && code < 0xDD00

/-- Whether a character can be written in the name of a file. -/
def isNameCharacter (c : Char) : Bool := (Interpreter.surrogate? c).all isEscapedByte

/-- The bytes that a character takes in the name of a file. -/
def charSize (c : Char) : Nat := if isProper c then c.utf8Size else 1

/-- The bytes that a name of a file takes. -/
def byteSize (name : String) : Nat := name.toList.foldr (fun c size => charSize c + size) 0

theorem isProper_of_lt {c : Char} (h : c.toNat < 0xE000) : isProper c = true := by
  rw [isProper, Option.isNone_iff_eq_none, Option.eq_none_iff_forall_ne_some]
  intro code hs
  obtain ⟨hcode, rfl⟩ := (Interpreter.surrogate?_eq_some_iff c code).mp hs
  have hp := Interpreter.isPrivateUse_standIn code hcode
  simp only [isPrivateUse, Bool.or_eq_true, Bool.and_eq_true, decide_eq_true_eq] at hp
  omega

theorem isNameCharacter_of_isProper {c : Char} (h : isProper c = true) : isNameCharacter c = true := by
  rw [isNameCharacter, Option.isNone_iff_eq_none.mp h]
  rfl

theorem charSize_pos (c : Char) : 0 < charSize c := by
  unfold charSize
  split
  · exact c.utf8Size_pos
  · exact Nat.one_pos

/-- Names have as many bytes as characters, or more. -/
theorem length_le_byteSize (name : String) : name.toList.length ≤ byteSize name := by
  unfold byteSize
  induction name.toList with
  | nil => exact Nat.zero_le _
  | cons c cs ih =>
    have hc := charSize_pos c
    rw [List.length_cons, List.foldr_cons]
    omega

theorem byteSize_append (a b : String) : byteSize (a ++ b) = byteSize a + byteSize b := by
  have hsize : ∀ (cs : List Char) (size : Nat), cs.foldr (fun c size => charSize c + size) size =
      cs.foldr (fun c size => charSize c + size) 0 + size := by
    intro cs size
    induction cs with
    | nil => exact (Nat.zero_add size).symm
    | cons c cs ih => rw [List.foldr_cons, List.foldr_cons, ih, Nat.add_assoc]
  rw [byteSize, String.toList_append, List.foldr_append, hsize]
  rfl

end PlanAssistant.Text
