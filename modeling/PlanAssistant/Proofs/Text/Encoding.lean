import PlanAssistant.Text.Utf8

/-!
Encoded texts.  A byte sequence starts with the code of a character exactly when it starts with the bytes
the character is encoded as: the bounds of the second byte leave out the longer spellings of a code, the
surrogates and what is beyond the last character.  So decoding is the inverse of encoding, and what it
refuses is no UTF-8.
-/
namespace PlanAssistant.Text

variable {missing code n : Nat} {low high b : UInt8} {bytes rest : List UInt8} {c : Char}

/-! ### One character -/

/-- A lead byte by its value. -/
theorem leadByte_eq (b : UInt8) : leadByte b =
    if b.toNat < 0x80 then some (0, 0x80, 0xBF, b.toNat)
    else if b.toNat < 0xC2 then none
    else if b.toNat < 0xE0 then some (1, 0x80, 0xBF, b.toNat - 0xC0)
    else if b.toNat = 0xE0 then some (2, 0xA0, 0xBF, 0)
    else if b.toNat = 0xED then some (2, 0x80, 0x9F, 0xD)
    else if b.toNat < 0xF0 then some (2, 0x80, 0xBF, b.toNat - 0xE0)
    else if b.toNat = 0xF0 then some (3, 0x90, 0xBF, 0)
    else if b.toNat < 0xF4 then some (3, 0x80, 0xBF, b.toNat - 0xF0)
    else if b.toNat = 0xF4 then some (3, 0x80, 0x8F, 4)
    else none := by
  simp only [leadByte, UInt8.lt_iff_toNat_lt, beq_iff_eq, ← UInt8.toNat_inj]
  rfl

/-- The lead byte of a character of two bytes. -/
theorem leadByte_two (hl : 0xC2 ≤ b.toNat) (hh : b.toNat < 0xE0) :
    leadByte b = some (1, 0x80, 0xBF, b.toNat - 0xC0) := by
  grind [leadByte_eq]

/-- After the lead byte of a character of three bytes, the bounds of the second byte leave out the codes
that need two bytes only and the surrogates. -/
theorem leadByte_three (hl : 0xE0 ≤ b.toNat) (hh : b.toNat < 0xF0) :
    ∃ low high, leadByte b = some (2, low, high, b.toNat - 0xE0) ∧ ∀ d : UInt8, low ≤ d ∧ d ≤ high ↔
      0x80 ≤ d.toNat ∧ d.toNat ≤ 0xBF ∧ 0x20 ≤ (b.toNat - 0xE0) * 64 + (d.toNat - 0x80) ∧
        ¬ (0x360 ≤ (b.toNat - 0xE0) * 64 + (d.toNat - 0x80) ∧
          (b.toNat - 0xE0) * 64 + (d.toNat - 0x80) < 0x380) := by
  by_cases he : b.toNat = 0xE0
  · refine ⟨0xA0, 0xBF, by simp [leadByte_eq, he], fun d => ?_⟩
    simp only [UInt8.le_iff_toNat_le, UInt8.reduceToNat]
    omega
  by_cases hd : b.toNat = 0xED
  · refine ⟨0x80, 0x9F, by simp [leadByte_eq, hd], fun d => ?_⟩
    simp only [UInt8.le_iff_toNat_le, UInt8.reduceToNat]
    omega
  · refine ⟨0x80, 0xBF, by grind [leadByte_eq], fun d => ?_⟩
    simp only [UInt8.le_iff_toNat_le, UInt8.reduceToNat]
    omega

/-- After the lead byte of a character of four bytes, the bounds of the second byte leave out the codes
that need three bytes only and those beyond the last character. -/
theorem leadByte_four (hl : 0xF0 ≤ b.toNat) (hh : b.toNat < 0xF5) :
    ∃ low high, leadByte b = some (3, low, high, b.toNat - 0xF0) ∧ ∀ d : UInt8, low ≤ d ∧ d ≤ high ↔
      0x80 ≤ d.toNat ∧ d.toNat ≤ 0xBF ∧ 0x10 ≤ (b.toNat - 0xF0) * 64 + (d.toNat - 0x80) ∧
        (b.toNat - 0xF0) * 64 + (d.toNat - 0x80) < 0x110 := by
  by_cases hz : b.toNat = 0xF0
  · refine ⟨0x90, 0xBF, by simp [leadByte_eq, hz], fun d => ?_⟩
    simp only [UInt8.le_iff_toNat_le, UInt8.reduceToNat]
    omega
  by_cases hf : b.toNat = 0xF4
  · refine ⟨0x80, 0x8F, by simp [leadByte_eq, hf], fun d => ?_⟩
    simp only [UInt8.le_iff_toNat_le, UInt8.reduceToNat]
    omega
  · refine ⟨0x80, 0xBF, by grind [leadByte_eq], fun d => ?_⟩
    simp only [UInt8.le_iff_toNat_le, UInt8.reduceToNat]
    omega

theorem continuation_zero : continuation 0 low high code bytes = (some code, bytes) := by
  cases bytes <;> rfl

theorem continuation_succ_eq_some_iff :
    continuation (missing + 1) low high code bytes = (some n, rest) ↔
      ∃ d more, bytes = d :: more ∧ (low ≤ d ∧ d ≤ high) ∧
        continuation missing 0x80 0xBF (code * 64 + (d.toNat - 0x80)) more = (some n, rest) := by
  cases bytes with
  | nil => simp [continuation]
  | cons d more =>
    rw [continuation]
    constructor
    · intro h
      split at h
      · next hd => exact ⟨d, more, rfl, by simpa using hd, h⟩
      · cases (Prod.mk.inj h).1
    · rintro ⟨_, _, heq, hd, h⟩
      obtain ⟨rfl, rfl⟩ := List.cons.inj heq
      rwa [if_pos (by simpa using hd)]

/-- A byte that goes on with a character. -/
def Trailing (d : UInt8) : Prop := 0x80 ≤ d.toNat ∧ d.toNat ≤ 0xBF

theorem trailing_iff {d : UInt8} : (0x80 ≤ d ∧ d ≤ 0xBF) ↔ Trailing d := by
  simp only [Trailing, UInt8.le_iff_toNat_le, UInt8.reduceToNat]

theorem trailing_ofNat (v : Nat) : Trailing (UInt8.ofNat (v % 64 + 128)) := by
  rw [Trailing, UInt8.toNat_ofNat']
  omega

/-- A byte sequence starts with a code, which `rest` follows. -/
def Starts (bytes : List UInt8) (n : Nat) (rest : List UInt8) : Prop :=
  ∃ b more missing low high bits, bytes = b :: more ∧ leadByte b = some (missing, low, high, bits) ∧
    continuation missing low high bits more = (some n, rest)

theorem starts_cons_iff {bits : Nat} (h : leadByte b = some (missing, low, high, bits)) :
    Starts (b :: bytes) n rest ↔ continuation missing low high bits bytes = (some n, rest) := by
  constructor
  · rintro ⟨_, _, _, _, _, _, heq, hlead, hc⟩
    obtain ⟨rfl, rfl⟩ := List.cons.inj heq
    cases h.symm.trans hlead
    exact hc
  · exact fun hc => ⟨_, _, _, _, _, _, rfl, h, hc⟩

theorem starts_one_iff (hb : b.toNat < 0x80) :
    Starts (b :: bytes) n rest ↔ bytes = rest ∧ n = b.toNat := by
  rw [starts_cons_iff ((leadByte_eq b).trans (if_pos hb)), continuation_zero, Prod.mk.injEq,
    Option.some.injEq, and_comm, @eq_comm _ n]

theorem starts_two_iff (hl : 0xC2 ≤ b.toNat) (hh : b.toNat < 0xE0) : Starts (b :: bytes) n rest ↔
    ∃ d, bytes = d :: rest ∧ Trailing d ∧ n = (b.toNat - 0xC0) * 64 + (d.toNat - 0x80) := by
  rw [starts_cons_iff (leadByte_two hl hh)]
  simp only [continuation_succ_eq_some_iff, continuation_zero, trailing_iff, Prod.mk.injEq,
    Option.some.injEq]
  constructor
  · rintro ⟨d, _, rfl, hd, rfl, rfl⟩
    exact ⟨d, rfl, hd, rfl⟩
  · rintro ⟨d, rfl, hd, hn⟩
    exact ⟨d, _, rfl, hd, hn.symm, rfl⟩

/-- Three bytes are a code that needs as many and is no surrogate. -/
theorem starts_three_iff (hl : 0xE0 ≤ b.toNat) (hh : b.toNat < 0xF0) : Starts (b :: bytes) n rest ↔
    ∃ d e, bytes = d :: e :: rest ∧ (Trailing d ∧ Trailing e) ∧
      n = ((b.toNat - 0xE0) * 64 + (d.toNat - 0x80)) * 64 + (e.toNat - 0x80) ∧
      0x800 ≤ n ∧ ¬ (0xD800 ≤ n ∧ n < 0xE000) := by
  obtain ⟨low, high, hlead, hbounds⟩ := leadByte_three hl hh
  rw [starts_cons_iff hlead]
  simp only [continuation_succ_eq_some_iff, continuation_zero, hbounds, trailing_iff, Prod.mk.injEq,
    Option.some.injEq, Trailing]
  constructor
  · rintro ⟨d, _, rfl, hd, e, _, rfl, he, rfl, rfl⟩
    exact ⟨d, e, rfl, ⟨⟨hd.1, hd.2.1⟩, he⟩, rfl, by omega⟩
  · rintro ⟨d, e, rfl, ⟨hd, he⟩, hn, hbound⟩
    exact ⟨d, _, rfl, by omega, e, _, rfl, he, hn.symm, rfl⟩

/-- Four bytes are a code that needs as many and is not beyond the last character. -/
theorem starts_four_iff (hl : 0xF0 ≤ b.toNat) (hh : b.toNat < 0xF5) : Starts (b :: bytes) n rest ↔
    ∃ d e f, bytes = d :: e :: f :: rest ∧ (Trailing d ∧ Trailing e ∧ Trailing f) ∧
      n = (((b.toNat - 0xF0) * 64 + (d.toNat - 0x80)) * 64 + (e.toNat - 0x80)) * 64 +
        (f.toNat - 0x80) ∧ 0x10000 ≤ n ∧ n < 0x110000 := by
  obtain ⟨low, high, hlead, hbounds⟩ := leadByte_four hl hh
  rw [starts_cons_iff hlead]
  simp only [continuation_succ_eq_some_iff, continuation_zero, hbounds, trailing_iff, Prod.mk.injEq,
    Option.some.injEq, Trailing]
  constructor
  · rintro ⟨d, _, rfl, hd, e, _, rfl, he, f, _, rfl, hf, rfl, rfl⟩
    exact ⟨d, e, f, rfl, ⟨⟨hd.1, hd.2.1⟩, he, hf⟩, rfl, by omega⟩
  · rintro ⟨d, e, f, rfl, ⟨hd, he, hf⟩, hn, hbound⟩
    exact ⟨d, _, rfl, by omega, e, _, rfl, he, f, _, rfl, hf, hn.symm, rfl⟩

/-- An encoded character starts with its own code. -/
theorem starts_encoded (c : Char) (rest : List UInt8) :
    Starts (String.utf8EncodeChar c ++ rest) c.toNat rest := by
  have hv : c.val.toNat < 0xD800 ∨ 0xDFFF < c.val.toNat ∧ c.val.toNat < 0x110000 := c.valid
  change Starts (String.utf8EncodeChar c ++ rest) c.val.toNat rest
  unfold String.utf8EncodeChar
  dsimp only
  generalize c.val.toNat = v at hv
  split
  · refine (starts_one_iff ?_).mpr ⟨rfl, ?_⟩ <;> simp only [UInt8.toNat_ofNat'] <;> omega
  split
  · refine (starts_two_iff ?_ ?_).mpr ⟨_, rfl, trailing_ofNat _, ?_⟩ <;>
      simp only [UInt8.toNat_ofNat'] <;> omega
  split
  · refine (starts_three_iff ?_ ?_).mpr ⟨_, _, rfl, ⟨trailing_ofNat _, trailing_ofNat _⟩, ?_⟩ <;>
      simp only [UInt8.toNat_ofNat'] <;> omega
  · refine (starts_four_iff ?_ ?_).mpr
        ⟨_, _, _, rfl, ⟨trailing_ofNat _, trailing_ofNat _, trailing_ofNat _⟩, ?_⟩ <;>
      simp only [UInt8.toNat_ofNat'] <;> omega

/-- Only the encoded characters start byte sequences. -/
theorem exists_encoded_of_starts (h : Starts bytes n rest) :
    ∃ c : Char, c.toNat = n ∧ bytes = String.utf8EncodeChar c ++ rest := by
  have hexists : n.isValidChar → ∃ c : Char, c.val.toNat = n := fun hn => ⟨.ofNatAux _ hn, rfl⟩
  obtain ⟨b, more, rfl, hrange⟩ : ∃ b more, bytes = b :: more ∧
      (b.toNat < 0x80 ∨ (0xC2 ≤ b.toNat ∧ b.toNat < 0xE0) ∨ (0xE0 ≤ b.toNat ∧ b.toNat < 0xF0) ∨
        0xF0 ≤ b.toNat ∧ b.toNat < 0xF5) := by
    obtain ⟨b, more, missing, low, high, bits, hbytes, hlead, -⟩ := h
    exact ⟨b, more, hbytes, by grind [leadByte_eq]⟩
  rcases hrange with hb | ⟨hl, hh⟩ | ⟨hl, hh⟩ | ⟨hl, hh⟩
  · obtain ⟨rfl, hn⟩ := (starts_one_iff hb).mp h
    obtain ⟨c, hc⟩ := hexists (.inl (by omega))
    refine ⟨c, hc, ?_⟩
    rw [String.utf8EncodeChar, hc, if_pos (by omega)]
    simp [← UInt8.toNat_inj]
    omega
  · obtain ⟨d, rfl, hd, hn⟩ := (starts_two_iff hl hh).mp h
    unfold Trailing at hd
    obtain ⟨c, hc⟩ := hexists (.inl (by omega))
    refine ⟨c, hc, ?_⟩
    rw [String.utf8EncodeChar, hc, if_neg (by omega), if_pos (by omega)]
    simp [← UInt8.toNat_inj]
    omega
  · obtain ⟨d, e, rfl, ⟨hd, he⟩, hn, hlow, hsurrogate⟩ := (starts_three_iff hl hh).mp h
    unfold Trailing at hd he
    obtain ⟨c, hc⟩ := hexists (by unfold Nat.isValidChar; omega)
    refine ⟨c, hc, ?_⟩
    rw [String.utf8EncodeChar, hc, if_neg (by omega), if_neg (by omega), if_pos (by omega)]
    simp [← UInt8.toNat_inj]
    omega
  · obtain ⟨d, e, f, rfl, ⟨hd, he, hf⟩, hn, hlow, hhigh⟩ := (starts_four_iff hl hh).mp h
    unfold Trailing at hd he hf
    obtain ⟨c, hc⟩ := hexists (.inr ⟨by omega, hhigh⟩)
    refine ⟨c, hc, ?_⟩
    rw [String.utf8EncodeChar, hc, if_neg (by omega), if_neg (by omega), if_neg (by omega)]
    simp [← UInt8.toNat_inj]
    omega

/-! ### Whole texts -/

/-- A sequence that starts with a character's code is read as the character and the rest. -/
theorem characters_of_starts (h : Starts bytes n rest) :
    characters bytes = some (Char.ofNat n) :: characters rest := by
  obtain ⟨b, more, missing, low, high, bits, rfl, hlead, hc⟩ := h
  rw [characters, hlead]
  dsimp only
  rw [hc]
  rfl

theorem starts_of_characters {cs : List (Option Char)} (h : characters bytes = some c :: cs) :
    ∃ n rest, Starts bytes n rest ∧ c = Char.ofNat n ∧ characters rest = cs := by
  cases bytes with
  | nil => simp [characters] at h
  | cons b more =>
    rw [characters] at h
    split at h
    · cases (List.cons.inj h).1
    · next missing low high bits hlead =>
      dsimp only at h
      obtain ⟨hchar, hrest⟩ := List.cons.inj h
      obtain ⟨n, hn, rfl⟩ := Option.map_eq_some_iff.mp hchar
      exact ⟨n, _, ⟨b, more, missing, low, high, bits, rfl, hlead, Prod.ext hn rfl⟩, rfl, hrest⟩

/-- The bytes of encoded characters, and only they, are read without a broken piece. -/
theorem characters_eq_map_some_iff {cs : List Char} :
    characters bytes = cs.map some ↔ bytes = cs.flatMap String.utf8EncodeChar := by
  induction cs generalizing bytes with
  | nil =>
    cases bytes with
    | nil => simp [characters]
    | cons b more =>
      rw [characters]
      split <;> simp
  | cons c cs ih =>
    rw [List.map_cons, List.flatMap_cons]
    constructor
    · intro h
      obtain ⟨n, rest, hs, rfl, hrest⟩ := starts_of_characters h
      obtain ⟨d, rfl, rfl⟩ := exists_encoded_of_starts hs
      rw [Char.ofNat_toNat, ih.mp hrest]
    · rintro rfl
      rw [characters_of_starts (starts_encoded c _), Char.ofNat_toNat, ih.mpr rfl]

/-! ### Byte arrays -/

theorem toList_eq_data (bytes : ByteArray) : bytes.toList = bytes.data.toList := by
  have hloop : ∀ i before, ByteArray.toList.loop bytes i before =
      before.reverse ++ bytes.data.toList.drop i := by
    intro i before
    fun_induction ByteArray.toList.loop bytes i before with
    | case1 i before hi ih =>
      have hlen : i < bytes.data.toList.length := by simpa using hi
      have hget : bytes.get! i = bytes.data.toList[i] := by
        rw [Array.getElem_toList]
        exact getElem!_pos bytes.data i hi
      rw [ih, hget, List.reverse_cons, List.append_assoc, List.singleton_append,
        List.getElem_cons_drop]
    | case2 i before hi =>
      rw [List.drop_eq_nil_of_le (by simpa using hi), List.append_nil]
  rw [ByteArray.toList, hloop 0 [], List.reverse_nil, List.nil_append, List.drop_zero]

theorem toList_toUTF8 (text : String) :
    text.toUTF8.toList = text.toList.flatMap String.utf8EncodeChar := by
  have hbytes : text.toUTF8 = (text.toList.flatMap String.utf8EncodeChar).toByteArray := by
    rw [String.toUTF8_eq_toByteArray, ← List.utf8Encode, ← String.toByteArray_ofList,
      String.ofList_toList]
  rw [toList_eq_data, hbytes, List.toList_data_toByteArray]

theorem eq_of_toList_eq {content other : ByteArray} (h : content.toList = other.toList) :
    content = other := by
  rw [toList_eq_data, toList_eq_data] at h
  exact ByteArray.ext (Array.toList_inj.mp h)

theorem eq_map_some_iff {cs : List (Option Char)} {text : List Char} :
    cs = text.map some ↔ cs.all Option.isSome = true ∧ cs.filterMap id = text := by
  constructor
  · rintro rfl
    simp [List.filterMap_map]
  · rintro ⟨hall, rfl⟩
    induction cs with
    | nil => rfl
    | cons c cs ih =>
      rw [List.all_cons, Bool.and_eq_true] at hall
      obtain ⟨d, rfl⟩ := Option.isSome_iff_exists.mp hall.1
      have hcons : (some d :: cs).filterMap id = d :: cs.filterMap id := List.filterMap_cons_some rfl
      rw [hcons, List.map_cons, ← ih hall.2]

/-- Decoding is the inverse of encoding. -/
theorem decode?_eq_some_iff {content : ByteArray} {text : String} :
    decode? content = some text ↔ content = text.toUTF8 := by
  have hread : decode? content = some text ↔ characters content.toList = text.toList.map some := by
    rw [eq_map_some_iff, decode?]
    split
    · next hall => simp [hall, ← String.toList_inj]
    · next hall => simp [hall]
  rw [hread, characters_eq_map_some_iff, ← toList_toUTF8]
  exact ⟨eq_of_toList_eq, fun h => h ▸ rfl⟩

/-- What cannot be decoded is not UTF-8. -/
theorem decode?_eq_none_iff {content : ByteArray} :
    decode? content = none ↔ ¬ content.IsValidUTF8 := by
  rw [Option.eq_none_iff_forall_ne_some]
  constructor
  · intro h hvalid
    exact h ⟨content, hvalid⟩ (decode?_eq_some_iff.mpr rfl)
  · intro h text ht
    exact h (decode?_eq_some_iff.mp ht ▸ text.isValidUTF8)

end PlanAssistant.Text
