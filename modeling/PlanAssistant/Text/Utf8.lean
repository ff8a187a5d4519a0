/-!
Reading UTF-8.  A byte sequence is cut into characters and maximal broken pieces: a piece ends before
the first byte that no character could continue with.  `decode?` refuses broken pieces, `decodeLossy`
reads each as one replacement character.
-/
namespace PlanAssistant.Text

/-- How many continuation bytes a lead byte asks for, the bounds of the first of them, and the bits
the lead byte itself carries; nothing for a byte that leads no character. -/
def leadByte (b : UInt8) : Option (Nat × UInt8 × UInt8 × Nat) :=
  if b < 0x80 then some (0, 0x80, 0xBF, b.toNat)
  else if b < 0xC2 then none
  else if b < 0xE0 then some (1, 0x80, 0xBF, b.toNat - 0xC0)
  else if b == 0xE0 then some (2, 0xA0, 0xBF, 0)
  else if b == 0xED then some (2, 0x80, 0x9F, 0xD)
  else if b < 0xF0 then some (2, 0x80, 0xBF, b.toNat - 0xE0)
  else if b == 0xF0 then some (3, 0x90, 0xBF, 0)
  else if b < 0xF4 then some (3, 0x80, 0xBF, b.toNat - 0xF0)
  else if b == 0xF4 then some (3, 0x80, 0x8F, 4)
  else none

/-- Reads `missing` continuation bytes, the first between `low` and `high`, onto the bits in `code`;
also the bytes that follow the last one taken. -/
def continuation (missing : Nat) (low high : UInt8) (code : Nat) :
    List UInt8 → Option Nat × List UInt8
  | [] => (if missing == 0 then some code else none, [])
  | b :: rest =>
    match missing with
    | 0 => (some code, b :: rest)
    | missing + 1 =>
      if low ≤ b && b ≤ high then
        continuation missing 0x80 0xBF (code * 64 + (b.toNat - 0x80)) rest
      else (none, b :: rest)

theorem continuation_length_le (missing : Nat) (low high : UInt8) (code : Nat) (bytes : List UInt8) :
    (continuation missing low high code bytes).2.length ≤ bytes.length := by
  fun_induction continuation missing low high code bytes with
  | case1 => simp
  | case2 => simp
  | case3 _ _ _ _ _ _ _ ih => simp only [List.length_cons]; omega
  | case4 => simp

/-- The characters of a byte sequence, with nothing for each maximal broken piece. -/
def characters (bytes : List UInt8) : List (Option Char) :=
  match bytes with
  | [] => []
  | b :: rest =>
    match leadByte b with
    | none => none :: characters rest
    | some (missing, low, high, bits) =>
      let step := continuation missing low high bits rest
      step.1.map Char.ofNat :: characters step.2
termination_by bytes.length
decreasing_by
  · simp
  · have := continuation_length_le missing low high bits rest
    simp only [List.length_cons]; omega

/-- The text of a byte sequence, if no piece of it is broken. -/
def decode? (bytes : ByteArray) : Option String :=
  let cs := characters bytes.toList
  if cs.all Option.isSome then some (String.ofList (cs.filterMap id)) else none

def replacementCharacter : Char := '\ufffd'

/-- The characters of a byte sequence, each broken piece read as one replacement character. -/
def decodeLossy (bytes : ByteArray) : List Char :=
  (characters bytes.toList).map (·.getD replacementCharacter)

end PlanAssistant.Text
