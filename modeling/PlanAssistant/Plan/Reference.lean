import PlanAssistant.Text.Digit

/-!
References in arguments.  The token `#E` with a run of digits stands for the output of the step with
that number; a token whose step has no output stays as it is, and text that was put in is not looked
at again.
-/
namespace PlanAssistant

/-- Outputs by step number, the latest first. -/
abbrev Outputs := List (String × String)

namespace Outputs

def get? (outputs : Outputs) (number : String) : Option String :=
  (outputs.find? (·.1 == number)).map (·.2)

/-- What a token becomes. -/
def replacement (outputs : Outputs) (digits : List Char) : List Char :=
  match outputs.get? (String.ofList digits) with
  | some output => output.toList
  | none => '#' :: 'E' :: digits

theorem length_dropWhile_le (p : Char → Bool) (cs : List Char) :
    (cs.dropWhile p).length ≤ cs.length := by
  induction cs with
  | nil => simp
  | cons c rest ih =>
    rw [List.dropWhile_cons]
    split
    · simp only [List.length_cons]; omega
    · exact Nat.le_refl _

def resolveFrom (outputs : Outputs) (cs : List Char) : List Char :=
  match cs with
  | [] => []
  | '#' :: 'E' :: rest =>
    match rest.takeWhile Text.isDigit with
    | [] => '#' :: 'E' :: resolveFrom outputs rest
    | digits => outputs.replacement digits ++ resolveFrom outputs (rest.dropWhile Text.isDigit)
  | c :: rest => c :: resolveFrom outputs rest
termination_by cs.length
decreasing_by
  · simp only [List.length_cons]; omega
  · have := length_dropWhile_le Text.isDigit rest
    simp only [List.length_cons]; omega
  · simp

/-- An argument with the tokens of known steps replaced by their outputs. -/
def resolve (outputs : Outputs) (argument : String) : String :=
  String.ofList (resolveFrom outputs argument.toList)

end Outputs
end PlanAssistant
