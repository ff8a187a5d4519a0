import Mathlib.Data.List.Infix
import Mathlib.Data.List.TakeWhile

/-!
Readers.  A reader takes characters off the front of a text: it fails with a fault, or gives a value and
the rest of the text.  Where a reader calls others on such rests, what holds of these in the rest holds in
the whole text as well, the causes of their faults among it.  So what holds of one reader is put together
from what holds of those that it calls.
-/
namespace PlanAssistant.Text

variable {ε α β : Type}

/-- What a reader makes of a text: a fault with a cause in the text, or a value that suits the text. -/
inductive Reads (cause : List Char → ε → Prop) (suits : List Char → α → Prop) (cs : List Char) :
    Except ε α → Prop
  | failed {fault : ε} (h : cause cs fault) : Reads cause suits cs (.error fault)
  | read {value : α} (h : suits cs value) : Reads cause suits cs (.ok value)

/-- What still holds of a text with more in front. -/
def Lasting (holds : List Char → α → Prop) : Prop :=
  ∀ ⦃cs more : List Char⦄ ⦃a : α⦄, more <:+ cs → holds more a → holds cs a

/-- What was not read is a rest of the text. -/
def Rest (cs : List Char) (value : α × List Char) : Prop := value.2 <:+ cs

theorem lasting_rest : Lasting (Rest (α := α)) := fun _ _ _ hs h => List.IsSuffix.trans h hs

namespace Reads

variable {cause : List Char → ε → Prop} {suits : List Char → α → Prop} {cs more : List Char}
  {r : Except ε α}

theorem imp {cause' : List Char → ε → Prop} {suits' : List Char → α → Prop}
    (h : Reads cause suits more r) (hc : ∀ fault, cause more fault → cause' cs fault)
    (hs : ∀ value, suits more value → suits' cs value) : Reads cause' suits' cs r := by
  cases h with
  | failed h => exact .failed (hc _ h)
  | read h => exact .read (hs _ h)

theorem mono (h : Reads cause suits more r) (hc : Lasting cause) (hs : Lasting suits) (hm : more <:+ cs) :
    Reads cause suits cs r :=
  h.imp (fun _ => hc hm) fun _ => hs hm

/-- A reader that goes on from a rest of the text leaves a rest of the whole text. -/
theorem later {r : Except ε (α × List Char)} (h : Reads cause Rest more r) (hc : Lasting cause)
    (hm : more <:+ cs) : Reads cause Rest cs r :=
  h.mono hc lasting_rest hm

theorem map {suits' : List Char → β → Prop} {f : α → β} (h : Reads cause suits cs r)
    (hf : ∀ value, suits cs value → suits' cs (f value)) : Reads cause suits' cs (r.map f) := by
  cases h with
  | failed h => exact .failed h
  | read h => exact .read (hf _ h)

theorem bind {suits' : List Char → β → Prop} {f : α → Except ε β} (h : Reads cause suits cs r)
    (hf : ∀ value, suits cs value → Reads cause suits' cs (f value)) :
    Reads cause suits' cs (r >>= f) := by
  cases h with
  | failed h => exact .failed h
  | read h => exact hf _ h

end Reads

/-! ### Runs of a class -/

theorem span_append_span (p : Char → Bool) (cs : List Char) : (cs.span p).1 ++ (cs.span p).2 = cs := by
  rw [List.span_eq_takeWhile_dropWhile]
  exact List.takeWhile_append_dropWhile

theorem span_suffix (p : Char → Bool) (cs : List Char) : (cs.span p).2 <:+ cs := by
  rw [List.span_eq_takeWhile_dropWhile]
  exact List.dropWhile_suffix p

theorem span_infix (p : Char → Bool) (cs : List Char) : (cs.span p).1 <:+: cs := by
  rw [List.span_eq_takeWhile_dropWhile]
  exact (List.takeWhile_prefix p).isInfix

theorem forall_mem_span {p : Char → Bool} {cs : List Char} : ∀ c ∈ (cs.span p).1, p c = true := by
  rw [List.span_eq_takeWhile_dropWhile]
  exact fun c hc => List.mem_takeWhile_imp hc

end PlanAssistant.Text
