import PlanAssistant.Text.Blank
import PlanAssistant.Proofs.Plan.References
import PlanAssistant.Proofs.Text.Stripping
import PlanAssistant.Proofs.Tools.PassRecords

/-!
The arguments that the steps of a plan are run on.  In a step's own argument the tokens of the steps that
succeeded before it are replaced, each by the latest output of its step; the blanks at the ends go, and
the tokens of all other steps stay where they stood.  An output may bring a token with it, or complete
one together with the text around it, and such a token stays although its step has succeeded; but there is
no other way for one to be in the argument.
-/
namespace PlanAssistant

/-! ### Arguments -/

namespace Tools

open Outputs

/-- What became of the argument of a step: `lead` and `trail` are the blanks that were stripped. -/
structure ResolvedArgument (output? : String → Option String) (raw lead argument trail : List Char) :
    Prop where
  replaced : Replaced output? raw (lead ++ argument ++ trail)
  stripped : argument = Text.stripWhile Text.isBlank (lead ++ argument ++ trail)
  leadBlank : ∀ c ∈ lead, Text.isBlank c = true
  trailBlank : ∀ c ∈ trail, Text.isBlank c = true
  /-- A token of a known step comes with an output that was put in: the output begins before the token
  ends and ends after the token begins. -/
  put : ∀ before number after, TokenAt before number after argument →
    output? (String.ofList number) ≠ none →
    ∃ left output right, lead ++ argument ++ trail = left ++ output.toList ++ right ∧
      PutIn output? raw left output right ∧ left.length < (lead ++ before ++ token number).length ∧
      (lead ++ before).length < (left ++ output.toList).length
  /-- A token of another step is still there, between what became of the text on either side of it. -/
  stays : ∀ before number after, TokenAt before number after raw →
    output? (String.ofList number) = none →
    ∃ left right, argument = left ++ token number ++ right ∧ Replaced output? before (lead ++ left) ∧
      Replaced output? after (right ++ trail)

theorem resolvedArgument (outputs : Outputs) (raw : String) :
    ∃ lead trail, ResolvedArgument outputs.get? raw.toList lead
      (Text.strip (outputs.resolve raw)).toList trail := by
  have hs : (Text.strip (outputs.resolve raw)).toList =
      Text.stripWhile Text.isBlank (outputs.resolveFrom raw.toList) := by
    simp [Text.strip, Outputs.resolve]
  obtain ⟨lead, trail, he, hl, ht⟩ :=
    Text.exists_eq_stripWhile Text.isBlank (outputs.resolveFrom raw.toList)
  rw [← hs] at he
  have hr := replaced_resolveFrom outputs raw.toList
  refine ⟨lead, trail, he ▸ hr, he ▸ hs, hl, ht, fun before number after hat hk => ?_,
    fun before number after hat hn => ?_⟩
  · have hend : ∀ c ∈ trail.head?, Text.isDigit c = false := fun c hc =>
      Text.not_isDigit_of_isBlank (ht c (List.mem_of_head? hc))
    exact (he ▸ hr).tokenAt ((hat.prepend lead).append hend) hk
  · have hreplacement : outputs.replacement number = token number := by
      simp [replacement, hn, token]
    obtain ⟨start, digit, rfl⟩ := (List.eq_nil_or_concat number).resolve_left hat.number_ne
    have htoken := resolveFrom_token outputs hat
    rw [hreplacement, he] at htoken
    have hfront : lead ++ ((Text.strip (outputs.resolve raw)).toList ++ trail) =
        outputs.resolveFrom before ++ '#' :: 'E' :: (start ++ digit :: outputs.resolveFrom after) := by
      simpa [token] using htoken
    have hhash : '#' ∉ lead := fun hm => absurd (hl _ hm) (by decide)
    obtain ⟨left, hleft, hback⟩ := exists_of_notMem_left hfront hhash
    have hdigit : digit ∉ trail := fun hm => by
      simpa [hat.digits digit (by simp)] using Text.not_isDigit_of_isBlank (ht digit hm)
    have hnumber : (Text.strip (outputs.resolve raw)).toList ++ trail =
        left ++ '#' :: 'E' :: start ++ digit :: outputs.resolveFrom after := by
      simpa using hback
    obtain ⟨right, hright, hargument⟩ := exists_of_notMem_right hnumber hdigit
    refine ⟨left, right, ?_, ?_, ?_⟩
    · simpa [token] using hargument
    · exact hleft ▸ replaced_resolveFrom outputs before
    · exact hright ▸ replaced_resolveFrom outputs after

/-! ### Passes -/

namespace Pass

/-- Every step of a plan was run on its argument, resolved with the latest outputs of the steps that
succeeded before it. -/
structure ResolvesArguments (steps : List Step) (pass : Pass) : Prop where
  length : pass.records.length = steps.length
  resolved : ∀ (i : Nat) (hi : i < steps.length), ∃ record lead trail, pass.records[i]? = some record ∧
    ResolvedArgument (fun number => latest? number ((steps.zip pass.records).take i))
      steps[i].argument.toList lead record.argument.toList trail

theorem resolvesArguments_run (perform : Performer Breakdown) (plan : String) :
    (run perform (planSteps plan)).ResolvesArguments (planSteps plan) where
  length := length_records perform (planSteps plan)
  resolved := by
    intro i hi
    obtain ⟨lead, trail, hr⟩ := resolvedArgument
      (successes (((planSteps plan).zip (run perform (planSteps plan)).records).take i))
      (planSteps plan)[i].argument
    refine ⟨_, lead, trail, getElem?_records perform (planSteps plan) i hi, ?_⟩
    rw [recordOf_argument]
    have hg : ∀ done, (successes done).get? = fun number => latest? number done :=
      fun done => funext fun number => get?_successes number done
    rw [← hg]
    exact hr

/-- A directory with two files, one of which has a token for its text. -/
def tokenTree : Files.Node := .directory
  [("ws", .directory [("a.txt", .file "a.txt".toUTF8), ("b.txt", .file "#E1".toUTF8)])]

/-- The token that the second step read is put into the argument of the third, where it stays, although
the first step has succeeded. -/
theorem not_free_tokenTree :
    let plan := "#E1 = ReadFile[a.txt]\n#E2 = ReadFile[b.txt]\n#E3 = ReadFile[#E2]"
    let pass := runPlan ⟨some (.ofText "/ws")⟩ tokenTree plan
    ¬ ∀ (i : Nat) (record : StepRecord), pass.records[i]? = some record →
      Free (fun number => latest? number (((planSteps plan).zip pass.records).take i))
        record.argument.toList := by
  intro plan pass h
  have hrecords : pass.records = [⟨"#E1", "ReadFile", "a.txt", "a.txt", none⟩,
      ⟨"#E2", "ReadFile", "b.txt", "#E1", none⟩,
      ⟨"#E3", "ReadFile", "#E1", "",
        some "ReadFile error: [Errno 2] No such file or directory: '/ws/#E1'"⟩] := by decide +kernel
  have hdigit : Text.isDigit '1' = true := by decide +kernel
  have htoken : TokenAt [] ['1'] [] "#E1".toList := ⟨rfl, by simp, by simpa using hdigit, by simp⟩
  have hlast := h 2 _ (by rw [hrecords]; rfl) [] ['1'] [] htoken
  have hdone : latest? "1" (((planSteps plan).zip pass.records).take 2) = some "a.txt" := by
    rw [hrecords]
    decide +kernel
  exact absurd (hdone.symm.trans hlast) nofun

end Pass
end Tools
end PlanAssistant
