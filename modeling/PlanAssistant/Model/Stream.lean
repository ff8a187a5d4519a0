import PlanAssistant.Model.Reply
import PlanAssistant.Model.Completion
import PlanAssistant.Text.Blank

/-!
Reading a stream to its end.  Contents and reasonings are put together in the order they arrive; every
chunk that adds something counts as one token and is reported, and a last report tells that the stream
is complete.  An interrupt takes effect when the next chunk arrives.
-/
namespace PlanAssistant

/-- A stream that is being read. -/
structure Reading where
  content : String := ""
  reasoning : String := ""
  count : Nat := 0
  /-- The usage that came with the latest chunk. -/
  usage : Option ReportedUsage := none
  reports : List Progress := []
  token : Token

namespace Reading

def report (watch : Watch) (reading : Reading) (isComplete : Bool) (chunk : Chunk) : Reading :=
  if watch.watched then
    let progress : Progress :=
      ⟨chunk.content, chunk.reasoning, reading.content, reading.count, isComplete⟩
    let reports := reading.reports ++ [progress]
    { reading with
      reports
      token := if watch.interruptAt == some reports.length then reading.token.cancel else reading.token }
  else reading

/-- Take in a chunk. -/
def take (watch : Watch) (reading : Reading) (chunk : Chunk) : Reading :=
  if chunk.isSilent then { reading with usage := chunk.usage }
  else report watch
    { reading with
      usage := chunk.usage
      content := reading.content ++ chunk.content
      reasoning := reading.reasoning ++ chunk.reasoning
      count := reading.count + 1 }
    false chunk

/-- Read a stream to its end, or to where it breaks off. -/
def follow (watch : Watch) (reading : Reading) : List StreamPart → Reading × Option CallError
  | [] => (reading.report watch true {}, none)
  | part :: rest =>
    let reading :=
      if part.interrupts then { reading with token := reading.token.cancel } else reading
    match part.arrives with
    | .error failure => (reading, some (.raised failure))
    | .ok chunk =>
      if reading.token == .cancelled then (reading, some .cancelled)
      else (reading.take watch chunk).follow watch rest

/-- A reported count, where nothing and zero stand for another one. -/
def countOr (reported : Option Int) (otherwise : Int) : Int := (reported.filter (· != 0)).getD otherwise

def promptTokens (reading : Reading) : Int := countOr (reading.usage.bind (·.prompt)) 0

def completionTokens (reading : Reading) : Int :=
  countOr (reading.usage.bind (·.completion)) reading.count

/-- The output of a stream that was read to its end. -/
def output (profile : ModelProfile) (reading : Reading) : Except CallError StageOutput :=
  let prompt := reading.promptTokens
  let completion := reading.completionTokens
  match TokenUsage.cost? profile prompt completion with
  | none => .error .costTooLarge
  | some cost =>
    match TokenUsage.ofCounts prompt completion cost with
    | .failed failures => .error (.invalid failures)
    | .passed usage =>
      .ok ⟨Text.strip reading.content, Text.strip reading.reasoning, some usage, profile.model⟩

end Reading
end PlanAssistant
