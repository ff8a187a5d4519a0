import PlanAssistant.Model.Stream

/-!
Calling a model.  A call that fails for a passing reason is made again with the same request, up to
three times in all; any other failure ends the query at once.  The stream of the first call that
succeeds is the answer.
-/
namespace PlanAssistant

/-- What every call fails with once the replies have run out. -/
def noReplyLeft : ModelFailure := ⟨.badValue, "script exhausted"⟩

/-- The next reply, and those after it. -/
def nextReply : List Reply → Reply × List Reply
  | [] => (.failure noReplyLeft, [])
  | reply :: rest => (reply, rest)

/-- Seconds to wait after each attempt but the last. -/
def backoffs : List Nat := [1, 2]

def attemptLimit : Nat := backoffs.length + 1

/-- What came of all attempts: the parts of a stream, no reply, or an error. -/
inductive Answer where
  | stream (parts : List StreamPart)
  | silence
  | error (error : CallError)

namespace Endpoint

/-- What a passing failure comes to when no attempt is left. -/
def lastError (endpoint : Endpoint) (timeout : Float) (attempt : Nat) (failure : ModelFailure) :
    CallError :=
  if failure.kind == .timeLimit then .timedOut timeout attempt attemptLimit
  else .exhausted endpoint.profile.model attemptLimit failure

/-- What a lasting failure comes to. -/
def lastingError (endpoint : Endpoint) (failure : ModelFailure) : CallError :=
  if failure.kind == .unauthorized then
    .unauthorized endpoint.profile.model endpoint.profile.keyVariable
  else if failure.kind.refusesRequest then .refused endpoint.profile.model failure
  else .raised failure

/-- Make attempts, the first of them numbered `attempt`, with the given waits between them. -/
def attempts (endpoint : Endpoint) (request : Request) (attempt : Nat) (waits : List Nat)
    (replies : List Reply) : List (Attempt Request) × Answer × List Reply :=
  let (reply, rest) := nextReply replies
  match reply with
  | .stream parts => ([⟨request, none⟩], .stream parts, rest)
  | .silence => ([⟨request, none⟩], .silence, rest)
  | .failure failure =>
    if failure.kind.isTransient then
      match waits with
      | [] => ([⟨request, none⟩], .error (endpoint.lastError request.timeout attempt failure), rest)
      | wait :: waits =>
        let (later, answer, rest) := endpoint.attempts request (attempt + 1) waits rest
        (⟨request, some wait⟩ :: later, answer, rest)
    else ([⟨request, none⟩], .error (endpoint.lastingError failure), rest)

/-- What an answer comes to: the outcome, the reports on the way, and the token afterwards. -/
def receive (endpoint : Endpoint) (watch : Watch) (token : Token) :
    Answer → Except CallError StageOutput × List Progress × Token
  | .error error => (.error error, [], token)
  | .silence => (.error (.ofSilence endpoint.profile.displayName token), [], token.cancel)
  | .stream parts =>
    match Reading.follow watch { token } parts with
    | (reading, some error) => (.error error, reading.reports, reading.token)
    | (reading, none) => (reading.output endpoint.profile, reading.reports, reading.token)

/-- Answer a query with a stream. -/
def complete (endpoint : Endpoint) (query : Query) (watch : Watch) (token : Token)
    (replies : List Reply) : Completion (List Reply) Request :=
  match Decimal.ofInt? query.timeout with
  | none => ⟨.error .timeoutTooLarge, [], [], token, replies⟩
  | some timeout =>
    let (attempts, answer, rest) :=
      endpoint.attempts (endpoint.request query timeout) 1 backoffs replies
    let (outcome, reports, token) := endpoint.receive watch token answer
    ⟨outcome, attempts, reports, token, rest⟩

def provider (endpoint : Endpoint) : Provider (List Reply) Request :=
  ⟨endpoint.profile.displayName, endpoint.complete⟩

end Endpoint

/-! ### Outputs made beforehand -/

/-- A whole output as data, a failure, or no reply at all. -/
inductive ReadyReply where
  | output (fields : Validation.Fields)
  | failure (failure : ModelFailure)
  | silence

/-- A provider that gives outputs made beforehand, one for each query. -/
def readyProvider (displayName : String) : Provider (List ReadyReply) Query where
  displayName := displayName
  complete query _ token replies :=
    let (reply, rest) : ReadyReply × List ReadyReply :=
      match replies with
      | [] => (.failure noReplyLeft, [])
      | reply :: rest => (reply, rest)
    let (outcome, token) : Except CallError StageOutput × Token :=
      match reply with
      | .failure failure => (.error (.raised failure), token)
      | .silence => (.error (.ofSilence displayName token), token.cancel)
      | .output fields =>
        match StageOutput.check fields with
        | .passed output => (.ok output, token)
        | .failed failures => (.error (.invalid failures), token)
    ⟨outcome, [⟨query, none⟩], [], token, rest⟩

end PlanAssistant
