import PlanAssistant.Model.Endpoint

/-!
The calls a query makes.  All of them are one and the same request, which carries the messages of the
query; and while calls fail for passing reasons the query goes on to the next reply, with a wait after
each failure.
-/
namespace PlanAssistant

/-- Every call of a query carries its messages, the system's first. -/
def Provider.Carries {ρ κ : Type} (provider : Provider ρ κ) (messagesOf : κ → List Message) : Prop :=
  ∀ query watch token replies, ∀ attempt ∈ (provider.complete query watch token replies).attempts,
    messagesOf attempt.call = query.transcript

theorem Provider.Carries.run {ρ κ : Type} {provider : Provider ρ κ} {messagesOf : κ → List Message}
    (h : provider.Carries messagesOf) {query : Query} {watch : Watch} {token : Token} {replies : ρ}
    {attempt : Attempt κ} (ha : attempt ∈ (provider.run query watch token replies).attempts) :
    messagesOf attempt.call = query.transcript := by
  unfold Provider.run at ha
  split at ha
  · simp at ha
  · exact h _ _ _ _ attempt ha

namespace Endpoint

variable (endpoint : Endpoint)

/-- However often a call is made again, it is the same request. -/
theorem call_of_mem_attempts {request : Request} {attempt : Nat} {waits : List Nat}
    {replies : List Reply} {made : Attempt Request}
    (h : made ∈ (endpoint.attempts request attempt waits replies).1) : made.call = request := by
  fun_induction attempts endpoint request attempt waits replies with
  | case4 _ _ _ _ _ _ _ _ _ _ ha _ ih =>
    rcases List.mem_cons.mp h with rfl | h
    · rfl
    · rw [ha] at ih
      exact ih h
  | _ => rw [List.mem_singleton.mp h]

theorem carries_provider : endpoint.provider.Carries Request.messages := by
  intro query watch token replies attempt ha
  change attempt ∈ (endpoint.complete query watch token replies).attempts at ha
  unfold complete at ha
  split at ha
  · simp at ha
  · rw [endpoint.call_of_mem_attempts ha]
    rfl

theorem attempts_stream (request : Request) (attempt : Nat) (waits : List Nat) (parts : List StreamPart)
    (rest : List Reply) :
    endpoint.attempts request attempt waits (.stream parts :: rest) =
      ([⟨request, none⟩], .stream parts, rest) := by simp [attempts, nextReply]

theorem attempts_silence (request : Request) (attempt : Nat) (waits : List Nat) (rest : List Reply) :
    endpoint.attempts request attempt waits (.silence :: rest) = ([⟨request, none⟩], .silence, rest) := by
  simp [attempts, nextReply]

theorem attempts_lasting (request : Request) (attempt : Nat) (waits : List Nat) {failure : ModelFailure}
    (h : failure.kind.isTransient = false) {replies rest : List Reply}
    (hn : nextReply replies = (.failure failure, rest)) :
    endpoint.attempts request attempt waits replies =
      ([⟨request, none⟩], .error (endpoint.lastingError failure), rest) := by
  rw [attempts, hn]
  simp [h]

theorem attempts_spent (request : Request) (attempt : Nat) {failure : ModelFailure}
    (h : failure.kind.isTransient = true) (rest : List Reply) :
    endpoint.attempts request attempt [] (.failure failure :: rest) =
      ([⟨request, none⟩], .error (endpoint.lastError request.timeout attempt failure), rest) := by
  simp [attempts, nextReply, h]

/-- The calls of a query of which the given number failed for a passing reason. -/
def callsAfter (request : Request) (failed : Nat) : List (Attempt Request) :=
  (backoffs.take failed).map (⟨request, some ·⟩) ++ [⟨request, none⟩]

/-- While calls fail for passing reasons, and not too often, attempts go on with the replies that follow. -/
theorem attempts_append (request : Request) (attempt : Nat) (waits : List Nat)
    {failures : List ModelFailure} (hp : ∀ failure ∈ failures, failure.kind.isTransient = true)
    (hw : failures.length ≤ waits.length) (more : List Reply) :
    endpoint.attempts request attempt waits (failures.map .failure ++ more) =
      let last :=
        endpoint.attempts request (attempt + failures.length) (waits.drop failures.length) more
      ((waits.take failures.length).map (⟨request, some ·⟩) ++ last.1, last.2) := by
  induction failures generalizing attempt waits with
  | nil => rfl
  | cons failure failures ih =>
    cases waits with
    | nil => simp at hw
    | cons wait waits =>
      have hlater := ih (attempt + 1) waits (fun f hf => hp f (List.mem_cons_of_mem _ hf))
        (Nat.le_of_succ_le_succ hw)
      rw [Nat.add_assoc, Nat.add_comm 1] at hlater
      rw [List.map_cons, List.cons_append, attempts]
      simp [nextReply, hp failure List.mem_cons_self, hlater]

/-- After such failures the next reply is asked for. -/
theorem attempts_passing (request : Request) (attempt : Nat) (waits : List Nat)
    {failures : List ModelFailure} (hp : ∀ failure ∈ failures, failure.kind.isTransient = true)
    (hw : failures.length ≤ waits.length) {reply : Reply} {answer : Answer} (rest : List Reply)
    (hr : ∀ attempt waits, endpoint.attempts request attempt waits (reply :: rest) =
      ([⟨request, none⟩], answer, rest)) :
    endpoint.attempts request attempt waits (failures.map .failure ++ reply :: rest) =
      ((waits.take failures.length).map (⟨request, some ·⟩) ++ [⟨request, none⟩], answer, rest) := by
  rw [endpoint.attempts_append request attempt waits hp hw, hr]

/-- The answer of an endpoint whose calls fail only in passing is what the first reply after them
comes to. -/
theorem complete_passing {query : Query} {watch : Watch} {token : Token} {timeout : Float}
    (timed : Decimal.ofInt? query.timeout = some timeout)
    {failures : List ModelFailure} (passing : ∀ failure ∈ failures, failure.kind.isTransient = true)
    (left : failures.length < attemptLimit) {reply : Reply} {answer : Answer} {rest : List Reply}
    (hr : ∀ attempt waits, endpoint.attempts (endpoint.request query timeout) attempt waits
      (reply :: rest) = ([⟨endpoint.request query timeout, none⟩], answer, rest)) :
    endpoint.complete query watch token (failures.map .failure ++ reply :: rest) =
      ⟨(endpoint.receive watch token answer).1,
        callsAfter (endpoint.request query timeout) failures.length,
        (endpoint.receive watch token answer).2.1, (endpoint.receive watch token answer).2.2, rest⟩ := by
  have ha := endpoint.attempts_passing (endpoint.request query timeout) 1 backoffs passing
    (Nat.le_of_lt_succ left) rest hr
  simp only [complete, timed, ha]
  rfl

end Endpoint
end PlanAssistant
