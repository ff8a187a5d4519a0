import PlanAssistant.Model.Endpoint

/-!
What the errors of an endpoint are owed to.  An endpoint passes on the failure of a call, or of a part
of a stream, and makes up none that interrupts; and it waits for ever only where no reply comes and
nobody can interrupt.  All its other errors are its own.
-/
namespace PlanAssistant

/-- The failure comes with the reply: in place of a stream, or at a part of it. -/
def Reply.FailsWith (failure : ModelFailure) : Reply → Prop
  | stream parts => ∃ part ∈ parts, part.arrives = .error failure
  | .failure raised => raised = failure
  | silence => False

namespace CallError

/-- Whether an error neither passes on a failure nor waits for ever. -/
def isOwn : CallError → Bool
  | raised _ => false
  | endless => false
  | _ => true

/-- An interruption is owed to a reply that fails with it, and an endless wait to the lack of a reply
where nobody could interrupt. -/
structure OwedTo (token : Token) (replies : List Reply) (error : CallError) : Prop where
  interrupted : ∀ failure, error = raised failure → failure.kind = .interrupted →
    ∃ reply ∈ replies, reply.FailsWith failure
  endless : error = endless → token = .absent ∧ .silence ∈ replies

theorem OwedTo.own {token : Token} {replies : List Reply} {error : CallError}
    (h : error.isOwn = true) : error.OwedTo token replies := by
  cases error with
  | raised failure => contradiction
  | endless => contradiction
  | _ => exact ⟨fun _ he => (nomatch he), fun he => nomatch he⟩

end CallError

/-! ### Streams -/

namespace Reading

/-- Reading breaks off where the user has interrupted, or with the failure of a part. -/
theorem error_follow {watch : Watch} {parts : List StreamPart} {reading : Reading} {error : CallError}
    (h : (reading.follow watch parts).2 = some error) :
    error.isOwn = true ∨
      ∃ failure, error = .raised failure ∧ ∃ part ∈ parts, part.arrives = .error failure := by
  fun_induction follow watch reading parts with
  | case1 => contradiction
  | case2 _ part rest _ failure ha =>
    obtain rfl := Option.some.inj h
    exact .inr ⟨failure, rfl, part, List.mem_cons_self, ha⟩
  | case3 =>
    obtain rfl := Option.some.inj h
    exact .inl rfl
  | case4 _ part rest _ chunk _ _ ih =>
    rcases ih h with hc | ⟨failure, he, found, hm, hf⟩
    · exact .inl hc
    · exact .inr ⟨failure, he, found, List.mem_cons_of_mem _ hm, hf⟩

theorem error_output {profile : ModelProfile} {reading : Reading} {error : CallError}
    (h : reading.output profile = .error error) : error.isOwn = true := by
  unfold output at h
  dsimp only at h
  split at h
  · obtain rfl := Except.error.inj h
    rfl
  · split at h
    · obtain rfl := Except.error.inj h
      rfl
    · contradiction

end Reading

/-! ### Attempts -/

/-- The next reply is one of those left, or the failure there is when none is. -/
theorem mem_of_nextReply {replies rest : List Reply} {reply : Reply}
    (h : nextReply replies = (reply, rest)) :
    (reply ∈ replies ∨ reply = .failure noReplyLeft) ∧ rest ⊆ replies := by
  cases replies with
  | nil =>
    obtain ⟨rfl, rfl⟩ := Prod.mk.inj h
    exact ⟨.inr rfl, List.Subset.refl _⟩
  | cons first more =>
    obtain ⟨rfl, rfl⟩ := Prod.mk.inj h
    exact ⟨.inl List.mem_cons_self, List.subset_cons_self _ _⟩

/-- The answer is one of the replies, or an error that finds an interruption among them alone. -/
def Answer.OwedTo (replies : List Reply) : Answer → Prop
  | stream parts => .stream parts ∈ replies
  | silence => .silence ∈ replies
  | error e => e.isOwn = true ∨
      ∃ failure, e = .raised failure ∧ (failure.kind = .interrupted → .failure failure ∈ replies)

theorem Answer.OwedTo.mono {replies more : List Reply} {answer : Answer} (h : answer.OwedTo replies)
    (hs : replies ⊆ more) : answer.OwedTo more := by
  cases answer with
  | stream parts => exact hs h
  | silence => exact hs h
  | error e => exact h.imp_right fun ⟨failure, he, hm⟩ => ⟨failure, he, fun hk => hs (hm hk)⟩

namespace Endpoint

variable (endpoint : Endpoint)

theorem lastError_isOwn (timeout : Float) (attempt : Nat) (failure : ModelFailure) :
    (endpoint.lastError timeout attempt failure).isOwn = true := by
  unfold lastError
  split <;> rfl

theorem lastingError_isOwn_or (failure : ModelFailure) :
    (endpoint.lastingError failure).isOwn = true ∨ endpoint.lastingError failure = .raised failure := by
  unfold lastingError
  split
  · exact .inl rfl
  · split
    · exact .inl rfl
    · exact .inr rfl

/-- However often a call is made again, the answer is owed to the replies. -/
theorem owedTo_attempts (request : Request) (attempt : Nat) (waits : List Nat) (replies : List Reply) :
    (endpoint.attempts request attempt waits replies).2.1.OwedTo replies := by
  fun_induction attempts endpoint request attempt waits replies with
  | case1 _ _ _ _ parts hn => exact (mem_of_nextReply hn).1.resolve_right fun h => nomatch h
  | case2 _ _ _ _ hn => exact (mem_of_nextReply hn).1.resolve_right fun h => nomatch h
  | case3 attempt replies rest failure => exact .inl (endpoint.lastError_isOwn _ attempt failure)
  | case4 attempt replies rest failure _ wait waits later answer left ha hn ih =>
    rw [ha] at ih
    exact ih.mono (mem_of_nextReply hn).2
  | case5 waits attempt replies rest failure _ hn =>
    refine (endpoint.lastingError_isOwn_or failure).imp_right fun hr => ⟨failure, hr, fun hk => ?_⟩
    -- the failure there is when no reply is left does not interrupt
    refine (mem_of_nextReply hn).1.resolve_right fun hf => ?_
    rw [Reply.failure.inj hf] at hk
    contradiction

/-- What an answer comes to is owed to the replies as the answer is. -/
theorem owedTo_receive {watch : Watch} {token : Token} {answer : Answer} {replies : List Reply}
    (ha : answer.OwedTo replies) {error : CallError}
    (h : (endpoint.receive watch token answer).1 = .error error) : error.OwedTo token replies := by
  unfold receive at h
  cases answer with
  | error e =>
    obtain rfl := Except.error.inj h
    rcases ha with ho | ⟨failure, rfl, hm⟩
    · exact .own ho
    · refine ⟨fun raised he hk => ?_, fun he => nomatch he⟩
      obtain rfl := CallError.raised.inj he
      exact ⟨_, hm hk, rfl⟩
  | silence =>
    obtain rfl := Except.error.inj h
    cases token with
    | absent => exact ⟨fun _ he => (nomatch he), fun _ => ⟨rfl, ha⟩⟩
    | live | cancelled => exact .own rfl
  | stream parts =>
    dsimp only at h
    split at h
    · next reading e hf =>
      obtain rfl := Except.error.inj h
      have hb : (Reading.follow watch { token } parts).2 = some e := by rw [hf]
      rcases Reading.error_follow hb with ho | ⟨failure, rfl, part, hm, hp⟩
      · exact .own ho
      · refine ⟨fun raised he _ => ?_, fun he => nomatch he⟩
        obtain rfl := CallError.raised.inj he
        exact ⟨_, ha, part, hm, hp⟩
    · exact .own (Reading.error_output h)

/-- Every error of a query is owed to the replies. -/
theorem owedTo_run {query : Query} {watch : Watch} {token : Token} {replies : List Reply}
    {error : CallError}
    (h : (endpoint.provider.run query watch token replies).outcome = .error error) :
    error.OwedTo token replies := by
  unfold Provider.run at h
  split at h
  · obtain rfl := Except.error.inj h
    exact .own rfl
  · change (endpoint.complete query watch token replies).outcome = .error error at h
    unfold complete at h
    split at h
    · obtain rfl := Except.error.inj h
      exact .own rfl
    · next timeout _ =>
      exact endpoint.owedTo_receive
        (endpoint.owedTo_attempts (endpoint.request query timeout) 1 backoffs replies) h

end Endpoint
end PlanAssistant
