import PlanAssistant.Proofs.Model.Interruption

/-!
What a query leaves behind.  The replies that remain are the last ones of those there were, and an output
has taken at least one of them; a token with which the user can interrupt stays one.
-/
namespace PlanAssistant

theorem Token.cancel_ne_absent {token : Token} (h : token ≠ absent) : token.cancel ≠ absent := by
  cases token with
  | absent => exact absurd rfl h
  | live | cancelled => exact nofun

theorem suffix_of_nextReply {replies rest : List Reply} {reply : Reply}
    (h : nextReply replies = (reply, rest)) : rest <:+ replies := by
  cases replies with
  | nil =>
    obtain ⟨-, rfl⟩ := Prod.mk.inj h
    exact List.suffix_rfl
  | cons first more =>
    obtain ⟨-, rfl⟩ := Prod.mk.inj h
    exact List.suffix_cons _ _

theorem length_of_nextReply_stream {replies rest : List Reply} {parts : List StreamPart}
    (h : nextReply replies = (.stream parts, rest)) : rest.length < replies.length := by
  cases replies with
  | nil => nomatch (Prod.mk.inj h).1
  | cons first more =>
    obtain ⟨-, rfl⟩ := Prod.mk.inj h
    exact Nat.lt_succ_self _

namespace Reading

variable {watch : Watch}

theorem token_report {reading : Reading} (h : reading.token ≠ .absent) (isComplete : Bool)
    (chunk : Chunk) : (reading.report watch isComplete chunk).token ≠ .absent := by
  unfold report
  split
  · dsimp only
    split
    · exact Token.cancel_ne_absent h
    · exact h
  · exact h

theorem token_take {reading : Reading} (h : reading.token ≠ .absent) (chunk : Chunk) :
    (reading.take watch chunk).token ≠ .absent := by
  unfold take
  split
  · exact h
  · refine token_report ?_ false chunk
    exact h

theorem token_follow {reading : Reading} (h : reading.token ≠ .absent) (parts : List StreamPart) :
    (reading.follow watch parts).1.token ≠ .absent := by
  have hheard : ∀ (reading : Reading) (part : StreamPart), reading.token ≠ .absent →
      (if part.interrupts = true then { reading with token := reading.token.cancel }
        else reading).token ≠ .absent := by
    intro reading part h
    split
    · exact Token.cancel_ne_absent h
    · exact h
  fun_induction follow watch reading parts with
  | case1 => exact token_report h true {}
  | case2 reading part => exact hheard reading part h
  | case3 reading part => exact hheard reading part h
  | case4 reading part rest heard chunk _ _ ih => exact ih (token_take (hheard reading part h) chunk)

end Reading

namespace Endpoint

variable (endpoint : Endpoint) {query : Query} {watch : Watch} {token : Token} {replies : List Reply}

/-- However often a call is made again, replies are taken from the front. -/
theorem suffix_attempts (request : Request) (attempt : Nat) (waits : List Nat) (replies : List Reply) :
    (endpoint.attempts request attempt waits replies).2.2 <:+ replies := by
  fun_induction attempts endpoint request attempt waits replies with
  | case4 _ _ _ _ _ _ _ _ _ _ ha hn ih =>
    rw [ha] at ih
    exact ih.trans (suffix_of_nextReply hn)
  | case1 _ _ _ _ _ hn | case2 _ _ _ _ hn | case3 _ _ _ _ _ hn | case5 _ _ _ _ _ _ hn =>
    exact suffix_of_nextReply hn

/-- A stream is one of the replies. -/
theorem length_attempts_of_stream {request : Request} {attempt : Nat} {waits : List Nat}
    {parts : List StreamPart}
    (h : (endpoint.attempts request attempt waits replies).2.1 = .stream parts) :
    (endpoint.attempts request attempt waits replies).2.2.length < replies.length := by
  fun_induction attempts endpoint request attempt waits replies with
  | case1 _ _ _ _ _ hn => exact length_of_nextReply_stream hn
  | case4 _ _ _ _ _ _ _ _ _ _ ha hn ih =>
    rw [ha] at ih
    exact Nat.lt_of_lt_of_le (ih h) (suffix_of_nextReply hn).length_le
  | case2 | case3 | case5 => contradiction

theorem token_receive (h : token ≠ .absent) (answer : Answer) :
    (endpoint.receive watch token answer).2.2 ≠ .absent := by
  unfold receive
  cases answer with
  | error error => exact h
  | silence => exact Token.cancel_ne_absent h
  | stream parts =>
    have hf : (Reading.follow watch { token } parts).1.token ≠ .absent := Reading.token_follow h parts
    dsimp only
    split <;> next he => rwa [he] at hf

/-- Only a stream has an output. -/
theorem exists_stream_of_receive {answer : Answer} {output : StageOutput}
    (h : (endpoint.receive watch token answer).1 = .ok output) : ∃ parts, answer = .stream parts := by
  cases answer with
  | error error => nomatch h
  | silence => nomatch h
  | stream parts => exact ⟨parts, rfl⟩

theorem suffix_run : (endpoint.provider.run query watch token replies).rest <:+ replies := by
  unfold Provider.run
  split
  · exact List.suffix_rfl
  · change (endpoint.complete query watch token replies).rest <:+ replies
    unfold complete
    split
    · exact List.suffix_rfl
    · exact endpoint.suffix_attempts _ 1 backoffs replies

theorem length_run_of_ok {output : StageOutput}
    (h : (endpoint.provider.run query watch token replies).outcome = .ok output) :
    (endpoint.provider.run query watch token replies).rest.length < replies.length := by
  unfold Provider.run at h ⊢
  split at h
  · nomatch h
  · change (endpoint.complete query watch token replies).outcome = .ok output at h
    change (endpoint.complete query watch token replies).rest.length < replies.length
    unfold complete at h ⊢
    split at h
    · nomatch h
    · obtain ⟨parts, hs⟩ := endpoint.exists_stream_of_receive h
      exact endpoint.length_attempts_of_stream hs

theorem token_run (h : token ≠ .absent) :
    (endpoint.provider.run query watch token replies).token ≠ .absent := by
  unfold Provider.run
  split
  · exact nofun
  · change (endpoint.complete query watch token replies).token ≠ .absent
    unfold complete
    split
    · exact h
    · exact endpoint.token_receive h _

end Endpoint
end PlanAssistant
