import PlanAssistant.Proofs.Model.Calls

/-!
When a call is made again.  A law of retries says after which failures there is another attempt, how long
the waits are, and as what a query fails once its attempts are spent.  The documented law counts every
timeout among the failures that pass, and names the error a timeout when all attempts timed out; the law
that is kept leaves out the timeouts that the service reports, and goes by the last attempt alone.  The two
differ exactly on the replies that `Strays` tells of.
-/
namespace PlanAssistant

namespace FailureKind

/-- Whether a call took too long, as noticed on this side or as told by the service. -/
def isTimeout : FailureKind → Bool
  | timeLimit => true
  | serviceTimeout => true
  | _ => false

/-- Whether a failure passes: the service is busy, down or out of reach, or the call took too long. -/
def passes : FailureKind → Bool
  | rateLimit => true
  | unavailable => true
  | serverError => true
  | unreachable => true
  | kind => kind.isTimeout

/-- What a failure that does not pass comes out as: refused keys and refused requests as runtime failures,
all others as they are. -/
def whenLasting (kind : FailureKind) : FailureKind :=
  if kind = .unauthorized ∨ kind.refusesRequest = true then .runtime else kind

/-- Of the failures that pass, only the timeouts of the service count as lasting. -/
theorem isTransient_iff (kind : FailureKind) :
    kind.isTransient = true ↔ kind.passes = true ∧ kind ≠ .serviceTimeout := by
  cases kind <;> decide

/-- No timeout of the service is among the failures after which the call is made again. -/
theorem isTimeout_iff_of_isTransient {kind : FailureKind} (h : kind.isTransient = true) :
    kind.isTimeout = true ↔ kind = .timeLimit := by
  cases kind <;> simp_all [isTransient, isTimeout]

end FailureKind

/-- The kind of failure that an error comes out as, for the errors that calls end with. -/
def CallError.kind? : CallError → Option FailureKind
  | raised failure => some failure.kind
  | unauthorized .. => some .runtime
  | refused .. => some .runtime
  | timedOut .. => some .timeLimit
  | exhausted .. => some .runtime
  | _ => none

/-! ### Laws -/

/-- A law of retries. -/
structure RetryLaw where
  /-- The failures after which the call is made again. -/
  again : FailureKind → Bool
  /-- Seconds to wait before each attempt but the first. -/
  waits : List Nat
  /-- What a query fails as whose attempts are spent on these failures. -/
  spent : List ModelFailure → FailureKind

namespace RetryLaw

/-- The calls of a query after which the given number of others follow a failure. -/
def calls (law : RetryLaw) (request : Request) (failed : Nat) : List (Attempt Request) :=
  (law.waits.take failed).map (⟨request, some ·⟩) ++ [⟨request, none⟩]

/-- The law allows some calls, what came of them, and the replies left, on the replies there were: the
same request is made again while the law says so, until a reply comes, a failure lasts, or no attempt is
left. -/
inductive Allows (law : RetryLaw) (request : Request) :
    List Reply → List (Attempt Request) × Answer × List Reply → Prop
  | answered {failures : List ModelFailure} {parts : List StreamPart} {rest : List Reply}
      (passed : ∀ failure ∈ failures, law.again failure.kind = true)
      (left : failures.length ≤ law.waits.length) :
    Allows law request (failures.map .failure ++ .stream parts :: rest)
      (law.calls request failures.length, .stream parts, rest)
  | unanswered {failures : List ModelFailure} {rest : List Reply}
      (passed : ∀ failure ∈ failures, law.again failure.kind = true)
      (left : failures.length ≤ law.waits.length) :
    Allows law request (failures.map .failure ++ .silence :: rest)
      (law.calls request failures.length, .silence, rest)
  | lasted {failures : List ModelFailure} {failure : ModelFailure} {replies rest : List Reply}
      {error : CallError} (passed : ∀ failure ∈ failures, law.again failure.kind = true)
      (left : failures.length ≤ law.waits.length) (next : nextReply replies = (.failure failure, rest))
      (lasting : law.again failure.kind = false)
      (raised : error.kind? = some failure.kind.whenLasting) :
    Allows law request (failures.map .failure ++ replies)
      (law.calls request failures.length, .error error, rest)
  | exhausted {failures : List ModelFailure} {rest : List Reply} {error : CallError}
      (passed : ∀ failure ∈ failures, law.again failure.kind = true)
      (all : failures.length = law.waits.length + 1)
      (raised : error.kind? = some (law.spent failures)) :
    Allows law request (failures.map .failure ++ rest)
      (law.calls request law.waits.length, .error error, rest)

/-- The law that is documented: a query is a timeout if all of its attempts were. -/
def documented : RetryLaw where
  again := FailureKind.passes
  waits := [1, 2]
  spent failures := if failures.all (·.kind.isTimeout) then .timeLimit else .runtime

/-- The law that is kept: a query is a timeout if its last attempt ran into the time limit. -/
def kept : RetryLaw where
  again := FailureKind.isTransient
  waits := [1, 2]
  spent failures :=
    if failures.getLast?.any (·.kind == .timeLimit) then .timeLimit else .runtime

/-- Numbers of failures within the waits are told by the calls. -/
theorem calls_injective (law : RetryLaw) (request : Request) {failed other : Nat}
    (hf : failed ≤ law.waits.length) (ho : other ≤ law.waits.length)
    (h : law.calls request failed = law.calls request other) : failed = other := by
  have hl := congrArg List.length h
  simp only [calls, List.length_append, List.length_map, List.length_take, List.length_singleton] at hl
  omega

/-- Where a law lets a query end with a failure that passes, the attempts are spent. -/
theorem Allows.spent {law : RetryLaw} {request : Request} {failures : List ModelFailure}
    {failure : ModelFailure} {rest left : List Reply} {error : CallError}
    (hp : law.again failure.kind = true) (hl : failures.length ≤ law.waits.length)
    (h : law.Allows request (failures.map .failure ++ .failure failure :: rest)
      (law.calls request failures.length, .error error, left)) :
    error.kind? = some (law.spent (failures ++ [failure])) := by
  generalize hr : failures.map Reply.failure ++ .failure failure :: rest = replies at h
  generalize hm : (law.calls request failures.length, Answer.error error, left) = made at h
  cases h with
  | answered => nomatch (Prod.mk.inj (Prod.mk.inj hm).2).1
  | unanswered => nomatch (Prod.mk.inj (Prod.mk.inj hm).2).1
  | @lasted others other more rest _ _ few next lasting _ =>
    obtain ⟨hc, -⟩ := Prod.mk.inj hm
    have hlen := law.calls_injective request hl few hc
    obtain ⟨-, rfl⟩ := List.append_inj hr (by simpa using hlen)
    obtain rfl : failure = other := Reply.failure.inj (Prod.mk.inj next).1
    exact absurd (hp.symm.trans lasting) (by decide)
  | @exhausted others rest _ _ all raised =>
    obtain ⟨hc, he⟩ := Prod.mk.inj hm
    obtain rfl := Answer.error.inj (Prod.mk.inj he).1
    have hlen := law.calls_injective request hl (Nat.le_refl _) hc
    rw [List.append_cons, ← List.map_singleton, ← List.map_append] at hr
    obtain ⟨ho, -⟩ := List.append_inj hr (by simp [hlen, all])
    rw [List.map_inj_right fun _ _ => Reply.failure.inj] at ho
    rw [ho, raised]

end RetryLaw

/-- Replies on which the law that is kept strays from the documented one. -/
inductive Strays : List Reply → Prop
  /-- The service reports a timeout, and the query fails at once. -/
  | abandoned {failures : List ModelFailure} {failure : ModelFailure} {rest : List Reply}
      (passed : ∀ failure ∈ failures, failure.kind.isTransient = true) (left : failures.length ≤ 2)
      (kind : failure.kind = .serviceTimeout) :
    Strays (failures.map .failure ++ .failure failure :: rest)
  /-- The last attempt runs into the time limit and others did not, and the query counts as a timeout. -/
  | misnamed {failures : List ModelFailure} {failure : ModelFailure} {rest : List Reply}
      (passed : ∀ failure ∈ failures, failure.kind.isTransient = true) (all : failures.length = 2)
      (kind : failure.kind = .timeLimit) (mixed : ∃ failure ∈ failures, failure.kind ≠ .timeLimit) :
    Strays (failures.map .failure ++ .failure failure :: rest)

namespace Endpoint

/-! ### The law that is kept -/

section Kept

variable (endpoint : Endpoint)

theorem kind?_lastError (timeout : Float) (attempt : Nat) (failure : ModelFailure) :
    (endpoint.lastError timeout attempt failure).kind? =
      some (if failure.kind == .timeLimit then .timeLimit else .runtime) := by
  unfold lastError
  split <;> rfl

theorem kind?_lastingError (failure : ModelFailure) :
    (endpoint.lastingError failure).kind? = some failure.kind.whenLasting := by
  obtain ⟨kind, message⟩ := failure
  cases kind <;> rfl

/-- Some failures pass first, as many as there are waits or until another reply comes. -/
theorem exists_passed (most : Nat) (replies : List Reply) :
    ∃ (failures : List ModelFailure) (more : List Reply), replies = failures.map .failure ++ more ∧
      (∀ failure ∈ failures, failure.kind.isTransient = true) ∧ failures.length ≤ most ∧
      (failures.length = most ∨
        ∀ failure, (nextReply more).1 = .failure failure → failure.kind.isTransient = false) := by
  induction most generalizing replies with
  | zero => exact ⟨[], replies, rfl, fun _ hf => absurd hf List.not_mem_nil, Nat.le_refl 0, .inl rfl⟩
  | succ most ih =>
    by_cases hn : ∃ failure, (nextReply replies).1 = .failure failure ∧ failure.kind.isTransient = true
    · obtain ⟨failure, hn, ht⟩ := hn
      cases replies with
      | nil =>
        obtain rfl : noReplyLeft = failure := Reply.failure.inj hn
        contradiction
      | cons reply rest =>
        obtain rfl : reply = .failure failure := hn
        obtain ⟨failures, more, rfl, hp, hl, hmore⟩ := ih rest
        refine ⟨failure :: failures, more, rfl, List.forall_mem_cons.mpr ⟨ht, hp⟩, ?_, ?_⟩
        · exact Nat.succ_le_succ hl
        · exact hmore.imp_left (congrArg Nat.succ ·)
    · refine ⟨[], replies, rfl, fun _ hf => absurd hf List.not_mem_nil, Nat.zero_le _, .inr ?_⟩
      intro failure hf
      cases ht : failure.kind.isTransient with
      | false => rfl
      | true => exact absurd ⟨failure, hf, ht⟩ hn

theorem eq_cons_of_nextReply {replies rest : List Reply} {reply : Reply}
    (h : nextReply replies = (reply, rest)) (hne : reply ≠ .failure noReplyLeft) :
    replies = reply :: rest := by
  cases replies with
  | nil => exact absurd (Prod.mk.inj h).1.symm hne
  | cons first more =>
    obtain ⟨rfl, rfl⟩ := Prod.mk.inj h
    rfl

/-- Attempts go by the law that is kept, whatever the replies. -/
theorem kept_attempts (request : Request) (replies : List Reply) :
    RetryLaw.kept.Allows request replies (endpoint.attempts request 1 backoffs replies) := by
  obtain ⟨failures, more, rfl, passed, left, hmore⟩ := exists_passed backoffs.length replies
  rw [endpoint.attempts_append request 1 backoffs passed left]
  cases hn : nextReply more with
  | mk reply rest =>
    rw [hn] at hmore
    cases reply with
    | stream parts =>
      obtain rfl := eq_cons_of_nextReply hn nofun
      rw [attempts_stream]
      exact .answered passed left
    | silence =>
      obtain rfl := eq_cons_of_nextReply hn nofun
      rw [attempts_silence]
      exact .unanswered passed left
    | failure failure =>
      cases ht : failure.kind.isTransient with
      | false =>
        rw [endpoint.attempts_lasting request _ _ ht hn]
        exact .lasted passed left hn ht (endpoint.kind?_lastingError failure)
      | true =>
        have all : failures.length = backoffs.length :=
          hmore.resolve_right fun h => by simpa [ht] using h failure rfl
        obtain rfl : more = .failure failure :: rest := eq_cons_of_nextReply hn <| by
          rintro he
          rw [Reply.failure.inj he] at ht
          contradiction
        rw [all, List.drop_length, endpoint.attempts_spent request _ ht, List.append_cons,
          ← List.map_singleton, ← List.map_append]
        refine .exhausted ?_ ?_ ?_
        · exact List.forall_mem_append.mpr ⟨passed, List.forall_mem_singleton.mpr ht⟩
        · rw [List.length_append, all]
          rfl
        · rw [kind?_lastError]
          simp [RetryLaw.kept]

end Kept

/-! ### Where the laws differ -/

section Laws

variable {request : Request} {replies rest : List Reply} {made : List (Attempt Request) × Answer × List Reply}

/-- Unless the replies are among those where it strays, the law that is kept is the documented one. -/
theorem documented_of_kept (h : RetryLaw.kept.Allows request replies made) (hs : ¬ Strays replies) :
    RetryLaw.documented.Allows request replies made := by
  have hpasses : ∀ {failures : List ModelFailure},
      (∀ failure ∈ failures, failure.kind.isTransient = true) →
      ∀ failure ∈ failures, failure.kind.passes = true :=
    fun hp failure hf => (failure.kind.isTransient_iff.mp (hp failure hf)).1
  cases h with
  | answered passed left => exact .answered (hpasses passed) left
  | unanswered passed left => exact .unanswered (hpasses passed) left
  | @lasted failures failure more rest error passed left next lasting raised =>
    refine .lasted (hpasses passed) left next ?_ raised
    cases hk : failure.kind.passes with
    | false => exact hk
    | true =>
      have hservice : failure.kind = .serviceTimeout := by
        refine Classical.byContradiction fun hne => ?_
        have ht := failure.kind.isTransient_iff.mpr ⟨hk, hne⟩
        exact absurd (lasting.symm.trans ht) Bool.false_ne_true
      obtain rfl := eq_cons_of_nextReply next fun he => by
        rw [Reply.failure.inj he] at hservice
        contradiction
      exact absurd (.abandoned passed left hservice) hs
  | @exhausted failures rest error passed all raised =>
    refine .exhausted (hpasses passed) all (raised.trans (congrArg some ?_))
    have hne : failures ≠ [] := List.ne_nil_of_length_eq_add_one all
    obtain ⟨first, last, rfl⟩ : ∃ first last, failures = first ++ [last] :=
      ⟨_, _, (List.dropLast_concat_getLast hne).symm⟩
    obtain ⟨hfirst, hlast⟩ := List.forall_mem_append.mp passed
    have htimeout := FailureKind.isTimeout_iff_of_isTransient (hlast last List.mem_cons_self)
    rw [List.map_append, List.append_assoc] at hs
    have htwo : first.length = 2 := by simpa [RetryLaw.kept] using all
    by_cases hk : last.kind = .timeLimit
    · have hall : ∀ failure ∈ first, failure.kind.isTimeout = true := by
        intro failure hf
        refine (FailureKind.isTimeout_iff_of_isTransient (hfirst failure hf)).mpr ?_
        exact Classical.byContradiction fun hn => hs (.misnamed hfirst htwo hk ⟨failure, hf, hn⟩)
      have hlimit : FailureKind.timeLimit.isTimeout = true := rfl
      simpa [RetryLaw.kept, RetryLaw.documented, hk, hlimit] using hall
    · have hn : last.kind.isTimeout = false := by simpa using mt htimeout.mp hk
      simp [RetryLaw.kept, RetryLaw.documented, hk, hn]

end Laws

variable (endpoint : Endpoint)

/-- Where the law that is kept strays, attempts do not go by the documented one. -/
theorem not_documented_of_strays (request : Request) {replies : List Reply} (h : Strays replies) :
    ¬ RetryLaw.documented.Allows request replies (endpoint.attempts request 1 backoffs replies) := by
  intro hd
  cases h with
  | @abandoned failures failure rest passed left kind =>
    have ht : failure.kind.isTransient = false := by rw [kind]; rfl
    rw [endpoint.attempts_append request 1 backoffs passed left,
      endpoint.attempts_lasting request _ _ ht rfl] at hd
    have hs := RetryLaw.Allows.spent (by rw [kind]; rfl) left hd
    rw [kind?_lastingError, kind] at hs
    dsimp only [RetryLaw.documented] at hs
    split at hs <;> contradiction
  | @misnamed failures failure rest passed all kind mixed =>
    have ht : failure.kind.isTransient = true := by rw [kind]; rfl
    have left := Nat.le_of_eq all
    rw [endpoint.attempts_append request 1 backoffs passed left, all,
      show backoffs.drop 2 = [] from rfl, endpoint.attempts_spent request _ ht] at hd
    have hs : _ = some (RetryLaw.documented.spent (failures ++ [failure])) :=
      RetryLaw.Allows.spent (by rw [kind]; rfl) left (by rw [all]; exact hd)
    obtain ⟨other, ho, hne⟩ := mixed
    have hn : ¬ other.kind.isTimeout = true :=
      mt (FailureKind.isTimeout_iff_of_isTransient (passed other ho)).mp hne
    have hspent : RetryLaw.documented.spent (failures ++ [failure]) = .runtime :=
      if_neg fun hall => hn (List.all_eq_true.mp hall other (List.mem_append_left _ ho))
    rw [kind?_lastError, kind, hspent] at hs
    contradiction

/-- Attempts go by the documented law exactly on the replies where the law that is kept does not stray
from it. -/
theorem documented_attempts_iff (request : Request) (replies : List Reply) :
    RetryLaw.documented.Allows request replies (endpoint.attempts request 1 backoffs replies) ↔
      ¬ Strays replies :=
  ⟨fun hd hs => endpoint.not_documented_of_strays request hs hd,
    documented_of_kept (endpoint.kept_attempts request replies)⟩

/-- A timeout that the service reports ends the query at once, and two refusals for the rate with a time
limit after them come out as a timeout. -/
theorem not_documented_attempts_late :
    let endpoint : Endpoint := ⟨default, {}, ""⟩
    let request := endpoint.request default 120
    let late : List Reply := [.failure ⟨.serviceTimeout, "late"⟩, .ofText "answer"]
    let mixed : List Reply :=
      [.failure ⟨.rateLimit, "busy"⟩, .failure ⟨.rateLimit, "busy"⟩, .failure ⟨.timeLimit, "slow"⟩]
    ¬ RetryLaw.documented.Allows request late (endpoint.attempts request 1 backoffs late) ∧
      ¬ RetryLaw.documented.Allows request mixed (endpoint.attempts request 1 backoffs mixed) := by
  intro endpoint request late mixed
  have hlate : Strays (([] : List ModelFailure).map .failure ++ late) :=
    .abandoned (fun _ hf => absurd hf List.not_mem_nil) (Nat.zero_le 2) rfl
  have hmixed : Strays ([⟨.rateLimit, "busy"⟩, ⟨.rateLimit, "busy"⟩].map .failure ++
      [.failure ⟨.timeLimit, "slow"⟩]) :=
    .misnamed (by decide) rfl rfl ⟨_, List.mem_cons_self, by decide⟩
  exact ⟨endpoint.not_documented_of_strays request hlate,
    endpoint.not_documented_of_strays request hmixed⟩

end Endpoint
end PlanAssistant
