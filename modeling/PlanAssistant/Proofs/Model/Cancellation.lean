import PlanAssistant.Proofs.Model.Calls

/-!
Queries cut short by the user.  A token that is cancelled before a query, while no reply comes, or just
before a chunk of the stream arrives, ends the query: no call is made any more, and the reports on the
stream are those of the chunks that arrived before.
-/
namespace PlanAssistant

/-- A chunk that arrives, with no interrupt before it. -/
def StreamPart.plain (chunk : Chunk) : StreamPart := ⟨false, .ok chunk⟩

/-- The reports on some chunks, after an answer so far of some number of chunks. -/
def Progress.ofChunks (answer : String) (count : Nat) : List Chunk → List Progress
  | [] => []
  | chunk :: later =>
    if chunk.isSilent then ofChunks answer count later
    else ⟨chunk.content, chunk.reasoning, answer ++ chunk.content, count + 1, false⟩ ::
      ofChunks (answer ++ chunk.content) (count + 1) later

/-- The reports on some chunks that are made where anybody looks. -/
def Watch.reportsOn (watch : Watch) (answer : String) (count : Nat) (chunks : List Chunk) :
    List Progress :=
  if watch.watched then Progress.ofChunks answer count chunks else []

namespace Reading

/-! ### Streams -/

/-- The user interrupts just before a part arrives and not before that, with `made` reports made at
first and `total` of them at last: with the part itself, or at the last report. -/
structure CutAt (watch : Watch) (made total : Nat) (part : StreamPart) : Prop where
  arrives : ∃ chunk, part.arrives = .ok chunk
  quiet : ∀ n, watch.interruptAt = some n → made < n → total ≤ n
  cut : part.interrupts = true ∨ made < total ∧ watch.interruptAt = some total

/-- The reading broke off on a cancelled token, with no report but the given ones. -/
def BreaksOff (reports : List Progress) (read : Reading × Option CallError) : Prop :=
  read.2 = some .cancelled ∧ read.1.reports = reports ∧ read.1.token = .cancelled

variable {watch : Watch} {reading : Reading} {part : StreamPart}

/-- A chunk that arrives on a cancelled token ends the reading. -/
theorem breaksOff_part (hp : ∃ chunk, part.arrives = .ok chunk)
    (ht : reading.token = .cancelled ∨ reading.token = .live ∧ part.interrupts = true)
    (later : List StreamPart) :
    BreaksOff reading.reports (reading.follow watch (part :: later)) := by
  obtain ⟨chunk, hp⟩ := hp
  cases hi : part.interrupts with
  | true => rcases ht with ht | ⟨ht, -⟩ <;> simp [BreaksOff, follow, hp, hi, ht, Token.cancel]
  | false =>
    have ht : reading.token = .cancelled := ht.resolve_right (by simp [hi])
    simp [BreaksOff, follow, hp, hi, ht]

theorem breaksOff_cancelled (ht : reading.token = .cancelled) (heard : List Chunk)
    (hp : ∃ chunk, part.arrives = .ok chunk) (later : List StreamPart) :
    BreaksOff reading.reports (reading.follow watch (heard.map .plain ++ part :: later)) := by
  cases heard with
  | nil => exact breaksOff_part hp (.inl ht) later
  | cons first heard => exact breaksOff_part ⟨first, rfl⟩ (.inl ht) _

theorem follow_plain (ht : reading.token = .live) (chunk : Chunk) (later : List StreamPart) :
    reading.follow watch (.plain chunk :: later) = (reading.take watch chunk).follow watch later := by
  simp [follow, StreamPart.plain, ht]

/-- The reports there are once some more chunks have been taken in. -/
def due (watch : Watch) (reading : Reading) (heard : List Chunk) : List Progress :=
  reading.reports ++ watch.reportsOn reading.content reading.count heard

theorem due_nil : reading.due watch [] = reading.reports := by
  cases hw : watch.watched <;> simp [due, Watch.reportsOn, Progress.ofChunks, hw]

theorem due_take (chunk : Chunk) (heard : List Chunk) :
    reading.due watch (chunk :: heard) = (reading.take watch chunk).due watch heard := by
  cases hs : chunk.isSilent <;> cases hw : watch.watched <;>
    simp [due, take, report, Watch.reportsOn, Progress.ofChunks, hs, hw]

/-- The chunk is reported, and at its report the user interrupts. -/
def InterruptsAt (watch : Watch) (reading : Reading) (chunk : Chunk) : Prop :=
  chunk.isSilent = false ∧ watch.watched = true ∧
    watch.interruptAt = some (reading.reports.length + 1)

theorem length_reports_take (watch : Watch) (reading : Reading) (chunk : Chunk) :
    (reading.take watch chunk).reports.length =
      reading.reports.length + if chunk.isSilent = false ∧ watch.watched = true then 1 else 0 := by
  cases hs : chunk.isSilent <;> cases hw : watch.watched <;> simp [take, report, hs, hw]

theorem token_take_of_interrupts {chunk : Chunk} (h : InterruptsAt watch reading chunk)
    (ht : reading.token = .live) : (reading.take watch chunk).token = .cancelled := by
  obtain ⟨hs, hw, hi⟩ := h
  simp [take, report, hs, hw, hi, ht, Token.cancel]

theorem token_take_of_not_interrupts {chunk : Chunk} (h : ¬InterruptsAt watch reading chunk)
    (ht : reading.token = .live) : (reading.take watch chunk).token = .live := by
  unfold InterruptsAt at h
  cases hs : chunk.isSilent <;> cases hw : watch.watched <;> simp_all [take, report]

/-- What cuts a stream after a chunk cuts it still once this chunk has been taken in. -/
theorem CutAt.take {chunk : Chunk} {total : Nat} (h : CutAt watch reading.reports.length total part)
    (hi : ¬InterruptsAt watch reading chunk) (hle : (reading.take watch chunk).reports.length ≤ total) :
    CutAt watch (reading.take watch chunk).reports.length total part := by
  have hl := length_reports_take watch reading chunk
  refine ⟨h.arrives, fun n hn hlt => h.quiet n hn (by omega), ?_⟩
  refine h.cut.imp_right fun ⟨hlt, ht⟩ => ⟨?_, ht⟩
  by_cases hr : chunk.isSilent = false ∧ watch.watched = true
  · have hne : total ≠ reading.reports.length + 1 := fun he => hi ⟨hr.1, hr.2, he ▸ ht⟩
    rw [if_pos hr] at hl
    omega
  · rw [if_neg hr] at hl
    omega

/-- A stream that is cut is read up to there. -/
theorem breaksOff_cut {heard : List Chunk} (ht : reading.token = .live)
    (hc : CutAt watch reading.reports.length (reading.due watch heard).length part)
    (later : List StreamPart) :
    BreaksOff (reading.due watch heard)
      (reading.follow watch (heard.map .plain ++ part :: later)) := by
  induction heard generalizing reading with
  | nil =>
    rw [due_nil] at hc ⊢
    exact breaksOff_part hc.arrives (.inr ⟨ht, by simpa using hc.cut⟩) later
  | cons chunk heard ih =>
    rw [List.map_cons, List.cons_append, follow_plain ht]
    rw [due_take] at hc ⊢
    have hle : (reading.take watch chunk).reports.length ≤
        ((reading.take watch chunk).due watch heard).length := by
      rw [due, List.length_append]
      omega
    by_cases hi : InterruptsAt watch reading chunk
    · -- no report comes after the one that interrupts
      have hlast := hc.quiet _ hi.2.2 (by omega)
      have hl := length_reports_take watch reading chunk
      rw [if_pos ⟨hi.1, hi.2.1⟩] at hl
      have hdue : (reading.take watch chunk).due watch heard = (reading.take watch chunk).reports := by
        rw [due, List.length_append] at hlast
        rw [due, List.append_right_eq_self, ← List.length_eq_zero_iff]
        omega
      rw [hdue]
      exact breaksOff_cancelled (token_take_of_interrupts hi ht) heard hc.arrives later
    · exact ih (token_take_of_not_interrupts hi ht) (hc.take hi hle)

end Reading

/-! ### Queries -/

namespace Endpoint

/-- The ways the user cuts a query short: the token before, the replies, the calls made and the reports
given until then, and the replies that are left. -/
inductive Cut (endpoint : Endpoint) (query : Query) (watch : Watch) :
    Token → List Reply → List (Attempt Request) → List Progress → List Reply → Prop
  /-- The token is cancelled before. -/
  | before {replies : List Reply} : Cut endpoint query watch .cancelled replies [] [] replies
  /-- The token is cancelled while no reply comes, perhaps after some failures. -/
  | waiting {timeout : Float} {failures : List ModelFailure} {rest : List Reply}
      (timed : Decimal.ofInt? query.timeout = some timeout)
      (passing : ∀ failure ∈ failures, failure.kind.isTransient = true)
      (left : failures.length < attemptLimit) :
    Cut endpoint query watch .live (failures.map .failure ++ .silence :: rest)
      (callsAfter (endpoint.request query timeout) failures.length) [] rest
  /-- The token is cancelled just before a chunk arrives, perhaps after some failures. -/
  | arriving {timeout : Float} {failures : List ModelFailure} {heard : List Chunk} {part : StreamPart}
      {later : List StreamPart} {rest : List Reply}
      (timed : Decimal.ofInt? query.timeout = some timeout)
      (passing : ∀ failure ∈ failures, failure.kind.isTransient = true)
      (left : failures.length < attemptLimit)
      (cut : Reading.CutAt watch 0 (watch.reportsOn "" 0 heard).length part) :
    Cut endpoint query watch .live
      (failures.map .failure ++ .stream (heard.map .plain ++ part :: later) :: rest)
      (callsAfter (endpoint.request query timeout) failures.length) (watch.reportsOn "" 0 heard) rest

variable {endpoint : Endpoint} {query : Query} {watch : Watch} {token : Token}
  {replies rest : List Reply} {calls : List (Attempt Request)} {reports : List Progress}

/-- A query that is cut short is cancelled: the calls and reports until then are all there are. -/
theorem run_cut (h : endpoint.Cut query watch token replies calls reports rest) :
    ∃ error, endpoint.provider.run query watch token replies =
        ⟨.error error, calls, reports, .cancelled, rest⟩ ∧
      (error = .cancelled ∨ error = .abandoned endpoint.profile.displayName) := by
  cases h with
  | before => exact ⟨.cancelled, rfl, .inl rfl⟩
  | waiting timed passing left =>
    refine ⟨.abandoned endpoint.profile.displayName, ?_, .inr rfl⟩
    exact endpoint.complete_passing timed passing left fun attempt waits =>
      endpoint.attempts_silence _ attempt waits _
  | @arriving timeout failures heard part later _ timed passing left cut =>
    have hlive : Reading.token { token := .live } = .live := rfl
    obtain ⟨herror, hreports, htoken⟩ := Reading.breaksOff_cut hlive cut later
    refine ⟨.cancelled, ?_, .inl rfl⟩
    change endpoint.complete query watch .live _ = _
    rw [endpoint.complete_passing timed passing left fun attempt waits =>
      endpoint.attempts_stream _ attempt waits _ _]
    cases hf : Reading.follow watch { token := .live } (heard.map .plain ++ part :: later) with
    | mk reading error =>
      rw [hf] at herror hreports htoken
      obtain rfl : error = some .cancelled := herror
      dsimp only at hreports htoken
      simp [receive, hf, hreports, htoken, Reading.due]

end Endpoint
end PlanAssistant
