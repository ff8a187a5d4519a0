import PlanAssistant.Proofs.Model.Cancellation
import PlanAssistant.Proofs.Model.Costs

/-!
What becomes of a stream that is read to its end.  Its chunks are put together to the answer and the
reasoning, those that add something are counted and reported, and the usage is the one that came with the
last chunk; the calls that failed before leave no trace but themselves.
-/
namespace PlanAssistant

/-! ### What chunks hold -/

/-- No count that was reported is below zero. -/
def ReportedUsage.Counted (usage : ReportedUsage) : Prop :=
  (∀ count ∈ usage.prompt, 0 ≤ count) ∧ ∀ count ∈ usage.completion, 0 ≤ count

namespace Chunk

/-- The chunks that add something. -/
def spoken (chunks : List Chunk) : List Chunk := chunks.filter fun chunk => !chunk.isSilent

/-- All content, in order. -/
def contents (chunks : List Chunk) : String := String.join (chunks.map content)

/-- All reasoning, in order. -/
def reasonings (chunks : List Chunk) : String := String.join (chunks.map reasoning)

/-- The usage that came with the last chunk. -/
def lastUsage (chunks : List Chunk) : Option ReportedUsage := chunks.getLast?.bind (·.usage)

def promptTokens (chunks : List Chunk) : Int := ((lastUsage chunks).bind (·.prompt)).getD 0

/-- The tokens reported with the last chunk; each chunk that adds something is one if that are none. -/
def completionTokens (chunks : List Chunk) : Int :=
  (((lastUsage chunks).bind (·.completion)).filter (· != 0)).getD (spoken chunks).length

/-- A report on each chunk that adds something, with the answer and the count so far, and one that the
stream is complete. -/
def reports (chunks : List Chunk) : List Progress :=
  ((spoken chunks).mapIdx fun i chunk =>
    ⟨chunk.content, chunk.reasoning, contents ((spoken chunks).take (i + 1)), i + 1, false⟩) ++
      [⟨"", "", contents chunks, (spoken chunks).length, true⟩]

section

variable {chunk : Chunk} {chunks : List Chunk}

theorem spoken_of_silent (h : chunk.isSilent = true) : spoken (chunk :: chunks) = spoken chunks := by
  simp [spoken, h]

theorem spoken_of_not_silent (h : chunk.isSilent = false) :
    spoken (chunk :: chunks) = chunk :: spoken chunks := by
  simp [spoken, h]

theorem contents_cons (chunk : Chunk) (chunks : List Chunk) :
    contents (chunk :: chunks) = chunk.content ++ contents chunks := String.join_cons

theorem reasonings_cons (chunk : Chunk) (chunks : List Chunk) :
    reasonings (chunk :: chunks) = chunk.reasoning ++ reasonings chunks := String.join_cons

theorem eq_empty_of_silent (h : chunk.isSilent = true) : chunk.content = "" ∧ chunk.reasoning = "" := by
  simpa [isSilent] using h

theorem promptTokens_nonneg (h : ∀ usage ∈ lastUsage chunks, usage.Counted) : 0 ≤ promptTokens chunks := by
  unfold promptTokens
  cases hu : (lastUsage chunks).bind (·.prompt) with
  | none => exact Int.le_refl 0
  | some count =>
    obtain ⟨usage, hl, hc⟩ := Option.bind_eq_some_iff.mp hu
    exact (h usage hl).1 count hc

theorem completionTokens_nonneg (h : ∀ usage ∈ lastUsage chunks, usage.Counted) :
    0 ≤ completionTokens chunks := by
  unfold completionTokens
  cases hu : ((lastUsage chunks).bind (·.completion)).filter (· != 0) with
  | none => exact Int.natCast_nonneg _
  | some count =>
    obtain ⟨hb, -⟩ := Option.filter_eq_some_iff.mp hu
    obtain ⟨usage, hl, hc⟩ := Option.bind_eq_some_iff.mp hb
    exact (h usage hl).2 count hc

end

end Chunk

/-- The reports on chunks tell what was added so far. -/
theorem Progress.ofChunks_eq (answer : String) (count : Nat) (chunks : List Chunk) :
    ofChunks answer count chunks = (Chunk.spoken chunks).mapIdx fun i chunk =>
      ⟨chunk.content, chunk.reasoning, answer ++ Chunk.contents ((Chunk.spoken chunks).take (i + 1)),
        count + (i + 1), false⟩ := by
  induction chunks generalizing answer count with
  | nil => rfl
  | cons chunk chunks ih =>
    rw [ofChunks]
    cases hs : chunk.isSilent with
    | true => simpa [Chunk.spoken_of_silent hs] using ih answer count
    | false =>
      rw [if_neg (by decide), ih, Chunk.spoken_of_not_silent hs, List.mapIdx_cons]
      simp [Chunk.contents, String.append_assoc, Nat.add_assoc, Nat.add_comm 1]

namespace Reading

variable {watch : Watch} {reading : Reading} {token : Token} {parts : List StreamPart}
  {chunks : List Chunk}

/-! ### What is read -/

/-- What a reading comes to that goes on with some chunks to the end of the stream. -/
structure Gathers (watch : Watch) (reading : Reading) (chunks : List Chunk) (last : Reading) : Prop where
  content : last.content = reading.content ++ Chunk.contents chunks
  reasoning : last.reasoning = reading.reasoning ++ Chunk.reasonings chunks
  count : last.count = reading.count + (Chunk.spoken chunks).length
  usage : last.usage = if chunks = [] then reading.usage else Chunk.lastUsage chunks
  reports : last.reports = reading.due watch chunks ++
    if watch.watched then [⟨"", "", last.content, last.count, true⟩] else []

theorem gathers_nil : Gathers watch reading [] (reading.report watch true {}) := by
  cases hw : watch.watched <;> constructor <;>
    simp [report, hw, due, Watch.reportsOn, Progress.ofChunks, Chunk.contents, Chunk.reasonings,
      Chunk.spoken, Chunk.content, Chunk.reasoning]

section Take

variable (watch : Watch) (reading : Reading) (chunk : Chunk)

theorem content_take : (reading.take watch chunk).content = reading.content ++ chunk.content := by
  cases hs : chunk.isSilent <;> cases hw : watch.watched <;>
    simp [take, report, hs, hw, Chunk.eq_empty_of_silent]

theorem reasoning_take : (reading.take watch chunk).reasoning = reading.reasoning ++ chunk.reasoning := by
  cases hs : chunk.isSilent <;> cases hw : watch.watched <;>
    simp [take, report, hs, hw, Chunk.eq_empty_of_silent]

theorem count_take (chunks : List Chunk) :
    (reading.take watch chunk).count + (Chunk.spoken chunks).length =
      reading.count + (Chunk.spoken (chunk :: chunks)).length := by
  cases hs : chunk.isSilent <;> cases hw : watch.watched <;>
    simp [take, report, hs, hw, Chunk.spoken, Nat.add_assoc, Nat.add_comm 1]

theorem usage_take : (reading.take watch chunk).usage = chunk.usage := by
  cases hs : chunk.isSilent <;> cases hw : watch.watched <;> simp [take, report, hs, hw]

end Take

/-- A chunk that has been taken in counts with those that follow. -/
theorem Gathers.of_take {chunk : Chunk} {last : Reading}
    (h : Gathers watch (reading.take watch chunk) chunks last) :
    Gathers watch reading (chunk :: chunks) last where
  content := by rw [h.content, content_take, Chunk.contents_cons, String.append_assoc]
  reasoning := by rw [h.reasoning, reasoning_take, Chunk.reasonings_cons, String.append_assoc]
  count := by rw [h.count, count_take]
  usage := by
    rw [h.usage, usage_take, if_neg (List.cons_ne_nil chunk chunks)]
    cases chunks with
    | nil => rfl
    | cons next chunks => exact if_neg (List.cons_ne_nil next chunks)
  reports := by rw [h.reports, due_take]

/-- A reading that does not break off gathers all chunks. -/
theorem gathers_follow (h : (reading.follow watch parts).2 = none) :
    ∀ chunks, parts.map (·.arrives) = chunks.map .ok →
      Gathers watch reading chunks (reading.follow watch parts).1 := by
  fun_induction follow watch reading parts with
  | case1 reading =>
    intro chunks ha
    obtain rfl : chunks = [] := by simpa using ha.symm
    exact gathers_nil
  | case2 => contradiction
  | case3 => contradiction
  | case4 reading part rest heard chunk hp _ ih =>
    intro chunks ha
    cases chunks with
    | nil => simp at ha
    | cons first chunks =>
      obtain ⟨hfirst, hrest⟩ := List.cons_eq_cons.mp ha
      obtain rfl : chunk = first := Except.ok.inj (hp.symm.trans hfirst)
      have hgather := (ih h chunks hrest).of_take
      -- an interrupt changes the token alone
      have hheard : ∃ token, heard = { reading with token } := by
        by_cases hi : part.interrupts = true
        · exact ⟨_, if_pos hi⟩
        · exact ⟨_, if_neg hi⟩
      obtain ⟨token, hheard⟩ := hheard
      rw [hheard] at hgather ⊢
      exact ⟨hgather.content, hgather.reasoning, hgather.count, hgather.usage, hgather.reports⟩

/-! ### Where reading does not break off -/

/-- After `made` reports the user interrupts at none of the next `more`, if anybody looks. -/
def QuietFor (watch : Watch) (made more : Nat) : Prop :=
  ∀ report, watch.watched = true → watch.interruptAt = some report → report ≤ made ∨ made + more < report

theorem quietFor_zero {made : Nat} : QuietFor watch made 0 := fun report _ _ => by omega

/-- The reading goes on with some chunks to the end of the stream: every part arrives, and none on a
cancelled token.  So nobody can interrupt, or nothing arrives, or no part is interrupted and no report
after which another part comes. -/
structure Finishes (watch : Watch) (reading : Reading) (parts : List StreamPart) (chunks : List Chunk) :
    Prop where
  arrive : parts.map (·.arrives) = chunks.map .ok
  uncancelled : reading.token = .absent ∨ parts = [] ∨
    reading.token = .live ∧ (∀ part ∈ parts, part.interrupts = false) ∧
      QuietFor watch reading.reports.length (Chunk.spoken chunks.dropLast).length

theorem finishes_nil : Finishes watch reading [] [] := ⟨rfl, .inr (.inl rfl)⟩

theorem token_take_of_absent (ht : reading.token = .absent) (chunk : Chunk) :
    (reading.take watch chunk).token = .absent := by
  cases hs : chunk.isSilent <;> cases hw : watch.watched <;> simp [take, report, hs, hw, ht, Token.cancel]

/-- Quiet for the reports on some chunks is quiet for the first of them, and then for the others. -/
theorem quietFor_cons_iff {chunk : Chunk} {later : List Chunk} :
    QuietFor watch reading.reports.length (Chunk.spoken (chunk :: later)).length ↔
      ¬ InterruptsAt watch reading chunk ∧
        QuietFor watch (reading.take watch chunk).reports.length (Chunk.spoken later).length := by
  have hl := length_reports_take watch reading chunk
  cases hs : chunk.isSilent with
  | true =>
    rw [if_neg (by simp [hs]), Nat.add_zero] at hl
    rw [Chunk.spoken_of_silent hs, hl]
    exact ⟨fun h => ⟨fun hi => absurd (hs.symm.trans hi.1) (by decide), h⟩, And.right⟩
  | false =>
    rw [Chunk.spoken_of_not_silent hs, List.length_cons]
    constructor
    · intro h
      refine ⟨fun hi => ?_, fun report hw hr => ?_⟩
      · rcases h _ hi.2.1 hi.2.2 with hle | hlt <;> omega
      · rw [if_pos ⟨hs, hw⟩] at hl
        rcases h report hw hr with hle | hlt <;> omega
    · rintro ⟨hi, h⟩ report hw hr
      have hne : report ≠ reading.reports.length + 1 := fun he => hi ⟨hs, hw, he ▸ hr⟩
      rw [if_pos ⟨hs, hw⟩] at hl
      rcases h report hw hr with hle | hlt <;> omega

/-- A reading goes on to the end if it does once the next chunk has been taken in. -/
theorem finishes_cons_iff {part : StreamPart} {chunk : Chunk} (hp : part.arrives = .ok chunk) :
    Finishes watch reading (part :: parts) (chunk :: chunks) ↔
      (reading.token = .absent ∨ reading.token = .live ∧ part.interrupts = false) ∧
        Finishes watch (reading.take watch chunk) parts chunks := by
  have harrive : (part :: parts).map (·.arrives) = (chunk :: chunks).map .ok ↔
      parts.map (·.arrives) = chunks.map .ok := by
    simp [hp]
  constructor
  · rintro ⟨ha, habsent | hnil | ⟨hlive, hparts, hquiet⟩⟩
    · exact ⟨.inl habsent, harrive.mp ha, .inl (token_take_of_absent habsent chunk)⟩
    · contradiction
    · obtain ⟨hpart, hlater⟩ := List.forall_mem_cons.mp hparts
      refine ⟨.inr ⟨hlive, hpart⟩, harrive.mp ha, .inr ?_⟩
      cases chunks with
      | nil => exact .inl (by simpa using harrive.mp ha)
      | cons next chunks =>
        obtain ⟨hi, hquiet⟩ := quietFor_cons_iff.mp hquiet
        exact .inr ⟨token_take_of_not_interrupts hi hlive, hlater, hquiet⟩
  · rintro ⟨habsent | ⟨hlive, hpart⟩, ha, hu⟩
    · exact ⟨harrive.mpr ha, .inl habsent⟩
    -- a live token is live or cancelled once the chunk has been taken in
    have hcases : parts = [] ∨ ¬ InterruptsAt watch reading chunk ∧
        (∀ part ∈ parts, part.interrupts = false) ∧
          QuietFor watch (reading.take watch chunk).reports.length
            (Chunk.spoken chunks.dropLast).length := by
      rcases hu with habsent | hnil | ⟨htake, hparts, hquiet⟩
      · by_cases hi : InterruptsAt watch reading chunk
        · rw [token_take_of_interrupts hi hlive] at habsent
          contradiction
        · rw [token_take_of_not_interrupts hi hlive] at habsent
          contradiction
      · exact .inl hnil
      · refine .inr ⟨fun hi => ?_, hparts, hquiet⟩
        rw [token_take_of_interrupts hi hlive] at htake
        contradiction
    refine ⟨harrive.mpr ha, .inr (.inr ⟨hlive, ?_⟩)⟩
    rcases hcases with rfl | ⟨hi, hparts, hquiet⟩
    · obtain rfl : chunks = [] := by simpa using ha.symm
      exact ⟨by simpa using hpart, quietFor_zero⟩
    · refine ⟨List.forall_mem_cons.mpr ⟨hpart, hparts⟩, ?_⟩
      cases chunks with
      | nil => exact quietFor_zero
      | cons next chunks => exact quietFor_cons_iff.mpr ⟨hi, hquiet⟩

/-- A chunk that does not arrive on a cancelled token is taken in. -/
theorem follow_heard {part : StreamPart} {chunk : Chunk} (hp : part.arrives = .ok chunk)
    (ht : reading.token = .absent ∨ reading.token = .live ∧ part.interrupts = false) :
    reading.follow watch (part :: parts) = (reading.take watch chunk).follow watch parts := by
  have hsame : (if part.interrupts then { reading with token := reading.token.cancel } else reading) =
      reading := by
    rcases ht with ht | ⟨-, hi⟩
    · cases reading
      obtain rfl : _ = Token.absent := ht
      exact ite_self _
    · exact if_neg (by simp [hi])
  have hgoes : (reading.token == .cancelled) = false := by
    rcases ht with ht | ⟨ht, -⟩ <;> rw [ht] <;> rfl
  rw [follow]
  simp [hsame, hp, hgoes]

/-- A chunk that arrives on a cancelled token breaks the reading off. -/
theorem follow_unheard {part : StreamPart} {chunk : Chunk} (hp : part.arrives = .ok chunk)
    (ht : ¬ (reading.token = .absent ∨ reading.token = .live ∧ part.interrupts = false)) :
    (reading.follow watch (part :: parts)).2 ≠ none := by
  rw [follow]
  cases hr : reading.token <;> cases hi : part.interrupts <;> simp_all [Token.cancel]

theorem Finishes.exists_cons {part : StreamPart} {chunk : Chunk} (hp : part.arrives = .ok chunk)
    (h : Finishes watch reading (part :: parts) chunks) : ∃ later, chunks = chunk :: later := by
  cases chunks with
  | nil => simpa using h.arrive
  | cons first later =>
    obtain rfl : chunk = first := Except.ok.inj (hp.symm.trans (List.cons_eq_cons.mp h.arrive).1)
    exact ⟨later, rfl⟩

/-- The reading of a stream does not break off exactly when it goes on to the end. -/
theorem follow_eq_none_iff :
    (reading.follow watch parts).2 = none ↔ ∃ chunks, Finishes watch reading parts chunks := by
  induction parts generalizing reading with
  | nil => exact ⟨fun _ => ⟨[], finishes_nil⟩, fun _ => rfl⟩
  | cons part parts ih =>
    cases hp : part.arrives with
    | error failure =>
      refine ⟨fun h => ?_, fun ⟨chunks, hf⟩ => ?_⟩
      · simp [follow, hp] at h
      · cases chunks <;> simpa [hp] using hf.arrive
    | ok chunk =>
      by_cases ht : reading.token = .absent ∨ reading.token = .live ∧ part.interrupts = false
      · rw [follow_heard hp ht, ih]
        constructor
        · rintro ⟨chunks, hf⟩
          exact ⟨chunk :: chunks, (finishes_cons_iff hp).mpr ⟨ht, hf⟩⟩
        · rintro ⟨chunks, hf⟩
          obtain ⟨later, rfl⟩ := hf.exists_cons hp
          exact ⟨later, ((finishes_cons_iff hp).mp hf).2⟩
      · refine ⟨fun h => absurd h (follow_unheard hp ht), fun ⟨chunks, hf⟩ => ?_⟩
        obtain ⟨later, rfl⟩ := hf.exists_cons hp
        exact absurd ((finishes_cons_iff hp).mp hf).1 ht

/-! ### What comes of a stream -/

section Output

variable {last : Reading}

theorem Gathers.usage_eq (h : Gathers watch { token } chunks last) :
    last.usage = Chunk.lastUsage chunks := by
  rw [h.usage]
  cases chunks with
  | nil => rfl
  | cons chunk chunks => exact if_neg (List.cons_ne_nil chunk chunks)

theorem Gathers.promptTokens_eq (h : Gathers watch { token } chunks last) :
    last.promptTokens = Chunk.promptTokens chunks := by
  rw [promptTokens, countOr, h.usage_eq, Chunk.promptTokens]
  cases (Chunk.lastUsage chunks).bind (·.prompt) with
  | none => rfl
  | some count => by_cases hc : count = 0 <;> simp [Option.filter, hc]

theorem Gathers.completionTokens_eq (h : Gathers watch { token } chunks last) :
    last.completionTokens = Chunk.completionTokens chunks := by
  rw [completionTokens, countOr, h.usage_eq, h.count, Nat.zero_add]
  rfl

theorem Gathers.reports_eq (h : Gathers watch { token } chunks last) :
    last.reports = if watch.watched then Chunk.reports chunks else [] := by
  rw [h.reports, h.content, h.count]
  cases hw : watch.watched with
  | true => simp [due, Watch.reportsOn, hw, Progress.ofChunks_eq, Chunk.reports]
  | false => simp [due, Watch.reportsOn, hw]

/-- Where the counts are none below zero and their cost is a number, there is an output. -/
theorem Gathers.output_eq (h : Gathers watch { token } chunks last) {profile : ModelProfile} {cost : Float}
    (valid : profile.Valid) (counted : ∀ usage ∈ Chunk.lastUsage chunks, usage.Counted)
    (worked : TokenUsage.cost? profile (Chunk.promptTokens chunks) (Chunk.completionTokens chunks) =
      some cost) (number : cost.isNaN = false) :
    last.output profile = .ok ⟨Text.strip (Chunk.contents chunks), Text.strip (Chunk.reasonings chunks),
      some ⟨Chunk.promptTokens chunks, Chunk.completionTokens chunks, cost⟩, profile.model⟩ := by
  have hprompt := Chunk.promptTokens_nonneg counted
  have hcompletion := Chunk.completionTokens_nonneg counted
  have hcost : 0 ≤ cost :=
    Decimal.zero_le_iff.mpr ⟨TokenUsage.cost?_not_lt_zero valid hprompt hcompletion worked, number⟩
  have hcontent : last.content = Chunk.contents chunks := by rw [h.content, String.empty_append]
  have hreasoning : last.reasoning = Chunk.reasonings chunks := by rw [h.reasoning, String.empty_append]
  simp only [output, h.promptTokens_eq, h.completionTokens_eq, worked,
    TokenUsage.ofCounts_of_le hprompt hcompletion hcost, hcontent, hreasoning]

end Output
end Reading

namespace Endpoint

/-- A stream that is read to its end comes to the answer and the reasoning that its chunks hold, whatever
calls have failed before it. -/
theorem complete_of_finishes {endpoint : Endpoint} {query : Query} {watch : Watch} {token : Token}
    {timeout cost : Float} {failures : List ModelFailure} {parts : List StreamPart}
    {chunks : List Chunk} {rest : List Reply} (valid : endpoint.profile.Valid)
    (timed : Decimal.ofInt? query.timeout = some timeout)
    (passing : ∀ failure ∈ failures, failure.kind.isTransient = true)
    (left : failures.length < attemptLimit) (ends : Reading.Finishes watch { token } parts chunks)
    (counted : ∀ usage ∈ Chunk.lastUsage chunks, usage.Counted)
    (worked : TokenUsage.cost? endpoint.profile (Chunk.promptTokens chunks)
      (Chunk.completionTokens chunks) = some cost) (number : cost.isNaN = false) :
    ∃ token', endpoint.complete query watch token (failures.map .failure ++ .stream parts :: rest) =
      ⟨.ok ⟨Text.strip (Chunk.contents chunks), Text.strip (Chunk.reasonings chunks),
          some ⟨Chunk.promptTokens chunks, Chunk.completionTokens chunks, cost⟩, endpoint.profile.model⟩,
        callsAfter (endpoint.request query timeout) failures.length,
        if watch.watched then Chunk.reports chunks else [], token', rest⟩ := by
  have hnone := Reading.follow_eq_none_iff.mpr ⟨chunks, ends⟩
  have hgather := Reading.gathers_follow hnone chunks ends.arrive
  have houtput := hgather.output_eq valid counted worked number
  rw [endpoint.complete_passing timed passing left fun attempt waits =>
    endpoint.attempts_stream _ attempt waits _ _]
  refine ⟨(Reading.follow watch { token } parts).1.token, ?_⟩
  cases hf : Reading.follow watch { token } parts with
  | mk last error =>
    rw [hf] at hnone hgather houtput
    obtain rfl : error = none := hnone
    dsimp only at hgather houtput
    simp only [receive, hf, houtput, ← hgather.reports_eq]

/-- A chunk without anything, one of reasoning, two of content and one with the usage, after a failure. -/
theorem complete_of_finishes_mixed :
    let endpoint : Endpoint :=
      ⟨⟨"acme", "acme/one", "One", "ACME_KEY", "", 1000, false, 1, 2⟩, {}, "key"⟩
    let query : Query := ⟨"Plan.", [⟨.user, "task"⟩], 120⟩
    let watch : Watch := ⟨true, none⟩
    let failures : List ModelFailure := [⟨.rateLimit, "busy"⟩]
    let chunks : List Chunk :=
      [{}, ⟨some ⟨none, some " hm"⟩, none⟩, ⟨some ⟨some " a", none⟩, some ⟨some 9, some 9⟩⟩,
        ⟨some ⟨some "b ", some ""⟩, none⟩, ⟨some {}, some ⟨some 5, some 0⟩⟩]
    let parts : List StreamPart := chunks.map fun chunk => ⟨false, .ok chunk⟩
    ∃ timeout cost, endpoint.profile.Valid ∧ Decimal.ofInt? query.timeout = some timeout ∧
      (∀ failure ∈ failures, failure.kind.isTransient = true) ∧ failures.length < attemptLimit ∧
      Reading.Finishes watch { token := .live } parts chunks ∧
      (∀ usage ∈ Chunk.lastUsage chunks, usage.Counted) ∧
      TokenUsage.cost? endpoint.profile (Chunk.promptTokens chunks) (Chunk.completionTokens chunks) =
        some cost ∧ cost.isNaN = false ∧
      ∃ token', endpoint.complete query watch .live (failures.map .failure ++ [.stream parts]) =
        ⟨.ok ⟨"ab", "hm", some ⟨5, 3, cost⟩, "acme/one"⟩,
          [⟨endpoint.request query timeout, some 1⟩, ⟨endpoint.request query timeout, none⟩],
          [⟨"", " hm", "", 1, false⟩, ⟨" a", "", " a", 2, false⟩, ⟨"b ", "", " ab ", 3, false⟩,
            ⟨"", "", " ab ", 3, true⟩], token', []⟩ := by
  intro endpoint query watch failures chunks parts
  have valid : endpoint.profile.Valid :=
    ⟨[("provider", .text "acme"), ("model", .text "acme/one"), ("display_name", .text "One"),
      ("api_key_env", .text "ACME_KEY"), ("context_window", .int 1000), ("cost_input", .float 1),
      ("cost_output", .float 2)], rfl⟩
  have passing : ∀ failure ∈ failures, failure.kind.isTransient = true := by decide
  have left : failures.length < attemptLimit := by decide
  have ends : Reading.Finishes watch { token := .live } parts chunks :=
    ⟨rfl, .inr (.inr ⟨rfl, by decide, fun _ _ h => nomatch h⟩)⟩
  have counted : ∀ usage ∈ Chunk.lastUsage chunks, usage.Counted := by
    intro usage hu
    obtain rfl : ⟨some 5, some 0⟩ = usage := Option.some.inj hu
    exact ⟨fun _ h => by cases h; decide, fun _ h => by cases h; decide⟩
  obtain ⟨timeout, timed⟩ : ∃ timeout, Decimal.ofInt? query.timeout = some timeout :=
    Option.isSome_iff_exists.mp (by decide +kernel)
  obtain ⟨cost, worked, hcost⟩ : ∃ cost,
      TokenUsage.cost? endpoint.profile (Chunk.promptTokens chunks) (Chunk.completionTokens chunks) =
        some cost ∧ (!cost.isNaN) = true :=
    Option.any_eq_true _ _ |>.mp (by decide +kernel)
  have number : cost.isNaN = false := by simpa using hcost
  obtain ⟨token', hrun⟩ :=
    complete_of_finishes valid timed passing left ends counted worked number
  refine ⟨timeout, cost, valid, timed, passing, left, ends, counted, worked, number, token', ?_⟩
  have htext : Text.strip (Chunk.contents chunks) = "ab" := by decide +kernel
  have hreasoning : Text.strip (Chunk.reasonings chunks) = "hm" := by decide +kernel
  have hprompt : Chunk.promptTokens chunks = 5 := by decide +kernel
  have hcompletion : Chunk.completionTokens chunks = 3 := by decide +kernel
  have hreports : Chunk.reports chunks = [⟨"", " hm", "", 1, false⟩, ⟨" a", "", " a", 2, false⟩,
      ⟨"b ", "", " ab ", 3, false⟩, ⟨"", "", " ab ", 3, true⟩] := by decide +kernel
  rw [htext, hreasoning, hprompt, hcompletion, hreports] at hrun
  exact hrun

end Endpoint
end PlanAssistant
