import PlanAssistant.Proofs.Updates.Dispatching

/-!
Drains that end.  Every update that was taken is dealt with in the end, whatever the listeners do with
it, and meanwhile the queue only grows by what they publish.  So a drain goes on for ever only where they
publish for ever; it ends where they publish nothing from some update on.
-/
namespace PlanAssistant.Emitter

variable {ι : Type} {behaviour : Behaviour ι} {emitter next : Emitter ι}

theorem isIdle_of_handling {handling : Handling ι} (hh : emitter.handling = some handling) :
    emitter.isIdle = false := by simp [isIdle, hh]

/-! ### The queue -/

/-- The queue grows at its end alone, by some of what is published meanwhile; and what is published first
has the lowest numbers. -/
def Grows (emitter next : Emitter ι) : Prop :=
  ∃ news : List Update, next.queue = emitter.queue ++ news ∧
    news.length + emitter.history.length ≤ next.history.length ∧
    ∀ number, news.countP (·.sequence < number) + (number - next.history.length) ≤
      number - emitter.history.length

theorem Grows.same (hq : next.queue = emitter.queue) (hh : next.history = emitter.history) :
    Grows emitter next :=
  ⟨[], by rw [hq, List.append_nil], by simp [hh], fun number => by simp [hh]⟩

theorem Grows.trans {last : Emitter ι} (h : Grows emitter next) (hl : Grows next last) :
    Grows emitter last := by
  obtain ⟨news, hq, hn, hc⟩ := h
  obtain ⟨news', hq', hn', hc'⟩ := hl
  refine ⟨news ++ news', by rw [hq', hq, List.append_assoc], ?_, fun number => ?_⟩
  · rw [List.length_append]
    omega
  · rw [List.countP_append]
    have := hc number
    have := hc' number
    omega

variable [DecidableEq ι]

theorem grows_react (emitter : Emitter ι) (reaction : Reaction ι) :
    Grows emitter (emitter.react reaction) := by
  cases reaction with
  | withdraw | fail => exact .same rfl rfl
  | publish s =>
    simp only [react, publish]
    split
    · exact ⟨[], by simp, by simp, fun number => by simp; omega⟩
    · refine ⟨[Update.after emitter.history s], rfl, by simp; omega, fun number => ?_⟩
      by_cases hn : emitter.history.length < number
      · simp [Update.after, hn]
        omega
      · simp [Update.after, hn]
        omega

/-! ### The dispatcher on its own -/

/-- The dispatcher alone leads from one state to another. -/
def Leads (behaviour : Behaviour ι) (emitter next : Emitter ι) : Prop :=
  ∃ limit, emitter.drain behaviour limit = next

theorem Leads.refl (emitter : Emitter ι) : Leads behaviour emitter emitter := ⟨0, rfl⟩

theorem drain_of_isIdle (h : emitter.isIdle = true) (behaviour : Behaviour ι) (limit : Nat) :
    emitter.drain behaviour limit = emitter := by
  cases limit with
  | zero => rfl
  | succ limit => rw [drain, if_pos h]

theorem drain_add (behaviour : Behaviour ι) (limit more : Nat) (emitter : Emitter ι) :
    emitter.drain behaviour (limit + more) = (emitter.drain behaviour limit).drain behaviour more := by
  induction limit generalizing emitter with
  | zero => rw [Nat.zero_add, drain]
  | succ limit ih =>
    rw [Nat.add_right_comm, drain, drain]
    split
    · next hi => exact (drain_of_isIdle hi behaviour more).symm
    · exact ih _

theorem Leads.trans {last : Emitter ι} (h : Leads behaviour emitter next)
    (hl : Leads behaviour next last) : Leads behaviour emitter last := by
  obtain ⟨limit, rfl⟩ := h
  obtain ⟨more, rfl⟩ := hl
  exact ⟨limit + more, drain_add behaviour limit more emitter⟩

theorem leads_advance (hi : emitter.isIdle = false) (h : emitter.advance behaviour = next) :
    Leads behaviour emitter next := by
  refine ⟨1, ?_⟩
  rw [drain, if_neg (by rw [hi]; decide), h, drain]

theorem Leads.tidy (h : Leads behaviour emitter next) (ht : emitter.Tidy) : next.Tidy := by
  obtain ⟨limit, rfl⟩ := h
  induction limit generalizing emitter with
  | zero => exact ht
  | succ limit ih =>
    rw [drain]
    split
    · exact ht
    · exact ih (ht.advance behaviour)

/-- Nothing that was published is forgotten. -/
theorem Leads.history_le (h : Leads behaviour emitter next) :
    emitter.history.length ≤ next.history.length := by
  obtain ⟨limit, rfl⟩ := h
  induction limit generalizing emitter with
  | zero => exact Nat.le_refl _
  | succ limit ih =>
    rw [drain]
    split
    · exact Nat.le_refl _
    · refine Nat.le_trans ?_ ih
      have ha := advances_advance behaviour emitter
      generalize emitter.advance behaviour = next at ha ⊢
      cases ha with
      | rested | took | handed | finished => exact Nat.le_refl _
      | @reacted update reaction reactions waiting =>
        obtain ⟨news, -, hlength, -⟩ := grows_react
          { emitter with handling := some ⟨update, reactions, waiting⟩ } reaction
        exact Nat.le_trans (Nat.le_add_left _ _) hlength

/-! ### Dealing with one update -/

/-- No listener publishes anything when it gets this update. -/
def SilentOn (behaviour : Behaviour ι) (update : Update) : Prop :=
  ∀ listener s, .publish s ∉ behaviour listener update

/-- The dispatcher comes to the end of the update it is at; nothing is published meanwhile if all are
silent. -/
def Finishes (behaviour : Behaviour ι) (silent : Prop) (emitter : Emitter ι) : Prop :=
  ∃ next, Leads behaviour emitter next ∧ next.handling = none ∧ Grows emitter next ∧
    (silent → next.history = emitter.history)

/-- It does so if it does after its next step. -/
theorem Finishes.of_step {silent later : Prop} (hi : emitter.isIdle = false)
    (hadvance : emitter.advance behaviour = next) (hg : Grows emitter next)
    (hs : silent → next.history = emitter.history ∧ later) (h : Finishes behaviour later next) :
    Finishes behaviour silent emitter := by
  obtain ⟨last, hl, hfree, hgrows, hsame⟩ := h
  refine ⟨last, (leads_advance hi hadvance).trans hl, hfree, hg.trans hgrows, fun hsilent => ?_⟩
  obtain ⟨hnext, hlater⟩ := hs hsilent
  rw [hsame hlater, hnext]

section Update

variable {update : Update} {waiting : List (Registration ι)}

/-- Once a listener has done all it means to do, or failed, it is the turn of the others. -/
theorem finishes_of_reacting
    (hspent : ∀ emitter : Emitter ι, emitter.Tidy → emitter.handling = some ⟨update, [], waiting⟩ →
      Finishes behaviour (SilentOn behaviour update) emitter)
    (reactions : List (Reaction ι)) (ht : emitter.Tidy)
    (hh : emitter.handling = some ⟨update, reactions, waiting⟩) :
    Finishes behaviour ((∀ s, .publish s ∉ reactions) ∧ SilentOn behaviour update) emitter := by
  induction reactions generalizing emitter with
  | nil =>
    obtain ⟨next, hl, hfree, hg, hs⟩ := hspent emitter ht hh
    exact ⟨next, hl, hfree, hg, fun h => hs h.2⟩
  | cons reaction reactions ih =>
    have hi := isIdle_of_handling hh
    let inner : Emitter ι := { emitter with handling := some ⟨update, reactions, waiting⟩ }
    have hadvance : emitter.advance behaviour = inner.react reaction := by
      rw [advance, if_pos (ht.dispatched hi), hh]
    have htidy : (inner.react reaction).Tidy := hadvance ▸ ht.advance behaviour
    have hgrows : Grows emitter (inner.react reaction) := grows_react inner reaction
    cases reaction with
    | withdraw listener =>
      refine .of_step hi hadvance hgrows (fun hs => ⟨rfl, ?_⟩) (ih htidy rfl)
      exact ⟨fun s hm => hs.1 s (List.mem_cons_of_mem _ hm), hs.2⟩
    | publish s =>
      have hkeeps : (inner.publish s).handling = some ⟨update, reactions, waiting⟩ := by
        unfold publish
        dsimp only
        split <;> rfl
      exact .of_step hi hadvance hgrows (fun hs => absurd List.mem_cons_self (hs.1 s)) (ih htidy hkeeps)
    | fail => exact .of_step hi hadvance hgrows (fun hs => ⟨rfl, hs.2⟩) (hspent _ htidy rfl)

theorem finishes_of_spent (ht : emitter.Tidy) (hh : emitter.handling = some ⟨update, [], waiting⟩) :
    Finishes behaviour (SilentOn behaviour update) emitter := by
  have hi := isIdle_of_handling hh
  induction waiting generalizing emitter with
  | nil =>
    have hadvance : emitter.advance behaviour = { emitter with handling := none } := by
      rw [advance, if_pos (ht.dispatched hi), hh]
    exact ⟨_, leads_advance hi hadvance, rfl, .same rfl rfl, fun _ => rfl⟩
  | cons registration waiting ih =>
    have hadvance : emitter.advance behaviour = { emitter with
        handling := some ⟨update, behaviour registration.listener update, waiting⟩
        delivered := emitter.delivered ++ [⟨registration, update⟩] } := by
      rw [advance, if_pos (ht.dispatched hi), hh]
    refine .of_step hi hadvance (.same rfl rfl) (fun hs => ⟨rfl, ?_⟩)
      (finishes_of_reacting (fun _ ht hh => ih ht hh (isIdle_of_handling hh)) _
        (hadvance ▸ ht.advance behaviour) rfl)
    exact ⟨hs registration.listener, hs⟩

end Update

/-- Whatever it is at, the dispatcher gets to the end of it. -/
theorem exists_free (behaviour : Behaviour ι) (ht : emitter.Tidy) :
    ∃ next, Leads behaviour emitter next ∧ next.handling = none := by
  cases hh : emitter.handling with
  | none => exact ⟨emitter, .refl emitter, hh⟩
  | some handling =>
    have hf : Finishes behaviour _ emitter :=
      finishes_of_reacting (fun _ => finishes_of_spent) handling.reactions ht hh
    obtain ⟨next, hl, hfree, -⟩ := hf
    exact ⟨next, hl, hfree⟩

/-- The first update in the queue is taken and dealt with. -/
theorem exists_next (behaviour : Behaviour ι) (ht : emitter.Tidy) (hfree : emitter.handling = none)
    {update : Update} {queue : List Update} (hq : emitter.queue = update :: queue) :
    ∃ next news, Leads behaviour emitter next ∧ next.handling = none ∧ next.queue = queue ++ news ∧
      news.length + emitter.history.length ≤ next.history.length ∧
      (∀ number, news.countP (·.sequence < number) + (number - next.history.length) ≤
        number - emitter.history.length) ∧
      (SilentOn behaviour update → next.history = emitter.history) := by
  have hi : emitter.isIdle = false := by simp [isIdle, hq]
  have hadvance : emitter.advance behaviour =
      { emitter with queue, handling := some { update, waiting := emitter.listeners } } := by
    rw [advance, if_pos (ht.dispatched hi), hfree, hq]
  have hf : Finishes behaviour (SilentOn behaviour update) _ :=
    finishes_of_spent (hadvance ▸ ht.advance behaviour) rfl
  obtain ⟨next, hl, hnext, ⟨news, hqueue, hlength, hcount⟩, hs⟩ := hf
  exact ⟨next, news, (leads_advance hi hadvance).trans hl, hnext, hqueue, hlength, hcount, hs⟩

/-! ### Drains that end -/

/-- The dispatcher has nothing left to do at some time. -/
def Ends (behaviour : Behaviour ι) (emitter : Emitter ι) : Prop :=
  ∃ next, Leads behaviour emitter next ∧ next.isIdle = true

theorem ends_of_queue_nil (hfree : emitter.handling = none) (hq : emitter.queue = []) :
    Ends behaviour emitter := ⟨emitter, .refl emitter, by simp [isIdle, hfree, hq]⟩

/-- It is done in the end unless the listeners publish for ever. -/
theorem ends_of_bounded (ht : emitter.Tidy) {bound : Nat}
    (hb : ∀ next, Leads behaviour emitter next → next.history.length ≤ bound) :
    Ends behaviour emitter := by
  obtain ⟨first, hfirst, hfree⟩ := exists_free behaviour ht
  -- what may still be published, and what waits: dealing with an update takes one off their sum
  suffices h : ∀ left, ∀ e : Emitter ι, Leads behaviour emitter e → e.handling = none →
      (bound - e.history.length) + e.queue.length ≤ left → Ends behaviour e by
    obtain ⟨last, hl, hi⟩ := h _ first hfirst hfree (Nat.le_refl _)
    exact ⟨last, hfirst.trans hl, hi⟩
  intro left
  induction left with
  | zero =>
    intro e _ hfree hleft
    exact ends_of_queue_nil hfree (List.length_eq_zero_iff.mp (by omega))
  | succ left ih =>
    intro e he hfree hleft
    cases hq : e.queue with
    | nil => exact ends_of_queue_nil hfree hq
    | cons update queue =>
      obtain ⟨next, news, hl, hnext, hqueue, hlength, -⟩ :=
        exists_next behaviour (he.tidy ht) hfree hq
      have hbound := hb next (he.trans hl)
      obtain ⟨last, hlast, hi⟩ := ih next (he.trans hl) hnext (by
        rw [hqueue, List.length_append]
        rw [hq, List.length_cons] at hleft
        omega)
      exact ⟨last, hl.trans hlast, hi⟩

/-- It is done in the end if no listener publishes anything on updates from some number on. -/
theorem ends_of_silent (ht : emitter.Tidy) {number : Nat}
    (hs : ∀ u : Update, number ≤ u.sequence → SilentOn behaviour u) : Ends behaviour emitter := by
  obtain ⟨first, hfirst, hfree⟩ := exists_free behaviour ht
  -- updates below the number, waiting or still to be published: they get fewer as they are dealt with
  suffices h : ∀ left, ∀ e : Emitter ι, e.Tidy → e.handling = none →
      e.queue.countP (·.sequence < number) + (number - e.history.length) ≤ left →
        Ends behaviour e by
    obtain ⟨last, hl, hi⟩ := h _ first (hfirst.tidy ht) hfree (Nat.le_refl _)
    exact ⟨last, hfirst.trans hl, hi⟩
  intro left
  induction left using Nat.strongRecOn with
  | _ left ih =>
  intro e he hfree hleft
  generalize hlist : e.queue = waiting at hleft
  induction waiting generalizing e with
  | nil => exact ends_of_queue_nil hfree hlist
  | cons update queue ihq =>
    obtain ⟨next, news, hl, hnext, hqueue, hlength, hcount, hsilent⟩ :=
      exists_next behaviour he hfree hlist
    suffices hend : Ends behaviour next by
      obtain ⟨last, hlast, hi⟩ := hend
      exact ⟨last, hl.trans hlast, hi⟩
    have hcount := hcount number
    by_cases hu : update.sequence < number
    · rw [List.countP_cons_of_pos (by simpa using hu)] at hleft
      refine ih (left - 1) (by omega) next (hl.tidy he) hnext ?_
      rw [hqueue, List.countP_append]
      omega
    · rw [List.countP_cons_of_neg (by simpa using hu)] at hleft
      have hsame := hsilent (hs update (Nat.le_of_not_lt hu))
      obtain rfl : news = [] := List.length_eq_zero_iff.mp (by
        rw [hsame] at hlength
        omega)
      refine ihq next (hl.tidy he) hnext (by rw [hqueue, List.append_nil]) ?_
      rwa [hsame]

/-- A drain ends just when the listeners do not publish for ever meanwhile. -/
theorem exists_isIdle_drain_iff (ht : emitter.Tidy) (behaviour : Behaviour ι) :
    (∃ limit, (emitter.drain behaviour limit).isIdle = true) ↔
      ∃ bound, ∀ limit, (emitter.drain behaviour limit).history.length ≤ bound := by
  constructor
  · rintro ⟨limit, hi⟩
    refine ⟨(emitter.drain behaviour limit).history.length, fun other => ?_⟩
    obtain hle | hle := Nat.le_total other limit
    · obtain ⟨more, rfl⟩ := Nat.exists_eq_add_of_le hle
      exact Leads.history_le ⟨more, (drain_add behaviour other more emitter).symm⟩
    · obtain ⟨more, rfl⟩ := Nat.exists_eq_add_of_le hle
      have hsame : emitter.drain behaviour (limit + more) = emitter.drain behaviour limit := by
        rw [drain_add, drain_of_isIdle hi]
      exact Nat.le_of_eq (congrArg (·.history.length) hsame)
  · rintro ⟨bound, hb⟩
    obtain ⟨next, ⟨limit, rfl⟩, hi⟩ := ends_of_bounded ht (by
      rintro next ⟨limit, rfl⟩
      exact hb limit)
    exact ⟨limit, hi⟩

end PlanAssistant.Emitter
