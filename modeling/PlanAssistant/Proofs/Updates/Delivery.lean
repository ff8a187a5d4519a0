import Mathlib.Data.List.Nodup
import PlanAssistant.Proofs.Updates.Draining

/-!
How updates reach listeners.  What a registration has got, what is about to be handed to it and what
waits in the queue make one list, which only grows at its end, by what is published.  So nothing is
delivered twice or out of order, and nothing is lost by the time everything is handed out, which is when
a drain ends.
-/
namespace PlanAssistant.Emitter

variable {ι : Type} [DecidableEq ι]

/-! ### Courses -/

/-- What a registration has got, in the order it got it. -/
def deliveredTo (emitter : Emitter ι) (r : Registration ι) : List Update :=
  (emitter.delivered.filter (·.registration = r)).map (·.update)

/-- The update that is about to be handed to a registration. -/
def underway (emitter : Emitter ι) (r : Registration ι) : List Update :=
  match emitter.handling with
  | some handling => if r ∈ handling.waiting then [handling.update] else []
  | none => []

/-- Everything a registration has got, or may still get of what has been published so far. -/
def course (emitter : Emitter ι) (r : Registration ι) : List Update :=
  emitter.deliveredTo r ++ emitter.underway r ++ emitter.queue

/-- The update a step published, if it said something. -/
def news (emitter : Emitter ι) (said : Option Session) : List Update :=
  (said.map (Update.after emitter.history)).toList

/-- What one step can do.  It publishes at most one update, after all others; who stays registered
misses nothing of it; and what others may still get is shortened, or grows by the news at its end, which
nobody gets where nobody listens. -/
structure Moves (said : Option Session) (emitter next : Emitter ι) : Prop where
  history : next.history = emitter.history ++ emitter.news said
  registered : emitter.registered ≤ next.registered
  listeners : ∀ r ∈ next.listeners, r ∈ emitter.listeners ∨ emitter.registered ≤ r.number
  kept : ∀ r ∈ emitter.listeners, next.course r = emitter.course r ++ emitter.news said
  heard : ∀ r, (next.course r).Sublist
    (emitter.course r ++ if emitter.listeners.isEmpty then [] else emitter.news said)

/-- A step that publishes nothing and changes no course. -/
theorem Moves.quiet {emitter next : Emitter ι} (history : next.history = emitter.history)
    (registered : emitter.registered ≤ next.registered)
    (listeners : ∀ r ∈ next.listeners, r ∈ emitter.listeners ∨ emitter.registered ≤ r.number)
    (same : ∀ r, next.course r = emitter.course r) : Moves none emitter next where
  history := by simp [history, news]
  registered := registered
  listeners := listeners
  kept := fun r _ => by simp [same r, news]
  heard := fun r => by simp [same r, news]

theorem moves_self (emitter : Emitter ι) : Moves none emitter emitter :=
  .quiet rfl (Nat.le_refl _) (fun _ hr => .inl hr) fun _ => rfl

theorem moves_listen (emitter : Emitter ι) (listener : ι) :
    Moves none emitter (emitter.listen listener) := by
  refine .quiet rfl (Nat.le_succ _) (fun r hr => ?_) fun _ => rfl
  rcases List.mem_append.mp hr with hr | hr
  · exact .inl hr
  · obtain rfl := List.mem_singleton.mp hr
    exact .inr (Nat.le_refl _)

theorem moves_withdraw (emitter : Emitter ι) (listener : ι) :
    Moves none emitter (emitter.withdraw listener) :=
  .quiet rfl (Nat.le_refl _) (fun _ hr => .inl (List.mem_filter.mp hr).1) fun _ => rfl

theorem moves_publish (emitter : Emitter ι) (s : Session) :
    Moves (some s) emitter (emitter.publish s) := by
  unfold publish
  dsimp only
  split
  · next he =>
    refine ⟨rfl, Nat.le_refl _, fun _ hr => .inl hr, fun r hr => ?_, fun r => ?_⟩
    · rw [List.isEmpty_iff.mp he] at hr
      contradiction
    · rw [if_pos he, List.append_nil]
      exact List.Sublist.refl _
  · next he =>
    refine ⟨rfl, Nat.le_refl _, fun _ hr => .inl hr, fun r _ => ?_, fun r => ?_⟩
    · exact (List.append_assoc _ _ _).symm
    · rw [if_neg he]
      exact (List.append_assoc _ _ _).symm ▸ List.Sublist.refl _

theorem course_breakOff (emitter : Emitter ι) (r : Registration ι) :
    emitter.breakOff.course r = emitter.course r := by
  unfold course underway breakOff
  cases emitter.handling <;> rfl

theorem moves_stop (emitter : Emitter ι) : Moves none emitter emitter.stop := by
  unfold stop
  split
  · exact .quiet rfl (Nat.le_refl _) (fun _ hr => .inl hr) fun _ => rfl
  · exact moves_self emitter

theorem moves_react (emitter : Emitter ι) (reaction : Reaction ι) :
    ∃ said, Moves said emitter (emitter.react reaction) := by
  cases reaction with
  | withdraw listener => exact ⟨none, moves_withdraw emitter listener⟩
  | publish s => exact ⟨some s, moves_publish emitter s⟩
  | fail => exact ⟨none, .quiet rfl (Nat.le_refl _) (fun _ hr => .inl hr) (course_breakOff emitter)⟩

/-- Handing an update to the next registration moves it on in the course of that registration. -/
theorem course_handed {emitter : Emitter ι} {update : Update} {registration : Registration ι}
    {waiting : List (Registration ι)}
    (handles : emitter.handling = some ⟨update, [], registration :: waiting⟩)
    (hw : registration ∉ waiting) (reactions : List (Reaction ι)) (r : Registration ι) :
    course { emitter with
      handling := some ⟨update, reactions, waiting⟩
      delivered := emitter.delivered ++ [⟨registration, update⟩] } r = emitter.course r := by
  unfold course underway deliveredTo
  by_cases hr : registration = r
  · subst hr
    simp [handles, hw]
  · have hr' : r ≠ registration := fun h => hr h.symm
    simp [handles, hr, hr']

theorem moves_advance {emitter : Emitter ι} (h : emitter.Tidy) (behaviour : Behaviour ι) :
    ∃ said, Moves said emitter (emitter.advance behaviour) := by
  have ha := advances_advance behaviour emitter
  generalize emitter.advance behaviour = next at ha ⊢
  cases ha with
  | rested => exact ⟨none, moves_self emitter⟩
  | @took update queue free queued =>
    -- who listens now is waiting for the update from here on; all others have missed it
    refine ⟨none, ⟨by simp [news], Nat.le_refl _, fun _ hr => .inl hr, fun r hr => ?_, fun r => ?_⟩⟩
    · simp [course, underway, deliveredTo, news, free, queued, hr]
    · by_cases hr : r ∈ emitter.listeners
      · simp [course, underway, deliveredTo, news, free, queued, hr]
      · simp [course, underway, deliveredTo, news, free, queued, hr]
  | @reacted update reaction reactions waiting handles =>
    obtain ⟨said, hm⟩ := moves_react { emitter with handling := some ⟨update, reactions, waiting⟩ } reaction
    have hc : ∀ r, course { emitter with handling := some ⟨update, reactions, waiting⟩ } r =
        emitter.course r := fun r => by simp [course, underway, deliveredTo, handles]
    refine ⟨said, ⟨hm.history, hm.registered, hm.listeners, fun r hr => ?_, fun r => ?_⟩⟩
    · rw [hm.kept r hr, hc]
      rfl
    · exact hc r ▸ hm.heard r
  | handed handles =>
    have hw := (List.nodup_cons.mp (h.waiting _ handles)).1
    exact ⟨none, .quiet rfl (Nat.le_refl _) (fun _ hr => .inl hr) (course_handed handles hw _)⟩
  | finished handles =>
    refine ⟨none, .quiet rfl (Nat.le_refl _) (fun _ hr => .inl hr) fun r => ?_⟩
    simp [course, underway, deliveredTo, handles]

theorem moves_step {emitter : Emitter ι} (h : emitter.Tidy) (taken : Step ι) :
    ∃ said, Moves said emitter (emitter.step taken) := by
  cases taken with
  | listen listener => exact ⟨none, moves_listen emitter listener⟩
  | withdraw listener => exact ⟨none, moves_withdraw emitter listener⟩
  | publish s => exact ⟨some s, moves_publish emitter s⟩
  | dispatch behaviour => exact moves_advance h behaviour
  | stop => exact ⟨none, moves_stop emitter⟩

/-! ### Runs -/

/-- Updates are numbered in the order they are published, and every course follows that order. -/
structure Orderly (emitter : Emitter ι) : Prop where
  numbered : emitter.history.map (·.sequence) = List.range emitter.history.length
  known : ∀ r, ∀ u ∈ emitter.course r, u ∈ emitter.history
  increasing : ∀ r, (emitter.course r).Pairwise fun a b => a.sequence < b.sequence

theorem sequence_lt {emitter : Emitter ι} (h : emitter.Orderly) {u : Update}
    (hu : u ∈ emitter.history) : u.sequence < emitter.history.length := by
  have hm : u.sequence ∈ emitter.history.map (·.sequence) := List.mem_map_of_mem hu
  rw [h.numbered] at hm
  exact List.mem_range.mp hm

omit [DecidableEq ι] in
theorem sequence_of_mem_news {emitter : Emitter ι} {said : Option Session} {u : Update}
    (hu : u ∈ emitter.news said) : u.sequence = emitter.history.length := by
  cases said with
  | none => contradiction
  | some s =>
    obtain rfl := List.mem_singleton.mp hu
    rfl

theorem Orderly.moves {emitter next : Emitter ι} {said : Option Session} (h : emitter.Orderly)
    (hm : Moves said emitter next) : next.Orderly := by
  have hnews : (if emitter.listeners.isEmpty then [] else emitter.news said).Sublist
      (emitter.news said) := by
    split
    · exact List.nil_sublist _
    · exact List.Sublist.refl _
  have hsub : ∀ r, (next.course r).Sublist (emitter.course r ++ emitter.news said) :=
    fun r => (hm.heard r).trans ((List.Sublist.refl _).append hnews)
  refine ⟨?_, fun r u hu => ?_, fun r => ?_⟩
  · rw [hm.history]
    cases said with
    | none => simpa [news] using h.numbered
    | some s => simp [news, Update.after, h.numbered, List.range_succ]
  · rw [hm.history]
    rcases List.mem_append.mp ((hsub r).subset hu) with hu | hu
    · exact List.mem_append_left _ (h.known r u hu)
    · exact List.mem_append_right _ hu
  · refine List.Pairwise.sublist (hsub r) (List.pairwise_append.mpr ⟨h.increasing r, ?_, ?_⟩)
    · cases said <;> simp [news]
    · intro a ha b hb
      rw [sequence_of_mem_news hb]
      exact sequence_lt h (h.known r a ha)

theorem orderly_after (steps : List (Step ι)) :
    (after steps).Orderly := by
  induction steps using List.reverseRecOn with
  | nil => exact ⟨rfl, fun _ _ hu => (nomatch hu), fun _ => .nil⟩
  | append_singleton steps last ih =>
    obtain ⟨said, hm⟩ := moves_step (tidy_after steps) last
    rw [after_concat]
    exact ih.moves hm

/-! ### From publishing on -/

/-- A step taken after some others publishes an update. -/
def Publishes (earlier : List (Step ι)) (taken : Step ι) (u : Update) : Prop :=
  (after (earlier ++ [taken])).history = (after earlier).history ++ [u]

section Published

variable {earlier : List (Step ι)} {taken : Step ι} {u : Update}

theorem Publishes.news {said : Option Session} (h : Publishes earlier taken u)
    (hm : Moves said (after earlier) (after (earlier ++ [taken]))) :
    (after earlier).news said = [u] :=
  List.append_cancel_left (hm.history.symm.trans h)

theorem Publishes.sequence (h : Publishes earlier taken u) :
    u.sequence = (after earlier).history.length := by
  obtain ⟨said, hm⟩ := moves_step (tidy_after earlier) taken
  rw [← after_concat] at hm
  exact sequence_of_mem_news (h.news hm ▸ List.mem_singleton_self u)

/-- What was published stays published. -/
theorem Publishes.mem_history (h : Publishes earlier taken u) (later : List (Step ι)) :
    u ∈ (after (earlier ++ [taken] ++ later)).history := by
  induction later using List.reverseRecOn with
  | nil =>
    rw [List.append_nil, h]
    simp
  | append_singleton later last ih =>
    obtain ⟨said, hm⟩ := moves_step (tidy_after (earlier ++ [taken] ++ later)) last
    rw [← List.append_assoc, after_concat, hm.history]
    exact List.mem_append_left _ ih

/-- An update stays in the course of everybody who listened when it was published and listens still. -/
theorem Publishes.mem_course (h : Publishes earlier taken u) {r : Registration ι}
    (hr : r ∈ (after earlier).listeners) (later : List (Step ι)) :
    r.number < (after (earlier ++ [taken] ++ later)).registered ∧
      (r ∈ (after (earlier ++ [taken] ++ later)).listeners →
        u ∈ (after (earlier ++ [taken] ++ later)).course r) := by
  induction later using List.reverseRecOn with
  | nil =>
    obtain ⟨said, hm⟩ := moves_step (tidy_after earlier) taken
    rw [← after_concat] at hm
    rw [List.append_nil]
    refine ⟨Nat.lt_of_lt_of_le ((tidy_after earlier).number_lt hr) hm.registered, fun _ => ?_⟩
    rw [hm.kept r hr, h.news hm]
    simp
  | append_singleton later last ih =>
    obtain ⟨said, hm⟩ := moves_step (tidy_after (earlier ++ [taken] ++ later)) last
    rw [← List.append_assoc, after_concat]
    refine ⟨Nat.lt_of_lt_of_le ih.1 hm.registered, fun hn => ?_⟩
    -- the number of the registration is taken, so it cannot have been made only now
    rcases hm.listeners r hn with hl | hl
    · rw [hm.kept r hl]
      exact List.mem_append_left _ (ih.2 hl)
    · exact absurd ih.1 (Nat.not_lt.mpr hl)

/-- An update that is published where nobody listens never gets into a course. -/
theorem Publishes.not_mem_course (h : Publishes earlier taken u)
    (hl : (after earlier).listeners = []) (later : List (Step ι)) (r : Registration ι) :
    u ∉ (after (earlier ++ [taken] ++ later)).course r := by
  induction later using List.reverseRecOn with
  | nil =>
    obtain ⟨said, hm⟩ := moves_step (tidy_after earlier) taken
    rw [← after_concat] at hm
    rw [List.append_nil]
    intro hu
    have hs := (hm.heard r).subset hu
    rw [hl, List.isEmpty_nil, if_pos rfl, List.append_nil] at hs
    have hlt := sequence_lt (orderly_after earlier) ((orderly_after earlier).known r u hs)
    rw [h.sequence] at hlt
    exact Nat.lt_irrefl _ hlt
  | append_singleton later last ih =>
    obtain ⟨said, hm⟩ := moves_step (tidy_after (earlier ++ [taken] ++ later)) last
    rw [← List.append_assoc, after_concat]
    intro hu
    rcases List.mem_append.mp ((hm.heard r).subset hu) with hu | hu
    · exact ih hu
    · split at hu
      · contradiction
      · have hlt := sequence_lt (orderly_after _) (h.mem_history later)
        rw [sequence_of_mem_news hu] at hlt
        exact Nat.lt_irrefl _ hlt

end Published

theorem exists_publishes {steps : List (Step ι)} {u : Update}
    (hu : u ∈ (after steps).history) :
    ∃ earlier taken later, steps = earlier ++ taken :: later ∧ Publishes earlier taken u := by
  induction steps using List.reverseRecOn with
  | nil => contradiction
  | append_singleton steps last ih =>
    obtain ⟨said, hm⟩ := moves_step (tidy_after steps) last
    rw [after_concat, hm.history] at hu
    rcases List.mem_append.mp hu with hu | hu
    · obtain ⟨earlier, taken, later, rfl, hp⟩ := ih hu
      exact ⟨earlier, taken, later ++ [last], by simp, hp⟩
    · refine ⟨steps, last, [], rfl, ?_⟩
      unfold Publishes
      rw [after_concat, hm.history]
      cases said with
      | none => contradiction
      | some s =>
        obtain rfl := List.mem_singleton.mp hu
        rfl

/-! ### Delivery -/

/-- The law of deliveries after some steps of the owner and the dispatcher. -/
structure OrderedDelivery (steps : List (Step ι)) : Prop where
  /-- The history holds what was published, numbered without gaps. -/
  numbered : (after steps).history.map (·.sequence) =
    List.range (after steps).history.length
  published : ∀ u ∈ (after steps).history, ∃ earlier taken later,
    steps = earlier ++ taken :: later ∧ Publishes earlier taken u ∧
      u.sequence = (after earlier).history.length
  /-- Nobody gets updates out of order, or one of them twice. -/
  increasing : ∀ r, (((after steps).deliveredTo r).map (·.sequence)).Pairwise (· < ·)
  /-- Only what was published before listeners is delivered. -/
  attended : ∀ d ∈ (after steps).delivered, ∃ earlier taken later,
    steps = earlier ++ taken :: later ∧ Publishes earlier taken d.update ∧
      (after earlier).listeners ≠ []
  /-- Once everything is handed out, who listened when an update was published and listens still has
  got it exactly once. -/
  received : ∀ earlier taken later u r, steps = earlier ++ taken :: later →
    Publishes earlier taken u → r ∈ (after earlier).listeners →
    r ∈ (after steps).listeners → (after steps).isIdle = true →
    ((after steps).deliveredTo r).count u = 1
  /-- As long as something is left to hand out, a dispatcher is running. -/
  dispatched : (after steps).isIdle = false → (after steps).dispatching = true

theorem course_of_isIdle {emitter : Emitter ι} (h : emitter.isIdle = true) (r : Registration ι) :
    emitter.course r = emitter.deliveredTo r := by
  obtain ⟨hq, hh⟩ : emitter.queue = [] ∧ emitter.handling = none := by simpa [isIdle] using h
  simp [course, underway, hq, hh]

theorem deliveredTo_sublist_course (emitter : Emitter ι) (r : Registration ι) :
    (emitter.deliveredTo r).Sublist (emitter.course r) := by
  unfold course
  rw [List.append_assoc]
  exact List.sublist_append_left _ _

theorem mem_deliveredTo_of_mem {emitter : Emitter ι} {d : Delivery ι} (hd : d ∈ emitter.delivered) :
    d.update ∈ emitter.deliveredTo d.registration :=
  List.mem_map_of_mem (List.mem_filter.mpr ⟨hd, by simp⟩)

theorem orderedDelivery_after (steps : List (Step ι)) :
    OrderedDelivery steps where
  numbered := (orderly_after steps).numbered
  published := by
    intro u hu
    obtain ⟨earlier, taken, later, rfl, hp⟩ := exists_publishes hu
    exact ⟨earlier, taken, later, rfl, hp, hp.sequence⟩
  increasing := fun r => List.pairwise_map.mpr
    (((orderly_after steps).increasing r).sublist (deliveredTo_sublist_course _ r))
  attended := by
    intro d hd
    have hc : d.update ∈ (after steps).course d.registration :=
      (deliveredTo_sublist_course _ _).subset (mem_deliveredTo_of_mem hd)
    obtain ⟨earlier, taken, later, rfl, hp⟩ :=
      exists_publishes ((orderly_after steps).known _ _ hc)
    refine ⟨earlier, taken, later, rfl, hp, fun hl => ?_⟩
    rw [List.append_cons] at hc
    exact hp.not_mem_course hl later d.registration hc
  received := by
    intro earlier taken later u r hs hp hr hn hi
    rw [List.append_cons] at hs
    subst hs
    have hc := (hp.mem_course hr later).2 hn
    have ho := (orderly_after (earlier ++ [taken] ++ later)).increasing r
    rw [course_of_isIdle hi] at hc ho
    have hd : (deliveredTo (after (earlier ++ [taken] ++ later)) r).Nodup := by
      refine ho.imp ?_
      rintro a b hab rfl
      exact Nat.lt_irrefl _ hab
    exact List.count_eq_one_of_mem hd hc
  dispatched := (tidy_after steps).dispatched

/-- What a drain comes to that is begun after some steps: everything is handed out, so that everybody has
got what was published where they listened, and closing leaves no dispatcher. -/
structure Drained (behaviour : Behaviour ι) (steps : List (Step ι)) (limit : Nat) : Prop where
  idle : ((after steps).drain behaviour limit).isIdle = true
  received : ∀ earlier taken later u r, steps = earlier ++ taken :: later →
    Publishes earlier taken u → r ∈ (after earlier).listeners →
    r ∈ ((after steps).drain behaviour limit).listeners →
    (((after steps).drain behaviour limit).deliveredTo r).count u = 1
  closed : (after steps).close behaviour limit =
    { (after steps).drain behaviour limit with dispatching := false }

theorem drained_of_isIdle {behaviour : Behaviour ι} {steps : List (Step ι)} {limit : Nat}
    (hi : ((after steps).drain behaviour limit).isIdle = true) : Drained behaviour steps limit where
  idle := hi
  received := by
    intro earlier taken later u r hs hp hr hn
    let dispatches : List (Step ι) :=
      List.replicate ((after steps).drainSteps behaviour limit) (.dispatch behaviour)
    have hdrain : after (steps ++ dispatches) = (after steps).drain behaviour limit := by
      rw [after, List.foldl_append]
      exact foldl_dispatch_drainSteps behaviour limit (after steps)
    have hsteps : steps ++ dispatches = earlier ++ taken :: (later ++ dispatches) := by
      rw [hs, List.append_assoc, List.cons_append]
    rw [← hdrain] at hn hi ⊢
    exact (orderedDelivery_after _).received earlier taken _ u r hsteps hp hr hn hi
  closed := by rw [close, stop, if_pos hi]

/-- A drain that has ended has ended for good. -/
theorem drained_add {behaviour : Behaviour ι} {steps : List (Step ι)} {limit : Nat}
    (hi : ((after steps).drain behaviour limit).isIdle = true) (more : Nat) :
    Drained behaviour steps (limit + more) := by
  have hsame : (after steps).drain behaviour (limit + more) = (after steps).drain behaviour limit := by
    rw [drain_add, drain_of_isIdle hi]
  exact drained_of_isIdle (by rwa [hsame])

/-- Deliveries are ordered whatever the listeners do and however the steps of the owner and of the
dispatcher are mixed; every program of the owner is such a mixture.  A drain stops when everything is
handed out, or at its limit, and it needs no limit unless the listeners publish for ever; they do not if
they publish nothing from some update on. -/
theorem orderedDelivery :
    (∀ steps : List (Step ι), OrderedDelivery steps) ∧
      ∀ behaviour : Behaviour ι,
        (∀ limit operations,
          run behaviour limit operations = after (schedule behaviour limit {} operations)) ∧
        (∀ limit (emitter : Emitter ι), (emitter.drain behaviour limit).isIdle = true ∨
          emitter.drainSteps behaviour limit = limit) ∧
        (∀ steps, (∃ limit, ∀ more, Drained behaviour steps (limit + more)) ↔
          ∃ bound, ∀ limit, ((after steps).drain behaviour limit).history.length ≤ bound) ∧
        ∀ number, (∀ u : Update, number ≤ u.sequence → SilentOn behaviour u) →
          ∀ steps, ∃ limit, ∀ more, Drained behaviour steps (limit + more) := by
  refine ⟨orderedDelivery_after, fun behaviour => ⟨fun limit operations => ?_,
    fun limit emitter => isIdle_drain_or behaviour limit emitter, fun steps => ?_, ?_⟩⟩
  · exact (foldl_schedule behaviour limit {} operations).symm
  · rw [← exists_isIdle_drain_iff (tidy_after steps)]
    exact ⟨fun ⟨limit, h⟩ => ⟨limit, (h 0).idle⟩, fun ⟨limit, hi⟩ => ⟨limit, drained_add hi⟩⟩
  · intro number hs steps
    obtain ⟨next, ⟨limit, rfl⟩, hi⟩ := ends_of_silent (tidy_after steps) hs
    exact ⟨limit, drained_add hi⟩

/-- One listener publishes the first update again and fails, another withdraws when it gets that. -/
def echoing : Behaviour Bool
  | true, u => if u.sequence = 0 then [.publish u.session, .fail] else []
  | false, u => if u.sequence = 0 then [] else [.withdraw false]

/-- Each of them gets both updates once. -/
theorem orderedDelivery_echoing :
    let steps : List (Step Bool) := [.listen true, .listen false, .publish default]
    let drained := (after steps).drain echoing 12
    (∀ u : Update, 1 ≤ u.sequence → SilentOn echoing u) ∧
      (∃ limit, ∀ more, Drained echoing steps (limit + more)) ∧ drained.isIdle = true ∧
      drained.delivered = [⟨⟨0, true⟩, ⟨0, default⟩⟩, ⟨⟨1, false⟩, ⟨0, default⟩⟩,
        ⟨⟨0, true⟩, ⟨1, default⟩⟩, ⟨⟨1, false⟩, ⟨1, default⟩⟩] ∧
      drained.listeners = [⟨0, true⟩] := by
  intro steps drained
  have hs : ∀ u : Update, 1 ≤ u.sequence → SilentOn echoing u := by
    intro u hu listener s
    have hne : u.sequence ≠ 0 := Nat.ne_of_gt hu
    cases listener <;> simp [echoing, hne]
  obtain ⟨-, -, -, hends⟩ := orderedDelivery.2 echoing
  exact ⟨hs, hends 1 hs steps, by decide +kernel, by decide +kernel, by decide +kernel⟩

end PlanAssistant.Emitter
