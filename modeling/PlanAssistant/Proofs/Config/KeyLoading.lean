import PlanAssistant.Proofs.Config.KeyLines

/-!
Carrying out the lines of key files.  `Settled` says what a variable comes to after lines in order: a value
that it had stays, and a variable without one takes the first value that the lines give it and that is not
empty; lines settle a variable in one way only.  One line keeps this of the lines so far, so it holds after
all of them; and the lines are carried out up to the first that `Breaks`, which would give a variable
without a value a name or a value with a NUL character.
-/
namespace PlanAssistant

namespace Environment

variable {env : Environment} {name value other : String}

theorem get?_cons {entry : String × String} :
    get? (entry :: env) other = if entry.1 = other then some entry.2 else get? env other := by
  unfold get?
  by_cases h : entry.1 = other <;> simp [h]

theorem get?_append {more : Environment} :
    get? (env ++ more) other = (get? env other).or (get? more other) := by
  induction env with
  | nil => rfl
  | cons entry env ih =>
    rw [List.cons_append, get?_cons, get?_cons, ih]
    split <;> rfl

/-- A value in place of another. -/
theorem get?_map_entry :
    get? (env.map fun entry => if entry.1 == name then (name, value) else entry) other =
      if name = other then (get? env name).map fun _ => value else get? env other := by
  induction env with
  | nil => simp [get?]
  | cons entry env ih =>
    rw [List.map_cons, get?_cons, get?_cons, get?_cons, ih]
    by_cases hn : entry.1 = name
    · by_cases ho : name = other <;> simp [hn, ho]
    · by_cases ho : name = other
      · simp [ho, ho ▸ hn]
      · simp [hn, ho]

theorem get?_set :
    (env.set name value).get? other = if name = other then some value else env.get? other := by
  unfold set
  cases h : env.get? name with
  | none =>
    rw [if_neg (by simp), get?_append, get?_cons]
    by_cases ho : name = other
    · subst ho
      simp [h]
    · simp [ho, get?]
  | some old =>
    rw [if_pos (by simp), get?_map_entry, h]
    rfl

theorem has_iff : env.has name = true ↔ ∃ value, env.get? name = some value ∧ value ≠ "" := by
  unfold has Environment.value
  cases env.get? name <;> simp

theorem has_eq_false_iff : env.has name = false ↔ ∀ value, env.get? name = some value → value = "" := by
  unfold has Environment.value
  cases env.get? name <;> simp

end Environment

namespace KeyFile

/-- The lines give a variable no value that is not empty. -/
def Unfilled (lines : List String) (name : String) : Prop :=
  ∀ line ∈ lines, ∀ value, Assigns line name value → value = ""

/-- What a variable comes to when lines are carried out in order. -/
inductive Settled (env : Environment) (lines : List String) (name : String) : Option String → Prop
  /-- A value that the variable had stays. -/
  | kept (valued : env.has name = true) : Settled env lines name (env.get? name)
  /-- It takes the first value given that is not empty. -/
  | filled {before after : List String} {line value : String} (unvalued : env.has name = false)
    (split : lines = before ++ line :: after) (assigned : Assigns line name value) (ne : value ≠ "")
    (first : Unfilled before name) : Settled env lines name (some value)
  /-- It is empty when the lines give it nothing else. -/
  | emptied {line value : String} (unvalued : env.has name = false) (mem : line ∈ lines)
    (assigned : Assigns line name value) (unfilled : Unfilled lines name) : Settled env lines name (some "")
  /-- It is what it was when no line assigns to it. -/
  | untouched (unvalued : env.has name = false)
    (unassigned : ∀ line ∈ lines, ∀ value, ¬ Assigns line name value) :
    Settled env lines name (env.get? name)

/-- After other lines, a line gives a variable without a value a name or a value with a NUL character. -/
inductive Breaks (env : Environment) (before : List String) (line : String) : Prop
  | intro {name value : String} (assigned : Assigns line name value) (unvalued : env.has name = false)
    (unfilled : Unfilled before name) (nul : '\x00' ∈ name.toList ∨ '\x00' ∈ value.toList)

/-- No line breaks after those before it. -/
def Unbroken (env : Environment) (lines : List String) : Prop :=
  ∀ before line after, lines = before ++ line :: after → ¬ Breaks env before line

/-- What comes of carrying out lines: each variable is settled by all of them, or by those before the first
that breaks. -/
inductive Loaded (env : Environment) (lines : List String) : Environment × Option Fault → Prop
  | whole {final : Environment} (unbroken : Unbroken env lines)
    (settled : ∀ name, Settled env lines name (final.get? name)) : Loaded env lines (final, none)
  | broken {final : Environment} {before after : List String} {line : String}
    (split : lines = before ++ line :: after) (unbroken : Unbroken env before)
    (breaks : Breaks env before line)
    (settled : ∀ name, Settled env before name (final.get? name)) :
    Loaded env lines (final, some .nulCharacter)

section Lines

variable {env cur : Environment} {done todo : List String} {line name value : String}
  {bound other : Option String}

/-- The first value that is not empty is at one place. -/
theorem Unfilled.value_eq {before before' after after' : List String} {line' value' : String}
    (first : Unfilled before name) (first' : Unfilled before' name)
    (split : before ++ line :: after = before' ++ line' :: after')
    (assigned : Assigns line name value) (ne : value ≠ "") (assigned' : Assigns line' name value')
    (ne' : value' ≠ "") : value = value' := by
  rcases List.append_eq_append_iff.mp split with
    ⟨_ | ⟨between, more⟩, hb, ht⟩ | ⟨_ | ⟨between, more⟩, hb, ht⟩
  · obtain ⟨rfl, -⟩ := List.cons.inj ht
    exact (assigned.unique assigned').2
  · obtain ⟨rfl, -⟩ := List.cons.inj ht
    exact absurd (first' line (by simp [hb]) value assigned) ne
  · obtain ⟨rfl, -⟩ := List.cons.inj ht
    exact (assigned.unique assigned').2
  · obtain ⟨rfl, -⟩ := List.cons.inj ht
    exact absurd (first line' (by simp [hb]) value' assigned') ne'

/-- Lines settle a variable in one way. -/
theorem Settled.unique (h : Settled env done name bound) (h' : Settled env done name other) :
    bound = other := by
  cases h with
  | kept valued =>
    cases h' with
    | kept => rfl
    | filled unvalued | emptied unvalued | untouched unvalued =>
      exact absurd (valued.symm.trans unvalued) nofun
  | @filled before after line value unvalued split assigned ne first =>
    cases h' with
    | kept valued => exact absurd (valued.symm.trans unvalued) nofun
    | filled _ split' assigned' ne' first' =>
      rw [first.value_eq first' (split.symm.trans split') assigned ne assigned' ne']
    | emptied _ _ _ unfilled => exact absurd (unfilled line (by simp [split]) value assigned) ne
    | untouched _ unassigned => exact absurd assigned (unassigned line (by simp [split]) value)
  | emptied unvalued mem assigned unfilled =>
    cases h' with
    | kept valued => exact absurd (valued.symm.trans unvalued) nofun
    | @filled before after line value _ split given ne =>
      exact absurd (unfilled line (by simp [split]) value given) ne
    | emptied => rfl
    | untouched _ unassigned => exact absurd assigned (unassigned _ mem _)
  | untouched unvalued unassigned =>
    cases h' with
    | kept | untouched => rfl
    | @filled before after line value _ split given =>
      exact absurd given (unassigned line (by simp [split]) value)
    | emptied _ mem given => exact absurd given (unassigned _ mem _)

/-! ### One line -/

theorem Unfilled.concat (h : Unfilled done name) (hl : ∀ value, Assigns line name value → value = "") :
    Unfilled (done ++ [line]) name := by
  intro other ho
  rcases List.mem_append.mp ho with ho | ho
  · exact h other ho
  · rwa [List.mem_singleton.mp ho]

/-- A line that does not assign to a variable leaves it as it is. -/
theorem Settled.of_unassigned (h : Settled env done name bound)
    (hn : ∀ value, ¬ Assigns line name value) : Settled env (done ++ [line]) name bound := by
  cases h with
  | kept valued => exact .kept valued
  | filled unvalued split assigned ne first =>
    exact .filled unvalued (by rw [split, List.append_assoc, List.cons_append]) assigned ne first
  | emptied unvalued mem assigned unfilled =>
    exact .emptied unvalued (List.mem_append_left _ mem) assigned
      (unfilled.concat fun value ha => absurd ha (hn value))
  | untouched unvalued unassigned =>
    refine .untouched unvalued fun other ho => ?_
    rcases List.mem_append.mp ho with ho | ho
    · exact unassigned other ho
    · rwa [List.mem_singleton.mp ho]

/-- A variable with a value keeps it. -/
theorem Settled.of_has (h : Settled env done name (cur.get? name)) (hv : cur.has name = true) :
    Settled env (done ++ [line]) name (cur.get? name) := by
  obtain ⟨value, hb, hne⟩ := Environment.has_iff.mp hv
  generalize cur.get? name = bound at h hb
  cases h with
  | kept valued => exact .kept valued
  | filled unvalued split assigned ne first =>
    exact .filled unvalued (by rw [split, List.append_assoc, List.cons_append]) assigned ne first
  | emptied => exact absurd (Option.some.inj hb).symm hne
  | untouched unvalued => exact absurd (Environment.has_eq_false_iff.mp unvalued value hb) hne

/-- A variable is without a value when it had none and was given none. -/
theorem Settled.has_eq_false_iff (h : Settled env done name (cur.get? name)) :
    cur.has name = false ↔ env.has name = false ∧ Unfilled done name := by
  rw [Environment.has_eq_false_iff]
  generalize cur.get? name = bound at h
  cases h with
  | kept valued =>
    obtain ⟨value, hv, hne⟩ := Environment.has_iff.mp valued
    simpa [valued] using ⟨value, hv, hne⟩
  | @filled before after line value unvalued split assigned ne first =>
    have hfilled : ¬ Unfilled done name := fun hu => ne (hu line (by simp [split]) value assigned)
    simpa [hfilled] using ne
  | emptied unvalued mem assigned unfilled => simpa [unvalued] using unfilled
  | untouched unvalued unassigned =>
    have hunfilled : Unfilled done name :=
      fun line hl value ha => absurd ha (unassigned line hl value)
    exact ⟨fun _ => ⟨unvalued, hunfilled⟩, fun _ => Environment.has_eq_false_iff.mp unvalued⟩

/-- What a line gives to a variable without a value is what that comes to. -/
theorem settled_of_assigned (unvalued : env.has name = false) (unfilled : Unfilled done name)
    (assigned : Assigns line name value) : Settled env (done ++ [line]) name (some value) := by
  by_cases hv : value = ""
  · subst hv
    exact .emptied unvalued (List.mem_append_right _ (List.mem_singleton_self line)) assigned
      (unfilled.concat fun other ho => (ho.unique assigned).2)
  · exact .filled unvalued rfl assigned hv unfilled

/-- Carrying out one line. -/
def applyLine (env : Environment) (line : String) : Except Fault Environment :=
  match entry? line with
  | none => .ok env
  | some (name, value) => applyEntry env name value

theorem applyLines_cons : applyLines cur (line :: todo) =
    match applyLine cur line with
    | .ok next => applyLines next todo
    | .error fault => (cur, some fault) := by
  rw [applyLines, applyLine]
  cases entry? line <;> rfl

/-- What comes of one line: its variable is settled with it, or it breaks. -/
inductive LineLoaded (env : Environment) (done : List String) (line : String) :
    Except Fault Environment → Prop
  | carried {next : Environment} (unbroken : ¬ Breaks env done line)
    (settled : ∀ name, Settled env (done ++ [line]) name (next.get? name)) :
    LineLoaded env done line (.ok next)
  | broken (breaks : Breaks env done line) : LineLoaded env done line (.error .nulCharacter)

theorem lineLoaded_applyLine (hs : ∀ name, Settled env done name (cur.get? name)) :
    LineLoaded env done line (applyLine cur line) := by
  unfold applyLine
  cases he : entry? line with
  | none =>
    have hn : ∀ name value, ¬ Assigns line name value := fun name value ha =>
      nomatch he.symm.trans (entry?_eq_some_iff.mpr ha)
    exact .carried (fun ⟨assigned, _, _, _⟩ => hn _ _ assigned)
      fun name => (hs name).of_unassigned (hn name)
  | some entry =>
    obtain ⟨name, value⟩ := entry
    have assigned : Assigns line name value := entry?_eq_some_iff.mp he
    have hother : ∀ {other}, name ≠ other → ∀ given, ¬ Assigns line other given :=
      fun hne given ha => hne (assigned.unique ha).1
    dsimp only
    unfold applyEntry
    cases hv : cur.has name with
    | true =>
      refine .carried ?_ fun other => ?_
      · rintro ⟨broken, unvalued, unfilled, -⟩
        obtain ⟨rfl, -⟩ := broken.unique assigned
        rw [(hs _).has_eq_false_iff.mpr ⟨unvalued, unfilled⟩] at hv
        contradiction
      · by_cases ho : name = other
        · exact ho ▸ (hs name).of_has hv
        · exact (hs other).of_unassigned (hother ho)
    | false =>
      obtain ⟨unvalued, unfilled⟩ := (hs name).has_eq_false_iff.mp hv
      by_cases hnul : '\x00' ∈ name.toList ∨ '\x00' ∈ value.toList
      · rw [if_neg (by simp), if_pos (by simpa [hasNul] using hnul)]
        exact .broken ⟨assigned, unvalued, unfilled, hnul⟩
      · rw [if_neg (by simp), if_neg (by simpa [hasNul] using hnul)]
        refine .carried ?_ fun other => ?_
        · rintro ⟨broken, -, -, nul⟩
          obtain ⟨rfl, rfl⟩ := broken.unique assigned
          exact hnul nul
        · rw [Environment.get?_set]
          split
          · next ho => exact ho ▸ settled_of_assigned unvalued unfilled assigned
          · next ho => exact (hs other).of_unassigned (hother ho)

/-! ### All lines -/

theorem Unbroken.concat (h : Unbroken env done) (hl : ¬ Breaks env done line) :
    Unbroken env (done ++ [line]) := by
  intro before other after heq
  rcases List.eq_nil_or_concat after with rfl | ⟨front, last, rfl⟩
  · obtain ⟨rfl, hline⟩ := List.append_inj' heq rfl
    obtain rfl := List.singleton_inj.mp hline
    exact hl
  · have heq : done ++ [line] = (before ++ other :: front) ++ [last] := by simp [heq]
    exact h before other front (List.append_inj' heq rfl).1

/-- Lines that come after others are carried out up to the first that breaks. -/
theorem loaded_append (hs : ∀ name, Settled env done name (cur.get? name)) (hu : Unbroken env done) :
    Loaded env (done ++ todo) (applyLines cur todo) := by
  induction todo generalizing done cur with
  | nil =>
    rw [List.append_nil]
    exact .whole hu hs
  | cons line todo ih =>
    have hl : LineLoaded env done line (applyLine cur line) := lineLoaded_applyLine hs
    rw [applyLines_cons]
    generalize applyLine cur line = result at hl
    cases hl with
    | carried unbroken settled =>
      rw [List.append_cons]
      exact ih settled (hu.concat unbroken)
    | broken breaks => exact .broken rfl hu breaks hs

theorem settled_nil : Settled env [] name (env.get? name) := by
  cases hv : env.has name with
  | true => exact .kept hv
  | false => exact .untouched hv fun line hl => nomatch hl

theorem loaded_applyLines (env : Environment) (lines : List String) :
    Loaded env lines (applyLines env lines) := by
  have hnone : Unbroken env [] := fun _ _ _ h => nomatch List.append_eq_nil_iff.mp h.symm
  have h : Loaded env ([] ++ lines) (applyLines env lines) := loaded_append (fun _ => settled_nil) hnone
  exact h

end Lines

end KeyFile
end PlanAssistant
