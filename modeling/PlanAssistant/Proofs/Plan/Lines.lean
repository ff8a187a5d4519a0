import PlanAssistant.Proofs.Plan.Grammar

/-!
Plans and their lines.  The blanks around the equals sign of a step may be line ends, so a step can be
written across the line end between two texts: its number stands in the one, the name of its tool in the
other.  Apart from such a step, which comes between them, the steps of two texts with a line end between
them are those of the one and then those of the other.
-/
namespace PlanAssistant

namespace Step

/-! ### Steps across a line end -/

/-- The text goes on with the step's tool and its argument in brackets, and then with blanks up to a line
end. -/
def Called (step : Step) (cs : List Char) : Prop :=
  ∃ trailing rest, cs = step.tool.toList ++ '[' :: (step.argument.toList ++ ']' :: (trailing ++ rest)) ∧
    (∀ c ∈ trailing, Text.isBlank c = true) ∧ ∀ c ∈ rest.head?, c = '\n'

/-- The step is written across the line end between two texts: it is all that the first one is, up to some
place around the equals sign, and the second one goes on from there. -/
inductive Bridges (step : Step) : List Char → List Char → Prop
  | beforeEquals {before gap after cs : List Char} (wellFormed : step.WellFormed)
      (blank : ∀ c ∈ before ++ gap ++ after, Text.isBlank c = true) (called : step.Called cs) :
    Bridges step ('#' :: 'E' :: (step.number.toList ++ before)) (gap ++ '=' :: (after ++ cs))
  | afterEquals {before gap after cs : List Char} (wellFormed : step.WellFormed)
      (blank : ∀ c ∈ before ++ gap ++ after, Text.isBlank c = true) (called : step.Called cs) :
    Bridges step ('#' :: 'E' :: (step.number.toList ++ (before ++ '=' :: gap))) (after ++ cs)

/-- The step is written across the line end in front of `below`, from the start of a line of the text above
on; that text itself starts a line or not. -/
inductive Straddles (step : Step) (below : List Char) : Bool → List Char → Prop
  | here {opening : List Char} (bridges : step.Bridges opening below) : Straddles step below true opening
  | later {lineStart : Bool} {c : Char} {rest : List Char}
      (next : Straddles step below (c == '\n') rest) : Straddles step below lineStart (c :: rest)

section Heads

variable {step : Step} {cs below : List Char}

/-- Where another character ends a run, the run goes over the line end or lies within the first text. -/
theorem run_across_or_within {run y : List Char} {c : Char} (h : cs ++ '\n' :: below = run ++ c :: y)
    (hc : c ≠ '\n') :
    (∃ gap, run = cs ++ '\n' :: gap ∧ below = gap ++ c :: y) ∨
      ∃ rest, cs = run ++ c :: rest ∧ y = rest ++ '\n' :: below := by
  rcases List.append_eq_append_iff.mp h with ⟨more, rfl, hm⟩ | ⟨rest, rfl, hr⟩
  · cases more with
    | nil => exact absurd (List.cons.inj hm).1.symm hc
    | cons d more =>
      obtain ⟨rfl, hb⟩ := List.cons.inj hm
      exact .inl ⟨more, rfl, hb⟩
  · cases rest with
    | nil => exact absurd (List.cons.inj hr).1 hc
    | cons d rest =>
      obtain ⟨rfl, hy⟩ := List.cons.inj hr
      exact .inr ⟨rest, rfl, hy⟩

/-- A step that heads a text heads it also when lines follow. -/
theorem Heads.newline (h : step.Heads cs) (below : List Char) : step.Heads (cs ++ '\n' :: below) := by
  obtain ⟨hw, before, after, trailing, rest, rfl, hb, ha, ht, hr⟩ := h
  refine ⟨hw, before, after, trailing, rest ++ '\n' :: below, by simp, hb, ha, ht, ?_⟩
  cases rest with
  | nil => simp
  | cons c rest => exact hr

/-- Blanks up to a line end end in front of the one there is, if not before. -/
theorem blanks_before_newline {trailing rest : List Char} (h : trailing ++ rest = cs ++ '\n' :: below)
    (ht : ∀ c ∈ trailing, Text.isBlank c = true) (hr : ∀ c ∈ rest.head?, c = '\n') :
    ∃ trailing rest, cs = trailing ++ rest ∧ (∀ c ∈ trailing, Text.isBlank c = true) ∧
      ∀ c ∈ rest.head?, c = '\n' := by
  rcases List.append_eq_append_iff.mp h with ⟨more, rfl, hm⟩ | ⟨more, rfl, -⟩
  · refine ⟨trailing, more, rfl, ht, fun c hc => hr c ?_⟩
    cases more with
    | nil => simp at hc
    | cons d more =>
      rw [hm]
      exact hc
  · exact ⟨cs, [], by simp, fun c hc => ht c (List.mem_append_left _ hc), by simp⟩

/-- A step at the head of a text with lines after it heads the text, or is written across the line end. -/
theorem Heads.of_newline (h : step.Heads (cs ++ '\n' :: below)) :
    step.Heads cs ∨ step.Bridges cs below := by
  obtain ⟨hw, before, after, trailing, rest, hs, hb, ha, ht, hr⟩ := h
  have hnumber : '\n' ∉ '#' :: 'E' :: step.number.toList := by
    have hd : '\n' ∉ step.number.toList := fun hm => absurd (hw.digits _ hm) (by decide +kernel)
    simpa using hd
  obtain ⟨c, tool, htool⟩ := List.exists_cons_of_ne_nil hw.tool_ne
  have htools : '\n' ∉ c :: tool := fun hm => absurd (hw.toolCharacters _ (htool ▸ hm)) (by decide)
  obtain ⟨hc, htail⟩ := List.ne_and_not_mem_of_not_mem_cons htools
  rw [htool] at hs
  -- the line end comes after the number; it is looked for in the blanks, one run after the other
  obtain ⟨cs, rfl, hnext⟩ := exists_of_notMem_left hs.symm hnumber
  rcases run_across_or_within hnext.symm (by decide) with ⟨gap, rfl, rfl⟩ | ⟨cs, rfl, hassigned⟩
  · obtain ⟨hcs, hgap⟩ := List.forall_mem_append.mp hb
    refine .inr (.beforeEquals hw ?_ ⟨trailing, rest, by rw [htool], ht, hr⟩)
    exact List.forall_mem_append.mpr
      ⟨List.forall_mem_append.mpr ⟨hcs, (List.forall_mem_cons.mp hgap).2⟩, ha⟩
  rcases run_across_or_within hassigned.symm (Ne.symm hc) with ⟨gap, rfl, rfl⟩ | ⟨cs, rfl, hcalled⟩
  · obtain ⟨hcs, hgap⟩ := List.forall_mem_append.mp ha
    refine .inr (.afterEquals hw ?_ ⟨trailing, rest, by rw [htool]; rfl, ht, hr⟩)
    exact List.forall_mem_append.mpr
      ⟨List.forall_mem_append.mpr ⟨hb, hcs⟩, (List.forall_mem_cons.mp hgap).2⟩
  have hargument : '\n' ∉ tool ++ '[' :: (step.argument.toList ++ [']']) := by
    simp [htail, hw.oneLine]
  have hclosed : cs ++ '\n' :: below =
      tool ++ '[' :: (step.argument.toList ++ [']']) ++ (trailing ++ rest) := by
    simpa using hcalled.symm
  obtain ⟨cs, rfl, hend⟩ := exists_of_notMem_left hclosed.symm hargument
  obtain ⟨trailing, rest, rfl, ht, hr⟩ := blanks_before_newline hend ht hr
  exact .inl ⟨hw, before, after, trailing, rest, by simp [htool], hb, ha, ht, hr⟩

/-- A step that is written across the line end heads the text with both sides of it. -/
theorem Bridges.heads (h : step.Bridges cs below) : step.Heads (cs ++ '\n' :: below) := by
  have hn : Text.isBlank '\n' = true := by decide
  cases h with
  | @beforeEquals before gap after lower wellFormed blank called =>
    obtain ⟨trailing, rest, rfl, ht, hr⟩ := called
    obtain ⟨⟨hb, hg⟩, ha⟩ := (List.forall_mem_append.trans (and_congr_left' List.forall_mem_append)).mp blank
    refine ⟨wellFormed, before ++ '\n' :: gap, after, trailing, rest, by simp, ?_, ha, ht, hr⟩
    exact List.forall_mem_append.mpr ⟨hb, List.forall_mem_cons.mpr ⟨hn, hg⟩⟩
  | @afterEquals before gap after lower wellFormed blank called =>
    obtain ⟨trailing, rest, rfl, ht, hr⟩ := called
    obtain ⟨⟨hb, hg⟩, ha⟩ := (List.forall_mem_append.trans (and_congr_left' List.forall_mem_append)).mp blank
    refine ⟨wellFormed, before, gap ++ '\n' :: after, trailing, rest, by simp, hb, ?_, ht, hr⟩
    exact List.forall_mem_append.mpr ⟨hg, List.forall_mem_cons.mpr ⟨hn, ha⟩⟩

/-- Above the line end there is only the number of the step, after its hash sign, and what stands in front
of the name of its tool. -/
theorem Bridges.eq_cons (h : step.Bridges cs below) : ∃ rest, cs = '#' :: rest ∧
    ∀ c ∈ rest, c = 'E' ∨ c = '=' ∨ Text.isDigit c = true ∨ Text.isBlank c = true := by
  cases h with
  | @beforeEquals before gap after lower wellFormed blank called =>
    refine ⟨_, rfl, List.forall_mem_cons.mpr ⟨.inl rfl, List.forall_mem_append.mpr ⟨?_, ?_⟩⟩⟩
    · exact fun c hc => .inr (.inr (.inl (wellFormed.digits c hc)))
    · exact fun c hc => .inr (.inr (.inr (blank c (by simp [hc]))))
  | @afterEquals before gap after lower wellFormed blank called =>
    refine ⟨_, rfl, List.forall_mem_cons.mpr ⟨.inl rfl, List.forall_mem_append.mpr ⟨?_, ?_⟩⟩⟩
    · exact fun c hc => .inr (.inr (.inl (wellFormed.digits c hc)))
    · refine List.forall_mem_append.mpr ⟨?_, List.forall_mem_cons.mpr ⟨.inr (.inl rfl), ?_⟩⟩
      · exact fun c hc => .inr (.inr (.inr (blank c (by simp [hc]))))
      · exact fun c hc => .inr (.inr (.inr (blank c (by simp [hc]))))

/-- Where a step starts that is written across the line end, none is found above it, and no other starts
later. -/
theorem Bridges.alone (h : step.Bridges cs below) :
    at? cs = none ∧ ∃ rest, cs = '#' :: rest ∧ '#' ∉ rest := by
  obtain ⟨rest, rfl, hrest⟩ := h.eq_cons
  have hhash : '#' ∉ rest := fun hm => absurd (hrest _ hm) (by decide +kernel)
  have hbracket : '[' ∉ rest := fun hm => absurd (hrest _ hm) (by decide +kernel)
  refine ⟨?_, rest, rfl, hhash⟩
  cases ha : at? ('#' :: rest) with
  | none => rfl
  | some other =>
    obtain ⟨-, before, after, trailing, more, hs, -⟩ := at?_eq_some_iff.mp ha
    have hm : '[' ∈ '#' :: rest := by simp [hs]
    simp [hbracket] at hm

/-- Lines that follow do not change what step a text starts with, unless one is written across. -/
theorem at?_newline (h : ∀ step : Step, ¬ step.Bridges cs below) :
    at? (cs ++ '\n' :: below) = at? cs := by
  cases ha : at? (cs ++ '\n' :: below) with
  | none =>
    cases hc : at? cs with
    | none => rfl
    | some step =>
      have hn := at?_eq_some_iff.mpr ((at?_eq_some_iff.mp hc).newline below)
      rw [ha] at hn
      contradiction
  | some step =>
    have hh := (at?_eq_some_iff.mp ha).of_newline.resolve_right (h step)
    exact (at?_eq_some_iff.mpr hh).symm

end Heads

/-! ### Texts and the lines below -/

section Lines

variable {step : Step} {below : List Char}

theorem at?_of_ne_hash {c : Char} (hc : c ≠ '#') (rest : List Char) : at? (c :: rest) = none := by
  unfold at?
  split
  · next he => exact absurd (List.cons.inj he).1 hc
  · rfl

/-- Without a hash sign there is no step. -/
theorem allFrom_eq_nil {cs : List Char} (h : '#' ∉ cs) (lineStart : Bool) : allFrom lineStart cs = [] := by
  induction cs generalizing lineStart with
  | nil => rfl
  | cons c cs ih =>
    obtain ⟨hc, hcs⟩ := List.ne_and_not_mem_of_not_mem_cons h
    rw [allFrom, at?_of_ne_hash (Ne.symm hc), ih hcs]
    cases lineStart <;> rfl

/-- Without a hash sign no step is written across. -/
theorem Straddles.hash_mem {lineStart : Bool} {cs : List Char} (h : step.Straddles below lineStart cs) :
    '#' ∈ cs := by
  induction h with
  | here bridges =>
    obtain ⟨rest, rfl, -⟩ := bridges.eq_cons
    exact List.mem_cons_self
  | later _ ih => exact List.mem_cons_of_mem _ ih

/-- Where no step is written across, the steps are those of both texts. -/
theorem allFrom_newline_of_not {cs : List Char} {lineStart : Bool}
    (h : ∀ step : Step, ¬ step.Straddles below lineStart cs) :
    allFrom lineStart (cs ++ '\n' :: below) = allFrom lineStart cs ++ allFrom true below := by
  induction cs generalizing lineStart with
  | nil =>
    rw [List.nil_append, allFrom_newline (by simp)]
    rfl
  | cons c cs ih =>
    have hlater := ih fun step hs => h step (.later hs)
    rw [List.cons_append, allFrom, allFrom, hlater]
    cases lineStart with
    | false => rfl
    | true =>
      rw [← List.cons_append, at?_newline fun step hs => h step (.here hs)]
      cases at? (c :: cs) <;> rfl

/-- A step that is written across comes between the steps of both texts. -/
theorem allFrom_newline_of_straddles {cs : List Char} {lineStart : Bool}
    (h : step.Straddles below lineStart cs) :
    allFrom lineStart (cs ++ '\n' :: below) = allFrom lineStart cs ++ step :: allFrom true below := by
  induction h with
  | here bridges =>
    have hstep := at?_eq_some_iff.mpr bridges.heads
    obtain ⟨hnone, rest, rfl, hhash⟩ := bridges.alone
    have hlater : allFrom false (rest ++ '\n' :: below) = allFrom false rest ++ allFrom true below :=
      allFrom_newline_of_not fun other hs => hhash hs.hash_mem
    have hrest := allFrom_eq_nil hhash false
    rw [List.cons_append] at hstep ⊢
    rw [allFrom, allFrom, show ('#' == '\n') = false from rfl, hlater, hrest]
    simp [hstep, hnone]
  | @later lineStart c rest next ih =>
    -- a step that were written across from here on would leave no other behind it
    have hhere : ∀ other : Step, ¬ other.Bridges (c :: rest) below := by
      intro other hb
      obtain ⟨-, more, hm, hhash⟩ := hb.alone
      exact hhash ((List.cons.inj hm).2 ▸ next.hash_mem)
    rw [List.cons_append, allFrom, allFrom, ih, ← List.cons_append, at?_newline hhere]
    cases lineStart with
    | false => rfl
    | true => cases at? (c :: rest) <;> rfl

end Lines
end Step

/-- The steps of two texts with a line end between them are those of the one and then those of the other,
unless a step is written across that line end; and then it comes between them. -/
theorem planSteps_newline_eq_iff (above below : String) :
    (planSteps (above ++ "\n" ++ below) = planSteps above ++ planSteps below ↔
      ∀ step : Step, ¬ step.Straddles below.toList true above.toList) ∧
    ∀ step : Step, step.Straddles below.toList true above.toList →
      planSteps (above ++ "\n" ++ below) = planSteps above ++ step :: planSteps below := by
  have hboth : (above ++ "\n" ++ below).toList = above.toList ++ '\n' :: below.toList := by simp
  have hacross : ∀ step : Step, step.Straddles below.toList true above.toList →
      planSteps (above ++ "\n" ++ below) = planSteps above ++ step :: planSteps below := by
    intro step hs
    rw [planSteps, hboth, Step.allFrom_newline_of_straddles hs]
    rfl
  refine ⟨⟨fun he step hs => ?_, fun hn => ?_⟩, hacross⟩
  · rw [hacross step hs, List.append_cancel_left_eq] at he
    exact absurd (congrArg List.length he) (by simp)
  · rw [planSteps, hboth, Step.allFrom_newline_of_not hn]
    rfl

/-- Neither of two lines has a step; one above the other, they have one. -/
theorem planSteps_newline_ne_broken :
    planSteps ("#E1 =" ++ "\n" ++ "ListFiles[.]") = [⟨"1", "ListFiles", "."⟩] ∧
      planSteps ("#E1 =" ++ "\n" ++ "ListFiles[.]") ≠ planSteps "#E1 =" ++ planSteps "ListFiles[.]" := by
  decide +kernel

end PlanAssistant
