import PlanAssistant.Text.Lines

/-!
Line ends.  `CutAs` says which pieces the lines of a text are: each is plain and stands before a line end,
the last perhaps before none, and a carriage return goes together with a line feed behind it.  There is
one way to cut a text up like this, that of `splitAll`; reading the common line ends as one beforehand
makes no difference to the lines.
-/
namespace PlanAssistant.Text

/-- A character that ends a line on its own. -/
def endsLine (c : Char) : Bool := c == '\r' || isLineEnd c

/-- A line holds no character that ends one. -/
def Plain (line : List Char) : Prop := ∀ c ∈ line, endsLine c = false

/-- What stands between a line and the text after it. -/
inductive IsEnding : List Char → List Char → Prop
  | single {c : Char} {rest : List Char} (ends : endsLine c = true)
    (alone : c = '\r' → rest.head? ≠ some '\n') : IsEnding [c] rest
  | pair {rest : List Char} : IsEnding ['\r', '\n'] rest

/-- A text and its lines. -/
inductive CutAs : List Char → List (List Char) → Prop
  | empty : CutAs [] []
  | last {line : List Char} (plain : Plain line) (ne : line ≠ []) : CutAs line [line]
  | before {line mark rest : List Char} {lines : List (List Char)} (plain : Plain line)
    (ending : IsEnding mark rest) (more : CutAs rest lines) :
    CutAs (line ++ (mark ++ rest)) (line :: lines)

section Cuts

variable {c : Char} {line cs mark rest : List Char} {lines : List (List Char)}

theorem splitAllFrom_ending (h : IsEnding mark rest) :
    splitAllFrom line (mark ++ rest) = line.reverse :: splitAllFrom [] rest := by
  cases h with
  | @single c _ ends alone =>
    refine (splitAllFrom.eq_3 line c rest fun more hc hm => ?_).trans (if_pos ends)
    exact alone hc (by rw [hm]; rfl)
  | pair => rfl

theorem splitAllFrom_plain (h : Plain cs) :
    splitAllFrom line (cs ++ rest) = splitAllFrom (cs.reverse ++ line) rest := by
  induction cs generalizing line with
  | nil => rfl
  | cons c cs ih =>
    have hc : endsLine c = false := h c List.mem_cons_self
    have hne : ∀ more, c = '\r' → cs ++ rest = '\n' :: more → False := by
      rintro more rfl -
      exact absurd hc (by decide)
    have hrest : Plain cs := fun d hd => h d (List.mem_cons_of_mem _ hd)
    rw [List.cons_append, splitAllFrom.eq_3 _ _ _ hne, if_neg (by simpa [endsLine] using hc), ih hrest,
      List.reverse_cons, List.append_assoc, List.singleton_append]

/-- The lines of a text are found. -/
theorem CutAs.splitAllFrom_eq (h : CutAs cs lines) : splitAllFrom [] cs = lines := by
  induction h with
  | empty => rfl
  | @last line plain ne =>
    have hplain : splitAllFrom [] (line ++ []) = splitAllFrom (line.reverse ++ []) [] :=
      splitAllFrom_plain plain
    rw [List.append_nil, List.append_nil] at hplain
    rw [hplain, splitAllFrom.eq_1, if_neg (by simpa using ne), List.reverse_reverse]
  | before plain ending more ih =>
    rw [splitAllFrom_plain plain, splitAllFrom_ending ending, List.append_nil, List.reverse_reverse, ih]

/-- What is found are the lines of a text. -/
theorem cutAs_splitAllFrom (h : Plain line) : CutAs (line.reverse ++ cs) (splitAllFrom line cs) := by
  have hback : ∀ {line : List Char}, Plain line → Plain line.reverse :=
    fun h c hc => h c (List.mem_reverse.mp hc)
  have hempty : Plain [] := fun c hc => nomatch hc
  fun_induction splitAllFrom line cs with
  | case1 line he =>
    obtain rfl := List.isEmpty_iff.mp he
    exact .empty
  | case2 line hne =>
    rw [List.append_nil]
    exact .last (hback h) (by simpa using hne)
  | case3 line rest ih => exact .before (hback h) .pair (ih hempty)
  | case4 line c rest hother hends ih =>
    have hending : IsEnding [c] rest := .single hends fun hc hr => by
      obtain ⟨more, hm⟩ := List.head?_eq_some_iff.mp hr
      exact hother more hc hm
    exact .before (hback h) hending (ih hempty)
  | case5 line c rest hother hends ih =>
    have hmore := ih fun d hd => by
      rcases List.mem_cons.mp hd with rfl | hd
      · simpa [endsLine] using hends
      · exact h d hd
    rwa [List.reverse_cons, List.append_assoc, List.singleton_append] at hmore

/-- There is one way to cut a text into lines. -/
theorem splitAllFrom_eq_iff : splitAllFrom [] cs = lines ↔ CutAs cs lines :=
  ⟨fun h => h ▸ cutAs_splitAllFrom (List.forall_mem_nil _), CutAs.splitAllFrom_eq⟩

/-- Line ends read as one make no other lines. -/
theorem splitAllFrom_normalizeNewlines :
    splitAllFrom line (normalizeNewlines cs) = splitAllFrom line cs := by
  have hending : ∀ rest, IsEnding ['\n'] rest := fun rest =>
    .single (by decide) fun h => absurd h (by decide)
  have hfeed : ∀ line rest, splitAllFrom line ('\n' :: rest) = line.reverse :: splitAllFrom [] rest :=
    fun line rest => splitAllFrom_ending (hending rest)
  fun_induction normalizeNewlines cs generalizing line with
  | case1 => rfl
  | case2 rest ih => rw [hfeed, ih, splitAllFrom.eq_2]
  | case3 c rest hother ih =>
    by_cases hc : c = '\r'
    · have halone : rest.head? ≠ some '\n' := fun hr => by
        obtain ⟨more, hm⟩ := List.head?_eq_some_iff.mp hr
        exact hother more hc hm
      have hreturn : IsEnding ['\r'] rest := .single (by decide) fun _ => halone
      subst hc
      exact (hfeed _ _).trans ((congrArg _ ih).trans (splitAllFrom_ending hreturn).symm)
    · have hne : ∀ {rest : List Char}, ∀ more, c = '\r' → rest = '\n' :: more → False :=
        fun _ h => absurd h hc
      rw [if_neg (by simpa using hc), splitAllFrom.eq_3 _ _ _ hne, splitAllFrom.eq_3 _ _ _ hne, ih, ih]

theorem CutAs.mem_of_mem (h : CutAs cs lines) (hl : line ∈ lines) (hc : c ∈ line) : c ∈ cs := by
  induction h with
  | empty => exact nomatch hl
  | last plain ne => rwa [List.mem_singleton.mp hl] at hc
  | before plain ending more ih =>
    rcases List.mem_cons.mp hl with rfl | hl
    · exact List.mem_append_left _ hc
    · exact List.mem_append_right _ (List.mem_append_right _ (ih hl))

end Cuts
end PlanAssistant.Text
