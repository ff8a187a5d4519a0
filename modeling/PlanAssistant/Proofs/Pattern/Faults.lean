import PlanAssistant.Pattern.Reading
import PlanAssistant.Proofs.Text.Readers

/-!
Why a text is not read as a pattern.  Most texts that are not are just no patterns.  The other faults have
something in the text that they come from: the digits of a count that is too large, the switches of two
modes that exclude each other, or as many opening parentheses as groups may be nested.
-/
namespace PlanAssistant.Pattern

open Text (Reads Lasting Rest)

/-- A mode is switched on for the whole pattern. -/
def Switches (letter : Char) (cs : List Char) : Prop :=
  ∃ on : List Char, letter ∈ on ∧ '(' :: '?' :: (on ++ [')']) <:+: cs

/-- Where a fault comes from in a text that is read with room for `depth` nested groups. -/
inductive Cause (depth : Nat) (cs : List Char) : Fault → Prop
  | malformed : Cause depth cs .malformed
  | countTooLarge {run : List Char} (digits : ∀ c ∈ run, Text.isAsciiDigit c = true)
      (inside : run <:+: cs) (large : countLimit ≤ Text.digitsValue run) : Cause depth cs .countTooLarge
  | tooManyDigits {run : List Char} (digits : ∀ c ∈ run, Text.isAsciiDigit c = true)
      (inside : run <:+: cs) (long : Json.digitLimit < run.length) :
    Cause depth cs (.tooManyDigits run.length)
  | modeConflict (ascii : Switches 'a' cs) (unicode : Switches 'u' cs) : Cause depth cs .modeConflict
  | nestedTooDeep (deep : depth < cs.count '(') : Cause depth cs .nestedTooDeep

theorem Switches.mono {letter : Char} {cs more : List Char} (h : Switches letter more) (hs : more <:+: cs) :
    Switches letter cs := by
  obtain ⟨on, hm, hi⟩ := h
  exact ⟨on, hm, hi.trans hs⟩

theorem lasting_cause (depth : Nat) : Lasting (Cause depth) := by
  intro cs more fault hs h
  cases h with
  | malformed => exact .malformed
  | countTooLarge digits inside large => exact .countTooLarge digits (inside.trans hs.isInfix) large
  | tooManyDigits digits inside long => exact .tooManyDigits digits (inside.trans hs.isInfix) long
  | modeConflict ascii unicode => exact .modeConflict (ascii.mono hs.isInfix) (unicode.mono hs.isInfix)
  | nestedTooDeep deep => exact .nestedTooDeep (Nat.lt_of_lt_of_le deep (hs.sublist.count_le _))

/-- In a group, there is room for one level less, and one parenthesis more in the whole text. -/
theorem Cause.deeper {depth : Nat} {cs more : List Char} {fault : Fault} (h : Cause depth more fault)
    (hs : more <:+ cs) : Cause (depth + 1) ('(' :: cs) fault := by
  have hi := hs.isInfix.trans (List.suffix_cons '(' cs).isInfix
  cases h with
  | malformed => exact .malformed
  | countTooLarge digits inside large => exact .countTooLarge digits (inside.trans hi) large
  | tooManyDigits digits inside long => exact .tooManyDigits digits (inside.trans hi) long
  | modeConflict ascii unicode => exact .modeConflict (ascii.mono hi) (unicode.mono hi)
  | nestedTooDeep deep =>
    refine .nestedTooDeep ?_
    have hle := hs.sublist.count_le '('
    rw [List.count_cons_self]
    omega

/-! ### Escapes and sets -/

section Parts

variable (depth : Nat)

theorem takeDigits_suffix (digit : Char → Bool) (most : Nat) (cs : List Char) :
    (takeDigits digit most cs).2 <:+ cs := by
  induction most generalizing cs with
  | zero => unfold takeDigits; exact List.suffix_rfl
  | succ most ih =>
    unfold takeDigits
    cases cs with
    | nil => exact List.suffix_rfl
    | cons c rest =>
      dsimp only
      split
      · exact (ih rest).trans (List.suffix_cons c rest)
      · exact List.suffix_rfl

theorem reads_readHex (width : Nat) (cs : List Char) :
    Reads (Cause depth) Rest cs (readHex width cs) := by
  unfold readHex
  dsimp only
  split
  · exact .read (takeDigits_suffix _ _ _)
  · exact .failed .malformed

theorem reads_readOctal (first : Char) (cs : List Char) :
    Reads (Cause depth) Rest cs (readOctal first cs) := by
  unfold readOctal
  dsimp only
  split
  · exact .read (takeDigits_suffix _ _ _)
  · exact .failed .malformed

theorem reads_referTo (known : Known) (index : Nat) (rest : List Char) :
    Reads (Cause depth) Rest rest (referTo known index rest) := by
  unfold referTo
  split
  · exact .read List.suffix_rfl
  · exact .failed .malformed

theorem reads_readNumbered (known : Known) (first : Char) (cs : List Char) :
    Reads (Cause depth) Rest cs (readNumbered known first cs) := by
  unfold readNumbered
  split
  · next second rest =>
    have hr := List.suffix_cons second rest
    have hrefer := (reads_referTo depth known (Text.digitsValue [first, second]) rest).later
      (lasting_cause depth) hr
    split
    · split
      · split
        · exact reads_readOctal depth first _
        · exact hrefer
      · exact hrefer
    · exact reads_referTo depth known _ _
  · exact reads_referTo depth known _ _

theorem reads_readName (close : Char) (taken cs : List Char) :
    Reads (Cause depth) Rest cs (readName close taken cs) := by
  fun_induction readName close taken cs with
  | case1 taken c rest ih =>
    exact ih.later (lasting_cause depth) (List.suffix_append ['\\', c] rest)
  | case2 => exact .failed .malformed
  | case3 taken c rest => exact .read (List.suffix_cons _ rest)
  | case4 taken c rest _ _ ih =>
    exact ih.later (lasting_cause depth) (List.suffix_cons c rest)
  | case5 => exact .failed .malformed

section Characters

variable [Interpreter]

theorem reads_readNamed (cs : List Char) : Reads (Cause depth) Rest cs (readNamed cs) := by
  unfold readNamed
  split
  · next rest =>
    refine ((reads_readName depth '\x7d' [] rest).later (lasting_cause depth)
      (List.suffix_cons _ rest)).bind ?_
    rintro ⟨name, after⟩ hr
    dsimp only
    split
    · exact .read hr
    · exact .failed .malformed
  · exact .failed .malformed

theorem reads_readCode (c : Char) (rest : List Char) :
    Reads (Cause depth) Rest rest (readCode c rest) := by
  unfold readCode
  split
  · exact .read List.suffix_rfl
  · split
    · exact reads_readHex depth 2 rest
    · split
      · exact reads_readHex depth 4 rest
      · split
        · exact reads_readHex depth 8 rest
        · split
          · exact reads_readNamed depth rest
          · split
            · exact .failed .malformed
            · exact .read List.suffix_rfl

theorem reads_readEscape (mode : Mode) (known : Known) (cs : List Char) :
    Reads (Cause depth) Rest cs (readEscape mode known cs) := by
  unfold readEscape
  split
  · exact .failed .malformed
  next c rest =>
  have hr := List.suffix_cons c rest
  split
  · exact .read hr
  · exact .read hr
  · split
    · exact (reads_readOctal depth c rest).later (lasting_cause depth) hr
    · split
      · exact (reads_readNumbered depth known c rest).later (lasting_cause depth) hr
      · exact (reads_readCode depth c rest).later (lasting_cause depth) hr

theorem reads_readSetEscape (cs : List Char) : Reads (Cause depth) Rest cs (readSetEscape cs) := by
  unfold readSetEscape
  split
  · exact .failed .malformed
  next c rest =>
  have hr := List.suffix_cons c rest
  split
  · exact .read hr
  · split
    · exact .read hr
    · have hcode : Reads (Cause depth) Rest (c :: rest)
          (if isOctal c then readOctal c rest else readCode c rest) := by
        split
        · exact (reads_readOctal depth c rest).later (lasting_cause depth) hr
        · exact (reads_readCode depth c rest).later (lasting_cause depth) hr
      generalize (if isOctal c then readOctal c rest else readCode c rest) = code at hcode ⊢
      cases hcode with
      | failed h => exact .failed h
      | @read code h =>
        obtain ⟨code, after⟩ := code
        cases code with
        | char code => exact .read h
        | _ => exact .failed .malformed

theorem reads_readSetItem (cs : List Char) : Reads (Cause depth) Rest cs (readSetItem cs) := by
  unfold readSetItem
  split
  · exact .failed .malformed
  · next rest =>
    exact (reads_readSetEscape depth rest).later (lasting_cause depth) (List.suffix_cons _ rest)
  · next c rest _ => exact .read (List.suffix_cons c rest)

theorem reads_readSetItems (taken : List SetItem) (cs : List Char) (steps : Nat) :
    Reads (Cause depth) Rest cs (readSetItems taken cs steps) := by
  induction steps generalizing taken cs with
  | zero =>
    unfold readSetItems
    exact .failed .malformed
  | succ steps ih =>
    have hnext (taken : List SetItem) {rest : List Char} (h : rest <:+ cs) :
        Reads (Cause depth) Rest cs (readSetItems taken rest steps) :=
      (ih taken rest).later (lasting_cause depth) h
    have hitem := reads_readSetItem depth cs
    unfold readSetItems
    split
    · exact .read (List.suffix_cons _ _)
    generalize readSetItem cs = item at hitem ⊢
    cases hitem with
    | failed h => exact .failed h
    | @read item h =>
      obtain ⟨item, after⟩ := item
      have ha : after <:+ cs := h
      split
      · contradiction
      · next heq =>
        obtain ⟨rfl, rfl⟩ := Prod.mk.inj (Except.ok.inj heq)
        exact .read ((List.suffix_append ['-', ']'] _).trans ha)
      · next rest _ heq =>
        obtain ⟨rfl, rfl⟩ := Prod.mk.inj (Except.ok.inj heq)
        have hhigh := (reads_readSetItem depth rest).later (lasting_cause depth)
          ((List.suffix_cons _ rest).trans ha)
        split
        · next high hr =>
          rw [hr] at hhigh
          split
          · exact .failed .malformed
          · cases hhigh with
            | read h => exact hnext _ h
        · exact .failed .malformed
      · next heq =>
        obtain ⟨rfl, rfl⟩ := Prod.mk.inj (Except.ok.inj heq)
        exact hnext _ ha

theorem reads_readSet (mode : Mode) (cs : List Char) : Reads (Cause depth) Rest cs (readSet mode cs) := by
  have hstart : (if cs.head? == some '^' then cs.drop 1 else cs) <:+ cs := by
    split
    · exact List.drop_suffix 1 cs
    · exact List.suffix_rfl
  unfold readSet
  dsimp only
  refine ((reads_readSetItems depth [] _ _).later (lasting_cause depth) hstart).map ?_
  rintro ⟨items, rest⟩ h
  dsimp only
  split <;> exact h

end Characters

/-! ### Counts -/

theorem reads_boundOf {cs digits : List Char} (hd : ∀ c ∈ digits, Text.isAsciiDigit c = true)
    (hi : digits <:+: cs) : Reads (Cause depth) (fun _ _ => True) cs (boundOf digits) := by
  unfold boundOf
  split
  · next h => exact .failed (.tooManyDigits hd hi h)
  · split
    · next h => exact .failed (.countTooLarge hd hi h)
    · exact .read trivial

/-- The count with its least number read, what comes after it being a rest of the text. -/
theorem reads_most {cs high after : List Char} (least : Nat)
    (hd : ∀ c ∈ high, Text.isAsciiDigit c = true) (hi : high <:+: cs) (ha : after <:+ cs) :
    Reads (Cause depth) (fun cs found => ∀ value, found = some value → Rest cs value) cs
      (do
        let most ← if high.isEmpty then pure none else some <$> boundOf high
        if most.any (· < least) then throw Fault.malformed
        return some ((⟨least, most⟩ : Count), after)) := by
  have hmost (most : Option Nat) :
      Reads (Cause depth) (fun cs found => ∀ value, found = some value → Rest cs value) cs
        (do
          if most.any (· < least) then throw Fault.malformed
          return some ((⟨least, most⟩ : Count), after)) := by
    split
    · exact .failed .malformed
    · refine .read fun value h => ?_
      obtain rfl := Option.some.inj h
      exact ha
  split
  · exact hmost none
  · have hsome : Reads (Cause depth) (fun _ _ => True) cs (some <$> boundOf high) :=
      (reads_boundOf depth hd hi).map fun _ h => h
    exact hsome.bind fun most _ => hmost most

theorem reads_readBraces (cs : List Char) :
    Reads (Cause depth) (fun cs found => ∀ value, found = some value → Rest cs value) cs
      (readBraces cs) := by
  unfold readBraces
  split
  next low rest hlow =>
  have hd : ∀ c ∈ low, Text.isAsciiDigit c = true := by
    rw [show low = (cs.span Text.isAsciiDigit).1 from congrArg Prod.fst hlow.symm]
    exact Text.forall_mem_span
  have hi : low <:+: cs := by
    rw [show low = (cs.span Text.isAsciiDigit).1 from congrArg Prod.fst hlow.symm]
    exact Text.span_infix _ cs
  have hrest : rest <:+ cs := by
    rw [show rest = (cs.span Text.isAsciiDigit).2 from congrArg Prod.snd hlow.symm]
    exact Text.span_suffix _ cs
  split
  next comma more hcomma =>
  have hmore : more <:+ cs := by
    split at hcomma
    · obtain ⟨-, rfl⟩ := Prod.mk.inj hcomma
      exact (List.suffix_cons _ _).trans hrest
    · obtain ⟨-, rfl⟩ := Prod.mk.inj hcomma
      exact hrest
  split
  next high left hhigh =>
  have hall : (∀ c ∈ high, Text.isAsciiDigit c = true) ∧ high <:+: cs ∧ left <:+ cs := by
    split at hhigh
    · rw [show high = (more.span Text.isAsciiDigit).1 from congrArg Prod.fst hhigh.symm,
        show left = (more.span Text.isAsciiDigit).2 from congrArg Prod.snd hhigh.symm]
      exact ⟨Text.forall_mem_span, (Text.span_infix _ more).trans hmore.isInfix,
        (Text.span_suffix _ more).trans hmore⟩
    · obtain ⟨rfl, rfl⟩ := Prod.mk.inj hhigh
      exact ⟨hd, hi, hmore⟩
  obtain ⟨hhd, hhi, hleft⟩ := hall
  split
  · next after =>
    have ha : after <:+ cs := (List.suffix_cons _ after).trans hleft
    split
    · exact .read nofun
    · split
      · exact .failed .malformed
      · dsimp only
        split
        · exact reads_most depth 0 hhd hhi ha
        · exact (reads_boundOf depth hd hi).bind fun least _ => reads_most depth least hhd hhi ha
  · exact .read nofun

theorem reads_repeatLast (items : List Item) (count : Count) (cs : List Char) :
    Reads (Cause depth) Rest cs (repeatLast items count cs) := by
  unfold repeatLast
  split
  · exact .failed .malformed
  · exact .failed .malformed
  · exact .failed .malformed
  · split
    next greed rest hg =>
    have hs : rest <:+ cs := by
      split at hg
      · obtain ⟨-, rfl⟩ := Prod.mk.inj hg
        exact List.suffix_cons '?' _
      · obtain ⟨-, rfl⟩ := Prod.mk.inj hg
        exact List.suffix_cons '+' _
      · obtain ⟨-, rfl⟩ := Prod.mk.inj hg
        exact List.suffix_rfl
    exact .read hs

/-! ### Groups -/

theorem skipLine_suffix (cs : List Char) : skipLine cs <:+ cs := by
  fun_induction skipLine cs with
  | case1 => exact List.suffix_rfl
  | case2 c rest ih => exact ih.trans (List.suffix_append ['\\', c] rest)
  | case3 c rest => exact List.suffix_cons c rest
  | case4 c rest _ _ h =>
    rw [Bool.and_eq_true, List.isEmpty_iff] at h
    rw [h.1]
  | case5 c rest _ _ _ ih => exact ih.trans (List.suffix_cons c rest)

theorem reads_skipComment (cs : List Char) :
    Reads (Cause depth) (fun cs rest => rest <:+ cs) cs (skipComment cs) := by
  fun_induction skipComment cs with
  | case1 => exact .failed .malformed
  | case2 c rest ih =>
    exact ih.mono (lasting_cause depth) (fun _ _ _ hs h => List.IsSuffix.trans h hs)
      (List.suffix_append ['\\', c] rest)
  | case3 c rest => exact .read (List.suffix_cons c rest)
  | case4 c rest _ _ ih =>
    exact ih.mono (lasting_cause depth) (fun _ _ _ hs h => List.IsSuffix.trans h hs)
      (List.suffix_cons c rest)

/-- What is known after a part of a text: a mode of the whole pattern that was not on before is switched on
there. -/
structure Known.Grows (cs : List Char) (before after : Known) : Prop where
  ascii : after.ascii = true → before.ascii = true ∨ Switches 'a' cs
  unicode : after.unicode = true → before.unicode = true ∨ Switches 'u' cs

theorem Known.Grows.refl (cs : List Char) (known : Known) : known.Grows cs known := ⟨.inl, .inl⟩

theorem Known.Grows.mono {cs more : List Char} {before after : Known} (h : before.Grows more after)
    (hs : more <:+: cs) : before.Grows cs after :=
  ⟨fun ha => (h.ascii ha).imp_right (·.mono hs), fun hu => (h.unicode hu).imp_right (·.mono hs)⟩

theorem Known.Grows.trans {cs : List Char} {a b c : Known} (hab : a.Grows cs b) (hbc : b.Grows cs c) :
    a.Grows cs c where
  ascii h := (hbc.ascii h).elim hab.ascii .inr
  unicode h := (hbc.unicode h).elim hab.unicode .inr

/-- The switches of a text take up its beginning. -/
def Switch.Heads (cs : List Char) (found : Switch × List Char) : Prop :=
  Rest cs found ∧ ∀ on, found.1 = .forAll on → on ++ ')' :: found.2 = cs

theorem reads_readSwitch (cs : List Char) : Reads (Cause depth) Switch.Heads cs (readSwitch cs) := by
  unfold readSwitch readModeLetters
  split
  next on rest hon =>
  have hcs : on ++ rest = cs := by
    have happ := Text.span_append_span isModeLetter cs
    rwa [hon] at happ
  split
  · exact .failed .malformed
  split
  · next after =>
    split
    · exact .failed .malformed
    · refine .read ⟨⟨on ++ [')'], by rw [← hcs]; simp⟩, fun on' h => ?_⟩
      obtain rfl := Switch.forAll.inj h
      exact hcs
  · next after =>
    split
    · exact .failed .malformed
    · exact .read ⟨⟨on ++ [':'], by rw [← hcs]; simp⟩, nofun⟩
  · next more =>
    split
    next off rest hoff =>
    split
    · next after =>
      split
      · exact .failed .malformed
      · have hafter := Text.span_suffix isModeLetter more
        rw [hoff] at hafter
        refine .read ⟨?_, nofun⟩
        exact (List.suffix_cons ':' after).trans (hafter.trans ⟨on ++ ['-'], by rw [← hcs]; simp⟩)
    · exact .failed .malformed
  · exact .failed .malformed

theorem reads_conditionGroup (known : Known) (name cs : List Char) :
    Reads (Cause depth) (fun cs found => known.Grows cs found.2) cs (conditionGroup known name) := by
  unfold conditionGroup
  split
  · split
    · exact .read (.refl _ _)
    · exact .failed .malformed
  · split
    · split
      · exact .failed .malformed
      · exact .read ⟨.inl, .inl⟩
    · exact .failed .malformed

/-- What was opened leaves a rest of the text, which starts with the parenthesis. -/
def Opening.Heads (known : Known) (cs : List Char) (opened : Opening × Known × List Char) : Prop :=
  opened.2.2 <:+ cs ∧ known.Grows ('(' :: cs) opened.2.1

/-- The letters after a question mark switch modes, for the whole pattern or for a group. -/
theorem reads_switched (start : Bool) (mode : Mode) (known : Known) (rest : List Char) :
    Reads (Cause depth) (Opening.Heads known) ('?' :: rest)
      (do
        match ← readSwitch rest with
        | (.forAll on, rest) =>
          if !start then throw Fault.malformed
          return (.switched (mode.switch on []),
            { known with
              ascii := known.ascii || on.contains 'a'
              unicode := known.unicode || on.contains 'u'
              template := known.template || on.contains 't' }, rest)
        | (.inside on off, rest) => return (.plain (mode.switch on off), known, rest)) := by
  have hswitch : Reads (Cause depth) (fun _ => Switch.Heads rest) ('?' :: rest) (readSwitch rest) :=
    (reads_readSwitch depth rest).imp (fun _ h => lasting_cause depth (List.suffix_cons '?' rest) h)
      fun _ h => h
  refine hswitch.bind ?_
  rintro ⟨switch, after⟩ ⟨hs, hon⟩
  have hafter : after <:+ '?' :: rest := List.IsSuffix.trans hs (List.suffix_cons '?' rest)
  cases switch with
  | inside on off => exact .read ⟨hafter, .refl _ _⟩
  | forAll on =>
    have hswitches {letter : Char} (hm : on.contains letter = true) :
        Switches letter ('(' :: '?' :: rest) := by
      refine ⟨on, by simpa using hm, List.IsPrefix.isInfix ⟨after, ?_⟩⟩
      rw [← hon on rfl]
      simp
    dsimp only
    split
    · exact .failed .malformed
    · exact .read ⟨hafter, ⟨fun h => (Bool.or_eq_true_iff.mp h).imp_right hswitches,
        fun h => (Bool.or_eq_true_iff.mp h).imp_right hswitches⟩⟩

theorem reads_readOpening (start : Bool) (mode : Mode) (known : Known) (cs : List Char) :
    Reads (Cause depth) (Opening.Heads known) cs (readOpening start mode known cs) := by
  have hname (close : Char) {rest : List Char} (h : rest <:+ cs) :
      Reads (Cause depth) Rest cs (readName close [] rest) :=
    (reads_readName depth close [] rest).later (lasting_cause depth) h
  have hkeep {opening : Opening} {rest : List Char} (h : rest <:+ cs) :
      Opening.Heads known cs (opening, known, rest) := ⟨h, .refl _ _⟩
  unfold readOpening
  split
  · next rest =>
    refine (hname '>' (List.suffix_append ['?', 'P', '<'] rest)).bind ?_
    rintro ⟨name, rest⟩ hr
    dsimp only
    split
    · exact .read (hkeep hr)
    · exact .failed .malformed
  · next rest =>
    refine (hname ')' (List.suffix_append ['?', 'P', '='] rest)).bind ?_
    rintro ⟨name, rest⟩ hr
    dsimp only
    split
    · split
      · exact .read (hkeep hr)
      · exact .failed .malformed
    · exact .failed .malformed
  · next rest => exact .read (hkeep (List.suffix_append ['?', ':'] rest))
  · next rest =>
    have hcomment := (reads_skipComment depth rest).mono (lasting_cause depth)
      (fun _ _ _ hs h => List.IsSuffix.trans h hs) (List.suffix_append ['?', '#'] rest)
    exact hcomment.bind fun after ha => .read (hkeep ha)
  · next rest => exact .read (hkeep (List.suffix_append ['?', '='] rest))
  · next rest => exact .read (hkeep (List.suffix_append ['?', '!'] rest))
  · next rest => exact .read (hkeep (List.suffix_append ['?', '<', '='] rest))
  · next rest => exact .read (hkeep (List.suffix_append ['?', '<', '!'] rest))
  · next rest =>
    refine (hname ')' (List.suffix_append ['?', '('] rest)).bind ?_
    rintro ⟨name, rest⟩ hr
    refine (reads_conditionGroup depth known name _).bind ?_
    rintro ⟨index, asked⟩ hg
    dsimp only
    split
    · exact .read ⟨hr, hg.mono (List.suffix_cons '(' _).isInfix⟩
    · exact .failed .malformed
  · next rest => exact .read (hkeep (List.suffix_append ['?', '>'] rest))
  · exact reads_switched depth start mode known _
  · exact .read (hkeep List.suffix_rfl)

theorem reads_enter (opening : Opening) (mode : Mode) (known : Known) (cs : List Char) :
    Reads (Cause depth) (fun cs entered => known.Grows cs entered.2) cs (opening.enter mode known) := by
  unfold Opening.enter
  split
  · split
    · exact .read ⟨.inl, .inl⟩
    · split
      · exact .failed .malformed
      · exact .read ⟨.inl, .inl⟩
  · exact .read (.refl _ _)
  · exact .read ⟨.inl, .inl⟩
  · exact .read (.refl _ _)

theorem grows_leave (opening : Opening) (before after : Known) (body : Node) (cs : List Char) :
    after.Grows cs (opening.leave before after body).2 := by
  unfold Opening.leave
  split <;> exact ⟨.inl, .inl⟩

end Parts

/-! ### Patterns -/

/-- The items of a pattern leave a rest of the text, and what they add to what is known is in the text. -/
def Heads (known : Known) (cs : List Char) (found : Node × Known × List Char) : Prop :=
  found.2.2 <:+ cs ∧ known.Grows cs found.2.1

section Items

variable [Interpreter] {depth : Nat} {steps : Nat}
  (ih : ∀ depth top mode known items cs,
    Reads (Cause depth) (Heads known) cs (readItems steps depth top mode known items cs))
  (top : Bool) (mode : Mode) {known after : Known} (items : List Item) {cs rest left : List Char}

include ih

/-- Items that are read on from a rest of the text, with what is known there. -/
theorem reads_onward (hk : known.Grows cs after) (hl : left <:+ cs) :
    Reads (Cause depth) (Heads known) cs (readItems steps depth top mode after items left) :=
  (ih depth top mode after items left).imp (fun _ h => lasting_cause depth hl h)
    fun _ h => ⟨h.1.trans hl, hk.trans (h.2.mono hl.isInfix)⟩

/-- Items that are read on from where the last one is repeated. -/
theorem reads_again (count : Count) (hr : rest <:+ cs) :
    Reads (Cause depth) (Heads known) cs (do
      let (items, rest) ← repeatLast items count rest
      readItems steps depth top mode known items rest) := by
  refine ((reads_repeatLast depth items count rest).later (lasting_cause depth) hr).bind ?_
  rintro ⟨items, rest⟩ hr
  exact reads_onward ih top mode items (.refl _ _) hr

/-- The body of a group that was opened, and the items after the group. -/
theorem reads_body (opening : Opening) (hs : left <:+ rest) (hg : known.Grows ('(' :: rest) after) :
    Reads (Cause depth) (Heads known) ('(' :: rest)
      (match depth, opening.enter mode after with
      | _, .error fault => .error fault
      | 0, _ => .error .nestedTooDeep
      | depth' + 1, .ok (inner, inside) =>
        match readItems steps depth' false inner inside [] left with
        | .error fault => .error fault
        | .ok (body, closed, ')' :: rest) =>
          let (node, known) := opening.leave after closed body
          readItems steps depth top mode known (⟨.other, node⟩ :: items) rest
        | .ok _ => .error .malformed) := by
  have hleft : left <:+ '(' :: rest := hs.trans (List.suffix_cons '(' rest)
  have henter := reads_enter depth opening mode after ('(' :: rest)
  generalize opening.enter mode after = entered at henter ⊢
  cases henter with
  | failed h => cases depth <;> exact .failed h
  | @read entered henter =>
    obtain ⟨inner, inside⟩ := entered
    cases depth with
    | zero => exact .failed (.nestedTooDeep (by rw [List.count_cons_self]; omega))
    | succ depth =>
      have hbody := ih depth false inner inside [] left
      dsimp only
      generalize readItems steps depth false inner inside [] left = body at hbody ⊢
      cases hbody with
      | failed h => exact .failed (h.deeper hs)
      | @read body h =>
        obtain ⟨body, closed, outside⟩ := body
        obtain ⟨hl, ha⟩ := h
        have hknown : known.Grows ('(' :: rest) (opening.leave after closed body).2 :=
          ((hg.trans henter).trans (ha.mono hleft.isInfix)).trans (grows_leave _ _ _ _ _)
        split
        · contradiction
        · next heq =>
          obtain ⟨rfl, rfl, rfl⟩ : body = _ ∧ closed = _ ∧ outside = _ := by simpa using heq
          exact reads_onward ih top mode _ hknown
            ((List.suffix_cons ')' _).trans (List.IsSuffix.trans hl hleft))
        · exact .failed .malformed

end Items

theorem reads_readItems [Interpreter] (steps depth : Nat) (top : Bool) (mode : Mode) (known : Known)
    (items : List Item) (cs : List Char) :
    Reads (Cause depth) (Heads known) cs (readItems steps depth top mode known items cs) := by
  induction steps generalizing depth top mode known items cs with
  | zero =>
    unfold readItems
    exact .failed .malformed
  | succ steps ih =>
    have hmore (items : List Item) {rest : List Char} (h : rest <:+ cs) :
        Reads (Cause depth) (Heads known) cs (readItems steps depth top mode known items rest) :=
      reads_onward ih top mode items (.refl _ _) h
    unfold readItems
    dsimp only
    split
    · exact .read ⟨List.suffix_rfl, .refl _ _⟩
    next c rest =>
    have hr : rest <:+ c :: rest := List.suffix_cons c rest
    split
    · exact .read ⟨List.suffix_rfl, .refl _ _⟩
    split
    · exact hmore items hr
    split
    · exact hmore items ((skipLine_suffix rest).trans hr)
    split
    · have hescape := (reads_readEscape depth mode known rest).later (lasting_cause depth) hr
      generalize readEscape mode known rest = escape at hescape ⊢
      cases hescape with
      | failed h => exact .failed h
      | @read escape h =>
        obtain ⟨escape, after⟩ := escape
        cases escape <;> exact hmore _ h
    · have hset := (reads_readSet depth mode rest).later (lasting_cause depth) hr
      generalize readSet mode rest = set at hset ⊢
      cases hset with
      | failed h => exact .failed h
      | read h => exact hmore _ h
    · exact hmore _ hr
    · exact hmore _ hr
    · exact hmore _ hr
    · exact reads_again ih top mode items _ hr
    · exact reads_again ih top mode items _ hr
    · exact reads_again ih top mode items _ hr
    · have hbraces := reads_readBraces depth rest
      generalize readBraces rest = braces at hbraces ⊢
      cases hbraces with
      | failed h => exact .failed (lasting_cause depth hr h)
      | @read braces h =>
        cases braces with
        | none => exact hmore _ hr
        | some found => exact reads_again ih top mode items found.1 (List.IsSuffix.trans (h found rfl) hr)
    · have hopening := reads_readOpening depth (top && items.isEmpty) mode known rest
      generalize readOpening (top && items.isEmpty) mode known rest = opened at hopening ⊢
      cases hopening with
      | failed h => exact .failed (lasting_cause depth hr h)
      | @read opened h =>
        obtain ⟨opening, after, left⟩ := opened
        obtain ⟨hs, hg⟩ := h
        -- three openings are complete with their parenthesis, and the others have a body
        split
        · contradiction
        · next heq =>
          obtain ⟨-, rfl, rfl⟩ : _ ∧ after = _ ∧ left = _ := by simpa using heq
          exact reads_onward ih top mode items hg (hs.trans hr)
        · next heq =>
          obtain ⟨-, rfl, rfl⟩ : _ ∧ after = _ ∧ left = _ := by simpa using heq
          exact reads_onward ih top _ items hg (hs.trans hr)
        · next heq =>
          obtain ⟨-, rfl, rfl⟩ : _ ∧ after = _ ∧ left = _ := by simpa using heq
          exact reads_onward ih top mode _ hg (hs.trans hr)
        · next heq =>
          obtain ⟨rfl, rfl, rfl⟩ : opening = _ ∧ after = _ ∧ left = _ := by simpa using heq
          exact reads_body ih top mode items opening hs hg
    · exact hmore _ hr

/-- A text that is not read as a pattern has the cause in it. -/
theorem cause_of_read [Interpreter] {text : String} {fault : Fault} (h : read text = .error fault) :
    Cause Interpreter.patternDepth text.toList fault := by
  have hitems :=
    reads_readItems (text.toList.length + 1) Interpreter.patternDepth true .start .start [] text.toList
  unfold read at h
  dsimp only at h
  generalize readItems (text.toList.length + 1) Interpreter.patternDepth true .start .start []
    text.toList = found at hitems h
  cases hitems with
  | failed hc =>
    obtain rfl := Except.error.inj h
    exact hc
  | @read found hf =>
    obtain ⟨node, known, rest⟩ := found
    have hgrows : Known.start.Grows text.toList known := hf.2
    dsimp only [bind, Except.bind] at h
    split at h
    · next hmodes =>
      obtain ⟨ha, hu⟩ := Bool.and_eq_true_iff.mp hmodes
      obtain rfl := Except.error.inj h
      exact .modeConflict ((hgrows.ascii ha).resolve_left nofun) ((hgrows.unicode hu).resolve_left nofun)
    split at h
    · obtain rfl := Except.error.inj h
      exact .malformed
    split at h
    · obtain rfl := Except.error.inj h
      exact .malformed
    split at h
    · obtain rfl := Except.error.inj h
      exact .malformed
    · exact nomatch h

/-- A named character is read like any other, and it is the count that breaks the reading off. -/
example : read "\\N\x7bDIGIT ONE\x7da\x7b9999999999\x7d" = .error .countTooLarge := by rfl

end PlanAssistant.Pattern
