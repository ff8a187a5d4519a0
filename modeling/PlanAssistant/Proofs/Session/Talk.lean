import PlanAssistant.Proofs.Session.Changes

/-!
The talk of a session: remarks of the user, questions, and answers to them.  `Talk` grows a transcript
by one message at a time, together with the books that are kept of it: the task inputs, the answered
questions and the question that is pending.  `Session.Accounted` says what the books have to do with
the transcript, and follows from any way a talk can have gone.
-/
namespace PlanAssistant

/-- The contents of all messages of one role. -/
def Role.said (role : Role) (transcript : List Message) : List String :=
  (transcript.filter (·.role = role)).map (·.content)

@[simp] theorem Role.said_nil (role : Role) : role.said [] = [] := rfl

@[simp] theorem Role.said_append (role : Role) (earlier later : List Message) :
    role.said (earlier ++ later) = role.said earlier ++ role.said later := by simp [said]

@[simp] theorem Role.said_singleton (role : Role) (message : Message) :
    role.said [message] = if message.role = role then [message.content] else [] := by
  by_cases h : message.role = role <;> simp [said, h]

/-- What the user says without being asked: everything that does not come right after a message of the
assistant; `previous` wrote the message before. -/
def remarks (previous : Option Role) : List Message → List String
  | [] => []
  | message :: later =>
    (if message.role = .user ∧ previous ≠ some .assistant then [message.content] else []) ++
      remarks (some message.role) later

/-- Who wrote the last message, if it was not `previous`. -/
def lastRole (previous : Option Role) (transcript : List Message) : Option Role :=
  (transcript.getLast?.map (·.role)).or previous

theorem remarks_concat (previous : Option Role) (transcript : List Message) (message : Message) :
    remarks previous (transcript ++ [message]) = remarks previous transcript ++
      if message.role = .user ∧ lastRole previous transcript ≠ some .assistant then [message.content]
      else [] := by
  induction transcript generalizing previous with
  | nil => exact List.append_nil _
  | cons first transcript ih =>
    have hl : lastRole previous (first :: transcript) = lastRole (some first.role) transcript := by
      cases h : transcript.getLast? <;> simp [lastRole, List.getLast?_cons, h]
    rw [List.cons_append, remarks, remarks, ih, hl, List.append_assoc]

/-! ### Books -/

/-- How a talk can go, with the books that are kept of it. -/
inductive Talk : List Message → List String → List Clarification → Option String → Prop
  | silent : Talk [] [] [] none
  | remarked {transcript : List Message} {tasks : List String} {answered : List Clarification}
      (text : String) (talk : Talk transcript tasks answered none) :
    Talk (transcript ++ [⟨.user, text⟩]) (tasks ++ [text]) answered none
  | asked {transcript : List Message} {tasks : List String} {answered : List Clarification}
      (question : String) (talk : Talk transcript tasks answered none) :
    Talk (transcript ++ [⟨.assistant, question⟩]) tasks answered (some question)
  | answered {transcript : List Message} {tasks : List String} {answered : List Clarification}
      {question : String} (text : String) (talk : Talk transcript tasks answered (some question)) :
    Talk (transcript ++ [⟨.user, text⟩]) tasks (answered ++ [⟨question, text⟩]) none

namespace Talk

variable {transcript : List Message} {tasks : List String} {answered : List Clarification}
  {pending : Option String}

/-- The question is pending exactly while the assistant has the last word. -/
theorem lastRole_eq (talk : Talk transcript tasks answered pending) :
    lastRole none transcript = some .assistant ↔ pending.isSome = true := by
  cases talk <;> simp [lastRole]

theorem role_ne_system (talk : Talk transcript tasks answered pending) :
    ∀ message ∈ transcript, message.role ≠ .system := by
  induction talk with
  | silent => simp
  | remarked | asked | answered => simpa [or_imp, forall_and]

theorem questions_eq (talk : Talk transcript tasks answered pending) :
    Role.assistant.said transcript = answered.map (·.question) ++ pending.toList := by
  induction talk with
  | silent => rfl
  | remarked | asked | answered => simp_all

theorem remarks_eq (talk : Talk transcript tasks answered pending) :
    remarks none transcript = tasks := by
  induction talk with
  | silent => rfl
  | remarked text talk ih =>
    have hl : lastRole none _ ≠ some .assistant := fun h => by simpa using talk.lastRole_eq.mp h
    simp [remarks_concat, ih, hl]
  | asked question talk ih => simp [remarks_concat, ih]
  | answered text talk ih => simp [remarks_concat, ih, talk.lastRole_eq.mpr rfl]

/-- Every input is filed once: as a task input or as an answer. -/
theorem inputs_perm (talk : Talk transcript tasks answered pending) :
    (Role.user.said transcript).Perm (tasks ++ answered.map (·.answer)) := by
  induction talk with
  | silent => exact .refl _
  | @remarked _ tasks answered text _ ih =>
    have hmid : (tasks ++ answered.map (·.answer) ++ [text]).Perm
        (tasks ++ [text] ++ answered.map (·.answer)) := by
      rw [List.append_assoc, List.append_assoc]
      exact List.perm_append_comm.append_left tasks
    simpa using (ih.append_right [text]).trans hmid
  | asked question _ ih => simpa using ih
  | answered text _ ih => simpa using ih.append_right [text]

/-- A message among those of a transcript with one more: the last one, or one of those before. -/
theorem split_concat {before later : List Message} {message last : Message}
    (h : transcript ++ [last] = before ++ message :: later) :
    (later = [] ∧ message = last ∧ before = transcript) ∨
      ∃ between, later = between ++ [last] ∧ transcript = before ++ message :: between := by
  rcases later.eq_nil_or_concat with rfl | ⟨between, end_, rfl⟩
  · obtain ⟨ht, hl⟩ := List.append_inj' h rfl
    exact .inl ⟨rfl, (List.singleton_inj.mp hl).symm, ht.symm⟩
  · have hs : transcript ++ [last] = (before ++ message :: between) ++ [end_] := by simpa using h
    obtain ⟨ht, hl⟩ := List.append_inj' hs rfl
    exact .inr ⟨between, by rw [List.singleton_inj.mp hl, List.concat_eq_append], ht⟩

/-- A question that is not pending is not the last message. -/
theorem after_question_ne_nil (talk : Talk transcript tasks answered none)
    {before later : List Message} {question : String}
    (h : transcript = before ++ ⟨.assistant, question⟩ :: later) : later ≠ [] := by
  rintro rfl
  simpa using talk.lastRole_eq.mp (by simp [lastRole, h])

/-- What comes right after a question is its answer, and after the pending one comes nothing. -/
theorem head?_after_question (talk : Talk transcript tasks answered pending) {before later : List Message}
    {question : String} (h : transcript = before ++ ⟨.assistant, question⟩ :: later) :
    later.head? =
      (answered[(Role.assistant.said before).length]?).map fun c => ⟨.user, c.answer⟩ := by
  induction talk generalizing later with
  | silent => simp at h
  | @remarked transcript tasks answered text talk ih =>
    rcases split_concat h with ⟨-, hm, -⟩ | ⟨between, rfl, hb⟩
    · simp at hm
    · obtain ⟨next, between, rfl⟩ := List.exists_cons_of_ne_nil (talk.after_question_ne_nil hb)
      exact (ih hb : (next :: between).head? = _)
  | @asked transcript tasks answered pending talk ih =>
    rcases split_concat h with ⟨rfl, -, rfl⟩ | ⟨between, rfl, hb⟩
    · simp [talk.questions_eq]
    · obtain ⟨next, between, rfl⟩ := List.exists_cons_of_ne_nil (talk.after_question_ne_nil hb)
      exact (ih hb : (next :: between).head? = _)
  | @answered transcript tasks answered pending text talk ih =>
    rcases split_concat h with ⟨-, hm, -⟩ | ⟨between, rfl, hb⟩
    · simp at hm
    · have hq := talk.questions_eq
      cases between with
      | nil =>
        -- the question that was pending: as many were answered as were put before it
        have hn : (Role.assistant.said before).length = answered.length := by
          have hl := congrArg List.length hq
          simp [hb] at hl
          exact hl
        simp [hn]
      | cons next between =>
        have hi := ih hb
        rw [List.head?_cons] at hi
        obtain ⟨c, hc, -⟩ := Option.map_eq_some_iff.mp hi.symm
        rw [List.cons_append, List.head?_cons, hi, List.getElem?_append_left]
        exact (List.getElem?_eq_some_iff.mp hc).1

end Talk

/-! ### Sessions -/

namespace Session

/-- What the user said in a session. -/
def inputs (s : Session) : List String := Role.user.said s.transcript

/-- The books of a session agree with its transcript. -/
structure Accounted (s : Session) : Prop where
  task : s.taskHistory.head? = some s.task
  /-- The assistant says nothing but questions, and every question is answered but a pending one. -/
  questions : Role.assistant.said s.transcript = s.clarifications.map (·.question) ++ s.pending.toList
  /-- Right after the question with a number comes the answer with this number. -/
  answers : ∀ before question later, s.transcript = before ++ ⟨.assistant, question⟩ :: later →
    later.head? =
      (s.clarifications[(Role.assistant.said before).length]?).map fun c => ⟨.user, c.answer⟩
  remarks : remarks none s.transcript = s.taskHistory
  /-- Every input is filed once, as a task input or as an answer. -/
  filed : s.inputs.Perm (s.taskHistory ++ s.clarifications.map (·.answer))
  roles : ∀ message ∈ s.transcript, message.role ≠ .system

/-- The books of a session were kept of its talk from the first input on. -/
structure Talks (s : Session) : Prop where
  talk : Talk s.transcript s.taskHistory s.clarifications s.pending
  task : s.taskHistory.head? = some s.task

theorem Talks.accounted {s : Session} (h : s.Talks) : s.Accounted where
  task := h.task
  questions := h.talk.questions_eq
  answers := fun _ _ _ => h.talk.head?_after_question
  remarks := h.talk.remarks_eq
  filed := h.talk.inputs_perm
  roles := h.talk.role_ne_system

theorem talks_start (id : String) (createdAt : Instant) (text : String) :
    ((start id createdAt text).hear text).Talks := ⟨.remarked text .silent, rfl⟩

theorem inputs_start (id : String) (createdAt : Instant) (text : String) :
    ((start id createdAt text).hear text).inputs = [text] := rfl

theorem talks_paused {s : Session} (h : s.Talks) (hp : s.pending = none) (question : String) :
    (s.paused question).Talks := ⟨.asked question (hp ▸ h.talk), h.task⟩

theorem inputs_paused (question : String) (s : Session) : (s.paused question).inputs = s.inputs := by
  simp [inputs, paused]

theorem talks_taken {s : Session} (h : s.Talks) (text : String) : (s.taken text).Talks := by
  have ht := h.talk
  cases hp : s.pending with
  | none =>
    rw [hp] at ht
    rw [taken_of_none hp]
    refine ⟨?_, ?_⟩
    · simpa [hear, hp] using ht.remarked text
    · simp [hear, List.head?_append, h.task]
  | some question =>
    rw [hp] at ht
    rw [taken_of_some hp]
    exact ⟨ht.answered text, h.task⟩

theorem inputs_taken (text : String) (s : Session) : (s.taken text).inputs = s.inputs ++ [text] := by
  cases hp : s.pending with
  | none => simp [taken_of_none hp, inputs, hear]
  | some question => simp [taken_of_some hp, inputs, hear]

end Session
end PlanAssistant
