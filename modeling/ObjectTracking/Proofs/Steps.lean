/-!
# Steps one after the other

Several parties act in an order that nobody decides. What each of them can do next is a relation
between two states and an event, and a run is any number of such steps. Whoever looks at a run picks
some of its events.
-/

namespace ObjectTracking

section
variable {β γ : Type} (f : β → Option γ)

theorem filterMap_cons_toList (b : β) (rest : List β) :
    (b :: rest).filterMap f = (f b).toList ++ rest.filterMap f := by
  rw [List.filterMap_cons]
  cases f b <;> rfl

theorem filterMap_concat_toList (first : List β) (b : β) :
    (first ++ [b]).filterMap f = first.filterMap f ++ (f b).toList := by
  rw [List.filterMap_append, filterMap_cons_toList]
  exact congrArg _ (List.append_nil _)

end

/-- One step after the other, with what happens on the way. -/
inductive Steps {State Event : Type} (Step : State → Event → State → Prop) :
    State → List Event → State → Prop where
  | refl (s : State) : Steps Step s [] s
  | step {s s' s'' : State} {event : Event} {events : List Event} :
      Step s event s' → Steps Step s' events s'' → Steps Step s (event :: events) s''

namespace Steps
variable {State Event : Type} {Step : State → Event → State → Prop} {s s' s'' : State}
  {first rest events : List Event}

theorem append (h : Steps Step s first s') (h' : Steps Step s' rest s'') :
    Steps Step s (first ++ rest) s'' := by
  induction h with
  | refl => exact h'
  | step step _ ih => exact .step step (ih h')

theorem of_append (h : Steps Step s (first ++ rest) s'') :
    ∃ s', Steps Step s first s' ∧ Steps Step s' rest s'' := by
  induction first generalizing s with
  | nil => exact ⟨s, .refl s, h⟩
  | cons event first ih =>
    cases h with
    | step step later =>
      obtain ⟨s', begun, ended⟩ := ih later
      exact ⟨s', .step step begun, ended⟩

theorem forall_mem {possible : Event → Prop}
    (steps : ∀ s event s', Step s event s' → possible event) (run : Steps Step s events s') :
    ∀ event ∈ events, possible event := by
  induction run with
  | refl => exact List.forall_mem_nil _
  | step step _ ih => exact List.forall_mem_cons.2 ⟨steps _ _ _ step, ih⟩

/-- Seen from one side, each step may be a step there or none at all. -/
theorem project {State' Event' : Type} {Step' : State' → Event' → State' → Prop}
    (view : State → State') (seen : Event → Option Event')
    (steps : ∀ event ∈ events, ∀ s s', Step s event s' →
      Steps Step' (view s) (seen event).toList (view s'))
    (run : Steps Step s events s') : Steps Step' (view s) (events.filterMap seen) (view s') := by
  induction run with
  | refl => exact .refl _
  | @step s s₁ s' event events step _ ih =>
    have first := steps event (List.mem_cons_self ..) s s₁ step
    have rest := ih fun event h => steps event (List.mem_cons_of_mem _ h)
    rw [filterMap_cons_toList]
    exact first.append rest

/-- What holds at the start, and is kept by every step together with what has happened before it,
holds after a run. -/
theorem invariant (Holds : List Event → State → Prop)
    (keeps : ∀ events s event s', Holds events s → Step s event s' → Holds (events ++ [event]) s')
    (start : Holds first s) (run : Steps Step s events s') : Holds (first ++ events) s' := by
  induction run generalizing first with
  | refl =>
    rw [List.append_nil]
    exact start
  | step step _ ih =>
    rw [List.append_cons]
    exact ih (keeps _ _ _ _ start step)

end Steps

end ObjectTracking
