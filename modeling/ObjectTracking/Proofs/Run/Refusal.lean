import ObjectTracking.Proofs.Run.Transition

/-!
# Refused frames leave no trace

A frame is refused exactly if it has no size or comes from another camera (`refused_iff`). On both
ways out the pipeline that is left is the one there was, and nothing has been handed on
(`eq_of_process_error`), so a run can be told without its refused frames (`history_without_refused`).
-/

namespace ObjectTracking

/-- The action is a frame that a pipeline of this camera refuses. -/
def Action.isRefused (camera : Camera) : Action → Bool
  | .frame f => !decide (f.Fits camera)
  | _ => false

/-- The answer to a frame that was refused. -/
def Answer.isRefusal {α : Type} : Answer α → Bool
  | processed _ (.error _) => true
  | _ => false

theorem Frame.not_fits_iff {frame : Frame} {camera : Camera} :
    ¬ frame.Fits camera ↔
      frame.image.width = 0 ∨ frame.image.height = 0 ∨ frame.camera ≠ camera := by
  constructor
  · intro unfit
    by_contra usable
    obtain ⟨width_ne, height_ne, camera_eq⟩ := by simpa only [not_or, not_not] using usable
    exact unfit ⟨Nat.pos_of_ne_zero width_ne, Nat.pos_of_ne_zero height_ne, camera_eq⟩
  · rintro (width_eq | height_eq | other) fits
    · exact Nat.ne_of_gt fits.width_pos width_eq
    · exact Nat.ne_of_gt fits.height_pos height_eq
    · exact other fits.camera_eq

namespace Pipeline
variable {α : Type} [Scalar α] {p : Pipeline α}

/-- Where a run is after each of its actions, and what was answered. -/
def history (p : Pipeline α) : List Action → List (Pipeline α × Answer α)
  | [] => []
  | a :: rest => p.step a :: (p.step a).1.history rest

theorem refused_iff {frame : Frame} :
    (∃ fault, (p.process frame).2.2 = .error fault) ↔ ¬ frame.Fits p.camera := by
  constructor
  · rintro ⟨fault, hfault⟩ fits
    rw [process_of_fits fits] at hfault
    cases hfault
  · intro unfit
    obtain ⟨fault, hfault⟩ := process_of_not_fits (α := α) unfit
    exact ⟨fault, congrArg (·.2.2) (hfault p rfl)⟩

/-- Whoever is told of a fault finds the pipeline as it was, and nothing was handed on. -/
theorem eq_of_process_error {p' : Pipeline α} {frame : Frame} {items : List (Item α)} {fault : Fault}
    (h : p.process frame = (p', items, .error fault)) : p' = p ∧ items = [] := by
  have unfit : ¬ frame.Fits p.camera := refused_iff.1 ⟨fault, congrArg (·.2.2) h⟩
  obtain ⟨fault', hfault⟩ := process_of_not_fits (α := α) unfit
  cases h.symm.trans (hfault p rfl)
  exact ⟨rfl, rfl⟩

/-- Refusals answer refused frames, and nothing else. -/
theorem isRefusal_step (p : Pipeline α) (a : Action) :
    (p.step a).2.isRefusal = a.isRefused p.camera := by
  cases a with
  | add settings classify =>
    obtain h | ⟨fault, h⟩ := p.step_add settings classify <;> rw [h] <;> rfl
  | update name update =>
    obtain ⟨result, h⟩ := p.exists_step_update name update
    rw [h]
    rfl
  | frame frame =>
    by_cases fits : frame.Fits p.camera
    · rw [step_of_fits fits, Action.isRefused, decide_eq_true fits]
      rfl
    · obtain ⟨fault, h⟩ := step_of_not_fits fits
      rw [h, Action.isRefused, decide_eq_false fits]
      rfl

theorem step_of_isRefused {a : Action} (h : a.isRefused p.camera = true) :
    (p.step a).1 = p ∧ (p.step a).2.items = [] := by
  cases a with
  | frame frame =>
    obtain ⟨fault, h⟩ := step_of_not_fits (p := p) (by simpa [Action.isRefused] using h)
    rw [h]
    exact ⟨rfl, rfl⟩
  | _ => cases h

theorem history_filter_refused (p : Pipeline α) (actions : List Action) :
    p.history (actions.filter (!·.isRefused p.camera)) =
      (p.history actions).filter (!·.2.isRefusal) := by
  induction actions generalizing p with
  | nil => rfl
  | cons a rest ih =>
    have told := p.isRefusal_step a
    by_cases refused : a.isRefused p.camera = true
    · rw [List.filter_cons_of_neg (by simp [refused]), history,
        List.filter_cons_of_neg (by simp [told, refused]), (step_of_isRefused refused).1, ih]
    · rw [List.filter_cons_of_pos (by simp [refused]), history, history,
        List.filter_cons_of_pos (by simp [told, refused]), ← ih, (p.fixed_step a).1]

theorem run_filter_refused (p : Pipeline α) (actions : List Action) :
    let kept := actions.filter (!·.isRefused p.camera)
    (p.run kept).1 = (p.run actions).1 ∧
      (p.run kept).2.flatMap Answer.items = (p.run actions).2.flatMap Answer.items := by
  induction actions generalizing p with
  | nil => exact ⟨rfl, rfl⟩
  | cons a rest ih =>
    intro kept
    obtain ⟨state, items⟩ := ih (p.step a).1
    rw [(p.fixed_step a).1] at state items
    by_cases refused : a.isRefused p.camera = true
    · obtain ⟨same, nothing⟩ := step_of_isRefused refused
      rw [same] at state items
      rw [show kept = _ from List.filter_cons_of_neg (by simp [refused]), run_cons, same,
        List.flatMap_cons, nothing, List.nil_append]
      exact ⟨state, items⟩
    · rw [show kept = _ from List.filter_cons_of_pos (by simp [refused]), run_cons, run_cons,
        List.flatMap_cons, List.flatMap_cons, items]
      exact ⟨state, rfl⟩

/-- A frame is refused exactly if it has no size or comes from another camera. Then the pipeline that
is left, with its context and its classes, is the one there was, and nothing was handed on. So a run
without its refused frames goes through the same states with the same answers, and hands on the same
items. -/
theorem history_without_refused (p : Pipeline α) :
    (∀ frame, (∃ fault, (p.process frame).2.2 = .error fault) ↔
      frame.image.width = 0 ∨ frame.image.height = 0 ∨ frame.camera ≠ p.camera) ∧
    (∀ frame p' items fault, p.process frame = (p', items, .error fault) →
      p' = p ∧ items = []) ∧
    ∀ actions, let kept := actions.filter (!·.isRefused p.camera)
      p.history kept = (p.history actions).filter (!·.2.isRefusal) ∧
        (p.run kept).1 = (p.run actions).1 ∧
        (p.run kept).2.flatMap Answer.items = (p.run actions).2.flatMap Answer.items := by
  refine ⟨fun frame => ?_, fun frame p' items fault h => ?_, fun actions => ⟨?_, ?_⟩⟩
  · rw [refused_iff, Frame.not_fits_iff]
  · exact eq_of_process_error h
  · exact p.history_filter_refused actions
  · exact p.run_filter_refused actions

end Pipeline

end ObjectTracking
