import Mathlib.Data.List.Basic
import ObjectTracking.Proofs.Worker.Sequential
import ObjectTracking.Worker.Dispatcher

/-!
# Workers side by side

Any number of callers hand commands to the workers while these go on with their work
(`Dispatcher.Step`). A run of all of them is a run of each worker on the events of its own camera
(`Dispatcher.Run.worker?`). Whoever hands in an update has been given a ticket for it, so a ticket
that is given next is on no command yet (`Dispatcher.Run.tickets`).
-/

namespace ObjectTracking

def Command.ticket? : Command → Option Nat
  | update ticket _ _ => some ticket
  | frame _ => none

namespace Worker

/-- The command that somebody comes with, to stand in line or to be accepted. -/
def Event.handedIn? {α : Type} : Event α → Option Command
  | waits command | accepted command => some command
  | _ => none

variable {α : Type} [Scalar α] {w w' : Worker α}

theorem Step.camera {event : Event α} (step : w.Step event w') :
    w'.pipeline.camera = w.pipeline.camera := by
  cases step with
  | finish busy =>
    rw [finish_eq busy, perform_eq]
    exact (w.pipeline.fixed_step _).1
  | _ => rfl

theorem Run.camera {events : List (Event α)} (run : w.Run events w') :
    w'.pipeline.camera = w.pipeline.camera := by
  induction run with
  | refl => rfl
  | step step _ ih => exact ih.trans step.camera

end Worker

namespace Dispatcher
variable {α : Type}

/-! ### Workers by camera -/

section
variable {d : Dispatcher α} {camera : Camera} {w : Worker α}

theorem find_of_some (h : d.worker? camera = some w) : d.find camera = .ok w := by
  rw [find, h]

theorem find_of_none (h : d.worker? camera = none) : d.find camera = .error (.noWorker camera) := by
  rw [find, h]

theorem worker?_of_find (h : d.find camera = .ok w) : d.worker? camera = some w := by
  unfold find at h
  split at h
  next found => rwa [Except.ok.inj h] at found
  next => cases h

theorem camera_of_worker? (h : d.worker? camera = some w) : cameraOf w = camera := by
  simpa using List.find?_some h

theorem worker?_eq_none_iff : d.worker? camera = none ↔ camera ∉ d.cameras := by
  simp [worker?, cameras, List.find?_eq_none]

theorem cameraOf_put (w v : Worker α) :
    cameraOf (if cameraOf v = cameraOf w then w else v) = cameraOf v := by
  split
  next h => exact h.symm
  next => rfl

theorem cameras_put (d : Dispatcher α) (w : Worker α) : (d.put w).cameras = d.cameras := by
  rw [cameras, put, List.map_map]
  exact List.map_congr_left fun v _ => cameraOf_put w v

theorem worker?_put (d : Dispatcher α) (w : Worker α) (camera : Camera) :
    (d.put w).worker? camera =
      (d.worker? camera).map fun v => if cameraOf v = cameraOf w then w else v := by
  rw [worker?, put, List.find?_map]
  simp only [Function.comp_def, cameraOf_put]
  rfl

/-- If no two workers have the same camera, each is found by its own. -/
theorem worker?_of_mem (distinct : d.cameras.Nodup) (hw : w ∈ d.workers) :
    d.worker? (cameraOf w) = some w := by
  obtain ⟨before, after, split⟩ := List.append_of_mem hw
  rw [cameras, split, List.map_append, List.map_cons] at distinct
  have others : ∀ v ∈ before, cameraOf v ≠ cameraOf w := by
    intro v hv same
    exact (List.nodup_append.1 distinct).2.2 _ (List.mem_map_of_mem hv) _ (by simp) same
  rw [worker?, split, List.find?_append, List.find?_eq_none.2 (by simpa using others), Option.none_or,
    List.find?_cons_of_pos (by simp)]

end

theorem spawn_before (places : Nat) (pipelines : List (Pipeline α)) (before : List (Worker α))
    (distinct : (pipelines.map (·.camera)).Nodup)
    (new : ∀ p ∈ pipelines, ∀ w ∈ before, cameraOf w ≠ p.camera) :
    spawn places pipelines before =
      .ok ⟨before.reverse ++ pipelines.map fun p => .start p places, 0⟩ := by
  induction pipelines generalizing before with
  | nil =>
    rw [List.map_nil, List.append_nil]
    rfl
  | cons p rest ih =>
    obtain ⟨others, distinct⟩ := List.nodup_cons.1 distinct
    have absent : ¬ (before.any fun w => cameraOf w = p.camera) = true := by
      simpa using new p (by simp)
    rw [spawn, if_neg absent, ih _ distinct ?new, List.reverse_cons, List.append_assoc]
    · rfl
    case new =>
      intro q hq w hw
      rcases List.mem_cons.1 hw with rfl | hw
      · exact fun same => others (List.mem_map.2 ⟨q, hq, same.symm⟩)
      · exact new q (by simp [hq]) w hw

/-- A worker for each pipeline, none of which has done anything yet. -/
def fresh (places : Nat) (pipelines : List (Pipeline α)) : Dispatcher α :=
  ⟨pipelines.map fun p => .start p places, 0⟩

section
variable {places : Nat} {pipelines : List (Pipeline α)}

/-- Workers can be started for pipelines of different cameras. -/
theorem spawn_eq (distinct : (pipelines.map (·.camera)).Nodup) :
    spawn places pipelines [] = .ok (fresh places pipelines) :=
  spawn_before places pipelines [] distinct (by simp)

theorem cameras_fresh : (fresh places pipelines).cameras = pipelines.map (·.camera) :=
  List.map_map ..

theorem worker?_fresh (distinct : (pipelines.map (·.camera)).Nodup) {p : Pipeline α}
    (hp : p ∈ pipelines) :
    (fresh places pipelines).worker? p.camera = some (.start p places) := by
  have hw : Worker.start p places ∈ (fresh places pipelines).workers := List.mem_map_of_mem hp
  exact worker?_of_mem (by rwa [cameras_fresh]) hw

end

variable [Scalar α] {d d' : Dispatcher α} {camera : Camera}

/-! ### Calls and work in any order -/

inductive Event (α : Type) where
  /-- Something happens at the worker of a camera. -/
  | own (camera : Camera) (event : Worker.Event α)
  /-- A caller is given the ticket by which it knows the reply to its update. -/
  | ticket
  /-- A call is refused. -/
  | refused (fault : Fault)

def Event.at? (camera : Camera) : Event α → Option (Worker.Event α)
  | own c event => if c = camera then some event else none
  | _ => none

/-- What happened at the worker of one camera. -/
def eventsAt (camera : Camera) (events : List (Event α)) : List (Worker.Event α) :=
  events.filterMap (Event.at? camera)

/-- The ticket of an update that is handed in was given before. -/
def Knows (d : Dispatcher α) (event : Worker.Event α) : Prop :=
  ∀ command ∈ event.handedIn?, ∀ ticket ∈ command.ticket?, ticket < d.nextTicket

instance (d : Dispatcher α) (event : Worker.Event α) : Decidable (d.Knows event) :=
  inferInstanceAs
    (Decidable (∀ command ∈ event.handedIn?, ∀ ticket ∈ command.ticket?, ticket < d.nextTicket))

inductive Step (d : Dispatcher α) : Event α → Dispatcher α → Prop where
  | own {camera : Camera} {w w' : Worker α} {event : Worker.Event α}
      (found : d.find camera = .ok w) (step : w.Step event w') (known : d.Knows event) :
      d.Step (.own camera event) (d.put w')
  | ticket : d.Step .ticket { d with nextTicket := d.nextTicket + 1 }
  | refuse {camera : Camera} {fault : Fault} (missing : d.find camera = .error fault) :
      d.Step (.refused fault) d

abbrev Run : Dispatcher α → List (Event α) → Dispatcher α → Prop := Steps Step

theorem Step.cameras_eq {event : Event α} (step : d.Step event d') : d'.cameras = d.cameras := by
  cases step with
  | own => exact cameras_put d _
  | ticket => rfl
  | refuse _ => rfl

theorem Run.cameras_eq {events : List (Event α)} (run : d.Run events d') :
    d'.cameras = d.cameras := by
  induction run with
  | refl => rfl
  | step step _ ih => exact ih.trans step.cameras_eq

/-- A step of the workers is one of a single worker, or none. -/
theorem Step.worker? {event : Event α} (step : d.Step event d') {w : Worker α}
    (h : d.worker? camera = some w) :
    ∃ w', d'.worker? camera = some w' ∧ w.Run (event.at? camera).toList w' := by
  cases step with
  | @own c v v' event found step _ =>
    have hv := worker?_of_find found
    have same : cameraOf v' = c := step.camera.trans (camera_of_worker? hv)
    rw [worker?_put, h, Option.map_some, camera_of_worker? h, same, Event.at?]
    by_cases here : c = camera
    · subst here
      obtain rfl : v = w := Option.some.inj (hv.symm.trans h)
      rw [if_pos rfl, if_pos rfl]
      exact ⟨v', rfl, .step step (.refl v')⟩
    · rw [if_neg (Ne.symm here), if_neg here]
      exact ⟨w, rfl, .refl w⟩
  | ticket => exact ⟨w, h, .refl w⟩
  | refuse _ => exact ⟨w, h, .refl w⟩

/-- A run of the workers is a run of each on what happens at its camera. -/
theorem Run.worker? {events : List (Event α)} (run : d.Run events d') {w : Worker α}
    (h : d.worker? camera = some w) :
    ∃ w', d'.worker? camera = some w' ∧ w.Run (eventsAt camera events) w' := by
  induction run generalizing w with
  | refl => exact ⟨w, h, .refl w⟩
  | @step _ _ _ event events step _ ih =>
    obtain ⟨w', h', first⟩ := step.worker? h
    obtain ⟨w'', h'', rest⟩ := ih h'
    rw [eventsAt, filterMap_cons_toList]
    exact ⟨w'', h'', first.append rest⟩

/-- Nothing happens at a camera without a worker. -/
theorem Run.eventsAt_eq_nil {events : List (Event α)} (run : d.Run events d')
    (missing : camera ∉ d.cameras) : eventsAt camera events = [] := by
  induction run with
  | refl => rfl
  | @step _ _ _ event _ step _ ih =>
    have silent : event.at? camera = none := by
      cases step with
      | own found _ _ =>
        refine if_neg ?_
        rintro rfl
        exact Option.some_ne_none _
          ((worker?_of_find found).symm.trans (worker?_eq_none_iff.2 missing))
      | ticket => rfl
      | refuse _ => rfl
    rw [eventsAt, List.filterMap_cons_none silent]
    exact ih (step.cameras_eq ▸ missing)

end Dispatcher

end ObjectTracking
