import Mathlib.Data.List.Nodup
import ObjectTracking.Proofs.Tracking.Observe

/-!
# Whatever is done to a tracker

A tracker is given sightings, told to drop stale tracks, or cleared, in any order. Its tracks stay
sorted by their ids, all of which it has given out itself (`Tracker.Ordered`).
-/

namespace ObjectTracking

inductive TrackerCall (α : Type) where
  | observe (x y : α) (frame : Nat)
  | prune (frame : Nat)
  | clear

namespace Tracker
variable {α : Type} [Scalar α] {tracker : Tracker α}

def call (tracker : Tracker α) : TrackerCall α → Tracker α
  | .observe x y frame => (tracker.observe x y frame).1
  | .prune frame => tracker.prune frame
  | .clear => tracker.clear

/-- The tracker after some calls, one after the other. -/
def afterCalls (tracker : Tracker α) (calls : List (TrackerCall α)) : Tracker α :=
  calls.foldl call tracker

/-- The ids stay what they are, or the next one is added to them. -/
theorem Observation.ids {x y : α} {frame id : Nat} {observed : Tracker α × TrackState}
    (did : tracker.Observation x y frame id observed) :
    observed.1.tracks.map (·.id) = tracker.tracks.map (·.id) ∧
        observed.1.nextId = tracker.nextId ∨
      observed.1.tracks.map (·.id) = tracker.tracks.map (·.id) ++ [tracker.nextId] ∧
        observed.1.nextId = tracker.nextId + 1 := by
  cases did with
  | moved tracks_eq =>
    refine .inl ⟨?_, rfl⟩
    rw [tracks_eq, List.map_append, List.map_append]
    rfl
  | started => exact .inr ⟨List.map_append, rfl⟩

/-- The oldest track comes first, and no id was given to two tracks. -/
structure Ordered {α : Type} (tracker : Tracker α) : Prop where
  sorted : (tracker.tracks.map (·.id)).Pairwise (· < ·)
  ids_lt : ∀ t ∈ tracker.tracks, t.id < tracker.nextId

namespace Ordered

omit [Scalar α] in
theorem start (classId : UInt8) (rules : TrackingRules α) : (start classId rules).Ordered :=
  ⟨.nil, fun _ ht => absurd ht List.not_mem_nil⟩

omit [Scalar α] in
theorem of_ids (sorted : (tracker.tracks.map (·.id)).Pairwise (· < ·))
    (ids_lt : ∀ id ∈ tracker.tracks.map (·.id), id < tracker.nextId) : tracker.Ordered :=
  ⟨sorted, fun _ ht => ids_lt _ (List.mem_map_of_mem ht)⟩

omit [Scalar α] in
theorem lt_of_mem_ids (h : tracker.Ordered) :
    ∀ id ∈ tracker.tracks.map (·.id), id < tracker.nextId :=
  List.forall_mem_map.2 h.ids_lt

omit [Scalar α] in
theorem eq_of_id_eq {t t' : Track α} (h : tracker.Ordered) (ht : t ∈ tracker.tracks)
    (ht' : t' ∈ tracker.tracks) (same : t.id = t'.id) : t = t' :=
  List.inj_on_of_nodup_map (h.sorted.imp fun lt => Nat.ne_of_lt lt) ht ht' same

theorem observe (h : tracker.Ordered) (x y : α) (frame : Nat) :
    (tracker.observe x y frame).1.Ordered := by
  rcases (tracker.observation x y frame).ids with ⟨ids_eq, nextId_eq⟩ | ⟨ids_eq, nextId_eq⟩
  · refine .of_ids (ids_eq ▸ h.sorted) ?_
    rw [ids_eq, nextId_eq]
    exact h.lt_of_mem_ids
  · refine .of_ids ?_ ?_
    · rw [ids_eq]
      refine List.pairwise_append.2
        ⟨h.sorted, List.pairwise_singleton .., fun id hid id' hid' => ?_⟩
      obtain rfl : id' = tracker.nextId := by simpa using hid'
      exact h.lt_of_mem_ids id hid
    · rw [ids_eq, nextId_eq]
      exact List.forall_mem_append.2 ⟨fun id hid => Nat.lt_succ_of_lt (h.lt_of_mem_ids id hid),
        List.forall_mem_singleton.2 (Nat.lt_succ_self _)⟩

theorem call (h : tracker.Ordered) (c : TrackerCall α) : (tracker.call c).Ordered := by
  cases c with
  | observe x y frame => exact h.observe x y frame
  | prune frame =>
    exact ⟨h.sorted.sublist (List.filter_sublist.map _),
      fun t ht => h.ids_lt t ((List.mem_filter.1 ht).1)⟩
  | clear => exact ⟨.nil, fun _ ht => absurd ht List.not_mem_nil⟩

theorem afterCalls (h : tracker.Ordered) (calls : List (TrackerCall α)) :
    (tracker.afterCalls calls).Ordered := by
  induction calls generalizing tracker with
  | nil => exact h
  | cons c rest ih => exact ih (h.call c)

end Ordered

end Tracker

end ObjectTracking
