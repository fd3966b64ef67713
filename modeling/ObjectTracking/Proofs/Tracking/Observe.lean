import Mathlib.Tactic.Common
import ObjectTracking.Tracker

/-!
# What a sighting does to a tracker

Either one track within reach moves to the sighting, or there is none and a new track starts
(`Tracker.Observation`). `Tracker.taker` is the id of the track that the sighting went to.
-/

namespace ObjectTracking.Tracker
variable {α : Type} [Scalar α] {tracker : Tracker α} {x y : α} {frame : Nat}

theorem of_reach?_eq_some {tolerance distance : α} {track : Track α}
    (h : reach? tolerance x y frame track = some distance) :
    track.lastSeen ≠ frame ∧
      Scalar.le (Scalar.hypot (track.x - x) (track.y - y)) tolerance = true := by
  simp only [reach?] at h
  split at h
  · cases h
  · rename_i unseen
    split at h
    · rename_i near
      exact ⟨unseen, near⟩
    · cases h

section
variable {reach : Track α → Option α} {tracks : List (Track α)} {nearest : Candidate α}

theorem of_nearest?_eq_some (h : nearest? reach tracks = some nearest) :
    tracks[nearest.index]? = some nearest.track ∧
      reach nearest.track = some nearest.distance := by
  induction tracks generalizing nearest with
  | nil => cases h
  | cons track rest ih =>
    have later : ∀ c, (nearest? reach rest).map (fun c => { c with index := c.index + 1 }) = some c →
        (track :: rest)[c.index]? = some c.track ∧ reach c.track = some c.distance := by
      intro c hc
      obtain ⟨c', hc', rfl⟩ := Option.map_eq_some_iff.1 hc
      exact ih hc'
    simp only [nearest?] at h
    split at h
    · exact later _ h
    · rename_i hreach _
      obtain rfl := Option.some.inj h
      exact ⟨rfl, hreach⟩
    · rename_i hreach hlater
      split at h
      · exact later _ (hlater.trans h)
      · obtain rfl := Option.some.inj h
        exact ⟨rfl, hreach⟩

theorem of_nearest?_eq_none (h : nearest? reach tracks = none) : ∀ t ∈ tracks, reach t = none := by
  induction tracks with
  | nil => exact fun _ ht => absurd ht List.not_mem_nil
  | cons track rest ih =>
    simp only [nearest?] at h
    split at h
    · rename_i hreach
      exact List.forall_mem_cons.2 ⟨hreach, ih (Option.map_eq_none_iff.1 h)⟩
    · cases h
    · split at h <;> cases h

end

/-- The track that takes a sighting. -/
def taker (tracker : Tracker α) (x y : α) (frame : Nat) : Nat :=
  match nearest? (reach? tracker.rules.distanceTolerance x y frame) tracker.tracks with
  | some nearest => nearest.track.id
  | none => tracker.nextId

/-- All that a sighting can do: the track it goes to, the tracker after it, and the answer. -/
inductive Observation (tracker : Tracker α) (x y : α) (frame : Nat) :
    Nat → Tracker α × TrackState → Prop
  | moved {before after : List (Track α)} {track : Track α}
      (tracks_eq : tracker.tracks = before ++ track :: after) (unseen : track.lastSeen ≠ frame)
      (near : Scalar.le (Scalar.hypot (track.x - x) (track.y - y))
        tracker.rules.distanceTolerance = true) :
      Observation tracker x y frame track.id
        ({ tracker with tracks := before ++ track.moveTo x y frame :: after },
          (track.moveTo x y frame).state tracker.rules)
  | started
      (far : ∀ t ∈ tracker.tracks, reach? tracker.rules.distanceTolerance x y frame t = none) :
      Observation tracker x y frame tracker.nextId
        ({ tracker with
            tracks := tracker.tracks ++ [⟨tracker.nextId, tracker.classId, x, y, frame, 0⟩]
            nextId := tracker.nextId + 1 }, .provisional)

theorem observation (tracker : Tracker α) (x y : α) (frame : Nat) :
    tracker.Observation x y frame (tracker.taker x y frame) (tracker.observe x y frame) := by
  cases hnearest : nearest? (reach? tracker.rules.distanceTolerance x y frame) tracker.tracks with
  | some nearest =>
    obtain ⟨hindex, hreach⟩ := of_nearest?_eq_some hnearest
    obtain ⟨unseen, near⟩ := of_reach?_eq_some hreach
    obtain ⟨before, after, hsplit, hlength⟩ :
        ∃ before after, tracker.tracks = before ++ nearest.track :: after ∧
          before.length = nearest.index := by
      obtain ⟨hlt, hget⟩ := List.getElem?_eq_some_iff.1 hindex
      refine ⟨tracker.tracks.take nearest.index, tracker.tracks.drop (nearest.index + 1), ?_, ?_⟩
      · rw [← hget, List.getElem_cons_drop, List.take_append_drop]
      · exact List.length_take_of_le (Nat.le_of_lt hlt)
    have set_eq : tracker.tracks.set nearest.index (nearest.track.moveTo x y frame) =
        before ++ nearest.track.moveTo x y frame :: after := by
      rw [hsplit, ← hlength, List.set_append_right _ _ (Nat.le_refl _), Nat.sub_self,
        List.set_cons_zero]
    simp only [taker, observe, hnearest, set_eq]
    exact .moved hsplit unseen near
  | none =>
    simp only [taker, observe, hnearest]
    exact .started (of_nearest?_eq_none hnearest)

@[simp] theorem observe_rules (tracker : Tracker α) (x y : α) (frame : Nat) :
    (tracker.observe x y frame).1.rules = tracker.rules := by
  unfold observe; split <;> rfl

end ObjectTracking.Tracker
