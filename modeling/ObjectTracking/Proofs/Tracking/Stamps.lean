import Mathlib.Algebra.BigOperators.Group.Finset.Basic
import Mathlib.Algebra.Order.BigOperators.Group.Finset
import Mathlib.Order.Interval.Finset.Nat
import ObjectTracking.Proofs.Tracking.Sightings

/-!
# When tracks were last seen

A sighting stamps exactly one track with its frame, an old one or a new one, and leaves all others
alone. So a frame stamps as many tracks as it has sightings (`stamped_follow`), and a track that none
of them went to stays what it was until it is stale (`Remembers.next`). With a limit to the sightings
of a frame, and with stale tracks dropped after each frame, this bounds the number of tracks
(`Bounded.length_le`).
-/

namespace ObjectTracking

namespace Track
variable {α : Type} {track : Track α} {window frame : Nat}

/-- On frames that a word can number, the clamped sum is as good as the sum. -/
theorem le_keptUntil_iff (numbered : frame ≤ maxFrame) :
    frame ≤ track.keptUntil window ↔ frame ≤ track.lastSeen + window := by
  simp only [keptUntil]
  omega

theorem keptUntil_le (track : Track α) (window : Nat) :
    track.keptUntil window ≤ track.lastSeen + window := Nat.min_le_left ..

end Track

namespace Tracker
variable {α : Type}

/-- How many tracks were last seen on the frame. -/
def stamped (tracker : Tracker α) (frame : Nat) : Nat :=
  tracker.tracks.countP (·.lastSeen = frame)

variable [Scalar α] {tracker : Tracker α} {x y : α} {frame id : Nat}
  {observed : Tracker α × TrackState} {t : Track α}

/-! ### One sighting -/

namespace Observation

theorem stamped_self (did : tracker.Observation x y frame id observed) :
    observed.1.stamped frame = tracker.stamped frame + 1 := by
  cases did with
  | moved tracks_eq unseen => simp [stamped, tracks_eq, Track.moveTo, unseen]; omega
  | started => simp [stamped]

theorem stamped_other (did : tracker.Observation x y frame id observed) {other : Nat}
    (h : other ≠ frame) : observed.1.stamped other ≤ tracker.stamped other := by
  cases did with
  | moved tracks_eq unseen =>
    simp only [stamped, tracks_eq, Track.moveTo, List.countP_append, List.countP_cons, h.symm,
      decide_false]
    exact Nat.add_le_add_left (Nat.le_add_right ..) _
  | started => simp [stamped, h.symm]

theorem taken (did : tracker.Observation x y frame id observed) :
    ∃ t' ∈ observed.1.tracks, t'.id = id ∧ t'.lastSeen = frame := by
  cases did with
  | @moved before after track => exact ⟨track.moveTo x y frame, by simp, rfl, rfl⟩
  | started => exact ⟨_, List.mem_append_right _ (List.mem_singleton.2 rfl), rfl, rfl⟩

theorem kept (did : tracker.Observation x y frame id observed) (ht : t ∈ tracker.tracks)
    (other : t.id ≠ id) : t ∈ observed.1.tracks := by
  cases did with
  | moved tracks_eq =>
    rw [tracks_eq] at ht
    rcases List.mem_append.1 ht with ht | ht
    · exact List.mem_append_left _ ht
    · rcases List.mem_cons.1 ht with rfl | ht
      · exact absurd rfl other
      · exact List.mem_append_right _ (List.mem_cons_of_mem _ ht)
  | started => exact List.mem_append_left _ ht

theorem of_mem (did : tracker.Observation x y frame id observed) (ht : t ∈ observed.1.tracks) :
    t ∈ tracker.tracks ∨ t.id = id ∧ t.lastSeen = frame := by
  cases did with
  | moved tracks_eq =>
    rw [tracks_eq]
    rcases List.mem_append.1 ht with ht | ht
    · exact .inl (List.mem_append_left _ ht)
    · rcases List.mem_cons.1 ht with rfl | ht
      · exact .inr ⟨rfl, rfl⟩
      · exact .inl (List.mem_append_right _ (List.mem_cons_of_mem _ ht))
  | started =>
    rcases List.mem_append.1 ht with ht | ht
    · exact .inl ht
    · obtain rfl := List.mem_singleton.1 ht
      exact .inr ⟨rfl, rfl⟩

end Observation

/-! ### The sightings of a frame -/

variable {number : Nat} {bs : List (Accepted α)}

theorem stamped_follow (tracker : Tracker α) (number : Nat) (bs : List (Accepted α)) :
    (tracker.follow number bs).1.stamped number = tracker.stamped number + bs.length := by
  induction bs generalizing tracker with
  | nil => rfl
  | cons b rest ih =>
    have did := tracker.observation b.shape.centerX b.shape.centerY number
    simp only [follow, ih, did.stamped_self, List.length_cons]
    omega

theorem stamped_follow_le {other : Nat} (h : other ≠ number) :
    (tracker.follow number bs).1.stamped other ≤ tracker.stamped other := by
  induction bs generalizing tracker with
  | nil => exact Nat.le_refl _
  | cons b rest ih =>
    have did := tracker.observation b.shape.centerX b.shape.centerY number
    exact ih.trans (did.stamped_other h)

theorem mem_follow_of_unseen (ht : t ∈ tracker.tracks)
    (unseen : ∀ s ∈ (tracker.follow number bs).2, s.track ≠ t.id) :
    t ∈ (tracker.follow number bs).1.tracks := by
  induction bs generalizing tracker with
  | nil => exact ht
  | cons b rest ih =>
    obtain ⟨other, later⟩ := List.forall_mem_cons.1 unseen
    have did := tracker.observation b.shape.centerX b.shape.centerY number
    exact ih (did.kept ht other.symm) later

/-- Whoever takes the first of the sightings may take a later one too, but is still there. -/
theorem mem_follow_of_seen {s : Sighting α} (hs : s ∈ (tracker.follow number bs).2) :
    ∃ t ∈ (tracker.follow number bs).1.tracks, t.id = s.track ∧ t.lastSeen = number := by
  induction bs generalizing tracker s with
  | nil => exact absurd hs List.not_mem_nil
  | cons b rest ih =>
    rcases List.mem_cons.1 hs with rfl | hs
    · have did := tracker.observation b.shape.centerX b.shape.centerY number
      obtain ⟨t, ht, id_eq, seen⟩ := did.taken
      by_cases again : ∃ s ∈ ((tracker.observe b.shape.centerX b.shape.centerY number).1.follow
          number rest).2, s.track = t.id
      · obtain ⟨s, hs, track_eq⟩ := again
        obtain ⟨t', ht', id_eq', seen'⟩ := ih hs
        exact ⟨t', ht', id_eq'.trans (track_eq.trans id_eq), seen'⟩
      · have held : t ∈ ((tracker.observe b.shape.centerX b.shape.centerY number).1.follow
            number rest).1.tracks :=
          mem_follow_of_unseen ht fun s hs same => again ⟨s, hs, same⟩
        exact ⟨t, held, id_eq, seen⟩
    · exact ih hs

theorem of_mem_follow (ht : t ∈ (tracker.follow number bs).1.tracks) :
    t ∈ tracker.tracks ∨
      t.lastSeen = number ∧ ∃ s ∈ (tracker.follow number bs).2, s.track = t.id := by
  induction bs generalizing tracker with
  | nil => exact .inl ht
  | cons b rest ih =>
    have did := tracker.observation b.shape.centerX b.shape.centerY number
    rcases ih ht with ht | ⟨seen, s, hs, track_eq⟩
    · rcases did.of_mem ht with ht | ⟨id_eq, seen⟩
      · exact .inl ht
      · exact .inr ⟨seen, tracker.sight number b, by simp [follow], id_eq.symm⟩
    · exact .inr ⟨seen, s, by simp [follow, hs], track_eq⟩

omit [Scalar α] in
@[simp] theorem prune_rules (tracker : Tracker α) (number : Nat) :
    (tracker.prune number).rules = tracker.rules := rfl

omit [Scalar α] in
theorem mem_prune : t ∈ (tracker.prune number).tracks ↔
    t ∈ tracker.tracks ∧ number ≤ t.keptUntil tracker.rules.stalenessWindow := by
  simp [prune]

omit [Scalar α] in
/-- A track is not dropped on the frame of its stamp. -/
theorem stamped_prune (tracker : Tracker α) (numbered : number ≤ Track.maxFrame) :
    (tracker.prune number).stamped number = tracker.stamped number := by
  rw [stamped, stamped, prune, List.countP_filter]
  refine List.countP_congr fun t _ => ?_
  have kept : t.lastSeen = number →
      number ≤ t.keptUntil tracker.rules.stalenessWindow := by
    rintro rfl
    exact (Track.le_keptUntil_iff numbered).2 (Nat.le_add_right ..)
  simpa using kept

/-! ### What becomes of a track that is not seen again -/

/-- Before the frame `number` the track is still there as it was, or it is stale by then and gone. -/
def Remembers (tracker : Tracker α) (t : Track α) (number : Nat) : Prop :=
  if number ≤ t.keptUntil tracker.rules.stalenessWindow + 1 then t ∈ tracker.tracks
  else t.id ∉ tracker.tracks.map (·.id)

theorem Remembers.next (h : tracker.Remembers t number)
    (ids_nodup : (tracker.tracks.map (·.id)).Nodup)
    (unseen : ∀ s ∈ (tracker.follow number bs).2, s.track ≠ t.id) :
    ((tracker.follow number bs).1.prune number).Remembers t (number + 1) := by
  unfold Remembers at h ⊢
  rw [prune_rules, follow_rules]
  split at h
  · split
    · rename_i fresh
      refine mem_prune.2 ⟨mem_follow_of_unseen h unseen, ?_⟩
      rw [follow_rules]
      omega
    · rename_i stale
      intro held
      obtain ⟨t', ht', same⟩ := List.mem_map.1 held
      obtain ⟨ht', kept⟩ := mem_prune.1 ht'
      rcases of_mem_follow ht' with ht' | ⟨-, s, hs, track_eq⟩
      · obtain rfl : t' = t := List.inj_on_of_nodup_map ids_nodup ht' h same
        rw [follow_rules] at kept
        omega
      · exact unseen s hs (track_eq.trans same)
  · -- an id that is gone does not come back but with a sighting
    rw [if_neg (by omega)]
    intro held
    obtain ⟨t', ht', same⟩ := List.mem_map.1 held
    rcases of_mem_follow (mem_prune.1 ht').1 with ht' | ⟨-, s, hs, track_eq⟩
    · exact h (List.mem_map.2 ⟨t', ht', same⟩)
    · exact unseen s hs (track_eq.trans same)

/-! ### How many tracks there are -/

/-- The tracker before the frame `number`, if no frame has more than `cap` sightings: every track was
seen on an earlier frame, and not too long ago, and no frame has left more than `cap` of them. -/
structure Bounded (tracker : Tracker α) (cap number : Nat) : Prop where
  past : ∀ t ∈ tracker.tracks, t.lastSeen < number
  recent : ∀ t ∈ tracker.tracks, number ≤ t.keptUntil tracker.rules.stalenessWindow + 1
  stamped_le : ∀ frame, tracker.stamped frame ≤ cap

namespace Bounded
variable {cap : Nat}

omit [Scalar α] in
theorem start (classId : UInt8) (rules : TrackingRules α) (cap number : Nat) :
    (start classId rules).Bounded cap number := by
  constructor <;> simp [Tracker.start, stamped]

omit [Scalar α] in
theorem stamped_eq_zero (h : tracker.Bounded cap number) : tracker.stamped number = 0 := by
  refine List.countP_eq_zero.2 fun t ht => ?_
  simpa using Nat.ne_of_lt (h.past t ht)

theorem next (h : tracker.Bounded cap number) (few : bs.length ≤ cap) :
    ((tracker.follow number bs).1.prune number).Bounded cap (number + 1) := by
  refine ⟨fun t ht => ?past, fun t ht => ?recent, fun frame => ?stamped⟩
  case past =>
    rcases of_mem_follow (mem_prune.1 ht).1 with ht | ⟨seen, -⟩
    · exact Nat.lt_succ_of_lt (h.past t ht)
    · omega
  case recent => exact Nat.succ_le_succ (mem_prune.1 ht).2
  case stamped =>
    refine Nat.le_trans (List.filter_sublist.countP_le) ?_
    by_cases now : frame = number
    · subst now
      have stamped := tracker.stamped_follow frame bs
      rw [h.stamped_eq_zero] at stamped
      simp only [Tracker.stamped] at stamped
      omega
    · exact (stamped_follow_le now).trans (h.stamped_le frame)

omit [Scalar α] in
/-- Every track was last seen on one of the frames of a window, and none of these has left more than
`cap` tracks. -/
theorem length_le (h : tracker.Bounded cap number) :
    tracker.tracks.length ≤ cap * (tracker.rules.stalenessWindow + 1) := by
  generalize hwindow : tracker.rules.stalenessWindow = window
  set stamps := tracker.tracks.map (·.lastSeen) with hstamps
  have recent : stamps.toFinset ⊆ Finset.Ico (number - (window + 1)) number := by
    intro frame hframe
    obtain ⟨t, ht, rfl⟩ := List.mem_map.1 (List.mem_toFinset.1 hframe)
    have past := h.past t ht
    have recent := h.recent t ht
    have clamped := t.keptUntil_le window
    rw [hwindow] at recent
    rw [Finset.mem_Ico]
    omega
  have frames : stamps.toFinset.card ≤ window + 1 := by
    have := Finset.card_le_card recent
    rw [Nat.card_Ico] at this
    omega
  have each : ∀ frame ∈ stamps.toFinset, stamps.count frame ≤ cap := by
    intro frame _
    refine Nat.le_trans (Nat.le_of_eq ?_) (h.stamped_le frame)
    rw [hstamps, List.count, List.countP_map, stamped]
    exact List.countP_congr fun t _ => by simp
  -- the tracks are counted by their stamps
  calc tracker.tracks.length = ∑ frame ∈ stamps.toFinset, stamps.count frame := by
        rw [List.sum_toFinset_count_eq_length, hstamps, List.length_map]
    _ ≤ stamps.toFinset.card * cap := Finset.sum_le_card_nsmul _ _ _ each
    _ ≤ cap * (window + 1) := by rw [Nat.mul_comm]; exact Nat.mul_le_mul_left _ frames

end Bounded

end Tracker

end ObjectTracking
