import ObjectTracking.Proofs.Number.Distance
import ObjectTracking.Proofs.Tracking.Nearest

/-!
# A position seen on every frame

A sighting goes to the nearest track, whoever left it there. So what is seen at the same place `p`
on every frame can lose its track to a sighting that comes before it on the frame, and another
sighting at `p` can bring an older track there that has been seen less often. If neither happens
(`Tracker.Undisturbed`), there is a track at `p` such that it and all older ones there have been
seen on every frame (`Tracker.Held`), and the position is confirmed as soon as that is often
enough.
-/

namespace ObjectTracking

/-- The sightings of a frame other than the one at some position: those before it, and those
after it. -/
structure Others where
  before : List (Float × Float)
  after : List (Float × Float)

/-- The distance between two positions. -/
def apart (q p : Float × Float) : Float := Scalar.hypot (q.1 - p.1) (q.2 - p.2)

theorem apart_comm (q p : Float × Float) : apart q p = apart p q :=
  Double.hypot_sub_comm ..

theorem apart_self {p : Float × Float} (finite : p.1.isFinite = true ∧ p.2.isFinite = true) :
    apart p p = 0 :=
  Double.hypot_sub_self finite.1 finite.2

theorem Track.distance_eq (t : Track Float) (p : Float × Float) :
    t.distance p.1 p.2 = apart t.place p := rfl

namespace Tracker

section
variable {α : Type} [Scalar α] {tracker : Tracker α} {x y : α} {frame : Nat} {t : Track α}

theorem observeAll_append (tracker : Tracker α) (frame : Nat)
    (before after : List (α × α)) (p : α × α) :
    tracker.observeAll frame (before ++ p :: after) =
      ((tracker.observeAll frame before).observe p.1 p.2 frame).1.observeAll frame after := by
  rw [observeAll, List.foldl_append]
  rfl

@[simp] theorem observeAll_rules (tracker : Tracker α) (frame : Nat)
    (positions : List (α × α)) :
    (tracker.observeAll frame positions).rules = tracker.rules := by
  induction positions generalizing tracker with
  | nil => rfl
  | cons q rest ih => exact (ih _).trans (tracker.observe_rules ..)

theorem afterCalls_rules (tracker : Tracker α) (calls : List (TrackerCall α)) :
    (tracker.afterCalls calls).rules = tracker.rules := by
  induction calls generalizing tracker with
  | nil => rfl
  | cons c rest ih =>
    refine (ih _).trans ?_
    cases c with
    | observe x y frame => exact tracker.observe_rules x y frame
    | prune frame => rfl
    | clear => rfl

namespace Ordered

theorem observeAll (h : tracker.Ordered) (frame : Nat) (positions : List (α × α)) :
    (tracker.observeAll frame positions).Ordered := by
  induction positions generalizing tracker with
  | nil => exact h
  | cons q rest ih => exact ih (h.observe q.1 q.2 frame)

theorem id_ne_taker (h : tracker.Ordered) (ht : t ∈ tracker.tracks)
    (cannot : ¬ t.CanTake tracker.rules x y frame) : t.id ≠ tracker.taker x y frame := by
  have did := tracker.observation x y frame
  generalize tracker.taker x y frame = taker at did ⊢
  generalize tracker.observe x y frame = observed at did
  intro same
  cases did with
  | @moved before after t' tracks_eq unseen near =>
    obtain rfl := h.eq_of_id_eq ht (by simp [tracks_eq]) same
    exact cannot ⟨unseen, near⟩
  | started => exact (h.ids_lt t ht).ne same

end Ordered

end

variable {tracker : Tracker Float} {p q : Float × Float} {frame number k : Nat}
  {t t' T : Track Float}

/-- A frame with a sighting at `p` among others. -/
def afterFrame (tracker : Tracker Float) (p : Float × Float) (frame : Nat) (others : Others) :
    Tracker Float :=
  (tracker.observeAll frame (others.before ++ p :: others.after)).prune frame

/-- What the sighting at `p` is answered on the last of consecutive frames that all have one; on the
last frame it comes after the given others. -/
def lastAnswer (tracker : Tracker Float) (p : Float × Float) (frame : Nat)
    (last : List (Float × Float)) : List Others → TrackState
  | [] => ((tracker.observeAll frame last).observe p.1 p.2 frame).2
  | others :: rest => (tracker.afterFrame p frame others).lastAnswer p (frame + 1) last rest

/-- The sighting at `q` does not interfere with those at `p`: it is too far away, or at least it is
not at `p` and goes to a track that is not there either. -/
def Spares (tracker : Tracker Float) (p : Float × Float) (frame : Nat) (q : Float × Float) :
    Prop :=
  ¬ apart q p ≤ tracker.rules.distanceTolerance ∨
    apart q p ≠ 0 ∧
      ∀ t ∈ tracker.tracks, t.id = tracker.taker q.1 q.2 frame → t.distance p.1 p.2 ≠ 0

/-- None of the sightings interferes, one after the other. -/
def AllSpare (tracker : Tracker Float) (p : Float × Float) (frame : Nat) :
    List (Float × Float) → Prop
  | [] => True
  | q :: rest => tracker.Spares p frame q ∧ (tracker.observe q.1 q.2 frame).1.AllSpare p frame rest

/-- On none of the frames and not on the last does a sighting before the one at `p` interfere with
it, and before the last frame none after it is at `p` as well. -/
def Undisturbed (tracker : Tracker Float) (p : Float × Float) (frame : Nat)
    (last : List (Float × Float)) : List Others → Prop
  | [] => tracker.AllSpare p frame last
  | others :: rest =>
    tracker.AllSpare p frame others.before ∧ (∀ q ∈ others.after, apart q p ≠ 0) ∧
      (tracker.afterFrame p frame others).Undisturbed p (frame + 1) last rest

instance (tracker : Tracker Float) (p : Float × Float) (frame : Nat) (q : Float × Float) :
    Decidable (tracker.Spares p frame q) :=
  inferInstanceAs (Decidable (_ ∨ _))

instance decidableAllSpare (p : Float × Float) (frame : Nat) :
    ∀ (tracker : Tracker Float) (positions : List (Float × Float)),
      Decidable (tracker.AllSpare p frame positions)
  | _, [] => .isTrue trivial
  | tracker, q :: rest =>
    have := decidableAllSpare p frame (tracker.observe q.1 q.2 frame).1 rest
    inferInstanceAs (Decidable (_ ∧ _))

instance decidableUndisturbed (p : Float × Float) (last : List (Float × Float)) :
    ∀ (tracker : Tracker Float) (frame : Nat) (frames : List Others),
      Decidable (tracker.Undisturbed p frame last frames)
  | tracker, frame, [] => inferInstanceAs (Decidable (tracker.AllSpare p frame last))
  | tracker, frame, others :: rest =>
    have := decidableUndisturbed p last (tracker.afterFrame p frame others) (frame + 1) rest
    inferInstanceAs (Decidable (_ ∧ _ ∧ _))

@[simp] theorem afterFrame_rules (tracker : Tracker Float) (p : Float × Float) (frame : Nat)
    (others : Others) : (tracker.afterFrame p frame others).rules = tracker.rules :=
  tracker.observeAll_rules ..

theorem Ordered.afterFrame (h : tracker.Ordered) (p : Float × Float) (frame : Nat)
    (others : Others) : (tracker.afterFrame p frame others).Ordered :=
  (h.observeAll frame (others.before ++ p :: others.after)).call (.prune frame)

theorem allSpare_of_far {positions : List (Float × Float)}
    (far : ∀ q ∈ positions, ¬ apart q p ≤ tracker.rules.distanceTolerance) :
    tracker.AllSpare p frame positions := by
  induction positions generalizing tracker with
  | nil => trivial
  | cons q rest ih =>
    obtain ⟨q_far, far⟩ := List.forall_mem_cons.1 far
    rw [← tracker.observe_rules q.1 q.2 frame] at far
    exact ⟨.inl q_far, ih far⟩

/-- Nothing interferes if all that comes before is far away and nothing else is at `p`. -/
theorem undisturbed_of_far {last : List (Float × Float)} {frames : List Others}
    (far : ∀ others ∈ frames,
      (∀ q ∈ others.before, ¬ apart q p ≤ tracker.rules.distanceTolerance) ∧
        ∀ q ∈ others.after, apart q p ≠ 0)
    (last_far : ∀ q ∈ last, ¬ apart q p ≤ tracker.rules.distanceTolerance) :
    tracker.Undisturbed p frame last frames := by
  induction frames generalizing tracker frame with
  | nil => exact allSpare_of_far last_far
  | cons others rest ih =>
    obtain ⟨⟨before_far, elsewhere⟩, far⟩ := List.forall_mem_cons.1 far
    rw [← tracker.afterFrame_rules p frame others] at far last_far
    exact ⟨allSpare_of_far before_far, elsewhere, ih far last_far⟩

/-! ### The nearest to a position where a track is -/

section
variable (tolerant : 0 ≤ tracker.rules.distanceTolerance)
include tolerant

theorem canTake_of_at (at_p : t.distance p.1 p.2 = 0) (unseen : t.lastSeen ≠ frame) :
    t.CanTake tracker.rules p.1 p.2 frame :=
  ⟨unseen, by rw [at_p]; exact decide_eq_true tolerant⟩

/-- If a track that can take a sighting is at its place, then so is the one that takes it, and it is
no younger. -/
theorem Takes.no_younger (takes : tracker.Takes p.1 p.2 frame t) (ht' : t' ∈ tracker.tracks)
    (at_p : t'.distance p.1 p.2 = 0) (unseen : t'.lastSeen ≠ frame) :
    t.distance p.1 p.2 = 0 ∧ t.id ≤ t'.id := by
  have first := takes.first t' ht' (canTake_of_at tolerant at_p unseen)
  have rank_zero : Scalar.Ranked.rank (0 : Float) = 0 := by decide +kernel
  unfold Track.ComesFirst at first
  rw [Scalar.Ranked.before_eq, Scalar.Ranked.before_eq, decide_eq_true_iff,
    decide_eq_false_iff_not, Int.not_lt, at_p, rank_zero] at first
  rcases first with nearer | ⟨as_near, no_younger⟩
  · exact absurd (Double.rank_hypot_nonneg ..) (Int.not_le.2 nearer)
  · exact ⟨Double.hypot_eq_zero_of_rank as_near, no_younger⟩

end

/-! ### The track that is held -/

/-- The track is at `p`, and all tracks there that are no younger were seen on the frame, and often
enough. -/
structure Held (tracker : Tracker Float) (p : Float × Float) (frame k : Nat) (T : Track Float) :
    Prop where
  mem : T ∈ tracker.tracks
  place : T.place = p
  counted : ∀ t ∈ tracker.tracks, t.id ≤ T.id → t.distance p.1 p.2 = 0 →
    t.lastSeen = frame ∧ min k Track.maxCount ≤ t.lifetime

namespace Held

/-- A sighting that goes to another track, and does not bring it to `p` unless that is harmless. -/
theorem observe (h : tracker.Held p frame k T) (ordered : tracker.Ordered)
    (other : T.id ≠ tracker.taker q.1 q.2 number)
    (harmless : apart q p = 0 → number = frame ∧ k = 0) :
    (tracker.observe q.1 q.2 number).1.Held p frame k T := by
  have did := tracker.observation q.1 q.2 number
  generalize tracker.taker q.1 q.2 number = taker at did other
  generalize tracker.observe q.1 q.2 number = observed at did ⊢
  cases did with
  | @moved before after t tracks_eq =>
    have counted := h.counted
    have mem := h.mem
    rw [tracks_eq, List.forall_mem_append, List.forall_mem_cons] at counted
    rw [tracks_eq, List.mem_append, List.mem_cons] at mem
    obtain ⟨counted_before, -, counted_after⟩ := counted
    refine ⟨?mem, h.place, List.forall_mem_append.2 ⟨counted_before,
      List.forall_mem_cons.2 ⟨fun _ at_p => ?arrives, counted_after⟩⟩⟩
    case mem =>
      rcases mem with mem | rfl | mem
      · exact List.mem_append_left _ mem
      · exact absurd rfl other
      · exact List.mem_append_right _ (List.mem_cons_of_mem _ mem)
    case arrives =>
      obtain ⟨rfl, rfl⟩ := harmless at_p
      exact ⟨rfl, by simp⟩
  | started =>
    refine ⟨List.mem_append_left _ h.mem, h.place, List.forall_mem_append.2 ⟨h.counted,
      List.forall_mem_singleton.2 fun no_younger => ?_⟩⟩
    exact absurd no_younger (Nat.not_le.2 (ordered.ids_lt T h.mem))

section
variable (finite : p.1.isFinite = true ∧ p.2.isFinite = true)
include finite

theorem at_p (h : tracker.Held p frame k T) : T.distance p.1 p.2 = 0 := by
  rw [T.distance_eq, h.place, apart_self finite]

theorem seen (h : tracker.Held p frame k T) : T.lastSeen = frame :=
  (h.counted T h.mem le_rfl (h.at_p finite)).1

theorem later_sightings (h : tracker.Held p frame k T) (ordered : tracker.Ordered)
    (after : List (Float × Float)) (elsewhere : k = 0 ∨ ∀ q ∈ after, apart q p ≠ 0) :
    (tracker.observeAll frame after).Held p frame k T := by
  induction after generalizing tracker with
  | nil => exact h
  | cons q rest ih =>
    have other : T.id ≠ tracker.taker q.1 q.2 frame :=
      ordered.id_ne_taker h.mem fun can => can.unseen (h.seen finite)
    have harmless : apart q p = 0 → frame = frame ∧ k = 0 := fun at_p =>
      ⟨rfl, elsewhere.resolve_right fun none_at_p => none_at_p q (by simp) at_p⟩
    exact ih (h.observe ordered other harmless) (ordered.observe q.1 q.2 frame)
      (elsewhere.imp_right fun none_at_p q hq => none_at_p q (List.mem_cons_of_mem _ hq))

theorem prune (h : tracker.Held p frame k T) (frame_le : frame ≤ Track.maxFrame) :
    (tracker.prune frame).Held p frame k T := by
  have kept : frame ≤ T.keptUntil tracker.rules.stalenessWindow := by
    rw [Track.keptUntil, h.seen finite]
    exact le_min (Nat.le_add_right ..) frame_le
  exact ⟨List.mem_filter.2 ⟨h.mem, decide_eq_true kept⟩, h.place,
    fun t ht => h.counted t (List.mem_of_mem_filter ht)⟩

variable (tolerant : 0 ≤ tracker.rules.distanceTolerance)
include tolerant

theorem earlier_sightings (h : tracker.Held p frame k T) (ordered : tracker.Ordered)
    {before : List (Float × Float)} (spare : tracker.AllSpare p number before) :
    (tracker.observeAll number before).Held p frame k T := by
  induction before generalizing tracker with
  | nil => exact h
  | cons q rest ih =>
    obtain ⟨spares, spare⟩ := spare
    have elsewhere : apart q p ≠ 0 := by
      rcases spares with far | ⟨elsewhere, -⟩
      · exact fun at_p => far (at_p ▸ tolerant)
      · exact elsewhere
    have other : T.id ≠ tracker.taker q.1 q.2 number := by
      rcases spares with far | ⟨-, taker_elsewhere⟩
      · -- the track is just as far from `q` as `p` is
        refine ordered.id_ne_taker h.mem fun can => far ?_
        have near := of_decide_eq_true can.near
        rwa [T.distance_eq q, h.place, apart_comm] at near
      · exact fun taker => taker_elsewhere T h.mem taker (h.at_p finite)
    refine ih ?_ (h.observe ordered other fun at_p => absurd at_p elsewhere)
      (ordered.observe q.1 q.2 number) spare
    rw [observe_rules]
    exact tolerant

/-- On a new frame, the sighting at `p` goes to the track that is held or to an older one, which has
been seen often enough as well. -/
theorem taken (h : tracker.Held p frame k T) (ordered : tracker.Ordered) (new : frame ≠ number) :
    ∃ before t after, tracker.tracks = before ++ t :: after ∧
      tracker.Takes p.1 p.2 number t ∧ t.id ≤ T.id ∧ min k Track.maxCount ≤ t.lifetime ∧
      tracker.observe p.1 p.2 number =
        ({ tracker with tracks := before ++ t.moveTo p.1 p.2 number :: after },
          (t.moveTo p.1 p.2 number).state tracker.rules) := by
  have at_p := h.at_p finite
  have unseen : T.lastSeen ≠ number := h.seen finite ▸ new
  have did := ordered.chosen p.1 p.2 number
  generalize tracker.observe p.1 p.2 number = observed at did ⊢
  cases did with
  | @moved before after t tracks_eq takes =>
    obtain ⟨t_at_p, no_younger⟩ := takes.no_younger tolerant h.mem at_p unseen
    have count := (h.counted t takes.mem no_younger t_at_p).2
    exact ⟨before, t, after, tracks_eq, takes, no_younger, count, rfl⟩
  | born none_can => exact absurd (canTake_of_at tolerant at_p unseen) (none_can T h.mem)

end

end Held

section
variable (finite : p.1.isFinite = true ∧ p.2.isFinite = true)
  (tolerant : 0 ≤ tracker.rules.distanceTolerance)
include tolerant

/-- The track that takes a sighting at `p` is held if the older ones there are. -/
theorem Takes.held (takes : tracker.Takes p.1 p.2 frame t) (ordered : tracker.Ordered)
    {before after : List (Track Float)} (tracks_eq : tracker.tracks = before ++ t :: after)
    (count : min k Track.maxCount ≤ (t.moveTo p.1 p.2 frame).lifetime)
    (older : ∀ t' ∈ tracker.tracks, t'.id < t.id → t'.distance p.1 p.2 = 0 →
      t'.lastSeen = frame → min k Track.maxCount ≤ t'.lifetime) :
    Held { tracker with tracks := before ++ t.moveTo p.1 p.2 frame :: after } p frame k
      (t.moveTo p.1 p.2 frame) := by
  have sorted := ordered.sorted
  rw [tracks_eq, List.map_append, List.map_cons, List.pairwise_append, List.pairwise_cons] at sorted
  obtain ⟨-, ⟨younger_after, -⟩, older_before⟩ := sorted
  refine ⟨by simp, rfl, List.forall_mem_append.2 ⟨fun t' ht' _ at_p => ?_,
    List.forall_mem_cons.2 ⟨fun _ _ => ⟨rfl, count⟩, fun t' ht' no_younger _ => ?_⟩⟩⟩
  · have ht : t' ∈ tracker.tracks := by simp [tracks_eq, ht']
    have lt : t'.id < t.id := older_before _ (List.mem_map_of_mem ht') _ (List.mem_cons_self ..)
    -- it would have taken the sighting, being older
    have seen : t'.lastSeen = frame := by
      by_contra unseen
      exact absurd (takes.no_younger tolerant ht at_p unseen).2 (Nat.not_le.2 lt)
    exact ⟨seen, older t' ht lt at_p seen⟩
  · exact absurd no_younger (Nat.not_le.2 (younger_after _ (List.mem_map_of_mem ht')))

theorem exists_held (ordered : tracker.Ordered) (frame : Nat) :
    ∃ T, (tracker.observe p.1 p.2 frame).1.Held p frame 0 T := by
  have did := ordered.chosen p.1 p.2 frame
  generalize tracker.observe p.1 p.2 frame = observed at did ⊢
  cases did with
  | moved tracks_eq takes =>
    exact ⟨_, takes.held tolerant ordered tracks_eq (by simp) fun _ _ _ _ _ => by simp⟩
  | born none_can =>
    refine ⟨_, List.mem_append_right _ (List.mem_singleton_self _), rfl,
      List.forall_mem_append.2 ⟨fun t ht _ at_p => ⟨?_, by simp⟩,
        List.forall_mem_singleton.2 fun _ _ => ⟨rfl, by simp⟩⟩⟩
    by_contra unseen
    exact none_can t ht (canTake_of_at tolerant at_p unseen)

include finite

namespace Held

/-- The track that takes the next sighting at `p` is held from then on. -/
theorem sighting (h : tracker.Held p frame k T) (ordered : tracker.Ordered)
    (new : frame ≠ number) :
    ∃ T', (tracker.observe p.1 p.2 number).1.Held p number (k + 1) T' := by
  obtain ⟨before, t, after, tracks_eq, takes, no_younger, count, observe_eq⟩ :=
    h.taken finite tolerant ordered new
  rw [observe_eq]
  refine ⟨_, takes.held tolerant ordered tracks_eq ?count ?older⟩
  case count =>
    show min (k + 1) Track.maxCount ≤ min (t.lifetime + 1) Track.maxCount
    omega
  case older =>
    -- there is none: on this frame it was not seen, so it would have come first
    intro t' ht' older at_p seen
    exact absurd ((h.counted t' ht' (older.le.trans no_younger) at_p).1.symm.trans seen) new

theorem confirmed (h : tracker.Held p frame k T) (ordered : tracker.Ordered)
    (new : frame ≠ number) (streak_le : tracker.rules.confirmationStreak ≤ Track.maxCount)
    (enough : tracker.rules.confirmationStreak ≤ k + 2) :
    (tracker.observe p.1 p.2 number).2 = .confirmed := by
  obtain ⟨_, t, _, -, -, -, count, observe_eq⟩ := h.taken finite tolerant ordered new
  rw [observe_eq]
  have max_pos : 0 < Track.maxCount := by decide
  refine if_pos ⟨?_, ?_⟩
  · show 0 < min (t.lifetime + 1) Track.maxCount
    omega
  · show _ ≤ min (min (t.lifetime + 1) Track.maxCount + 1) Track.maxCount
    omega

theorem afterFrame (h : tracker.Held p frame k T) (ordered : tracker.Ordered) {others : Others}
    (new : frame ≠ number) (spare : tracker.AllSpare p number others.before)
    (elsewhere : ∀ q ∈ others.after, apart q p ≠ 0) (number_le : number ≤ Track.maxFrame) :
    ∃ T', (tracker.afterFrame p number others).Held p number (k + 1) T' := by
  have earlier := h.earlier_sightings finite tolerant ordered spare
  have ordered := ordered.observeAll number others.before
  obtain ⟨T', held⟩ := earlier.sighting finite (by simpa using tolerant) ordered new
  have later := held.later_sightings finite (ordered.observe ..) others.after (.inr elsewhere)
  refine ⟨T', ?_⟩
  rw [Tracker.afterFrame, observeAll_append]
  exact later.prune finite number_le

theorem lastAnswer (h : tracker.Held p frame k T) (ordered : tracker.Ordered)
    {last : List (Float × Float)} {frames : List Others}
    (undisturbed : tracker.Undisturbed p (frame + 1) last frames)
    (frames_le : frame + frames.length ≤ Track.maxFrame)
    (streak_le : tracker.rules.confirmationStreak ≤ Track.maxCount)
    (enough : tracker.rules.confirmationStreak ≤ k + frames.length + 2) :
    tracker.lastAnswer p (frame + 1) last frames = .confirmed := by
  have new : frame ≠ frame + 1 := by omega
  induction frames generalizing tracker frame k T with
  | nil =>
    have earlier := h.earlier_sightings finite tolerant ordered undisturbed
    exact earlier.confirmed finite (by simpa using tolerant) (ordered.observeAll ..) new
      (by simpa using streak_le) (by simpa using enough)
  | cons others rest ih =>
    obtain ⟨spare, elsewhere, undisturbed⟩ := undisturbed
    rw [List.length_cons] at frames_le enough
    obtain ⟨T', held⟩ := h.afterFrame finite tolerant ordered new spare elsewhere (by omega)
    have rules_eq := tracker.afterFrame_rules p (frame + 1) others
    rw [← rules_eq] at tolerant streak_le enough
    exact ih tolerant held (ordered.afterFrame ..) undisturbed (by omega) streak_le (by omega)
      (by omega)

end Held

theorem exists_held_afterFrame (ordered : tracker.Ordered) (others : Others)
    (frame_le : frame ≤ Track.maxFrame) :
    ∃ T, (tracker.afterFrame p frame others).Held p frame 0 T := by
  have ordered := ordered.observeAll frame others.before
  obtain ⟨T, held⟩ := exists_held (p := p) (by simpa using tolerant) ordered frame
  have later := held.later_sightings finite (ordered.observe ..) others.after (.inl rfl)
  refine ⟨T, ?_⟩
  rw [Tracker.afterFrame, observeAll_append]
  exact later.prune finite frame_le

end

/-- Whatever was done to a tracker before, a finite position that is seen on as many consecutive
frames as the streak asks for, and on two at least, is confirmed on the last of them, if nothing
interferes with it after the first. On the first frame, anything may be seen besides. Nothing
interferes if after the first frame all that is seen before it is out of reach, and what is seen
after it is not at the same place. -/
theorem steady_confirmed (classId : UInt8) (rules : TrackingRules Float)
    (calls : List (TrackerCall Float)) (p : Float × Float) (frame : Nat) (first : Others)
    (between : List Others) (last : List (Float × Float))
    (tolerant : 0 ≤ rules.distanceTolerance)
    (finite : p.1.isFinite = true ∧ p.2.isFinite = true)
    (streak_le : rules.confirmationStreak ≤ Track.maxCount)
    (enough : rules.confirmationStreak ≤ between.length + 2)
    (last_le : frame + between.length + 1 ≤ Track.maxFrame) :
    let tracker := (start classId rules).afterCalls calls
    let started := tracker.afterFrame p frame first
    (started.Undisturbed p (frame + 1) last between →
      tracker.lastAnswer p frame last (first :: between) = .confirmed) ∧
    ((∀ others ∈ between, (∀ q ∈ others.before, ¬ apart q p ≤ rules.distanceTolerance) ∧
        ∀ q ∈ others.after, apart q p ≠ 0) →
      (∀ q ∈ last, ¬ apart q p ≤ rules.distanceTolerance) →
        started.Undisturbed p (frame + 1) last between) := by
  intro tracker started
  have rules_eq : started.rules = rules :=
    (tracker.afterFrame_rules p frame first).trans (afterCalls_rules ..)
  refine ⟨fun undisturbed => ?_, fun far last_far => ?_⟩
  · have ordered : tracker.Ordered := (Ordered.start classId rules).afterCalls calls
    have frame_le : frame ≤ Track.maxFrame := by omega
    obtain ⟨T, held⟩ : ∃ T, started.Held p frame 0 T :=
      exists_held_afterFrame finite (by rwa [afterCalls_rules]) ordered first frame_le
    rw [← rules_eq] at tolerant streak_le enough
    exact held.lastAnswer finite tolerant (ordered.afterFrame ..) undisturbed (by omega)
      streak_le (by omega)
  · rw [← rules_eq] at far last_far
    exact undisturbed_of_far far last_far

/-- There is a track near by already, a neighbor that keeps its own track though it is always seen
first, and another that comes and goes. -/
theorem steady_confirmed_beside_a_neighbor :
    let rules : TrackingRules Float := ⟨4, 3, 10⟩
    let tracker := (start 2 rules).afterCalls [.observe 1 0 0, .prune 0]
    let first : Others := ⟨[(5, 0)], [(100, 0)]⟩
    let between : List Others := [⟨[(5, 0), (100, 0)], [(6, 0)]⟩, ⟨[(4, 0)], []⟩]
    0 ≤ rules.distanceTolerance ∧ rules.confirmationStreak = between.length + 2 ∧
      (tracker.afterFrame (0, 0) 1 first).Undisturbed (0, 0) 2 [(6, 0)] between ∧
      tracker.lastAnswer (0, 0) 1 [(6, 0)] (first :: between) = .confirmed := by
  intro rules tracker first between
  have tolerant : 0 ≤ rules.distanceTolerance := by decide +kernel
  have finite : (0 : Float).isFinite = true ∧ (0 : Float).isFinite = true := by decide +kernel
  have undisturbed :
      (tracker.afterFrame (0, 0) 1 first).Undisturbed (0, 0) 2 [(6, 0)] between := by
    decide +kernel
  obtain ⟨confirmed, -⟩ :=
    steady_confirmed 2 rules [.observe 1 0 0, .prune 0] (0, 0) 1 first between [(6, 0)] tolerant
      finite (by decide) (by decide) (by decide)
  exact ⟨tolerant, rfl, undisturbed, confirmed undisturbed⟩

/-- What is seen at the same place all the time need not be confirmed: a sighting before it may take
its track, a second one at the same place may bring an older track there, and nothing is near with
a negative tolerance or at infinity. -/
theorem steady_not_confirmed :
    let alone : Others := ⟨[], []⟩
    let rules (streak : Nat) (tolerance : Float) : TrackingRules Float := ⟨streak, 3, tolerance⟩
    (start 2 (rules 2 10)).lastAnswer (0, 0) 1 [(5, 0)] [alone] = .provisional ∧
    (start 2 (rules 4 10)).lastAnswer (0, 0) 1 [] [⟨[(8, 0)], []⟩, alone, ⟨[], [(0, 0)]⟩] =
      .provisional ∧
    (start 2 (rules 2 (-1))).lastAnswer (0, 0) 1 [] [alone] = .provisional ∧
    (start 2 (rules 2 10)).lastAnswer (1 / 0, 0) 1 [] [alone] = .provisional := by
  decide +kernel

end Tracker

end ObjectTracking
