import Mathlib.Data.List.Forall2
import ObjectTracking.Proofs.Tracking.Calls
import ObjectTracking.Proofs.Tracking.Stamps

/-!
# One track for each sighting

A sighting goes to the nearest of the tracks that can take it, and of equally near ones to the
oldest; it starts a track if there is none (`Tracker.Chosen`). What took a sighting is stamped with
the frame and takes no other on it, so the sightings of a frame and the tracks they leave there
belong together one to one, and all other tracks stay as they were (`Tracker.Placed`).
-/

namespace ObjectTracking

/-- Numbers of which the smallest is found by a rank. -/
class Scalar.Ranked (α : Type) [Scalar α] where
  rank : α → Int
  before_eq (a b : α) : Scalar.before a b = decide (rank a < rank b)

instance : Scalar.Ranked Float := ⟨Double.rank, fun _ _ => rfl⟩

/-- What is no number is not at most anything, nor is anything at most that. -/
theorem Scalar.not_le_of_isNaN {a b : Float} (h : a.isNaN = true ∨ b.isNaN = true) :
    Scalar.le a b = false := by
  have unordered : Float.Model.le a.toModel b.toModel = false := by
    simp only [Float.isNaN, Float.Model.isNaN] at h
    simp only [Float.Model.le]
    generalize a.toModel.unpack = a at h ⊢
    generalize b.toModel.unpack = b at h ⊢
    cases a <;> cases b <;> rcases h with h | h <;> cases h <;> rfl
  refine decide_eq_false fun le => ?_
  exact Bool.false_ne_true (unordered.symm.trans (of_decide_eq_true le))

namespace Track
variable {α : Type}

/-- Where the track is. -/
def place (t : Track α) : α × α := (t.x, t.y)

/-- The track is what it was, or has moved to one of the positions. -/
def MovedOnce (frame : Nat) (positions : List (α × α)) (t t' : Track α) : Prop :=
  t' = t ∨ ∃ p ∈ positions, t' = t.moveTo p.1 p.2 frame

variable [Scalar α]

def distance (t : Track α) (x y : α) : α := Scalar.hypot (t.x - x) (t.y - y)

/-- The track was not seen on the frame yet and is near enough. -/
structure CanTake (rules : TrackingRules α) (x y : α) (frame : Nat) (t : Track α) : Prop where
  unseen : t.lastSeen ≠ frame
  near : Scalar.le (t.distance x y) rules.distanceTolerance = true

/-- Nearer tracks come first, and older ones among the equally near. -/
def ComesFirst (x y : α) (t t' : Track α) : Prop :=
  Scalar.before (t.distance x y) (t'.distance x y) = true ∨
    Scalar.before (t'.distance x y) (t.distance x y) = false ∧ t.id ≤ t'.id

end Track

namespace Tracker
variable {α : Type} [Scalar α] {tracker : Tracker α} {x y : α} {frame : Nat}

theorem reach?_eq_some_iff {rules : TrackingRules α} {t : Track α} {distance : α} :
    reach? rules.distanceTolerance x y frame t = some distance ↔
      t.CanTake rules x y frame ∧ distance = t.distance x y := by
  constructor
  · intro h
    obtain ⟨unseen, near⟩ := of_reach?_eq_some h
    have near' : Scalar.le (Scalar.hypot (t.x - x) (t.y - y)) rules.distanceTolerance = true := near
    simp only [reach?, if_neg unseen, if_pos near', Option.some.injEq] at h
    exact ⟨⟨unseen, near⟩, h.symm⟩
  · rintro ⟨⟨unseen, near⟩, rfl⟩
    have near' : Scalar.le (Scalar.hypot (t.x - x) (t.y - y)) rules.distanceTolerance = true := near
    simp only [reach?, if_neg unseen, if_pos near']
    rfl

/-! ### The nearest track -/

section
variable [Scalar.Ranked α] {reach : Track α → Option α} {tracks : List (Track α)}
  {nearest : Candidate α}

open Scalar.Ranked (rank)

/-- The first of the nearest: what comes before it is farther away, what comes after it is no
nearer. -/
theorem nearest?_splits (h : nearest? reach tracks = some nearest) :
    ∃ before after, tracks = before ++ nearest.track :: after ∧ nearest.index = before.length ∧
      (∀ t ∈ before, ∀ d, reach t = some d → rank nearest.distance < rank d) ∧
      ∀ t ∈ after, ∀ d, reach t = some d → rank nearest.distance ≤ rank d := by
  induction tracks generalizing nearest with
  | nil => cases h
  | cons track rest ih =>
    -- a candidate among the later ones keeps its place behind this one if it is nearer
    have later : ∀ c,
        (nearest? reach rest).map (fun c => { c with index := c.index + 1 }) = some c →
        (∀ d, reach track = some d → rank c.distance < rank d) →
        ∃ before after, track :: rest = before ++ c.track :: after ∧ c.index = before.length ∧
          (∀ t ∈ before, ∀ d, reach t = some d → rank c.distance < rank d) ∧
          ∀ t ∈ after, ∀ d, reach t = some d → rank c.distance ≤ rank d := by
      intro c hc nearer
      obtain ⟨c', hc', rfl⟩ := Option.map_eq_some_iff.1 hc
      obtain ⟨before, after, rfl, index_eq, hbefore, hafter⟩ := ih hc'
      exact ⟨track :: before, after, rfl, congrArg (· + 1) index_eq,
        List.forall_mem_cons.2 ⟨nearer, hbefore⟩, hafter⟩
    simp only [nearest?] at h
    split at h
    · rename_i hreach
      exact later _ h fun d hd => by cases hreach.symm.trans hd
    · rename_i distance hreach hlater
      obtain rfl := Option.some.inj h
      refine ⟨[], rest, rfl, rfl, List.forall_mem_nil _, fun t ht d hd => ?_⟩
      have none_later := of_nearest?_eq_none (Option.map_eq_none_iff.1 hlater) t ht
      cases none_later.symm.trans hd
    · rename_i distance c hreach hlater
      rw [Scalar.Ranked.before_eq] at h
      split at h
      · rename_i nearer
        obtain rfl := Option.some.inj h
        refine later _ hlater fun d hd => ?_
        obtain rfl := Option.some.inj (hreach.symm.trans hd)
        exact of_decide_eq_true nearer
      · rename_i no_nearer
        obtain rfl := Option.some.inj h
        refine ⟨[], rest, rfl, rfl, List.forall_mem_nil _, fun t ht d hd => ?_⟩
        obtain ⟨c', hc', rfl⟩ := Option.map_eq_some_iff.1 hlater
        obtain ⟨before, after, rfl, -, hbefore, hafter⟩ := ih hc'
        have le : rank distance ≤ rank c'.distance := by simpa using no_nearer
        rcases List.mem_append.1 ht with ht | ht
        · exact le.trans (hbefore t ht d hd).le
        · rcases List.mem_cons.1 ht with rfl | ht
          · obtain rfl := Option.some.inj ((of_nearest?_eq_some hc').2.symm.trans hd)
            exact le
          · exact le.trans (hafter t ht d hd)

end

/-- The track that a sighting goes to. -/
structure Takes (tracker : Tracker α) (x y : α) (frame : Nat) (t : Track α) : Prop where
  mem : t ∈ tracker.tracks
  can : t.CanTake tracker.rules x y frame
  first : ∀ t' ∈ tracker.tracks, t'.CanTake tracker.rules x y frame → t.ComesFirst x y t'

/-- What comes of a sighting: the track that takes it moves there, or else a track is born. -/
inductive Chosen (tracker : Tracker α) (x y : α) (frame : Nat) : Tracker α × TrackState → Prop
  | moved {before after : List (Track α)} {t : Track α}
      (tracks_eq : tracker.tracks = before ++ t :: after) (takes : tracker.Takes x y frame t) :
      Chosen tracker x y frame
        ({ tracker with tracks := before ++ t.moveTo x y frame :: after },
          (t.moveTo x y frame).state tracker.rules)
  | born (none_can : ∀ t ∈ tracker.tracks, ¬ t.CanTake tracker.rules x y frame) :
      Chosen tracker x y frame
        ({ tracker with
            tracks := tracker.tracks ++ [⟨tracker.nextId, tracker.classId, x, y, frame, 0⟩]
            nextId := tracker.nextId + 1 }, .provisional)

theorem Ordered.chosen [Scalar.Ranked α] (h : tracker.Ordered) (x y : α) (frame : Nat) :
    tracker.Chosen x y frame (tracker.observe x y frame) := by
  cases hnearest : nearest? (reach? tracker.rules.distanceTolerance x y frame) tracker.tracks with
  | none =>
    simp only [Tracker.observe, hnearest]
    refine .born fun t ht can => ?_
    have out_of_reach := of_nearest?_eq_none hnearest t ht
    cases out_of_reach.symm.trans (reach?_eq_some_iff.2 ⟨can, rfl⟩)
  | some nearest =>
    obtain ⟨before, after, tracks_eq, index_eq, hbefore, hafter⟩ := nearest?_splits hnearest
    obtain ⟨can, distance_eq⟩ := reach?_eq_some_iff.1 (of_nearest?_eq_some hnearest).2
    rw [distance_eq] at hbefore hafter
    have sorted := h.sorted
    rw [tracks_eq, List.map_append, List.map_cons, List.pairwise_append,
      List.pairwise_cons] at sorted
    obtain ⟨-, ⟨older, -⟩, -⟩ := sorted
    have takes : tracker.Takes x y frame nearest.track := by
      refine ⟨by simp [tracks_eq], can, fun t ht can' => ?_⟩
      have hreach := reach?_eq_some_iff.2 ⟨can', rfl⟩
      unfold Track.ComesFirst
      rw [Scalar.Ranked.before_eq, Scalar.Ranked.before_eq, decide_eq_true_iff,
        decide_eq_false_iff_not, Int.not_lt]
      rw [tracks_eq] at ht
      rcases List.mem_append.1 ht with ht | ht
      · exact .inl (hbefore t ht _ hreach)
      · rcases List.mem_cons.1 ht with rfl | ht
        · exact .inr ⟨le_rfl, le_rfl⟩
        · exact .inr ⟨hafter t ht _ hreach, (older _ (List.mem_map_of_mem ht)).le⟩
    have set_eq : tracker.tracks.set nearest.index (nearest.track.moveTo x y frame) =
        before ++ nearest.track.moveTo x y frame :: after := by
      rw [tracks_eq, index_eq, List.set_append_right _ _ le_rfl, Nat.sub_self, List.set_cons_zero]
    simp only [Tracker.observe, hnearest, set_eq]
    exact .moved tracks_eq takes

/-! ### The sightings of a frame -/

/-- Takes the sightings of a frame, one after the other. -/
def observeAll (tracker : Tracker α) (frame : Nat) (positions : List (α × α)) : Tracker α :=
  positions.foldl (fun tracker p => (tracker.observe p.1 p.2 frame).1) tracker

/-- What the sightings of a frame have made of the tracks there were: the tracks stamped with the
frame are at the positions, one at each; the old tracks are all there and have moved once at most;
and the others are new. -/
structure Placed {α : Type} (old : Tracker α) (frame : Nat) (positions : List (α × α))
    (tracker : Tracker α) : Prop where
  places : ((tracker.tracks.filter (·.lastSeen = frame)).map Track.place).Perm positions
  nextId_le : old.nextId ≤ tracker.nextId
  tracks : ∃ kept new, tracker.tracks = kept ++ new ∧
    List.Forall₂ (Track.MovedOnce frame positions) old.tracks kept ∧
    ∀ t ∈ new, t.lastSeen = frame ∧ t.lifetime = 0 ∧ old.nextId ≤ t.id

theorem forall₂_split {β γ : Type} {R : β → γ → Prop} {xs : List β} {before after : List γ} {y : γ}
    (h : List.Forall₂ R xs (before ++ y :: after)) :
    ∃ before' x after', xs = before' ++ x :: after' ∧
      List.Forall₂ R before' before ∧ R x y ∧ List.Forall₂ R after' after := by
  induction before generalizing xs with
  | nil =>
    obtain ⟨x, after', hx, hafter, rfl⟩ := List.forall₂_cons_right_iff.1 h
    exact ⟨[], x, after', rfl, .nil, hx, hafter⟩
  | cons z before ih =>
    obtain ⟨w, rest, hw, hrest, rfl⟩ := List.forall₂_cons_right_iff.1 h
    obtain ⟨before', x, after', rfl, hbefore, hx, hafter⟩ := ih hrest
    exact ⟨w :: before', x, after', rfl, .cons hw hbefore, hx, hafter⟩

namespace Placed
variable {old : Tracker α} {positions : List (α × α)}

omit [Scalar α] in
theorem start (unseen : ∀ t ∈ tracker.tracks, t.lastSeen ≠ frame) :
    Placed tracker frame [] tracker where
  places := by
    rw [List.filter_eq_nil_iff.2 fun t ht => by simpa using unseen t ht]
    exact .nil
  nextId_le := le_rfl
  tracks := ⟨tracker.tracks, [], (List.append_nil _).symm,
    List.forall₂_same.2 fun _ _ => .inl rfl, List.forall_mem_nil _⟩

omit [Scalar α] in
theorem movedOnce_more (more : List (α × α)) {tracks kept : List (Track α)}
    (h : List.Forall₂ (Track.MovedOnce frame positions) tracks kept) :
    List.Forall₂ (Track.MovedOnce frame (positions ++ more)) tracks kept :=
  h.imp fun _ _ moved => moved.imp_right fun ⟨p, hp, eq⟩ => ⟨p, List.mem_append_left _ hp, eq⟩

omit [Scalar α] in
/-- A track that was not seen on the frame moves. It is an old one, as it was before the frame. -/
theorem moved (h : Placed old frame positions tracker) {before after : List (Track α)} {t : Track α}
    (tracks_eq : tracker.tracks = before ++ t :: after) (unseen : t.lastSeen ≠ frame) (x y : α) :
    Placed old frame (positions ++ [(x, y)])
      { tracker with tracks := before ++ t.moveTo x y frame :: after } := by
  obtain ⟨places, nextId_le, kept, new, split, paired, hnew⟩ := h
  refine ⟨?places, nextId_le, ?tracks⟩
  case places =>
    have stamp : (t.moveTo x y frame).lastSeen = frame := rfl
    rw [tracks_eq, List.filter_append, List.filter_cons_of_neg (by simpa using unseen)] at places
    rw [List.filter_append, List.filter_cons_of_pos (by simpa using stamp), List.map_append,
      List.map_cons]
    rw [List.map_append] at places
    exact List.perm_middle.trans
      ((places.cons (x, y)).trans (List.perm_append_singleton _ _).symm)
  case tracks =>
    -- new tracks are stamped, so the one that moves is among those that were kept
    obtain ⟨rest, rfl, rfl⟩ : ∃ rest, kept = before ++ t :: rest ∧ after = rest ++ new := by
      rcases List.append_eq_append_iff.1 (split.symm.trans tracks_eq) with
        ⟨more, before_eq, new_eq⟩ | ⟨more, kept_eq, after_eq⟩
      · have ht : t ∈ new := new_eq ▸ List.mem_append_right _ (List.mem_cons_self ..)
        exact absurd (hnew t ht).1 unseen
      · cases more with
        | nil =>
          have ht : t ∈ new := by
            rw [List.nil_append] at after_eq
            exact after_eq ▸ List.mem_cons_self ..
          exact absurd (hnew t ht).1 unseen
        | cons t' rest =>
          obtain ⟨rfl, rest_eq⟩ := List.cons.inj after_eq
          exact ⟨rest, kept_eq, rest_eq⟩
    obtain ⟨before', t', after', old_eq, hbefore, moved, hafter⟩ := forall₂_split paired
    obtain rfl : t = t' := by
      rcases moved with same | ⟨p, -, rfl⟩
      · exact same
      · exact absurd rfl unseen
    refine ⟨before ++ t.moveTo x y frame :: rest, new, by simp, ?_, hnew⟩
    rw [old_eq]
    refine List.rel_append (movedOnce_more _ hbefore) (.cons ?_ (movedOnce_more _ hafter))
    exact .inr ⟨(x, y), by simp, rfl⟩

omit [Scalar α] in
theorem born (h : Placed old frame positions tracker) (x y : α) :
    Placed old frame (positions ++ [(x, y)])
      { tracker with
        tracks := tracker.tracks ++ [⟨tracker.nextId, tracker.classId, x, y, frame, 0⟩]
        nextId := tracker.nextId + 1 } := by
  obtain ⟨places, nextId_le, kept, new, split, paired, hnew⟩ := h
  refine ⟨?places, nextId_le.trans (Nat.le_succ _), kept,
    new ++ [⟨tracker.nextId, tracker.classId, x, y, frame, 0⟩], ?split,
    movedOnce_more _ paired, ?new⟩
  case places =>
    rw [List.filter_append, List.filter_cons_of_pos (by simp), List.map_append]
    exact places.append_right _
  case split =>
    rw [← List.append_assoc, ← split]
  case new =>
    exact List.forall_mem_append.2 ⟨hnew, List.forall_mem_singleton.2 ⟨rfl, rfl, nextId_le⟩⟩

theorem observe (h : Placed old frame positions tracker) (x y : α) :
    Placed old frame (positions ++ [(x, y)]) (tracker.observe x y frame).1 := by
  have did := tracker.observation x y frame
  generalize tracker.taker x y frame = taker at did
  generalize tracker.observe x y frame = observed at did ⊢
  cases did with
  | moved tracks_eq unseen => exact h.moved tracks_eq unseen x y
  | started => exact h.born x y

theorem observeAll (h : Placed old frame positions tracker) (more : List (α × α)) :
    Placed old frame (positions ++ more) (tracker.observeAll frame more) := by
  induction more generalizing tracker positions with
  | nil => exact (List.append_nil positions).symm ▸ h
  | cons p rest ih =>
    rw [List.append_cons]
    exact ih (h.observe p.1 p.2)

omit [Scalar α] in
theorem stamped_eq (h : Placed old frame positions tracker) :
    tracker.stamped frame = positions.length := by
  rw [stamped, List.countP_eq_length_filter, ← h.places.length_eq, List.length_map]

end Placed

/-- Whatever was done to a tracker before, a sighting goes to the nearest track that can take it,
the oldest of equally near ones, which moves there; if there is none, a track is born. A track from
which the distance is no number can take none, nor can any if the tolerance is no number. If no
track was seen on a frame yet, any number of sightings on it leave just as many tracks with that
stamp, one at each of their positions; the old tracks are all kept, as they were or moved to one of
the positions, and the others are new. -/
theorem observed_one_to_one (classId : UInt8) (rules : TrackingRules Float)
    (calls : List (TrackerCall Float)) :
    let tracker := (start classId rules).afterCalls calls
    (∀ x y frame, tracker.Chosen x y frame (tracker.observe x y frame)) ∧
    (∀ (t : Track Float) x y frame,
      (t.distance x y).isNaN = true ∨ tracker.rules.distanceTolerance.isNaN = true →
        ¬ t.CanTake tracker.rules x y frame) ∧
    ∀ frame, (∀ t ∈ tracker.tracks, t.lastSeen ≠ frame) → ∀ positions,
      let after := tracker.observeAll frame positions
      after.stamped frame = positions.length ∧
      ((after.tracks.filter (·.lastSeen = frame)).map Track.place).Perm positions ∧
      ∃ kept new, after.tracks = kept ++ new ∧
        List.Forall₂ (Track.MovedOnce frame positions) tracker.tracks kept ∧
        ∀ t ∈ new, t.lastSeen = frame ∧ t.lifetime = 0 ∧ tracker.nextId ≤ t.id := by
  intro tracker
  have ordered : tracker.Ordered := (Ordered.start classId rules).afterCalls calls
  refine ⟨ordered.chosen, fun t x y frame unordered can => ?_, fun frame unseen positions => ?_⟩
  · exact Bool.false_ne_true ((Scalar.not_le_of_isNaN unordered).symm.trans can.near)
  · have placed : Placed tracker frame positions (tracker.observeAll frame positions) :=
      (Placed.start unseen).observeAll positions
    exact ⟨placed.stamped_eq, placed.places, placed.tracks⟩

/-- Two tracks, of which the second is nearer to the first sighting and none to the second. -/
theorem one_to_one_beside_a_birth :
    let rules : TrackingRules Float := ⟨3, 3, 10⟩
    let tracker := (start 2 rules).afterCalls [.observe 0 0 1, .observe 8 0 1, .prune 1]
    let after := tracker.observeAll 2 [(7, 0), (100, 0)]
    (∀ t ∈ tracker.tracks, t.lastSeen ≠ 2) ∧ after.stamped 2 = 2 ∧
      ((after.tracks.filter (·.lastSeen = 2)).map Track.place).Perm [(7, 0), (100, 0)] ∧
      after.tracks.map (fun t => (t.id, t.lifetime)) = [(0, 0), (1, 1), (2, 0)] := by
  intro rules tracker after
  have unseen : ∀ t ∈ tracker.tracks, t.lastSeen ≠ 2 := by decide +kernel
  obtain ⟨-, -, one_to_one⟩ :=
    observed_one_to_one 2 rules [.observe 0 0 1, .observe 8 0 1, .prune 1]
  obtain ⟨count, places, -⟩ := one_to_one 2 unseen [(7, 0), (100, 0)]
  exact ⟨unseen, count, places, by decide +kernel⟩

end Tracker

end ObjectTracking
