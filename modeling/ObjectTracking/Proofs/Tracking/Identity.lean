import Mathlib.Data.List.Induction
import ObjectTracking.Proofs.Steps
import ObjectTracking.Proofs.Tracking.Calls

/-!
# An id belongs to one track for good

However a tracker is called, the ids that come up are 0, 1, 2 and so on, each of them once, whatever
is dropped or cleared in between (`Tracker.Ordered.range_append_idsGiven`). A track whose id was
given out before is a track of that time, moved along by some of the sightings since
(`Tracker.Continues`).
-/

namespace ObjectTracking

/-- A sighting as a tracker is told of it. -/
structure Spot (α : Type) where
  x : α
  y : α
  frame : Nat

namespace TrackerCall
variable {α : Type}

def spot? : TrackerCall α → Option (Spot α)
  | .observe x y frame => some ⟨x, y, frame⟩
  | .prune _ | .clear => none

/-- The sightings among some calls. -/
def spots (calls : List (TrackerCall α)) : List (Spot α) := calls.filterMap spot?

theorem spots_cons (c : TrackerCall α) (rest : List (TrackerCall α)) :
    spots (c :: rest) = c.spot?.toList ++ spots rest :=
  filterMap_cons_toList ..

theorem spots_append (first later : List (TrackerCall α)) :
    spots (first ++ later) = spots first ++ spots later :=
  List.filterMap_append

end TrackerCall

/-! ### One track -/

namespace Track
variable {α : Type} {t : Track α} {classId : UInt8} {spots more moves : List (Spot α)}

/-- The track after some sightings of it, one after the other. -/
def moveAlong (t : Track α) (moves : List (Spot α)) : Track α :=
  moves.foldl (fun t s => t.moveTo s.x s.y s.frame) t

theorem moveAlong_append (t : Track α) (moves more : List (Spot α)) :
    t.moveAlong (moves ++ more) = (t.moveAlong moves).moveAlong more :=
  List.foldl_append

@[simp] theorem moveAlong_id (t : Track α) (moves : List (Spot α)) :
    (t.moveAlong moves).id = t.id := by
  induction moves generalizing t with
  | nil => rfl
  | cons s rest ih => exact ih _

@[simp] theorem moveAlong_classId (t : Track α) (moves : List (Spot α)) :
    (t.moveAlong moves).classId = t.classId := by
  induction moves generalizing t with
  | nil => rfl
  | cons s rest ih => exact ih _

/-- The count goes up with every move until it is as large as it gets. -/
theorem moveAlong_lifetime (counted : t.lifetime ≤ maxCount) (moves : List (Spot α)) :
    (t.moveAlong moves).lifetime = min (t.lifetime + moves.length) maxCount := by
  induction moves generalizing t with
  | nil => exact (Nat.min_eq_left counted).symm
  | cons s rest ih =>
    have counted' : (t.moveTo s.x s.y s.frame).lifetime ≤ maxCount := Nat.min_le_right ..
    refine (ih counted').trans ?_
    simp only [moveTo, List.length_cons]
    omega

theorem moveAlong_lastSeen (t : Track α) (moves : List (Spot α)) :
    (t.moveAlong moves).lastSeen = t.lastSeen ∨
      ∃ s ∈ moves, (t.moveAlong moves).lastSeen = s.frame := by
  induction moves using List.reverseRecOn with
  | nil => exact .inl rfl
  | append_singleton moves s =>
    rw [moveAlong_append]
    exact .inr ⟨s, List.mem_append_right _ (List.mem_singleton.2 rfl), rfl⟩

/-- A track of the class that was seen at some of the spots, and last at one of them. -/
structure SeenAt (classId : UInt8) (spots : List (Spot α)) (t : Track α) : Prop where
  class_eq : t.classId = classId
  counted : t.lifetime ≤ maxCount
  stamp : ∃ s ∈ spots, t.lastSeen = s.frame

namespace SeenAt

theorem moveAlong (h : t.SeenAt classId spots) (moves_sub : moves.Sublist more) :
    (t.moveAlong moves).SeenAt classId (spots ++ more) := by
  refine ⟨(t.moveAlong_classId moves).trans h.class_eq, ?counted, ?stamp⟩
  case counted =>
    rw [moveAlong_lifetime h.counted]
    exact Nat.min_le_right ..
  case stamp =>
    rcases t.moveAlong_lastSeen moves with unseen | ⟨s, hs, seen⟩
    · obtain ⟨s, hs, stamp⟩ := h.stamp
      exact ⟨s, List.mem_append_left _ hs, unseen.trans stamp⟩
    · exact ⟨s, List.mem_append_right _ (moves_sub.subset hs), seen⟩

theorem le_lifetime (h : t.SeenAt classId spots) (moves : List (Spot α)) :
    t.lifetime ≤ (t.moveAlong moves).lifetime := by
  have counted := h.counted
  rw [moveAlong_lifetime counted]
  omega

/-- If the frames never go back, a track is not last seen earlier than it was. -/
theorem le_lastSeen (h : t.SeenAt classId spots) (moves_sub : moves.Sublist more)
    (forward : ((spots ++ more).map (·.frame)).Pairwise (· ≤ ·)) :
    t.lastSeen ≤ (t.moveAlong moves).lastSeen := by
  rcases t.moveAlong_lastSeen moves with unseen | ⟨s', hs', seen⟩
  · exact Nat.le_of_eq unseen.symm
  · obtain ⟨s, hs, stamp⟩ := h.stamp
    have later : s.frame ≤ s'.frame :=
      (List.pairwise_append.1 (List.pairwise_map.1 forward)).2.2 s hs s' (moves_sub.subset hs')
    rwa [stamp, seen]

end SeenAt

end Track

namespace Tracker
variable {α : Type} [Scalar α] {tracker later latest : Tracker α} {c : TrackerCall α}
  {t : Track α} {spots more : List (Spot α)}

/-! ### One call -/

/-- The track that a sighting starts. -/
def born {α : Type} (tracker : Tracker α) (s : Spot α) : Track α :=
  ⟨tracker.nextId, tracker.classId, s.x, s.y, s.frame, 0⟩

namespace Observation
variable {x y : α} {frame id : Nat} {observed : Tracker α × TrackState}

theorem classId_eq (did : tracker.Observation x y frame id observed) :
    observed.1.classId = tracker.classId := by
  cases did <;> rfl

/-- A track that is there after a sighting was there before, has moved to it, or is born of it. -/
theorem mem_cases (did : tracker.Observation x y frame id observed) (ht : t ∈ observed.1.tracks) :
    t ∈ tracker.tracks ∨ (∃ t' ∈ tracker.tracks, t = t'.moveTo x y frame) ∨
      t = tracker.born ⟨x, y, frame⟩ := by
  cases did with
  | @moved before after track tracks_eq =>
    have held : ∀ t ∈ before ++ track :: after, t ∈ tracker.tracks := fun t ht => tracks_eq ▸ ht
    obtain ⟨held_before, held_after⟩ := List.forall_mem_append.1 held
    obtain ⟨held_track, held_after⟩ := List.forall_mem_cons.1 held_after
    rcases List.mem_append.1 ht with ht | ht
    · exact .inl (held_before t ht)
    · rcases List.mem_cons.1 ht with rfl | ht
      · exact .inr (.inl ⟨track, held_track, rfl⟩)
      · exact .inl (held_after t ht)
  | started =>
    rcases List.mem_append.1 ht with ht | ht
    · exact .inl ht
    · exact .inr (.inr (List.mem_singleton.1 ht))

end Observation

/-- A track that is there after a call was there before, and may have moved, or is a new one. -/
theorem of_mem_call (ht : t ∈ (tracker.call c).tracks) :
    (∃ t' ∈ tracker.tracks, ∃ moves, moves.Sublist c.spot?.toList ∧ t = t'.moveAlong moves) ∨
      ∃ s, c.spot? = some s ∧ t = tracker.born s := by
  have still (held : t ∈ tracker.tracks) :
      ∃ t' ∈ tracker.tracks, ∃ moves, moves.Sublist c.spot?.toList ∧ t = t'.moveAlong moves :=
    ⟨t, held, [], List.nil_sublist _, rfl⟩
  cases c with
  | observe x y frame =>
    rcases (tracker.observation x y frame).mem_cases ht with held | ⟨t', ht', rfl⟩ | rfl
    · exact .inl (still held)
    · exact .inl ⟨t', ht', [⟨x, y, frame⟩], List.Sublist.refl _, rfl⟩
    · exact .inr ⟨⟨x, y, frame⟩, rfl, rfl⟩
  | prune frame => exact .inl (still (List.mem_filter.1 ht).1)
  | clear => exact absurd ht List.not_mem_nil

/-- No new id comes up, or the next one does, at the end and with a sighting. -/
theorem ids_call (tracker : Tracker α) (c : TrackerCall α) :
    ((tracker.call c).tracks.map (·.id)).Sublist (tracker.tracks.map (·.id)) ∧
        (tracker.call c).nextId = tracker.nextId ∨
      (tracker.call c).tracks.map (·.id) = tracker.tracks.map (·.id) ++ [tracker.nextId] ∧
        (tracker.call c).nextId = tracker.nextId + 1 ∧ c.spot?.isSome := by
  cases c with
  | observe x y frame =>
    rcases (tracker.observation x y frame).ids with ⟨ids_eq, nextId_eq⟩ | ⟨ids_eq, nextId_eq⟩
    · exact .inl ⟨ids_eq ▸ List.Sublist.refl _, nextId_eq⟩
    · exact .inr ⟨ids_eq, nextId_eq, rfl⟩
  | prune frame => exact .inl ⟨List.filter_sublist.map _, rfl⟩
  | clear => exact .inl ⟨List.nil_sublist _, rfl⟩

theorem nextId_call_le (tracker : Tracker α) (c : TrackerCall α) :
    tracker.nextId ≤ (tracker.call c).nextId ∧
      (tracker.call c).nextId ≤ tracker.nextId + c.spot?.toList.length := by
  rcases tracker.ids_call c with ⟨-, nextId_eq⟩ | ⟨-, nextId_eq, seen⟩
  · omega
  · obtain ⟨s, hs⟩ := Option.isSome_iff_exists.1 seen
    simp [nextId_eq, hs]

theorem classId_call (tracker : Tracker α) (c : TrackerCall α) :
    (tracker.call c).classId = tracker.classId := by
  cases c with
  | observe x y frame => exact (tracker.observation x y frame).classId_eq
  | prune frame => rfl
  | clear => rfl

/-! ### Calls in a row -/

theorem nextId_afterCalls_le (tracker : Tracker α) (calls : List (TrackerCall α)) :
    (tracker.afterCalls calls).nextId ≤ tracker.nextId + (TrackerCall.spots calls).length := by
  induction calls generalizing tracker with
  | nil => exact Nat.le_refl _
  | cons c rest ih =>
    have now := (tracker.nextId_call_le c).2
    have later := ih (tracker.call c)
    simp only [afterCalls, List.foldl_cons, TrackerCall.spots_cons, List.length_append] at later ⊢
    omega

theorem classId_afterCalls (tracker : Tracker α) (calls : List (TrackerCall α)) :
    (tracker.afterCalls calls).classId = tracker.classId := by
  induction calls generalizing tracker with
  | nil => rfl
  | cons c rest ih => exact (ih _).trans (tracker.classId_call c)

/-- Every track is of the class of its tracker and was seen at some of the spots. -/
def Grounded {α : Type} (tracker : Tracker α) (spots : List (Spot α)) : Prop :=
  ∀ t ∈ tracker.tracks, t.SeenAt tracker.classId spots

namespace Grounded

omit [Scalar α] in
theorem start (classId : UInt8) (rules : TrackingRules α) : (start classId rules).Grounded [] :=
  fun _ ht => absurd ht List.not_mem_nil

theorem call (h : tracker.Grounded spots) (c : TrackerCall α) :
    (tracker.call c).Grounded (spots ++ c.spot?.toList) := by
  intro t ht
  rw [classId_call]
  rcases of_mem_call ht with ⟨t', ht', moves, moves_sub, rfl⟩ | ⟨s, hs, rfl⟩
  · exact (h t' ht').moveAlong moves_sub
  · exact ⟨rfl, Nat.zero_le _, s, by simp [hs], rfl⟩

theorem afterCalls (h : tracker.Grounded spots) (calls : List (TrackerCall α)) :
    (tracker.afterCalls calls).Grounded (spots ++ TrackerCall.spots calls) := by
  induction calls generalizing tracker spots with
  | nil => exact (List.append_nil spots).symm ▸ h
  | cons c rest ih =>
    rw [TrackerCall.spots_cons, ← List.append_assoc]
    exact ih (h.call c)

end Grounded

/-! ### From one state to a later one -/

/-- The later tracker gave out its ids after those of the earlier one. All of its tracks with an id
from before were there then, and have moved along some of the spots. -/
structure Continues {α : Type} (tracker : Tracker α) (spots : List (Spot α))
    (later : Tracker α) : Prop where
  nextId_le : tracker.nextId ≤ later.nextId
  old : ∀ t ∈ later.tracks, t.id < tracker.nextId →
    ∃ t' ∈ tracker.tracks, ∃ moves, moves.Sublist spots ∧ t = t'.moveAlong moves

namespace Continues

omit [Scalar α] in
theorem refl (tracker : Tracker α) : tracker.Continues [] tracker :=
  ⟨Nat.le_refl _, fun t ht _ => ⟨t, ht, [], List.Sublist.refl _, rfl⟩⟩

omit [Scalar α] in
theorem trans (h : tracker.Continues spots later) (h' : later.Continues more latest) :
    tracker.Continues (spots ++ more) latest := by
  refine ⟨Nat.le_trans h.nextId_le h'.nextId_le, fun t ht given => ?_⟩
  -- an id that was given out by the first time was given out by the second
  obtain ⟨t', ht', moves', sub', rfl⟩ := h'.old t ht (Nat.lt_of_lt_of_le given h.nextId_le)
  rw [Track.moveAlong_id] at given
  obtain ⟨t'', ht'', moves, sub, rfl⟩ := h.old t' ht' given
  exact ⟨t'', ht'', moves ++ moves', sub.append sub', (t''.moveAlong_append moves moves').symm⟩

theorem call (tracker : Tracker α) (c : TrackerCall α) :
    tracker.Continues c.spot?.toList (tracker.call c) := by
  refine ⟨(tracker.nextId_call_le c).1, fun t ht given => ?_⟩
  rcases of_mem_call ht with held | ⟨s, -, rfl⟩
  · exact held
  · exact absurd given (Nat.lt_irrefl _)

theorem afterCalls (tracker : Tracker α) (calls : List (TrackerCall α)) :
    tracker.Continues (TrackerCall.spots calls) (tracker.afterCalls calls) := by
  induction calls generalizing tracker with
  | nil => exact .refl tracker
  | cons c rest ih =>
    rw [TrackerCall.spots_cons]
    exact (Continues.call tracker c).trans (ih _)

end Continues

/-! ### The ids that come up -/

/-- The ids that are there after a call and were not before it. -/
def newIds (tracker : Tracker α) (c : TrackerCall α) : List Nat :=
  ((tracker.call c).tracks.map (·.id)).filter (· ∉ tracker.tracks.map (·.id))

/-- The ids that come up during some calls, in order. An id that is gone and comes back is listed
again. -/
def idsGiven (tracker : Tracker α) : List (TrackerCall α) → List Nat
  | [] => []
  | c :: rest => tracker.newIds c ++ (tracker.call c).idsGiven rest

theorem Ordered.range_append_newIds (h : tracker.Ordered) (c : TrackerCall α) :
    List.range tracker.nextId ++ tracker.newIds c = List.range (tracker.call c).nextId := by
  have ids_lt := h.lt_of_mem_ids
  have called := tracker.ids_call c
  unfold newIds
  generalize tracker.tracks.map (·.id) = old at ids_lt called ⊢
  generalize (tracker.call c).tracks.map (·.id) = ids at called ⊢
  -- all old ids are below the next one, so that one was not there
  rcases called with ⟨sub, nextId_eq⟩ | ⟨rfl, nextId_eq, -⟩
  · have nothing : ids.filter (· ∉ old) = [] :=
      List.filter_eq_nil_iff.2 fun id hid => by simpa using sub.subset hid
    rw [nothing, List.append_nil, nextId_eq]
  · have new : tracker.nextId ∉ old := fun held => Nat.lt_irrefl _ (ids_lt _ held)
    have only : (old ++ [tracker.nextId]).filter (· ∉ old) = [tracker.nextId] := by
      simp [List.filter_append, new]
    rw [only, nextId_eq, List.range_succ]

theorem Ordered.range_append_idsGiven (h : tracker.Ordered) (calls : List (TrackerCall α)) :
    List.range tracker.nextId ++ tracker.idsGiven calls =
      List.range (tracker.afterCalls calls).nextId := by
  induction calls generalizing tracker with
  | nil => exact List.append_nil _
  | cons c rest ih =>
    rw [idsGiven, ← List.append_assoc, h.range_append_newIds]
    exact ih (h.call c)

/-- However a tracker is called, its tracks are in the order of their ids, all of which it has given
out, and are of its class. Over all calls the ids come up in order and each of them once. There are
no more of them than sightings, so that a word of 64 bits is enough for any run that can be made. An
id given out by some time means one track for good: who has it later had it then, and has moved along
some of the sightings in between. It counts no less than it did, and was not last seen earlier if the
frames never go back. -/
theorem ids_never_reused (classId : UInt8) (rules : TrackingRules α)
    (first rest : List (TrackerCall α)) :
    let before := (start classId rules).afterCalls first
    let after := (start classId rules).afterCalls (first ++ rest)
    ((after.tracks.map (·.id)).Pairwise (· < ·) ∧
      ∀ t ∈ after.tracks, t.id < after.nextId ∧ t.classId = classId) ∧
    ((start classId rules).idsGiven (first ++ rest) = List.range after.nextId ∧
      after.nextId ≤ (TrackerCall.spots (first ++ rest)).length) ∧
    (∀ t' ∈ after.tracks, t'.id < before.nextId → ∃ t ∈ before.tracks, t.id = t'.id) ∧
    ∀ t ∈ before.tracks, ∀ t' ∈ after.tracks, t'.id = t.id →
      (∃ moves, moves.Sublist (TrackerCall.spots rest) ∧ t' = t.moveAlong moves) ∧
      t.lifetime ≤ t'.lifetime ∧
      (((TrackerCall.spots (first ++ rest)).map (·.frame)).Pairwise (· ≤ ·) →
        t.lastSeen ≤ t'.lastSeen) := by
  intro before after
  have ordered : ∀ calls, ((start classId rules).afterCalls calls).Ordered :=
    fun calls => (Ordered.start classId rules).afterCalls calls
  have grounded : ∀ calls, ((start classId rules).afterCalls calls).Grounded
      (TrackerCall.spots calls) := fun calls => (Grounded.start classId rules).afterCalls calls
  have class_eq : after.classId = classId := classId_afterCalls ..
  have after_eq : after = before.afterCalls rest := List.foldl_append
  have continues : before.Continues (TrackerCall.spots rest) after :=
    after_eq ▸ Continues.afterCalls before rest
  refine ⟨⟨(ordered _).sorted, fun t ht => ⟨(ordered _).ids_lt t ht, ?_⟩⟩, ⟨?given, ?few⟩,
    fun t' ht' given => ?old, fun t ht t' ht' same => ?survives⟩
  · exact (grounded _ t ht).class_eq.trans class_eq
  case given => exact (Ordered.start classId rules).range_append_idsGiven (first ++ rest)
  case few =>
    have few := (start classId rules).nextId_afterCalls_le (first ++ rest)
    rwa [Tracker.start, Nat.zero_add] at few
  case old =>
    obtain ⟨t, ht, moves, -, rfl⟩ := continues.old t' ht' given
    exact ⟨t, ht, (t.moveAlong_id moves).symm⟩
  case survives =>
    have given : t'.id < before.nextId := same ▸ (ordered first).ids_lt t ht
    obtain ⟨u, hu, moves, moves_sub, rfl⟩ := continues.old t' ht' given
    -- no two tracks had the id at that time
    obtain rfl : t = u := (ordered first).eq_of_id_eq ht hu
      (same.symm.trans (u.moveAlong_id moves))
    have seen := grounded first t ht
    refine ⟨⟨moves, moves_sub, rfl⟩, seen.le_lifetime moves, fun forward => ?_⟩
    rw [TrackerCall.spots_append] at forward
    exact seen.le_lastSeen moves_sub forward

/-- Of two tracks the first is dropped, and what is seen at its place later is a third. -/
theorem ids_never_reused_after_a_drop :
    let rules : TrackingRules Float := ⟨3, 2, 10⟩
    let first : List (TrackerCall Float) := [.observe 0 0 1, .observe 50 0 1, .prune 1]
    let rest : List (TrackerCall Float) := [.observe 50 1 3, .prune 4, .observe 0 0 4]
    let before := (start 2 rules).afterCalls first
    let after := (start 2 rules).afterCalls (first ++ rest)
    ((TrackerCall.spots (first ++ rest)).map (·.frame)).Pairwise (· ≤ ·) ∧
      before.tracks.map (·.id) = [0, 1] ∧ after.tracks.map (·.id) = [1, 2] ∧
      (start 2 rules).idsGiven (first ++ rest) = [0, 1, 2] ∧
      ∃ t ∈ before.tracks, ∃ t' ∈ after.tracks, t.id = 1 ∧ t'.id = 1 ∧
        t.lifetime ≤ t'.lifetime ∧ t.lastSeen ≤ t'.lastSeen := by
  intro rules first rest before after
  have forward : ((TrackerCall.spots (first ++ rest)).map (·.frame)).Pairwise (· ≤ ·) := by decide
  have ids_before : before.tracks.map (·.id) = [0, 1] := by decide +kernel
  have ids_after : after.tracks.map (·.id) = [1, 2] := by decide +kernel
  have next : after.nextId = 3 := by decide +kernel
  obtain ⟨-, ⟨given, -⟩, -, survives⟩ := ids_never_reused 2 rules first rest
  obtain ⟨t, ht, id_eq⟩ : ∃ t ∈ before.tracks, t.id = 1 :=
    List.mem_map.1 (ids_before ▸ by decide)
  obtain ⟨t', ht', id_eq'⟩ : ∃ t ∈ after.tracks, t.id = 1 :=
    List.mem_map.1 (ids_after ▸ by decide)
  obtain ⟨-, count_le, stamp_le⟩ := survives t ht t' ht' (id_eq'.trans id_eq.symm)
  have given : (start 2 rules).idsGiven (first ++ rest) = List.range after.nextId := given
  refine ⟨forward, ids_before, ids_after, ?_, t, ht, t', ht', id_eq, id_eq', count_le,
    stamp_le forward⟩
  rw [given, next]
  rfl

end Tracker

end ObjectTracking
