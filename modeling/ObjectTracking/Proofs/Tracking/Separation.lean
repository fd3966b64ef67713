import Mathlib.Data.List.Nodup
import Mathlib.Data.List.Perm.Basic
import ObjectTracking.Proofs.Tracking.Observe

/-!
# Objects that keep apart

Several objects are looked at, at most once each on a frame. An object stays in view for as long as
a tracker would keep its track. If every look is near the last look at an object in view exactly when
it is a look at that object (`Separated`), then the tracks are the objects in view, each at its last
look (`Tracker.Shows`), and a look is answered by how often its object was seen since it came into
view, in whatever order the objects are looked at (`Tracker.watch_separated`).
-/

namespace ObjectTracking

/-- An object is seen somewhere. -/
structure Look (ι α : Type) where
  object : ι
  x : α
  y : α

structure Seen (ι α : Type) extends Look ι α where
  frame : Nat

section
variable {ι α : Type} [DecidableEq ι]

/-! ### What was seen so far

All looks so far are kept in a log, the latest first. -/

def ofObject (object : ι) (log : List (Seen ι α)) : List (Seen ι α) :=
  log.filter (·.object = object)

/-- The last look at each object. -/
def latest : List (Seen ι α) → List (Seen ι α)
  | [] => []
  | s :: earlier => s :: (latest earlier).filter (·.object ≠ s.object)

/-- The last look at each object that is in view on a frame. -/
def inView (window frame : Nat) (log : List (Seen ι α)) : List (Seen ι α) :=
  (latest log).filter (frame ≤ ·.frame + window + 1)

/-- On how many frames an object was seen since it last came into view. -/
def spell (window : Nat) : List (Seen ι α) → Nat
  | [] => 0
  | [_] => 1
  | s :: s' :: earlier =>
    if s.frame ≤ s'.frame + window + 1 then spell window (s' :: earlier) + 1 else 1

def note (frame : Nat) (looks : List (Look ι α)) (log : List (Seen ι α)) : List (Seen ι α) :=
  looks.foldl (fun log l => ⟨l, frame⟩ :: log) log

def noteAll (frame : Nat) (log : List (Seen ι α)) : List (List (Look ι α)) → List (Seen ι α)
  | [] => log
  | looks :: rest => noteAll (frame + 1) (note frame looks log) rest

section
variable {log : List (Seen ι α)} {s t : Seen ι α} {object : ι} {window frame : Nat}

theorem ofObject_cons_self (s : Seen ι α) (log : List (Seen ι α)) :
    ofObject s.object (s :: log) = s :: ofObject s.object log := by
  simp [ofObject]

theorem ofObject_cons_other (h : s.object ≠ object) :
    ofObject object (s :: log) = ofObject object log := by
  simp [ofObject, h]

theorem mem_latest_iff : s ∈ latest log ↔ (ofObject s.object log).head? = some s := by
  induction log with
  | nil => simp [latest, ofObject]
  | cons t earlier ih =>
    by_cases same : t.object = s.object
    · rw [← same, ofObject_cons_self, latest, List.mem_cons, List.head?_cons, Option.some.injEq]
      have not_earlier : s ∉ (latest earlier).filter (·.object ≠ t.object) := by
        intro hs
        simpa [same] using (List.mem_filter.1 hs).2
      constructor
      · rintro (rfl | hs)
        · rfl
        · exact absurd hs not_earlier
      · intro h
        exact .inl h.symm
    · rw [ofObject_cons_other same, ← ih, latest, List.mem_cons, List.mem_filter]
      constructor
      · rintro (rfl | ⟨hs, -⟩)
        · exact absurd rfl same
        · exact hs
      · intro hs
        exact .inr ⟨hs, by simpa using fun h => same h.symm⟩

theorem nodup_latest (log : List (Seen ι α)) : ((latest log).map (·.object)).Nodup := by
  induction log with
  | nil => exact .nil
  | cons s earlier ih =>
    refine List.nodup_cons.2 ⟨?_, ih.sublist (List.filter_sublist.map _)⟩
    intro h
    obtain ⟨t, ht, same⟩ := List.mem_map.1 h
    simpa [same] using (List.mem_filter.1 ht).2

theorem mem_inView_iff :
    s ∈ inView window frame log ↔
      (ofObject s.object log).head? = some s ∧ frame ≤ s.frame + window + 1 := by
  rw [inView, List.mem_filter, mem_latest_iff, decide_eq_true_iff]

theorem mem_of_mem_inView (h : s ∈ inView window frame log) : s ∈ log :=
  List.mem_of_mem_filter (List.mem_of_mem_head? (mem_inView_iff.1 h).1)

theorem inView_cons (recent : frame ≤ s.frame + window + 1) :
    inView window frame (s :: log) =
      s :: (inView window frame log).filter (·.object ≠ s.object) := by
  rw [inView, latest, List.filter_cons_of_pos (by simpa using recent), inView, List.filter_filter,
    List.filter_filter]
  simp only [Bool.and_comm]

theorem inView_succ (window frame : Nat) (log : List (Seen ι α)) :
    inView window (frame + 1) log =
      (inView window frame log).filter (frame ≤ ·.frame + window) := by
  rw [inView, inView, List.filter_filter]
  refine List.filter_congr fun s _ => ?_
  rw [← Bool.decide_and, decide_eq_decide]
  omega

theorem nodup_inView (window frame : Nat) (log : List (Seen ι α)) :
    ((inView window frame log).map (·.object)).Nodup :=
  (nodup_latest log).sublist (List.filter_sublist.map _)

/-- One of the objects in view is that of `s`, the others are not. -/
theorem perm_inView (h : s ∈ inView window frame log) :
    (inView window frame log).Perm
      (s :: (inView window frame log).filter (·.object ≠ s.object)) := by
  have nodup := nodup_inView window frame log
  obtain ⟨before, after, split⟩ := List.append_of_mem h
  rw [split] at nodup ⊢
  rw [List.map_append, List.map_cons] at nodup
  have new := (List.nodup_middle.1 nodup).notMem
  have others : ∀ t ∈ before ++ after, t.object ≠ s.object := by
    intro t ht same
    rw [← List.map_append] at new
    exact new (same ▸ List.mem_map_of_mem ht)
  have kept : (before ++ s :: after).filter (·.object ≠ s.object) = before ++ after := by
    rw [List.filter_append, List.filter_cons_of_neg (by simp), ← List.filter_append]
    exact List.filter_eq_self.2 fun t ht => by simpa using others t ht
  rw [kept]
  exact List.perm_middle

omit [DecidableEq ι] in
theorem past_note {looks : List (Look ι α)} (past : ∀ s ∈ log, s.frame < frame)
    (hs : s ∈ note frame looks log) : s.frame < frame + 1 := by
  have late : ∀ s ∈ log, s.frame < frame + 1 := fun s hs => Nat.lt_succ_of_lt (past s hs)
  clear past
  induction looks generalizing log with
  | nil => exact late s hs
  | cons l rest ih =>
    refine ih hs fun t ht => ?_
    rcases List.mem_cons.1 ht with rfl | ht
    · exact Nat.lt_succ_self frame
    · exact late t ht

omit [DecidableEq ι] in
theorem spell_pos (window : Nat) (s : Seen ι α) (earlier : List (Seen ι α)) :
    0 < spell window (s :: earlier) := by
  cases earlier with
  | nil => exact Nat.one_pos
  | cons s' earlier =>
    rw [spell]
    split <;> omega

theorem spell_of_mem_inView (h : s ∈ inView window t.frame log) :
    spell window (t :: ofObject s.object log) = spell window (ofObject s.object log) + 1 := by
  obtain ⟨hhead, recent⟩ := mem_inView_iff.1 h
  obtain ⟨earlier, hlog⟩ := List.head?_eq_some_iff.1 hhead
  rw [hlog, spell, if_pos recent]

theorem spell_of_not_inView
    (h : ∀ s ∈ inView window t.frame log, s.object ≠ object) :
    spell window (t :: ofObject object log) = 1 := by
  cases hlog : ofObject object log with
  | nil => rfl
  | cons s earlier =>
    have mine : s.object = object := by
      have hs : s ∈ ofObject object log := by simp [hlog]
      simpa using (List.mem_filter.1 hs).2
    have past : ¬ t.frame ≤ s.frame + window + 1 := by
      intro recent
      refine h s (mem_inView_iff.2 ⟨?_, recent⟩) mine
      rw [mine, hlog]
      rfl
    rw [spell, if_neg past]

end

end

namespace Tracker
variable {ι α : Type} [DecidableEq ι] [Scalar α]

/-- The looks of a frame, one after the other, with what each is answered. -/
def look (tracker : Tracker α) (frame : Nat) :
    List (Look ι α) → Tracker α × List (ι × TrackState)
  | [] => (tracker, [])
  | l :: rest =>
    let observed := tracker.observe l.x l.y frame
    let later := observed.1.look frame rest
    (later.1, (l.object, observed.2) :: later.2)

/-- Frame by frame: all looks of a frame, and then what was not seen for too long is dropped. -/
def watch (tracker : Tracker α) (frame : Nat) :
    List (List (Look ι α)) → Tracker α × List (List (ι × TrackState))
  | [] => (tracker, [])
  | looks :: rest =>
    let looked := tracker.look frame looks
    let later := (looked.1.prune frame).watch (frame + 1) rest
    (later.1, looked.2 :: later.2)

end Tracker

section
variable {ι α : Type} [DecidableEq ι] [Scalar α] {rules : TrackingRules α}

/-- The look is within reach of an earlier one. -/
def Seen.isNear (rules : TrackingRules α) (s : Seen ι α) (l : Look ι α) : Bool :=
  Scalar.le (Scalar.hypot (s.x - l.x) (s.y - l.y)) rules.distanceTolerance

/-- How a look is to be answered: its object must have been seen on enough frames since it came into
view. -/
def verdict (rules : TrackingRules α) (s : Seen ι α) (log : List (Seen ι α)) : TrackState :=
  if max 2 rules.confirmationStreak ≤
      spell rules.stalenessWindow (s :: ofObject s.object log) then .confirmed else .provisional

def verdicts (rules : TrackingRules α) (frame : Nat) (log : List (Seen ι α)) :
    List (List (Look ι α)) → List (List (ι × TrackState))
  | [] => []
  | looks :: rest =>
    looks.map (fun l => (l.object, verdict rules ⟨l, frame⟩ log)) ::
      verdicts rules (frame + 1) (note frame looks log) rest

/-- No object is looked at twice on the frame, and of all objects in view a look is near its own and
far from the others. -/
structure Separated (rules : TrackingRules α) (frame : Nat) (log : List (Seen ι α))
    (looks : List (Look ι α)) : Prop where
  once : (looks.map (·.object)).Nodup
  near_iff : ∀ l ∈ looks, ∀ s ∈ inView rules.stalenessWindow frame log,
    s.isNear rules l = true ↔ s.object = l.object

def SeparatedRun (rules : TrackingRules α) (frame : Nat) (log : List (Seen ι α)) :
    List (List (Look ι α)) → Prop
  | [] => True
  | looks :: rest =>
    Separated rules frame log looks ∧
      SeparatedRun rules (frame + 1) (note frame looks log) rest

end

/-! ### The tracks are the objects in view -/

/-- Where a track is, when it was seen there, and how often since its first sighting. -/
def Track.told {α : Type} (track : Track α) : α × α × Nat × Nat :=
  (track.x, track.y, track.lastSeen, track.lifetime)

/-- What a track of the object tells, if the object was last seen like that. -/
def Seen.told {ι α : Type} [DecidableEq ι] (window : Nat) (log : List (Seen ι α)) (s : Seen ι α) :
    α × α × Nat × Nat :=
  (s.x, s.y, s.frame, min (spell window (ofObject s.object log) - 1) Track.maxCount)

namespace Tracker
variable {ι α : Type} [DecidableEq ι] [Scalar α] {tracker : Tracker α} {log : List (Seen ι α)}
  {frame : Nat} {l : Look ι α}

/-- The tracks are, in some order, those of the objects in view. -/
def Shows (tracker : Tracker α) (frame : Nat) (log : List (Seen ι α)) : Prop :=
  (tracker.tracks.map Track.told).Perm
    ((inView tracker.rules.stalenessWindow frame log).map
      (Seen.told tracker.rules.stalenessWindow log))

section
omit [DecidableEq ι] [Scalar α]

theorem state_of_lifetime {rules : TrackingRules α} {track : Track α} {n : Nat} (n_pos : 0 < n)
    (lifetime_eq : track.lifetime = min (n - 1) Track.maxCount)
    (streak_le : rules.confirmationStreak ≤ Track.maxCount) :
    track.state rules =
      if max 2 rules.confirmationStreak ≤ n then .confirmed else .provisional := by
  have maxCount_pos : 0 < Track.maxCount := by decide
  have enough : (0 < track.lifetime ∧ rules.confirmationStreak ≤ track.sightings) ↔
      max 2 rules.confirmationStreak ≤ n := by
    rw [Track.sightings, lifetime_eq]
    omega
  simp only [Track.state, enough]

end

omit [DecidableEq ι] in
@[simp] theorem look_rules (tracker : Tracker α) (frame : Nat) (looks : List (Look ι α)) :
    (tracker.look frame looks).1.rules = tracker.rules := by
  induction looks generalizing tracker with
  | nil => rfl
  | cons l rest ih => exact (ih _).trans (observe_rules ..)

omit [DecidableEq ι] in
@[simp] theorem watch_rules (tracker : Tracker α) (frame : Nat)
    (frames : List (List (Look ι α))) : (tracker.watch frame frames).1.rules = tracker.rules := by
  induction frames generalizing tracker frame with
  | nil => rfl
  | cons looks rest ih => exact (ih ..).trans (look_rules ..)

theorem not_near_of_far {tolerance : α} {x y : α} {t : Track α}
    (far : reach? tolerance x y frame t = none) (unseen : t.lastSeen ≠ frame) :
    ¬ Scalar.le (Scalar.hypot (t.x - x) (t.y - y)) tolerance = true := by
  intro near
  simp [reach?, unseen, near] at far

namespace Shows

section
omit [Scalar α]

theorem start (classId : UInt8) (rules : TrackingRules α) (frame : Nat) :
    (start classId rules).Shows frame ([] : List (Seen ι α)) := .refl _

theorem prune (h : tracker.Shows frame log) (frame_le : frame ≤ Track.maxFrame) :
    (tracker.prune frame).Shows (frame + 1) log := by
  let kept (told : α × α × Nat × Nat) : Bool :=
    frame ≤ told.2.2.1 + tracker.rules.stalenessWindow
  have tracks_eq : (tracker.prune frame).tracks.map Track.told =
      (tracker.tracks.map Track.told).filter kept := by
    rw [List.filter_map]
    refine congrArg _ (List.filter_congr fun t _ => ?_)
    show decide _ = decide _
    rw [decide_eq_decide, Track.keptUntil]
    show frame ≤ min (t.lastSeen + tracker.rules.stalenessWindow) Track.maxFrame ↔
      frame ≤ t.lastSeen + tracker.rules.stalenessWindow
    omega
  have lasts_eq : (inView tracker.rules.stalenessWindow (frame + 1) log).map
      (Seen.told tracker.rules.stalenessWindow log) =
        ((inView tracker.rules.stalenessWindow frame log).map
          (Seen.told tracker.rules.stalenessWindow log)).filter kept := by
    rw [inView_succ, List.filter_map]
    rfl
  show ((tracker.prune frame).tracks.map Track.told).Perm _
  rw [tracks_eq]
  show List.Perm _ ((inView tracker.rules.stalenessWindow (frame + 1) log).map
      (Seen.told tracker.rules.stalenessWindow log))
  rw [lasts_eq]
  exact h.filter kept

/-- The other objects are told of as before. -/
theorem told_others (window : Nat) (log : List (Seen ι α)) (s : Seen ι α)
    (lasts : List (Seen ι α)) :
    (lasts.filter (·.object ≠ s.object)).map (Seen.told window (s :: log)) =
      (lasts.filter (·.object ≠ s.object)).map (Seen.told window log) := by
  refine List.map_congr_left fun t ht => ?_
  have other : t.object ≠ s.object := by simpa using (List.mem_filter.1 ht).2
  rw [Seen.told, ofObject_cons_other other.symm, Seen.told]

end

section
variable (h : tracker.Shows frame log)
  (near_iff : ∀ s ∈ inView tracker.rules.stalenessWindow frame log, s.frame ≠ frame →
    (s.isNear tracker.rules l = true ↔ s.object = l.object))
include h near_iff

/-- A track within reach is that of the object. -/
theorem owner {t : Track α} (ht : t ∈ tracker.tracks) (unseen : t.lastSeen ≠ frame)
    (near : Scalar.le (Scalar.hypot (t.x - l.x) (t.y - l.y))
      tracker.rules.distanceTolerance = true) :
    ∃ s ∈ inView tracker.rules.stalenessWindow frame log, s.object = l.object ∧
      s.told tracker.rules.stalenessWindow log = t.told := by
  obtain ⟨s, hs, same⟩ := List.mem_map.1 (h.mem_iff.1 (List.mem_map_of_mem ht))
  obtain ⟨x_eq, y_eq, frame_eq, -⟩ := by
    simpa only [Seen.told, Track.told, Prod.mk.injEq] using same
  refine ⟨s, hs, (near_iff s hs (frame_eq ▸ unseen)).1 ?_, same⟩
  rw [Seen.isNear, x_eq, y_eq]
  exact near

/-- An object in view that was not seen on the frame yet has a track within reach. -/
theorem reached {s : Seen ι α} (hs : s ∈ inView tracker.rules.stalenessWindow frame log)
    (unseen : s.frame ≠ frame) (mine : s.object = l.object) :
    ∃ t ∈ tracker.tracks,
      reach? tracker.rules.distanceTolerance l.x l.y frame t ≠ none := by
  have near := (near_iff s hs unseen).2 mine
  obtain ⟨t, ht, same⟩ := List.mem_map.1 (h.mem_iff.2 (List.mem_map_of_mem hs))
  obtain ⟨x_eq, y_eq, frame_eq, -⟩ := by
    simpa only [Seen.told, Track.told, Prod.mk.injEq] using same
  refine ⟨t, ht, fun far => not_near_of_far far (frame_eq ▸ unseen) ?_⟩
  rw [x_eq, y_eq]
  exact near

omit [Scalar α] near_iff in
/-- The track of an object in view moves to a look at it. -/
theorem moved {before after : List (Track α)} {t : Track α} {s : Seen ι α}
    (tracks_eq : tracker.tracks = before ++ t :: after)
    (hs : s ∈ inView tracker.rules.stalenessWindow frame log) (mine : s.object = l.object)
    (told_eq : s.told tracker.rules.stalenessWindow log = t.told) :
    ({ tracker with tracks := before ++ t.moveTo l.x l.y frame :: after } : Tracker α).Shows frame
        (⟨l, frame⟩ :: log) ∧
      (t.moveTo l.x l.y frame).lifetime =
        min (spell tracker.rules.stalenessWindow
          (⟨l, frame⟩ :: ofObject l.object log) - 1) Track.maxCount := by
  have lifetime_eq : (t.moveTo l.x l.y frame).lifetime =
      min (spell tracker.rules.stalenessWindow
        (⟨l, frame⟩ :: ofObject l.object log) - 1) Track.maxCount := by
    have again := spell_of_mem_inView (t := ⟨l, frame⟩) hs
    obtain ⟨earlier, hlog⟩ := List.head?_eq_some_iff.1 (mem_inView_iff.1 hs).1
    have pos := spell_pos tracker.rules.stalenessWindow s earlier
    rw [← hlog] at pos
    have before_eq : min (spell tracker.rules.stalenessWindow (ofObject s.object log) - 1)
        Track.maxCount = t.lifetime := congrArg (·.2.2.2) told_eq
    rw [← mine, again, Track.moveTo, ← before_eq]
    show min (min _ _ + 1) _ = _
    omega
  refine ⟨?_, lifetime_eq⟩
  let others := (inView tracker.rules.stalenessWindow frame log).filter (·.object ≠ l.object)
  have now : (before.map Track.told ++ t.told :: after.map Track.told).Perm
      (t.told :: others.map (Seen.told tracker.rules.stalenessWindow log)) := by
    have perm := h.trans ((perm_inView hs).map (Seen.told tracker.rules.stalenessWindow log))
    rwa [tracks_eq, List.map_append, List.map_cons, List.map_cons, told_eq, mine] at perm
  -- the other tracks are those of the other objects, and they stay
  have rest := (List.perm_middle.symm.trans now).cons_inv
  have told_now : Seen.told tracker.rules.stalenessWindow (⟨l, frame⟩ :: log) ⟨l, frame⟩ =
      (t.moveTo l.x l.y frame).told := by
    rw [Seen.told, ofObject_cons_self, Track.told, lifetime_eq]
    rfl
  show (List.map Track.told (before ++ t.moveTo l.x l.y frame :: after)).Perm
    ((inView tracker.rules.stalenessWindow frame (⟨l, frame⟩ :: log)).map _)
  rw [inView_cons (Nat.le_add_right frame (tracker.rules.stalenessWindow + 1)), List.map_append,
    List.map_cons, List.map_cons, told_others, told_now]
  exact List.perm_middle.trans (rest.cons _)

omit [Scalar α] near_iff in
/-- A track of an object that comes into view starts at the look at it. -/
theorem started
    (absent : ∀ s ∈ inView tracker.rules.stalenessWindow frame log, s.object ≠ l.object) :
    ({ tracker with
        tracks := tracker.tracks ++ [⟨tracker.nextId, tracker.classId, l.x, l.y, frame, 0⟩]
        nextId := tracker.nextId + 1 } : Tracker α).Shows frame (⟨l, frame⟩ :: log) := by
  have others : (inView tracker.rules.stalenessWindow frame log).filter (·.object ≠ l.object) =
      inView tracker.rules.stalenessWindow frame log :=
    List.filter_eq_self.2 fun s hs => by simpa using absent s hs
  have told_now : Seen.told tracker.rules.stalenessWindow (⟨l, frame⟩ :: log) ⟨l, frame⟩ =
      (⟨tracker.nextId, tracker.classId, l.x, l.y, frame, 0⟩ : Track α).told := by
    have first := spell_of_not_inView (t := ⟨l, frame⟩) absent
    rw [Seen.told, ofObject_cons_self, first]
    rfl
  have told_rest := told_others tracker.rules.stalenessWindow log ⟨l, frame⟩
    (inView tracker.rules.stalenessWindow frame log)
  rw [others] at told_rest
  show (List.map Track.told (tracker.tracks ++ [_])).Perm
    ((inView tracker.rules.stalenessWindow frame (⟨l, frame⟩ :: log)).map
      (Seen.told tracker.rules.stalenessWindow (⟨l, frame⟩ :: log)))
  rw [inView_cons (Nat.le_add_right frame (tracker.rules.stalenessWindow + 1)), others,
    List.map_append, List.map_cons, List.map_cons, told_now, told_rest]
  exact (List.perm_append_singleton _ _).trans (h.cons _)

theorem observe (streak_le : tracker.rules.confirmationStreak ≤ Track.maxCount)
    (unseen : ∀ s ∈ log, s.object = l.object → s.frame ≠ frame) :
    (tracker.observe l.x l.y frame).1.Shows frame (⟨l, frame⟩ :: log) ∧
      (tracker.observe l.x l.y frame).2 = verdict tracker.rules ⟨l, frame⟩ log := by
  have did := tracker.observation l.x l.y frame
  generalize tracker.taker l.x l.y frame = taker at did
  generalize tracker.observe l.x l.y frame = observed at did
  cases did with
  | moved tracks_eq unseen_track near =>
    obtain ⟨s, hs, mine, told_eq⟩ := h.owner near_iff (by simp [tracks_eq]) unseen_track near
    obtain ⟨shows, lifetime_eq⟩ := h.moved tracks_eq hs mine told_eq
    exact ⟨shows, state_of_lifetime (spell_pos ..) lifetime_eq streak_le⟩
  | started far =>
    -- were the object in view, its track would be within reach
    have absent : ∀ s ∈ inView tracker.rules.stalenessWindow frame log,
        s.object ≠ l.object := by
      intro s hs mine
      obtain ⟨t, ht, hreach⟩ := h.reached near_iff hs (unseen s (mem_of_mem_inView hs) mine) mine
      exact hreach (far t ht)
    refine ⟨h.started absent, ?_⟩
    have first := spell_of_not_inView (t := ⟨l, frame⟩) absent
    show TrackState.provisional = verdict tracker.rules ⟨l, frame⟩ log
    rw [verdict, first, if_neg (by omega)]

end

/-- A frame: the looks at objects that keep apart are answered as they should. -/
theorem look (h : tracker.Shows frame log) {looks : List (Look ι α)}
    (streak_le : tracker.rules.confirmationStreak ≤ Track.maxCount)
    (once : (looks.map (·.object)).Nodup)
    (unseen : ∀ l ∈ looks, ∀ s ∈ log, s.object = l.object → s.frame ≠ frame)
    (near_iff : ∀ l ∈ looks, ∀ s ∈ inView tracker.rules.stalenessWindow frame log,
      s.frame ≠ frame → (s.isNear tracker.rules l = true ↔ s.object = l.object)) :
    (tracker.look frame looks).1.Shows frame (note frame looks log) ∧
      (tracker.look frame looks).2 =
        looks.map fun l => (l.object, verdict tracker.rules ⟨l, frame⟩ log) := by
  induction looks generalizing tracker log with
  | nil => exact ⟨h, rfl⟩
  | cons l rest ih =>
    obtain ⟨new, once⟩ := List.nodup_cons.1 once
    have other : ∀ l' ∈ rest, l.object ≠ l'.object := by
      intro l' hl' same
      exact new (List.mem_map.2 ⟨l', hl', same.symm⟩)
    obtain ⟨shows, answer_eq⟩ :=
      h.observe (near_iff l (by simp)) streak_le (unseen l (by simp))
    have rules_eq := tracker.observe_rules l.x l.y frame
    have later := ih shows (rules_eq.symm ▸ streak_le) once ?unseen ?near_iff
    case unseen =>
      intro l' hl' s hs
      rcases List.mem_cons.1 hs with rfl | hs
      · exact fun same => absurd same (other l' hl')
      · exact unseen l' (by simp [hl']) s hs
    case near_iff =>
      -- the new look is one of this frame, which cannot be moved from again
      rw [rules_eq, inView_cons (Nat.le_add_right frame (tracker.rules.stalenessWindow + 1))]
      intro l' hl' s hs hframe
      rcases List.mem_cons.1 hs with rfl | hs
      · exact absurd rfl hframe
      · exact near_iff l' (by simp [hl']) s (List.mem_of_mem_filter hs) hframe
    refine ⟨later.1, ?_⟩
    have answers_eq : rest.map (fun l' => (l'.object,
        verdict (tracker.observe l.x l.y frame).1.rules ⟨l', frame⟩ (⟨l, frame⟩ :: log))) =
          rest.map fun l' => (l'.object, verdict tracker.rules ⟨l', frame⟩ log) := by
      refine List.map_congr_left fun l' hl' => ?_
      rw [rules_eq, verdict, ofObject_cons_other (other l' hl'), verdict]
    rw [Tracker.look, later.2, answers_eq, answer_eq]
    rfl

/-- Frame after frame. -/
theorem watch (h : tracker.Shows frame log) (frames : List (List (Look ι α)))
    (streak_le : tracker.rules.confirmationStreak ≤ Track.maxCount)
    (past : ∀ s ∈ log, s.frame < frame) (numbers : frame + frames.length ≤ UInt64.size)
    (apart : SeparatedRun tracker.rules frame log frames) :
    (tracker.watch frame frames).1.Shows (frame + frames.length) (noteAll frame log frames) ∧
      (tracker.watch frame frames).2 = verdicts tracker.rules frame log frames := by
  induction frames generalizing tracker frame log with
  | nil => exact ⟨h, rfl⟩
  | cons looks rest ih =>
    obtain ⟨separated, apart⟩ := apart
    rw [List.length_cons] at numbers
    have frame_le : frame ≤ Track.maxFrame := by
      show frame ≤ UInt64.size - 1
      omega
    obtain ⟨shows, answers_eq⟩ := h.look streak_le separated.once
      (fun l _ s hs _ => Nat.ne_of_lt (past s hs))
      (fun l hl s hs _ => separated.near_iff l hl s hs)
    have rules_eq : ((tracker.look frame looks).1.prune frame).rules = tracker.rules :=
      tracker.look_rules frame looks
    have later := ih (shows.prune frame_le) (rules_eq.symm ▸ streak_le)
      (fun s hs => past_note past hs) (by omega) (rules_eq.symm ▸ apart)
    rw [rules_eq] at later
    refine ⟨?_, ?_⟩
    · rw [List.length_cons, Nat.add_comm rest.length, ← Nat.add_assoc]
      exact later.1
    · rw [Tracker.watch, verdicts, answers_eq, later.2]

end Shows

end Tracker

/-! ### The order within a frame -/

section
variable {ι α : Type} [DecidableEq ι] {log log' : List (Seen ι α)} {frame : Nat}

/-- Each object was seen alike. -/
def Alike (log log' : List (Seen ι α)) : Prop :=
  ∀ object, ofObject object log = ofObject object log'

namespace Alike

theorem cons (h : Alike log log') (s : Seen ι α) : Alike (s :: log) (s :: log') := by
  intro object
  by_cases mine : s.object = object
  · rw [← mine, ofObject_cons_self, ofObject_cons_self, h]
  · rw [ofObject_cons_other mine, ofObject_cons_other mine, h]

theorem swap (h : Alike log log') {s t : Seen ι α} (other : s.object ≠ t.object) :
    Alike (s :: t :: log) (t :: s :: log') := by
  intro object
  by_cases mine : s.object = object
  · have not_t : t.object ≠ object := fun same => other (mine.trans same.symm)
    rw [ofObject_cons_other not_t, ← mine, ofObject_cons_self, ofObject_cons_self,
      ofObject_cons_other other.symm, h]
  · rw [ofObject_cons_other mine]
    by_cases same : t.object = object
    · rw [← same, ofObject_cons_self, ofObject_cons_self, ofObject_cons_other other, h]
    · rw [ofObject_cons_other same, ofObject_cons_other same, ofObject_cons_other mine, h]

theorem note_same (h : Alike log log') (looks : List (Look ι α)) :
    Alike (note frame looks log) (note frame looks log') := by
  induction looks generalizing log log' with
  | nil => exact h
  | cons l rest ih => exact ih (h.cons ⟨l, frame⟩)

theorem note (h : Alike log log') {looks looks' : List (Look ι α)} (perm : looks.Perm looks')
    (once : (looks.map (·.object)).Nodup) :
    Alike (note frame looks log) (note frame looks' log') := by
  induction perm generalizing log log' with
  | nil => exact h
  | cons l _ ih => exact ih (h.cons ⟨l, frame⟩) (List.nodup_cons.1 once).2
  | swap l l' rest =>
    have other : l.object ≠ l'.object := by
      intro same
      exact (List.nodup_cons.1 once).1 (by simp [same])
    have swapped := h.swap (s := ⟨l, frame⟩) (t := ⟨l', frame⟩) other
    exact swapped.note_same rest
  | trans perm _ ih ih' =>
    intro object
    have first := ih (fun object => Eq.refl (ofObject object log)) once object
    have second := ih' h ((perm.map _).nodup_iff.1 once) object
    exact first.trans second

theorem mem_inView_iff (h : Alike log log') {window : Nat} {s : Seen ι α} :
    s ∈ inView window frame log ↔ s ∈ inView window frame log' := by
  rw [ObjectTracking.mem_inView_iff, ObjectTracking.mem_inView_iff, h]

end Alike

section
variable [Scalar α] {rules : TrackingRules α}

theorem Separated.reorder {looks looks' : List (Look ι α)}
    (separated : Separated rules frame log looks) (h : Alike log log')
    (perm : looks.Perm looks') : Separated rules frame log' looks' where
  once := (perm.map _).nodup_iff.1 separated.once
  near_iff := fun l hl s hs =>
    separated.near_iff l (perm.mem_iff.2 hl) s (h.mem_inView_iff.2 hs)

/-- Whichever order the looks of each frame are in, the objects keep apart, and each look is to be
answered the same. -/
theorem SeparatedRun.reorder {frames frames' : List (List (Look ι α))}
    (apart : SeparatedRun rules frame log frames) (h : Alike log log')
    (perms : List.Forall₂ List.Perm frames frames') :
    SeparatedRun rules frame log' frames' ∧
      List.Forall₂ List.Perm (verdicts rules frame log frames)
        (verdicts rules frame log' frames') := by
  induction perms generalizing frame log log' with
  | nil => exact ⟨trivial, .nil⟩
  | @cons looks looks' _ _ perm _ ih =>
    obtain ⟨separated, apart⟩ := apart
    obtain ⟨apart', verdicts_perm⟩ := ih apart (h.note perm separated.once)
    refine ⟨⟨separated.reorder h perm, apart'⟩, .cons ?_ verdicts_perm⟩
    have same : (fun l : Look ι α => (l.object, verdict rules ⟨l, frame⟩ log)) =
        fun l => (l.object, verdict rules ⟨l, frame⟩ log') := by
      funext l
      rw [verdict, h, verdict]
    rw [same]
    exact perm.map _

theorem SeparatedRun.of_append {before after : List (List (Look ι α))}
    (apart : SeparatedRun rules frame log (before ++ after)) :
    SeparatedRun rules frame log before := by
  induction before generalizing frame log with
  | nil => trivial
  | cons looks before ih => exact ⟨apart.1, ih apart.2⟩

end

end

/-- Objects that keep apart are tracked faithfully: after every frame there is one track for each
object seen lately, where and when the object was seen last, and every look is answered by how
often its object was seen since it came into view. The order of the looks on a frame does not
matter. -/
theorem Tracker.watch_separated {ι α : Type} [DecidableEq ι] [Scalar α] (classId : UInt8)
    (rules : TrackingRules α) (streak_le : rules.confirmationStreak ≤ Track.maxCount)
    (first : Nat) (frames : List (List (Look ι α)))
    (numbers : first + frames.length ≤ UInt64.size)
    (apart : SeparatedRun rules first [] frames) :
    (∀ before after, frames = before ++ after →
      let seen := inView rules.stalenessWindow (first + before.length) (noteAll first [] before)
      (seen.map (·.object)).Nodup ∧
        (((start classId rules).watch first before).1.tracks.map
          fun t => (t.x, t.y, t.lastSeen)).Perm (seen.map fun s => (s.x, s.y, s.frame))) ∧
    ((start classId rules).watch first frames).2 = verdicts rules first [] frames ∧
    ∀ frames', List.Forall₂ List.Perm frames frames' →
      List.Forall₂ List.Perm ((start classId rules).watch first frames).2
        ((start classId rules).watch first frames').2 := by
  have faithful : ∀ frames : List (List (Look ι α)), first + frames.length ≤ UInt64.size →
      SeparatedRun rules first [] frames → _ := fun frames numbers apart =>
    (Shows.start classId rules first).watch frames streak_le (by simp) numbers apart
  refine ⟨?_, (faithful frames numbers apart).2, ?_⟩
  · rintro before after rfl
    rw [List.length_append] at numbers
    obtain ⟨shows, -⟩ := faithful before (by omega) apart.of_append
    refine ⟨nodup_inView .., ?_⟩
    rw [Shows, watch_rules] at shows
    have placed := shows.map fun told => (told.1, told.2.1, told.2.2.1)
    rw [List.map_map, List.map_map] at placed
    exact placed
  · intro frames' perms
    obtain ⟨apart', verdicts_perm⟩ := apart.reorder (fun _ => rfl) perms
    rw [(faithful frames numbers apart).2,
      (faithful frames' (perms.length_eq ▸ numbers) apart').2]
    exact verdicts_perm

/-- One object is seen all the time, another goes out of view and comes back elsewhere. -/
theorem Tracker.watch_one_coming_back :
    let rules : TrackingRules Float := ⟨2, 1, 10⟩
    let frames : List (List (Look Bool Float)) :=
      [[⟨true, 0, 0⟩, ⟨false, 50, 0⟩], [⟨true, 3, 4⟩], [⟨true, 6, 8⟩],
        [⟨false, 80, 0⟩, ⟨true, 9, 12⟩]]
    rules.confirmationStreak ≤ Track.maxCount ∧ 0 + frames.length ≤ UInt64.size ∧
      SeparatedRun rules 0 [] frames ∧
      ((start 1 rules).watch 0 frames).2 =
        [[(true, .provisional), (false, .provisional)], [(true, .confirmed)],
          [(true, .confirmed)], [(false, .provisional), (true, .confirmed)]] := by
  intro rules frames
  have streak_le : rules.confirmationStreak ≤ Track.maxCount := by decide
  have numbers : 0 + frames.length ≤ UInt64.size := by decide
  have apart : SeparatedRun rules 0 [] frames :=
    ⟨⟨by decide, by decide +kernel⟩, ⟨by decide, by decide +kernel⟩,
      ⟨by decide, by decide +kernel⟩, ⟨by decide, by decide +kernel⟩, trivial⟩
  have faithful := watch_separated 1 rules streak_le 0 frames numbers apart
  exact ⟨streak_le, numbers, apart, faithful.2.1⟩

end ObjectTracking
