import Mathlib.Data.List.Chain
import Mathlib.Data.List.Nodup
import ObjectTracking.Pipeline.ClassState
import ObjectTracking.Proofs.Tracking.Observe

/-!
# The sightings behind a track

A tracker only keeps where a track was last seen, and how often. `Tracker.Follows` says what this
is a summary of: in the log of all sightings, those of one track lead from one to the next
(`Sighting.Leads`), and a live track is at the last of its own. A sighting is answered by
`confirmed` only if enough of them lead up to it (`Tracker.Follows.debounced`).
-/

namespace ObjectTracking

/-- A blob of a class that was fitted and scored well enough. -/
structure Accepted (α : Type) where
  classId : UInt8
  blobIndex : Nat
  blob : Blob
  shape : Shape α
  confidence : α

/-- An accepted blob on a frame, with the track that it went to and what was answered. -/
structure Sighting (α : Type) extends Accepted α where
  frame : Nat
  track : Nat
  state : TrackState

variable {α : Type} [Scalar α]

/-- The second sighting can be the next of a track after the first: it is on a later frame, not too
much later, and near enough. -/
structure Sighting.Leads (rules : TrackingRules α) (a b : Sighting α) : Prop where
  later : a.frame < b.frame
  soon : b.frame - a.frame ≤ rules.stalenessWindow + 1
  near : Scalar.le (Scalar.hypot (a.shape.centerX - b.shape.centerX)
    (a.shape.centerY - b.shape.centerY)) rules.distanceTolerance = true

def ofTrack {α : Type} (id : Nat) (log : List (Sighting α)) : List (Sighting α) :=
  log.filter (·.track = id)

/-- The sightings of the same track up to this one. -/
def Sighting.upTo {α : Type} (s : Sighting α) (log : List (Sighting α)) : List (Sighting α) :=
  (ofTrack s.track log).filter (·.frame ≤ s.frame)

/-- The sightings lead from one to the next up to the last, and are enough to confirm it; it is not
on the frame on which the track began. -/
structure Debounced (rules : TrackingRules α) (chain : List (Sighting α)) (last : Sighting α) :
    Prop where
  ends : chain.getLast? = some last
  linked : chain.IsChain (Sighting.Leads rules)
  enough : max 2 rules.confirmationStreak ≤ chain.length
  born : ∃ first, chain.head? = some first ∧ first.frame < last.frame

/-- The track is where the last of its sightings was, and counts no more than there are. -/
structure Track.Summarizes {α : Type} (track : Track α) (chain : List (Sighting α)) : Prop where
  last : ∃ s, chain.getLast? = some s ∧ s.frame = track.lastSeen ∧ s.shape.centerX = track.x ∧
    s.shape.centerY = track.y
  count : track.lifetime + 1 ≤ chain.length

section
variable {α : Type} {log : List (Sighting α)} {s : Sighting α} {id : Nat}

theorem ofTrack_concat_self (log : List (Sighting α)) (s : Sighting α) :
    ofTrack s.track (log ++ [s]) = ofTrack s.track log ++ [s] := by
  simp [ofTrack]

theorem ofTrack_concat_other (h : s.track ≠ id) : ofTrack id (log ++ [s]) = ofTrack id log := by
  simp [ofTrack, h]

theorem length_upTo_le (s : Sighting α) (log more : List (Sighting α)) :
    (s.upTo log).length ≤ (s.upTo (log ++ more)).length := by
  simp [Sighting.upTo, ofTrack]

end

namespace Tracker
variable {tracker : Tracker α} {log : List (Sighting α)} {number : Nat}

def sight (tracker : Tracker α) (number : Nat) (b : Accepted α) : Sighting α :=
  { b with
    frame := number
    track := tracker.taker b.shape.centerX b.shape.centerY number
    state := (tracker.observe b.shape.centerX b.shape.centerY number).2 }

/-- Takes the accepted blobs of a frame one after the other: the tracker after them, and the
sightings that they are. -/
def follow (tracker : Tracker α) (number : Nat) : List (Accepted α) → Tracker α × List (Sighting α)
  | [] => (tracker, [])
  | b :: rest =>
    let later := (tracker.observe b.shape.centerX b.shape.centerY number).1.follow number rest
    (later.1, tracker.sight number b :: later.2)

/-- The log is that of the tracker up to the given frame, and the tracker a summary of it. -/
structure Follows (tracker : Tracker α) (log : List (Sighting α)) (number : Nat) : Prop where
  ids_lt : ∀ t ∈ tracker.tracks, t.id < tracker.nextId
  ids_nodup : (tracker.tracks.map (·.id)).Nodup
  tracks_lt : ∀ s ∈ log, s.track < tracker.nextId
  past : ∀ s ∈ log, s.frame ≤ number
  linked : ∀ id, (ofTrack id log).IsChain (Sighting.Leads tracker.rules)
  live : ∀ t ∈ tracker.tracks, t.Summarizes (ofTrack t.id log)
  recent : ∀ t ∈ tracker.tracks,
    t.lastSeen ≤ number ∧ number - t.lastSeen ≤ tracker.rules.stalenessWindow + 1
  confirmed : ∀ s ∈ log, s.state = .confirmed →
    max 2 tracker.rules.confirmationStreak ≤ (s.upTo log).length

namespace Follows

theorem start (classId : UInt8) (rules : TrackingRules α) (number : Nat) :
    (start classId rules).Follows [] number := by
  constructor <;> simp [Tracker.start, ofTrack]

/-- A track that was not seen for too long is not kept, so the others are still recent on the next
frame. -/
theorem prune (h : tracker.Follows log number) : (tracker.prune number).Follows log (number + 1) :=
  have kept : ∀ t ∈ (tracker.prune number).tracks, t ∈ tracker.tracks ∧
      number ≤ t.keptUntil tracker.rules.stalenessWindow := fun t ht => by
    simpa using List.mem_filter.1 ht
  { ids_lt := fun t ht => h.ids_lt t (kept t ht).1
    ids_nodup := h.ids_nodup.sublist (List.filter_sublist.map _)
    tracks_lt := h.tracks_lt
    past := fun s hs => Nat.le_succ_of_le (h.past s hs)
    linked := h.linked
    live := fun t ht => h.live t (kept t ht).1
    recent := fun t ht => by
      have := (kept t ht).2
      have := (h.recent t (kept t ht).1).1
      simp only [Track.keptUntil, Tracker.prune] at *
      omega
    confirmed := h.confirmed }

theorem leads (h : tracker.Follows log number) {t : Track α} (ht : t ∈ tracker.tracks)
    (unseen : t.lastSeen ≠ number) {s : Sighting α} (hs : s.frame = number)
    (near : Scalar.le (Scalar.hypot (t.x - s.shape.centerX) (t.y - s.shape.centerY))
      tracker.rules.distanceTolerance = true) :
    ∀ last ∈ (ofTrack t.id log).getLast?, last.Leads tracker.rules s := by
  intro last hlast
  obtain ⟨s', hs', hframe, hx, hy⟩ := (h.live t ht).last
  obtain rfl : s' = last := Option.some.inj (hs'.symm.trans hlast)
  obtain ⟨seen, recent⟩ := h.recent t ht
  exact ⟨by omega, by omega, by rw [hx, hy]; exact near⟩

omit [Scalar α] in
/-- A track that is confirmed has been seen as often as that takes. -/
theorem enough_of_confirmed {rules : TrackingRules α} {t : Track α} {chain : List (Sighting α)}
    (count : t.lifetime + 1 ≤ chain.length) (h : t.state rules = .confirmed) :
    max 2 rules.confirmationStreak ≤ chain.length := by
  unfold Track.state at h
  split at h
  · rename_i enough
    have := enough.1
    have := enough.2
    simp only [Track.sightings] at this
    omega
  · cases h

/-- The latest sighting of a track comes after all of its sightings. -/
theorem upTo_concat (h : tracker.Follows log number) {s : Sighting α} (hs : s.frame = number) :
    s.upTo (log ++ [s]) = ofTrack s.track log ++ [s] := by
  rw [Sighting.upTo, ofTrack_concat_self]
  refine List.filter_eq_self.2 (List.forall_mem_append.2 ⟨fun s' hs' => ?_, by simp⟩)
  exact decide_eq_true (hs ▸ h.past s' (List.mem_of_mem_filter hs'))

/-- A sighting goes to the track `t`, which it leaves as its summary, and no other track changes. -/
theorem extend (h : tracker.Follows log number) {after : Tracker α} {s : Sighting α} {t : Track α}
    (rules_eq : after.rules = tracker.rules) (nextId_le : tracker.nextId ≤ after.nextId)
    (ids_nodup : (after.tracks.map (·.id)).Nodup) (id_lt : t.id < after.nextId)
    (track_eq : s.track = t.id) (frame_eq : s.frame = number) (seen_eq : t.lastSeen = number)
    (tracks : ∀ t' ∈ after.tracks, t' = t ∨ t' ∈ tracker.tracks ∧ t.id ≠ t'.id)
    (summary : t.Summarizes (ofTrack t.id log ++ [s]))
    (leads : ∀ last ∈ (ofTrack t.id log).getLast?, last.Leads tracker.rules s)
    (enough : s.state = .confirmed →
      max 2 tracker.rules.confirmationStreak ≤ (ofTrack t.id log ++ [s]).length) :
    after.Follows (log ++ [s]) number := by
  rw [← track_eq] at id_lt summary leads enough
  refine ⟨?ids_lt, ids_nodup, ?tracks_lt, ?past, ?linked, ?live, ?recent, ?confirmed⟩
  case ids_lt =>
    intro t' ht'
    rcases tracks t' ht' with rfl | ⟨ht', -⟩
    · exact track_eq ▸ id_lt
    · exact (h.ids_lt t' ht').trans_le nextId_le
  case tracks_lt =>
    refine List.forall_mem_append.2 ⟨fun s' hs' => ?_, List.forall_mem_singleton.2 id_lt⟩
    exact (h.tracks_lt s' hs').trans_le nextId_le
  case past =>
    exact List.forall_mem_append.2 ⟨h.past, List.forall_mem_singleton.2 frame_eq.le⟩
  case linked =>
    intro id
    rw [rules_eq]
    by_cases this : s.track = id
    · subst this
      rw [ofTrack_concat_self]
      refine (h.linked _).append (.singleton s) fun last hlast s' hs' => ?_
      obtain rfl : s = s' := by simpa using hs'
      exact leads last hlast
    · rw [ofTrack_concat_other this]
      exact h.linked id
  case live =>
    intro t' ht'
    rcases tracks t' ht' with rfl | ⟨ht', other⟩
    · rw [← track_eq, ofTrack_concat_self]
      exact summary
    · rw [ofTrack_concat_other (track_eq ▸ other)]
      exact h.live t' ht'
  case recent =>
    intro t' ht'
    rw [rules_eq]
    rcases tracks t' ht' with rfl | ⟨ht', -⟩
    · exact ⟨seen_eq.le, by omega⟩
    · exact h.recent t' ht'
  case confirmed =>
    rw [rules_eq]
    refine List.forall_mem_append.2 ⟨fun s' hs' hconf => ?_, List.forall_mem_singleton.2 ?_⟩
    · exact (h.confirmed s' hs' hconf).trans (length_upTo_le ..)
    · rw [h.upTo_concat frame_eq]
      exact enough

/-- A live track moves to a new sighting. -/
theorem moved (h : tracker.Follows log number) {before after : List (Track α)} {t : Track α}
    (tracks_eq : tracker.tracks = before ++ t :: after) (unseen : t.lastSeen ≠ number)
    {s : Sighting α} (track_eq : s.track = t.id) (frame_eq : s.frame = number)
    (near : Scalar.le (Scalar.hypot (t.x - s.shape.centerX) (t.y - s.shape.centerY))
      tracker.rules.distanceTolerance = true)
    (state_eq : s.state =
      (t.moveTo s.shape.centerX s.shape.centerY number).state tracker.rules) :
    ({ tracker with
        tracks := before ++ t.moveTo s.shape.centerX s.shape.centerY number :: after } :
      Tracker α).Follows (log ++ [s]) number := by
  have ht : t ∈ tracker.tracks := by simp [tracks_eq]
  have ids := h.ids_nodup
  rw [tracks_eq, List.map_append, List.map_cons] at ids
  have new : t.id ∉ before.map (·.id) ++ after.map (·.id) := (List.nodup_middle.1 ids).notMem
  have summary : (t.moveTo s.shape.centerX s.shape.centerY number).Summarizes
      (ofTrack t.id log ++ [s]) := by
    have count := (h.live t ht).count
    refine ⟨⟨s, by simp, frame_eq, rfl, rfl⟩, ?_⟩
    simp only [Track.moveTo, List.length_append, List.length_singleton]
    omega
  refine h.extend (t := t.moveTo s.shape.centerX s.shape.centerY number) rfl (Nat.le_refl _) ?_
    (h.ids_lt t ht) track_eq frame_eq rfl ?_ summary (h.leads ht unseen frame_eq near)
    fun hconf => enough_of_confirmed summary.count (state_eq ▸ hconf)
  · rw [List.map_append, List.map_cons]
    exact ids
  · intro t' ht'
    rw [tracks_eq]
    rcases List.mem_append.1 ht' with hb | ha
    · refine .inr ⟨List.mem_append_left _ hb, fun same => new (List.mem_append_left _ ?_)⟩
      exact List.mem_map.2 ⟨t', hb, same.symm⟩
    · rcases List.mem_cons.1 ha with rfl | ha
      · exact .inl rfl
      · refine .inr ⟨by simp [ha], fun same => new (List.mem_append_right _ ?_)⟩
        exact List.mem_map.2 ⟨t', ha, same.symm⟩

/-- A new track starts with a new sighting. -/
theorem started (h : tracker.Follows log number) {s : Sighting α}
    (track_eq : s.track = tracker.nextId) (frame_eq : s.frame = number)
    (state_eq : s.state = .provisional) :
    ({ tracker with
        tracks := tracker.tracks ++
          [⟨tracker.nextId, tracker.classId, s.shape.centerX, s.shape.centerY, number, 0⟩]
        nextId := tracker.nextId + 1 } : Tracker α).Follows (log ++ [s]) number := by
  have none_yet : ofTrack tracker.nextId log = [] :=
    List.filter_eq_nil_iff.2 fun s' hs' => by simpa using Nat.ne_of_lt (h.tracks_lt s' hs')
  refine h.extend
    (t := ⟨tracker.nextId, tracker.classId, s.shape.centerX, s.shape.centerY, number, 0⟩) rfl
    (Nat.le_succ _) ?_ (Nat.lt_succ_self _) track_eq frame_eq rfl ?_ ?_ ?_
    fun hconf => absurd hconf (state_eq ▸ nofun)
  · rw [List.map_append]
    refine List.nodup_append.2 ⟨h.ids_nodup, by simp, fun id hid id' hid' => ?_⟩
    obtain ⟨t, ht, rfl⟩ := List.mem_map.1 hid
    obtain rfl : id' = tracker.nextId := by simpa using hid'
    exact Nat.ne_of_lt (h.ids_lt t ht)
  · intro t ht
    rcases List.mem_append.1 ht with ht | ht
    · exact .inr ⟨ht, (Nat.ne_of_lt (h.ids_lt t ht)).symm⟩
    · exact .inl (List.mem_singleton.1 ht)
  · rw [none_yet]
    exact ⟨⟨s, rfl, frame_eq, rfl, rfl⟩, Nat.le_refl _⟩
  · rw [none_yet]
    exact fun last hlast => by cases hlast

theorem observe (h : tracker.Follows log number) (b : Accepted α) :
    (tracker.observe b.shape.centerX b.shape.centerY number).1.Follows
      (log ++ [tracker.sight number b]) number := by
  have did := tracker.observation b.shape.centerX b.shape.centerY number
  unfold sight
  generalize tracker.taker b.shape.centerX b.shape.centerY number = taker at did ⊢
  generalize tracker.observe b.shape.centerX b.shape.centerY number = observed at did ⊢
  cases did with
  | moved tracks_eq unseen near =>
    exact h.moved (s := ⟨b, number, _, _⟩) tracks_eq unseen rfl rfl near rfl
  | started => exact h.started (s := ⟨b, number, _, _⟩) rfl rfl rfl

theorem follow (h : tracker.Follows log number) (bs : List (Accepted α)) :
    (tracker.follow number bs).1.Follows (log ++ (tracker.follow number bs).2) number := by
  induction bs generalizing tracker log with
  | nil => simpa [Tracker.follow] using h
  | cons b rest ih =>
    have later := ih (h.observe b)
    rwa [List.append_assoc, List.singleton_append] at later

theorem sorted (h : tracker.Follows log number) (id : Nat) :
    (ofTrack id log).Pairwise fun a b => a.frame < b.frame := by
  let earlier (a b : Sighting α) : Prop := a.frame < b.frame
  have : Trans earlier earlier earlier := ⟨Nat.lt_trans⟩
  have chain : (ofTrack id log).IsChain earlier := (h.linked id).imp fun _ _ hab => hab.later
  exact List.isChain_iff_pairwise.1 chain

/-- The sightings up to one are those before it, and it is the last of them. -/
theorem upTo_eq (h : tracker.Follows log number) {s : Sighting α} (hs : s ∈ log) :
    ∃ before after, ofTrack s.track log = before ++ s :: after ∧ s.upTo log = before ++ [s] := by
  have mine : s ∈ ofTrack s.track log := List.mem_filter.2 ⟨hs, decide_eq_true rfl⟩
  obtain ⟨before, after, split⟩ := List.append_of_mem mine
  have sorted := h.sorted s.track
  rw [split] at sorted
  obtain ⟨-, hafter, hbefore⟩ := List.pairwise_append.1 sorted
  refine ⟨before, after, split, ?_⟩
  rw [Sighting.upTo, split, List.filter_append, List.filter_cons_of_pos (by simp),
    List.filter_eq_self.2, List.filter_eq_nil_iff.2]
  · exact fun s' hs' => by simpa using (List.pairwise_cons.1 hafter).1 s' hs'
  · exact fun s' hs' => by simpa using Nat.le_of_lt (hbefore s' hs' s (by simp))

theorem debounced (h : tracker.Follows log number) {s : Sighting α} (hs : s ∈ log)
    (hconf : s.state = .confirmed) : Debounced tracker.rules (s.upTo log) s := by
  obtain ⟨before, after, split, upTo_eq⟩ := h.upTo_eq hs
  have enough := h.confirmed s hs hconf
  have linked := h.linked s.track
  have sorted := h.sorted s.track
  rw [upTo_eq] at enough ⊢
  rw [split, List.append_cons] at linked sorted
  refine ⟨by simp, linked.left_of_append, enough, ?_⟩
  cases before with
  | nil => exact absurd ((Nat.le_max_left ..).trans enough) (Nat.not_succ_le_self 1)
  | cons first before =>
    exact ⟨first, rfl, (List.pairwise_cons.1 (List.pairwise_append.1 sorted).1).1 s (by simp)⟩

end Follows

/-! ### What is kept of the blobs -/

@[simp] theorem follow_rules (tracker : Tracker α) (number : Nat) (bs : List (Accepted α)) :
    (tracker.follow number bs).1.rules = tracker.rules := by
  induction bs generalizing tracker with
  | nil => rfl
  | cons b rest ih => exact (ih _).trans (observe_rules ..)

theorem map_follow (tracker : Tracker α) (number : Nat) (bs : List (Accepted α)) :
    (tracker.follow number bs).2.map (·.toAccepted) = bs := by
  induction bs generalizing tracker with
  | nil => rfl
  | cons b rest ih => exact congrArg (b :: ·) (ih _)

theorem frame_of_follow (tracker : Tracker α) (number : Nat) (bs : List (Accepted α)) :
    ∀ s ∈ (tracker.follow number bs).2, s.frame = number := by
  induction bs generalizing tracker with
  | nil => exact fun _ hs => absurd hs List.not_mem_nil
  | cons b rest ih => exact List.forall_mem_cons.2 ⟨rfl, ih _⟩

/-- A blob that is accepted starts a track, and at the same place on the next frame it is confirmed,
if two sightings are enough. -/
theorem seen_twice (classId : UInt8) (rules : TrackingRules α) (b : Accepted α)
    (streak : rules.confirmationStreak ≤ 2)
    (near : Scalar.le (Scalar.hypot (b.shape.centerX - b.shape.centerX)
      (b.shape.centerY - b.shape.centerY)) rules.distanceTolerance = true) :
    let once := ((start classId rules).follow 0 [b]).1.prune 0
    once.tracks = [⟨0, classId, b.shape.centerX, b.shape.centerY, 0, 0⟩] ∧
      (once.follow 1 [b]).2.map (·.state) = [.confirmed] := by
  intro once
  have once_eq : once =
      ⟨classId, rules, [⟨0, classId, b.shape.centerX, b.shape.centerY, 0, 0⟩], 1⟩ := by
    simp [once, follow, start, observe, nearest?, prune]
  rw [once_eq]
  refine ⟨rfl, ?_⟩
  simp [follow, sight, observe, nearest?, reach?, near, Track.state, Track.moveTo,
    Track.sightings, Track.maxCount, streak]

end Tracker

end ObjectTracking
