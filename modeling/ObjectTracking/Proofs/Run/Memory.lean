import ObjectTracking.Proofs.Blob.Largest
import ObjectTracking.Proofs.Run.FreshGrids
import ObjectTracking.Proofs.Run.Published
import ObjectTracking.Proofs.Tracking.Stamps

/-!
# What is remembered of the objects of a class

A class looks at no more blobs on a frame than its settings allow, and tracks that are stale are
dropped after each frame that is used, whether the class is enabled or not. So the number of tracks
of a class is bounded in every run, and a track is dropped by the first frame that it is too old for,
and not before (`tracks_bounded`). A square that is seen on one frame after another shows a track that
comes up and is confirmed (`square_seen_twice`).
-/

namespace ObjectTracking

namespace ClassState
variable {α : Type} [Scalar α] {c : ClassState α} {samples : SampleSet} {tunables : Tunables α}
  {number : Nat}

omit [Scalar α] in
theorem length_found_le (c : ClassState α) (samples : SampleSet) (tunables : Tunables α) :
    (c.found samples tunables).2.length ≤ c.settings.maxBlobs := by
  simp only [found, LabelGrid.findBlobs, Blob.length_largest]
  exact Nat.min_le_left ..

theorem length_accepted_le (c : ClassState α) (samples : SampleSet) (tunables : Tunables α) :
    (c.accepted samples tunables).length ≤ c.settings.maxBlobs := by
  unfold accepted
  split
  · have kept := List.length_filterMap_le (ranked? c.settings tunables samples.stride)
      (c.found samples tunables).2.zipIdx
    rw [List.length_zipIdx] at kept
    exact kept.trans (c.length_found_le samples tunables)
  · exact Nat.zero_le _

theorem next_bounded (h : c.tracker.Bounded c.settings.maxBlobs number) :
    (c.next samples tunables number).tracker.Bounded c.settings.maxBlobs (number + 1) := by
  rw [next_tracker]
  exact h.next (c.length_accepted_le samples tunables)

/-- A track that is seen on the frame is kept, with the frame as its stamp. -/
theorem mem_next_of_seen (numbered : number ≤ Track.maxFrame) {s : Sighting α}
    (hs : s ∈ c.sightings samples tunables number) :
    ∃ t ∈ (c.next samples tunables number).tracker.tracks, t.id = s.track ∧ t.lastSeen = number := by
  obtain ⟨t, ht, id_eq, seen⟩ := Tracker.mem_follow_of_seen hs
  refine ⟨t, ?_, id_eq, seen⟩
  rw [next_tracker]
  refine Tracker.mem_prune.2 ⟨ht, (Track.le_keptUntil_iff numbered).2 ?_⟩
  rw [seen]
  exact Nat.le_add_right ..

end ClassState

namespace Pipeline
variable {α : Type} [Scalar α] {p : Pipeline α} {log : List (Sighting α)}

/-- The tracks of every class are bounded by its limit of blobs, before the next frame. -/
def TracksBounded (p : Pipeline α) : Prop :=
  ∀ c ∈ p.classes, c.tracker.Bounded c.settings.maxBlobs p.context.frameCount

omit [Scalar α] in
theorem TracksBounded.start (camera : Camera) (tunables : Tunables α) :
    (start camera tunables).TracksBounded :=
  fun _ hc => absurd hc List.not_mem_nil

theorem TracksBounded.step (h : p.TracksBounded) (a : Action) : (p.step a).1.TracksBounded := by
  have each := @forall_classes_step_at α _
    (fun number c => c.tracker.Bounded c.settings.maxBlobs number) p
  refine each (fun _ _ _ => .start ..) (fun _ _ _ h => h) (fun number c samples h => ?_) h a
  rw [ClassState.next_settings]
  exact ClassState.next_bounded h

theorem bounded_run (camera : Camera) (tunables : Tunables α) (actions : List Action) :
    ((start camera tunables).run actions).1.TracksBounded :=
  run_invariant (P := TracksBounded) (fun _ a h => TracksBounded.step h a)
    (TracksBounded.start camera tunables) actions

theorem mem_sightingsIn {frame : Frame} (fits : frame.Fits p.camera) {c : ClassState α}
    (hc : c ∈ p.classes) {s : Sighting α}
    (hs : s ∈ c.sightings (p.samplesOf frame) p.tunables p.context.frameCount) :
    s ∈ p.sightingsIn (.frame frame) := by
  rw [sightingsIn, if_pos fits]
  exact mem_sightingsOn.2 ⟨c, hc, hs⟩

/-- As long as no sighting goes to a track, it stays what it was, and is gone once it is stale. -/
theorem remembers_run (h : p.Recorded log) {c : ClassState α} (hc : c ∈ p.classes) {t : Track α}
    (remembers : c.tracker.Remembers t p.context.frameCount) {actions : List Action}
    (unseen : ∀ s ∈ p.sightings actions, s.classId = c.settings.id → s.track ≠ t.id) :
    ∃ c' ∈ (p.run actions).1.classes, c'.settings = c.settings ∧
      c'.tracker.Remembers t (p.run actions).1.context.frameCount := by
  induction actions generalizing p log c with
  | nil => exact ⟨c, hc, rfl, remembers⟩
  | cons a rest ih =>
    obtain ⟨now, later⟩ := List.forall_mem_append.1 unseen
    obtain ⟨c', hc', settings_eq, remembers'⟩ : ∃ c' ∈ (p.step a).1.classes,
        c'.settings = c.settings ∧
          c'.tracker.Remembers t (p.step a).1.context.frameCount := by
      -- only a frame that is used touches the tracker
      rcases class_step hc a with ⟨c', hc', settings_eq, tracker_eq, context_eq⟩ |
        ⟨frame, rfl, fits, after_eq⟩
      · refine ⟨c', hc', settings_eq, ?_⟩
        rw [tracker_eq, context_eq]
        exact remembers
      · rw [after_eq]
        refine ⟨_, List.mem_map_of_mem hc, ClassState.next_settings .., ?_⟩
        rw [ClassState.next_tracker]
        refine remembers.next (h.follows c hc).ids_nodup fun s hs => ?_
        exact now s (mem_sightingsIn fits hc hs)
          (ClassState.accepts_of_mem_sightings hs).1.classId_eq
    obtain ⟨c'', hc'', settings_eq', remembers''⟩ :=
      ih (h.step a) hc' remembers' (settings_eq ▸ later)
    exact ⟨c'', hc'', settings_eq'.trans settings_eq, remembers''⟩

/-- After a frame that is used, a track is still there exactly if it was seen on the frame or is not
too old for it. -/
theorem mem_ids_after (h : p.Recorded log) {c : ClassState α} (hc : c ∈ p.classes)
    (bounded : c.tracker.Bounded c.settings.maxBlobs p.context.frameCount) (frame : Frame)
    (numbered : p.context.frameCount ≤ Track.maxFrame) {t : Track α} (ht : t ∈ c.tracker.tracks) :
    t.id ∈ (c.next (p.samplesOf frame) p.tunables p.context.frameCount).tracker.tracks.map (·.id) ↔
      p.context.frameCount ≤ t.lastSeen + p.tunables.stalenessWindow ∨
        ∃ s ∈ p.sightingsOn frame, s.classId = c.settings.id ∧ s.track = t.id := by
  have own := ofClass_sightingsOn h.ids_nodup hc frame
  have mine : ∀ s, s ∈ p.sightingsOn frame ∧ s.classId = c.settings.id ↔
      s ∈ c.sightings (p.samplesOf frame) p.tunables p.context.frameCount := by
    intro s
    rw [← own, ofClass, List.mem_filter, decide_eq_true_iff]
  have window_eq : c.tracker.rules.stalenessWindow = p.tunables.stalenessWindow := by
    rw [h.rules_eq c hc]
    rfl
  -- a track that is seen gets the frame as its stamp, any other is judged by the stamp it has
  by_cases seen : ∃ s ∈ p.sightingsOn frame, s.classId = c.settings.id ∧ s.track = t.id
  · obtain ⟨s, hs, class_eq, track_eq⟩ := seen
    obtain ⟨t', ht', id_eq, -⟩ := ClassState.mem_next_of_seen numbered ((mine s).1 ⟨hs, class_eq⟩)
    constructor
    · exact fun _ => .inr ⟨s, hs, class_eq, track_eq⟩
    · exact fun _ => List.mem_map.2 ⟨t', ht', id_eq.trans track_eq⟩
  · have unseen : ∀ s ∈ (c.tracker.follow p.context.frameCount
        (c.accepted (p.samplesOf frame) p.tunables)).2, s.track ≠ t.id := by
      intro s hs track_eq
      obtain ⟨hs, class_eq⟩ := (mine s).2 hs
      exact seen ⟨s, hs, class_eq, track_eq⟩
    have remembers : c.tracker.Remembers t p.context.frameCount := by
      rw [Tracker.Remembers, if_pos (bounded.recent t ht)]
      exact ht
    have next := remembers.next (h.follows c hc).ids_nodup unseen
    rw [Tracker.Remembers, Tracker.prune_rules, Tracker.follow_rules, window_eq] at next
    rw [ClassState.next_tracker, or_iff_left seen, ← Track.le_keptUntil_iff numbered]
    split at next
    · rename_i fresh
      exact iff_of_true (List.mem_map_of_mem next) (Nat.le_of_succ_le_succ fresh)
    · rename_i stale
      exact iff_of_false next fun fresh => stale (Nat.succ_le_succ fresh)

/-- In every run, a class has at most so many tracks as it may have blobs on the frames of a window,
and each of them was seen on one of these frames. A frame drops exactly the tracks that are too old
for it and are not seen on it, whatever the switches of their classes are; those that are seen on it
have it as their stamp (as long as a word can number the frames). As long as a track is not seen
again it stays what it was, until it is stale; then it is gone. -/
theorem tracks_bounded (camera : Camera) (tunables : Tunables α) (before : List Action) :
    let p := ((start camera tunables).run before).1
    let window := tunables.stalenessWindow
    ∀ c ∈ p.classes,
      c.tracker.tracks.length ≤ c.settings.maxBlobs * (window + 1) ∧
      (∀ t ∈ c.tracker.tracks, t.lastSeen < p.context.frameCount ∧
        p.context.frameCount ≤ t.keptUntil window + 1) ∧
      (∀ frame p' report items, p.process frame = (p', items, .ok report) →
        p.context.frameCount ≤ Track.maxFrame →
        ∃ c' ∈ p'.classes, c'.settings = c.settings ∧
          (∀ t ∈ c.tracker.tracks, t.id ∈ c'.tracker.tracks.map (·.id) ↔
            p.context.frameCount ≤ t.lastSeen + window ∨
              ∃ s ∈ p.sightingsOn frame, s.classId = c.settings.id ∧ s.track = t.id) ∧
          ∀ s ∈ p.sightingsOn frame, s.classId = c.settings.id →
            ∃ t ∈ c'.tracker.tracks, t.id = s.track ∧ t.lastSeen = p.context.frameCount) ∧
      ∀ after, ∀ t ∈ c.tracker.tracks,
        (∀ s ∈ p.sightings after, s.classId = c.settings.id → s.track ≠ t.id) →
        ∃ c' ∈ (p.run after).1.classes, c'.settings = c.settings ∧
          if (p.run after).1.context.frameCount ≤ t.keptUntil window + 1 then
            t ∈ c'.tracker.tracks
          else t.id ∉ c'.tracker.tracks.map (·.id) := by
  intro p window c hc
  have recorded : p.Recorded ((start camera tunables).sightings before) :=
    (Recorded.start camera tunables).run before
  have bounded := bounded_run camera tunables before c hc
  have tunables_eq : p.tunables = tunables := ((start camera tunables).fixed_run before).2
  have window_eq : ∀ after, ∀ c' ∈ (p.run after).1.classes,
      c'.tracker.rules.stalenessWindow = window := by
    intro after c' hc'
    rw [(recorded.run after).rules_eq c' hc', (p.fixed_run after).2, tunables_eq]
    rfl
  have length := bounded.length_le
  have recent := bounded.recent
  rw [window_eq [] c hc] at length recent
  refine ⟨length, fun t ht => ⟨bounded.past t ht, recent t ht⟩, ?frame, ?run⟩
  case frame =>
    intro frame p' report items used numbered
    obtain ⟨-, rfl, -, -⟩ := of_process_eq_ok used
    refine ⟨_, List.mem_map_of_mem hc, ClassState.next_settings .., fun t ht => ?_, ?_⟩
    · have fate := mem_ids_after recorded hc bounded frame numbered ht
      rwa [tunables_eq] at fate ⊢
    · intro s hs class_eq
      have own := ofClass_sightingsOn recorded.ids_nodup hc frame
      refine ClassState.mem_next_of_seen numbered ?_
      rw [← own]
      exact List.mem_filter.2 ⟨hs, decide_eq_true class_eq⟩
  case run =>
    intro after t ht unseen
    have remembers : c.tracker.Remembers t p.context.frameCount := by
      rw [Tracker.Remembers, if_pos (bounded.recent t ht)]
      exact ht
    obtain ⟨c', hc', settings_eq, remembers'⟩ := remembers_run recorded hc remembers unseen
    rw [Tracker.Remembers, window_eq after c' hc'] at remembers'
    exact ⟨c', hc', settings_eq, remembers'⟩

/-! ### A square of four pixels -/

/-- A class that takes every pixel for its object finds the square of all four pixels on a dark frame.
If the square is accepted it has a track then, and it is detected on the next such frame. -/
theorem square_seen_twice (tolerance threshold : α) {shape : Shape α} {value : α} :
    let points : List Point := [⟨0, 0⟩, ⟨0, 1⟩, ⟨1, 0⟩, ⟨1, 1⟩]
    let tunables : Tunables α := ⟨1, 2, 3, tolerance, 1, 1, threshold, threshold⟩
    let gate : ClassSettings := .usual "gate" 1 .forward "gate.txt"
    let dark : Frame := ⟨.forward, .epoch, .filled 2 2 ⟨0, 0, 0⟩⟩
    ClassState.accepted? gate tunables 1 ⟨1, points.toArray⟩ = some (shape, value) →
    Scalar.le (Scalar.hypot (shape.centerX - shape.centerX) (shape.centerY - shape.centerY))
      tolerance = true →
    let p := ((start .forward tunables).run [.add gate fun _ => .object 1, .frame dark]).1
    ∃ c t d, p.enabled = [c] ∧ c.settings = gate ∧ c.tracker.tracks = [t] ∧
      p.tracks? "gate" = some [t] ∧ t.lastSeen = 0 ∧ dark.Fits p.camera ∧
      d ∈ p.detectionsBy dark c := by
  intro points tunables gate dark accepts near p
  let blob : Blob := ⟨1, points.toArray⟩
  let first : Pipeline α := ((start .forward tunables).run [.add gate fun _ => .object 1]).1
  let samples := first.samplesOf dark
  let c : ClassState α := .start tunables gate fun _ => .object 1
  let c' := c.next samples tunables 0
  -- the average color after a dark frame is the one at the start, so both frames look the same
  have colors_eq : p.context.colors = .initial := by
    show ((Context.start 1).finish
      ((Scanner.ofStride 1).scan dark.upright.hsv .initial)).colors = .initial
    decide +kernel
  have scanner_eq : p.context.scanner = .ofStride 1 := by
    show (Scanner.ofStride 1).advance = .ofStride 1
    decide
  have samples_eq : p.samplesOf dark = samples := by
    rw [samplesOf, colors_eq, scanner_eq]
    rfl
  have found : (c.found samples tunables).2 = [blob] := by
    show ((SampleSet.classifyInto (Scanner.scan (.ofStride 1) dark.upright.hsv .initial)
      (fun _ => .object 1) (.empty 0 0)).findBlobs 0 1 ⟨1, 1, 1⟩).2 =
        [(⟨1, #[⟨0, 0⟩, ⟨0, 1⟩, ⟨1, 0⟩, ⟨1, 1⟩]⟩ : Blob)]
    decide +kernel
  have found' : (c'.found samples tunables).2 = [blob] := by
    have valid : c.grid.Valid := .empty ..
    have valid' : c'.grid.Valid := c.next_grid_valid samples tunables 0 valid
    rw [ClassState.found_eq (ClassState.next_settings ..) rfl valid valid', found]
  let seen : Accepted α := ⟨1, 0, blob, shape, value⟩
  have accepted : c.accepted samples tunables = [seen] :=
    ClassState.accepted_eq_singleton rfl found accepts
  have accepted' : c'.accepted samples tunables = [seen] :=
    ClassState.accepted_eq_singleton rfl found' accepts
  have tracker_eq : c'.tracker =
      ((Tracker.start 1 tunables.trackingRules).follow 0 [seen]).1.prune 0 :=
    accepted ▸ ClassState.next_tracker ..
  obtain ⟨once, again⟩ := Tracker.seen_twice 1 tunables.trackingRules seen le_rfl near
  rw [← tracker_eq] at once
  rw [← tracker_eq, ← accepted'] at again
  obtain ⟨s, sightings_eq, confirmed⟩ := List.map_eq_singleton_iff.1 again
  have sighted : s ∈ c'.sightings (p.samplesOf dark) p.tunables p.context.frameCount := by
    rw [samples_eq]
    exact (congrArg (s ∈ ·) sightings_eq).mpr (List.mem_singleton_self s)
  exact ⟨c', _, _, rfl, rfl, once, congrArg some once, rfl, ⟨by decide, by decide, rfl⟩,
    List.mem_map_of_mem (List.mem_filter.2 ⟨sighted, decide_eq_true confirmed⟩)⟩

omit [Scalar α] in
theorem hull_square :
    Vertex.hull [⟨0, 0⟩, ⟨0, 1⟩, ⟨1, 0⟩, ⟨1, 1⟩] = [⟨0, 0⟩, ⟨1, 0⟩, ⟨1, 1⟩, ⟨0, 1⟩] := by
  have others : [(⟨0, 1⟩ : Vertex), ⟨1, 0⟩, ⟨1, 1⟩].mergeSort
      (fun p q => !Vertex.earlier ⟨0, 0⟩ q p) = [⟨1, 0⟩, ⟨1, 1⟩, ⟨0, 1⟩] := by
    simp [List.mergeSort, Vertex.earlier, Vertex.turn]
  exact congrArg (fun others =>
    ((Vertex.farthestOnly ⟨0, 0⟩ others).foldl Vertex.extend [⟨0, 0⟩]).reverse) others

/-- A gate of four pixels has a track after the first frame. On the second frame it would be
detected. -/
theorem gate_seen_twice :
    let tunables : Tunables Float := ⟨1, 2, 3, 0, 1, 1, 0, 0⟩
    let gate : ClassSettings := .usual "gate" 1 .forward "gate.txt"
    let dark : Frame := ⟨.forward, .epoch, .filled 2 2 ⟨0, 0, 0⟩⟩
    let p := ((start .forward tunables).run [.add gate fun _ => .object 1, .frame dark]).1
    ∃ c t d, p.enabled = [c] ∧ c.settings = gate ∧ c.tracker.tracks = [t] ∧
      p.tracks? "gate" = some [t] ∧ t.lastSeen = 0 ∧ dark.Fits p.camera ∧
      d ∈ p.detectionsBy dark c := by
  intro tunables gate
  let points : List Point := [⟨0, 0⟩, ⟨0, 1⟩, ⟨1, 0⟩, ⟨1, 1⟩]
  let corners : List Vertex := [⟨0, 0⟩, ⟨1, 0⟩, ⟨1, 1⟩, ⟨0, 1⟩]
  have vertices : points.map Vertex.ofPoint = [⟨0, 0⟩, ⟨0, 1⟩, ⟨1, 0⟩, ⟨1, 1⟩] := by decide
  let rect : TiltedRect Float := .smallestAlong corners (0, 0) [(0, 1), (1, 0), (1, 1)]
  have around_eq : TiltedRect.around points = rect := by
    show TiltedRect.smallestAlong (Vertex.hull (points.map Vertex.ofPoint)) _ _ = _
    rw [vertices, hull_square]
    rfl
  let shape : Shape Float := .ofRect rect 4
  have fitted : Shape.ofBlob? gate.shapeModel ⟨1, points.toArray⟩ = some shape := by
    show some (Shape.ofRect (TiltedRect.around points) 4) = _
    rw [around_eq]
  obtain ⟨value, scored, above⟩ := Confidence.exists_score_of_accepts
    (show Confidence.accepts (.ofShape .rectangle shape 1) 0 = true by decide +kernel)
  have accepts : ClassState.accepted? gate tunables 1 ⟨1, points.toArray⟩ = some (shape, value) :=
    ClassState.accepted?_eq_some fitted scored above
  exact square_seen_twice 0 0 accepts (by decide +kernel)

/-- The second frame comes while the class is switched off. The track of the first is still kept. -/
theorem tracks_of_disabled_class :
    let tunables : Tunables Float := ⟨1, 2, 3, 0, 1, 1, 0, 0⟩
    let gate : ClassSettings := .usual "gate" 1 .forward "gate.txt"
    let dark : Frame := ⟨.forward, .epoch, .filled 2 2 ⟨0, 0, 0⟩⟩
    let before : List Action :=
      [.add gate fun _ => .object 1, .frame dark, .update "gate" (.enabled false)]
    let p := ((start .forward tunables).run before).1
    ∃ c ∈ p.classes, c.settings = gate ∧ c.tracker.tracks.length ≤ 4 ∧
      ∃ p' report items, p.process dark = (p', items, .ok report) ∧
        ∃ c' ∈ p'.classes, c'.settings = gate ∧
          (∀ t ∈ c.tracker.tracks, t.id ∈ c'.tracker.tracks.map (·.id) ↔ 1 ≤ t.lastSeen + 3 ∨
            ∃ s ∈ p.sightingsOn dark, s.classId = 1 ∧ s.track = t.id) ∧
          ∃ t ∈ c.tracker.tracks, t.lastSeen = 0 ∧ t.id ∈ c'.tracker.tracks.map (·.id) := by
  intro tunables gate dark before p
  let q := ((start .forward tunables).run [.add gate fun _ => .object 1, .frame dark]).1
  have p_eq : p = (q.step (.update "gate" (.enabled false))).1 := rfl
  obtain ⟨seen, t, -, enabled_eq, seen_settings, tracks_eq, -, stamp, fits, -⟩ := gate_seen_twice
  have known : seen ∈ q.classes :=
    (List.mem_filter.1 (enabled_eq ▸ List.mem_singleton_self seen)).1
  obtain ⟨c, hc, settings_eq, tracker_eq⟩ : ∃ c ∈ p.classes, c.settings = gate ∧
      c.tracker = seen.tracker := by
    rw [p_eq]
    rcases class_step known (.update "gate" (.enabled false)) with
      ⟨c, hc, settings_eq, tracker_eq, -⟩ | ⟨frame, no_frame, -⟩
    · exact ⟨c, hc, settings_eq.trans seen_settings, tracker_eq⟩
    · cases no_frame
  have ht : t ∈ c.tracker.tracks := by
    rw [tracker_eq, tracks_eq]
    exact List.mem_singleton_self t
  have number_eq : p.context.frameCount = 1 := rfl
  have used := process_of_fits (p := p) fits
  have numbered : p.context.frameCount ≤ Track.maxFrame := by rw [number_eq]; decide
  obtain ⟨length, -, frame, -⟩ := tracks_bounded .forward tunables before c hc
  obtain ⟨c', hc', settings_eq', fate, -⟩ := frame dark _ _ _ used numbered
  rw [settings_eq] at length settings_eq' fate
  rw [number_eq] at fate
  refine ⟨c, hc, settings_eq, length, _, _, _, used, c', hc', settings_eq', fate, t, ht, stamp, ?_⟩
  exact (fate t ht).2 (.inl (by rw [stamp]; decide))

end Pipeline

end ObjectTracking
