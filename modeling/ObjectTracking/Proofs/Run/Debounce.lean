import Mathlib.Data.List.Nodup
import ObjectTracking.Proofs.Run.Transition
import ObjectTracking.Proofs.Tracking.Sightings

/-!
# What is published has been seen before

All blobs that are accepted in a run make up its log (`Pipeline.sightings`), and every tracker
follows those of its class (`Pipeline.Recorded`). So a detection that is handed on is the last of a
chain of accepted blobs, one on each of enough frames (`Recorded.debounced`).
-/

namespace ObjectTracking

def Sighting.hit {α : Type} (s : Sighting α) : Hit α := ⟨s.blobIndex, s.shape, s.confidence⟩

/-- A blob is known by its class, its frame and its rank. -/
def Sighting.key {α : Type} (s : Sighting α) : UInt8 × Nat × Nat := (s.classId, s.frame, s.blobIndex)

theorem Confidence.value?_eq_some_iff {α : Type} {confidence : Confidence α} {value : α} :
    confidence.value? = some value ↔ confidence = .score value := by
  cases confidence <;> simp [value?]

theorem Confidence.exists_score_of_accepts {α : Type} [Scalar α] {confidence : Confidence α}
    {threshold : α} (h : confidence.accepts threshold = true) :
    ∃ value, confidence = .score value ∧ Scalar.lt threshold value = true := by
  cases confidence with
  | score value => exact ⟨value, rfl, h⟩
  | _ => cases h

namespace ClassState
variable {α : Type} [Scalar α] {c : ClassState α} {samples : SampleSet} {tunables : Tunables α}
  {number : Nat}

/-- The class is enabled and accepts the blob: a shape is fitted to it, and the score of the shape
is above the threshold. -/
structure Accepts (c : ClassState α) (samples : SampleSet) (tunables : Tunables α)
    (b : Accepted α) : Prop where
  enabled : c.flags.enabled = true
  classId_eq : b.classId = c.settings.id
  found : (c.found samples tunables).2[b.blobIndex]? = some b.blob
  fitted : Shape.ofBlob? c.settings.shapeModel b.blob = some b.shape
  scored : Confidence.ofShape c.settings.confidenceModel b.shape samples.stride =
    .score b.confidence
  above : Scalar.lt (tunables.minConfidenceFor c.settings.elongated) b.confidence = true

def ranked? (settings : ClassSettings) (tunables : Tunables α) (stride : Nat) :
    Blob × Nat → Option (Accepted α)
  | (blob, index) => (accepted? settings tunables stride blob).map fun (shape, confidence) =>
      ⟨settings.id, index, blob, shape, confidence⟩

/-- The accepted blobs of a frame; none while the class is disabled. -/
def accepted (c : ClassState α) (samples : SampleSet) (tunables : Tunables α) :
    List (Accepted α) :=
  if c.flags.enabled then
    (c.found samples tunables).2.zipIdx.filterMap (ranked? c.settings tunables samples.stride)
  else []

/-- What the tracker makes of the accepted blobs of a frame. -/
def sightings (c : ClassState α) (samples : SampleSet) (tunables : Tunables α) (number : Nat) :
    List (Sighting α) :=
  (c.tracker.follow number (c.accepted samples tunables)).2

theorem of_accepted?_eq_some {settings : ClassSettings} {stride : Nat} {blob : Blob}
    {shape : Shape α} {confidence : α}
    (h : accepted? settings tunables stride blob = some (shape, confidence)) :
    Shape.ofBlob? settings.shapeModel blob = some shape ∧
      Confidence.ofShape settings.confidenceModel shape stride = .score confidence ∧
      Scalar.lt (tunables.minConfidenceFor settings.elongated) confidence = true := by
  obtain ⟨shape', hshape, h⟩ := Option.bind_eq_some_iff.1 h
  dsimp only at h
  split at h
  · rename_i accepts
    obtain ⟨value, hvalue, h⟩ := Option.bind_eq_some_iff.1 h
    obtain ⟨rfl, rfl⟩ := Prod.mk.inj (Option.some.inj h)
    have scored := Confidence.value?_eq_some_iff.1 hvalue
    exact ⟨hshape, scored, by rw [scored] at accepts; exact accepts⟩
  · cases h

theorem accepted?_eq_some {settings : ClassSettings} {stride : Nat} {blob : Blob}
    {shape : Shape α} {confidence : α}
    (fitted : Shape.ofBlob? settings.shapeModel blob = some shape)
    (scored : Confidence.ofShape settings.confidenceModel shape stride = .score confidence)
    (above : Scalar.lt (tunables.minConfidenceFor settings.elongated) confidence = true) :
    accepted? settings tunables stride blob = some (shape, confidence) := by
  simp [accepted?, fitted, scored, above, Confidence.accepts, Confidence.value?]

theorem accepts_of_mem {b : Accepted α} (h : b ∈ c.accepted samples tunables) :
    c.Accepts samples tunables b := by
  unfold accepted at h
  split at h
  · rename_i enabled
    obtain ⟨⟨blob, index⟩, hmem, hranked⟩ := List.mem_filterMap.1 h
    obtain ⟨⟨shape, confidence⟩, haccepted, rfl⟩ := Option.map_eq_some_iff.1 hranked
    obtain ⟨fitted, scored, above⟩ := of_accepted?_eq_some haccepted
    exact ⟨enabled, rfl, List.mem_zipIdx_iff_getElem?.1 hmem, fitted, scored, above⟩
  · exact absurd h List.not_mem_nil

/-- If a single blob is found and it is accepted, it is all that is. -/
theorem accepted_eq_singleton {blob : Blob} {shape : Shape α} {confidence : α}
    (enabled : c.flags.enabled = true) (found : (c.found samples tunables).2 = [blob])
    (accepts : accepted? c.settings tunables samples.stride blob = some (shape, confidence)) :
    c.accepted samples tunables = [⟨c.settings.id, 0, blob, shape, confidence⟩] := by
  simp only [accepted, enabled, if_true, found]
  simp [ranked?, accepts]

theorem pairwise_accepted (c : ClassState α) (samples : SampleSet) (tunables : Tunables α) :
    (c.accepted samples tunables).Pairwise fun a b => a.blobIndex < b.blobIndex := by
  unfold accepted
  split
  · refine List.pairwise_filterMap.2 ?_
    have ranks : ((c.found samples tunables).2.zipIdx.map Prod.snd).Pairwise (· < ·) := by
      rw [List.zipIdx_map_snd]
      exact List.pairwise_lt_range'
    refine (List.pairwise_map.1 ranks).imp fun hlt b hb b' hb' => ?_
    obtain ⟨_, -, rfl⟩ := Option.map_eq_some_iff.1 hb
    obtain ⟨_, -, rfl⟩ := Option.map_eq_some_iff.1 hb'
    exact hlt
  · exact .nil

/-- The blobs of a frame are gone through as the tracker follows those that are accepted. -/
theorem foldl_take (settings : ClassSettings) (stride : Nat) (ranked : List (Blob × Nat))
    (progress : Progress α) :
    (ranked.foldl (Progress.take settings tunables stride number) progress).tracker =
        (progress.tracker.follow number (ranked.filterMap (ranked? settings tunables stride))).1 ∧
      (ranked.foldl (Progress.take settings tunables stride number) progress).hits =
        progress.hits ++ (((progress.tracker.follow number
          (ranked.filterMap (ranked? settings tunables stride))).2.filter
            (·.state = .confirmed)).map Sighting.hit) := by
  induction ranked generalizing progress with
  | nil => exact ⟨rfl, (List.append_nil _).symm⟩
  | cons ranked rest ih =>
    obtain ⟨blob, index⟩ := ranked
    simp only [List.foldl_cons, ih, List.filterMap_cons]
    cases haccepted : accepted? settings tunables stride blob with
    | none => simp [Progress.take, ranked?, haccepted]
    | some found =>
      obtain ⟨shape, confidence⟩ := found
      cases hobserved : progress.tracker.observe shape.centerX shape.centerY number with
      | mk tracker state =>
        cases state <;> simp [Progress.take, ranked?, haccepted, hobserved, Tracker.follow,
          Tracker.sight, Sighting.hit]

theorem next_tracker (c : ClassState α) (samples : SampleSet) (tunables : Tunables α)
    (number : Nat) :
    (c.next samples tunables number).tracker =
      (c.tracker.follow number (c.accepted samples tunables)).1.prune number := by
  by_cases enabled : c.flags.enabled = true
  · simp only [next, accepted, enabled, if_true, run_eq, progress, (foldl_take ..).1]
  · simp [next, accepted, enabled, Tracker.follow]

theorem outcome?_hits {outcome : ClassOutcome α}
    (h : c.outcome? samples tunables number = some outcome) :
    outcome.hits =
      ((c.sightings samples tunables number).filter (·.state = .confirmed)).map Sighting.hit := by
  obtain ⟨enabled, rfl⟩ := outcome?_eq_some_iff.1 h
  simp only [sightings, accepted, enabled, if_true, run_eq, progress, (foldl_take ..).2,
    List.nil_append]

theorem accepts_of_mem_sightings {s : Sighting α} (h : s ∈ c.sightings samples tunables number) :
    c.Accepts samples tunables s.toAccepted ∧ s.frame = number := by
  refine ⟨accepts_of_mem ?_, c.tracker.frame_of_follow _ _ s h⟩
  rw [← c.tracker.map_follow number (c.accepted samples tunables)]
  exact List.mem_map_of_mem h

theorem pairwise_sightings (c : ClassState α) (samples : SampleSet) (tunables : Tunables α)
    (number : Nat) :
    (c.sightings samples tunables number).Pairwise fun a b => a.blobIndex < b.blobIndex := by
  have ranks := c.pairwise_accepted samples tunables
  rw [← c.tracker.map_follow number (c.accepted samples tunables)] at ranks
  rwa [List.pairwise_map] at ranks

end ClassState

def ofClass {α : Type} (id : UInt8) (log : List (Sighting α)) : List (Sighting α) :=
  log.filter (·.classId = id)

/-- The sightings of the same object up to this one. -/
def Sighting.chain {α : Type} (s : Sighting α) (log : List (Sighting α)) : List (Sighting α) :=
  log.filter fun t => t.classId = s.classId ∧ t.track = s.track ∧ t.frame ≤ s.frame

theorem Sighting.chain_eq {α : Type} (s : Sighting α) (log : List (Sighting α)) :
    s.chain log = s.upTo (ofClass s.classId log) := by
  simp only [chain, upTo, ofTrack, ofClass, List.filter_filter]
  refine List.filter_congr fun t _ => ?_
  simp only [Bool.decide_and]
  ac_rfl

namespace Pipeline
variable {α : Type} [Scalar α] {p : Pipeline α} {log : List (Sighting α)}

def sightingsOn (p : Pipeline α) (frame : Frame) : List (Sighting α) :=
  p.classes.flatMap (·.sightings (p.samplesOf frame) p.tunables p.context.frameCount)

/-- What an action adds to the log. -/
def sightingsIn (p : Pipeline α) : Action → List (Sighting α)
  | .frame frame => if frame.Fits p.camera then p.sightingsOn frame else []
  | _ => []

/-- The log of a run: all that is accepted, in the order in which it is. -/
def sightings (p : Pipeline α) : List Action → List (Sighting α)
  | [] => []
  | a :: rest => p.sightingsIn a ++ (p.step a).1.sightings rest

/-- The class accepted the blob on a frame of the run. -/
structure SeenIn (p : Pipeline α) (actions : List Action) (s : Sighting α) (frame : Frame)
    (c : ClassState α) : Prop where
  at_frame : ∃ before after, actions = before ++ .frame frame :: after ∧
    frame.Fits (p.run before).1.camera ∧ s.frame = (p.run before).1.context.frameCount ∧
    c ∈ (p.run before).1.classes ∧
    c.Accepts ((p.run before).1.samplesOf frame) (p.run before).1.tunables s.toAccepted

/-- Every tracker follows what the log has of its class. -/
structure Recorded (p : Pipeline α) (log : List (Sighting α)) : Prop where
  ids_nodup : (p.settings.map (·.id)).Nodup
  known : ∀ s ∈ log, s.classId ∈ p.settings.map (·.id)
  past : ∀ s ∈ log, s.frame < p.context.frameCount
  keys_nodup : log.Pairwise fun a b => a.key ≠ b.key
  rules_eq : ∀ c ∈ p.classes, c.tracker.rules = p.tunables.trackingRules
  follows : ∀ c ∈ p.classes,
    c.tracker.Follows (ofClass c.settings.id log) p.context.frameCount

theorem mem_sightingsOn {frame : Frame} {s : Sighting α} :
    s ∈ p.sightingsOn frame ↔ ∃ c ∈ p.classes,
      s ∈ c.sightings (p.samplesOf frame) p.tunables p.context.frameCount :=
  List.mem_flatMap

omit [Scalar α] in
theorem ids_ne (ids_nodup : (p.settings.map (·.id)).Nodup) :
    p.classes.Pairwise fun a b => a.settings.id ≠ b.settings.id := by
  rw [settings, List.map_map] at ids_nodup
  exact List.pairwise_map.1 ids_nodup

/-- Of what is accepted on a frame, each class has its own. -/
theorem ofClass_sightingsOn (ids_nodup : (p.settings.map (·.id)).Nodup) {c : ClassState α}
    (hc : c ∈ p.classes) (frame : Frame) :
    ofClass c.settings.id (p.sightingsOn frame) =
      c.sightings (p.samplesOf frame) p.tunables p.context.frameCount := by
  obtain ⟨before, after, split⟩ := List.append_of_mem hc
  have ids := ids_ne ids_nodup
  rw [split] at ids
  obtain ⟨-, hafter, hbefore⟩ := List.pairwise_append.1 ids
  have others : ∀ classes : List (ClassState α), (∀ c' ∈ classes, c'.settings.id ≠ c.settings.id) →
      (classes.flatMap (·.sightings (p.samplesOf frame) p.tunables p.context.frameCount)).filter
        (·.classId = c.settings.id) = [] := by
    intro classes hclasses
    refine List.filter_eq_nil_iff.2 fun s hs => ?_
    obtain ⟨c', hc', hs⟩ := List.mem_flatMap.1 hs
    rw [(ClassState.accepts_of_mem_sightings hs).1.classId_eq]
    simpa using hclasses c' hc'
  have own : (c.sightings (p.samplesOf frame) p.tunables p.context.frameCount).filter
      (·.classId = c.settings.id) =
        c.sightings (p.samplesOf frame) p.tunables p.context.frameCount :=
    List.filter_eq_self.2 fun s hs =>
      decide_eq_true (ClassState.accepts_of_mem_sightings hs).1.classId_eq
  rw [ofClass, sightingsOn, split, List.flatMap_append, List.flatMap_cons, List.filter_append,
    List.filter_append, own, others before fun c' hc' => hbefore c' hc' c (by simp),
    others after fun c' hc' => ((List.pairwise_cons.1 hafter).1 c' hc').symm, List.nil_append,
    List.append_nil]

namespace Recorded

theorem start (camera : Camera) (tunables : Tunables α) : Recorded (start camera tunables) [] := by
  constructor <;> simp [Pipeline.start, settings]

theorem added (h : p.Recorded log) {settings : ClassSettings} (classify : Classifier)
    (new : ∀ s ∈ p.settings, s.name ≠ settings.name ∧ s.id ≠ settings.id) :
    (p.register settings classify).Recorded log := by
  have new_id : settings.id ∉ p.settings.map (·.id) := fun hid => by
    obtain ⟨s, hs, same⟩ := List.mem_map.1 hid
    exact (new s hs).2 same
  have ids_eq : (p.register settings classify).settings.map (·.id) =
      p.settings.map (·.id) ++ [settings.id] := by simp
  refine ⟨?_, fun s hs => ?_, h.past, h.keys_nodup, fun c hc => ?_, fun c hc => ?_⟩
  · rw [ids_eq]
    refine List.nodup_append.2 ⟨h.ids_nodup, by simp, fun id hid id' hid' same => new_id ?_⟩
    obtain rfl := List.mem_singleton.1 hid'
    exact same ▸ hid
  · rw [ids_eq]
    exact List.mem_append_left _ (h.known s hs)
  · rcases List.mem_append.1 hc with hc | hc
    · exact h.rules_eq c hc
    · obtain rfl := List.mem_singleton.1 hc
      rfl
  · rcases List.mem_append.1 hc with hc | hc
    · exact h.follows c hc
    · obtain rfl := List.mem_singleton.1 hc
      have nothing : ofClass settings.id log = [] := List.filter_eq_nil_iff.2 fun s hs => by
        simp only [decide_eq_true_eq]
        exact fun same => new_id (same ▸ h.known s hs)
      exact nothing.symm ▸ .start ..

theorem switched (h : p.Recorded log) (name : String) (update : ClassUpdate) :
    (p.switch name update).Recorded log := by
  have settings_eq := p.settings_switch name update
  refine ⟨settings_eq.symm ▸ h.ids_nodup, fun s hs => settings_eq.symm ▸ h.known s hs, h.past,
    h.keys_nodup, fun c hc => ?_, fun c hc => ?_⟩
  · rcases mem_modifyClass hc with hc | ⟨c', hc', rfl⟩
    · exact h.rules_eq c hc
    · exact h.rules_eq c' hc'
  · rcases mem_modifyClass hc with hc | ⟨c', hc', rfl⟩
    · exact h.follows c hc
    · exact h.follows c' hc'

theorem nodup_sightingsOn (h : p.Recorded log) (frame : Frame) :
    (p.sightingsOn frame).Pairwise fun a b => a.key ≠ b.key := by
  refine List.pairwise_flatMap.2 ⟨fun c _ => ?_, ?_⟩
  · exact (c.pairwise_sightings ..).imp fun lt same =>
      Nat.ne_of_lt lt (congrArg (fun key : UInt8 × Nat × Nat => key.2.2) same)
  · refine (ids_ne h.ids_nodup).imp fun other s hs s' hs' same => other ?_
    have id_eq := (ClassState.accepts_of_mem_sightings hs).1.classId_eq
    have id_eq' := (ClassState.accepts_of_mem_sightings hs').1.classId_eq
    rw [← id_eq, ← id_eq']
    exact congrArg (·.1) same

theorem after (h : p.Recorded log) (frame : Frame) :
    (p.after frame).Recorded (log ++ p.sightingsOn frame) := by
  have settings_eq := p.settings_after frame
  refine ⟨settings_eq.symm ▸ h.ids_nodup, fun s hs => ?_, fun s hs => ?_, ?_, fun c hc => ?_,
    fun c hc => ?_⟩
  · rw [settings_eq]
    rcases List.mem_append.1 hs with hs | hs
    · exact h.known s hs
    · obtain ⟨c, hc, hs⟩ := mem_sightingsOn.1 hs
      rw [(ClassState.accepts_of_mem_sightings hs).1.classId_eq]
      exact List.mem_map_of_mem (List.mem_map_of_mem hc)
  · rcases List.mem_append.1 hs with hs | hs
    · exact Nat.lt_succ_of_lt (h.past s hs)
    · obtain ⟨c, -, hs⟩ := mem_sightingsOn.1 hs
      rw [(ClassState.accepts_of_mem_sightings hs).2]
      exact Nat.lt_succ_self _
  · refine List.pairwise_append.2 ⟨h.keys_nodup, h.nodup_sightingsOn frame, ?_⟩
    -- what was accepted before is of an earlier frame
    intro s hs s' hs' same
    obtain ⟨c, -, hs'⟩ := mem_sightingsOn.1 hs'
    have earlier := h.past s hs
    rw [← (ClassState.accepts_of_mem_sightings hs').2] at earlier
    exact Nat.ne_of_lt earlier (congrArg (·.2.1) same)
  · obtain ⟨c', hc', rfl⟩ := List.mem_map.1 hc
    rw [ClassState.next_tracker]
    exact (Tracker.follow_rules ..).trans (h.rules_eq c' hc')
  · obtain ⟨c', hc', rfl⟩ := List.mem_map.1 hc
    rw [ClassState.next_tracker, ClassState.next_settings, ofClass, List.filter_append, ← ofClass,
      ← ofClass, ofClass_sightingsOn h.ids_nodup hc']
    exact ((h.follows c' hc').follow _).prune

theorem step (h : p.Recorded log) (a : Action) : (p.step a).1.Recorded (log ++ p.sightingsIn a) := by
  generalize hstep : p.step a = stepped
  have did : p.Transition a stepped := hstep ▸ p.transition a
  cases did with
  | added _ new => exact (List.append_nil log).symm ▸ h.added _ new
  | switched => exact (List.append_nil log).symm ▸ h.switched ..
  | @processed frame fits =>
    rw [show p.sightingsIn (.frame frame) = p.sightingsOn frame from if_pos fits]
    exact h.after frame
  | refused unfit =>
    have nothing : p.sightingsIn a = [] := by
      cases a with
      | frame frame => exact if_neg (unfit frame rfl)
      | _ => rfl
    rwa [nothing, List.append_nil]

theorem run (h : p.Recorded log) (actions : List Action) :
    (p.run actions).1.Recorded (log ++ p.sightings actions) := by
  induction actions generalizing p log with
  | nil => exact (List.append_nil log).symm ▸ h
  | cons a rest ih =>
    have later := ih (h.step a)
    rwa [List.append_assoc] at later

end Recorded

/-! ### What is handed on -/

theorem sighting_of_detection {frame : Frame} {d : Detection α}
    (h : .detection d ∈ p.itemsFor frame) :
    ∃ c ∈ p.classes, ∃ s ∈ c.sightings (p.samplesOf frame) p.tunables p.context.frameCount,
      s.state = .confirmed ∧ d = detectionOf frame.upright s.frame c.settings s.hit := by
  have said := (List.mem_append.1 h).resolve_right (by simp)
  obtain ⟨outcome, houtcome, hitem⟩ := List.mem_flatMap.1 said
  have hhit := (List.mem_append.1 hitem).resolve_left (by simp)
  obtain ⟨c, hc, hsome⟩ := List.mem_filterMap.1 houtcome
  obtain ⟨hit, hmem, hd⟩ := List.mem_map.1 hhit
  rw [ClassState.outcome?_hits hsome] at hmem
  obtain ⟨s, hs, rfl⟩ := List.mem_map.1 hmem
  obtain ⟨hs, confirmed⟩ := List.mem_filter.1 hs
  refine ⟨c, hc, s, hs, of_decide_eq_true confirmed, ?_⟩
  rw [(ClassState.accepts_of_mem_sightings hs).2, ← ClassState.outcome?_settings hsome]
  exact (Item.detection.inj hd).symm

namespace SeenIn
variable {actions : List Action} {s : Sighting α} {frame : Frame} {c : ClassState α}

theorem now (fits : frame.Fits p.camera) (hc : c ∈ p.classes)
    (hs : s ∈ c.sightings (p.samplesOf frame) p.tunables p.context.frameCount) :
    p.SeenIn (.frame frame :: actions) s frame c :=
  have ⟨accepts, frame_eq⟩ := ClassState.accepts_of_mem_sightings hs
  ⟨[], actions, rfl, fits, frame_eq, hc, accepts⟩

theorem later {a : Action} (h : (p.step a).1.SeenIn actions s frame c) :
    p.SeenIn (a :: actions) s frame c := by
  obtain ⟨before, after, rfl, seen⟩ := h.at_frame
  exact ⟨a :: before, after, rfl, seen⟩

end SeenIn

theorem seenIn_of_mem {actions : List Action} {s : Sighting α} (h : s ∈ p.sightings actions) :
    ∃ frame c, p.SeenIn actions s frame c := by
  induction actions generalizing p with
  | nil => exact absurd h List.not_mem_nil
  | cons a rest ih =>
    rcases List.mem_append.1 h with h | h
    · cases a with
      | frame frame =>
        by_cases fits : frame.Fits p.camera
        · rw [sightingsIn, if_pos fits] at h
          obtain ⟨c, hc, hs⟩ := mem_sightingsOn.1 h
          exact ⟨frame, c, .now fits hc hs⟩
        · rw [sightingsIn, if_neg fits] at h
          exact absurd h List.not_mem_nil
      | _ => exact absurd h List.not_mem_nil
    · obtain ⟨frame, c, seen⟩ := ih h
      exact ⟨frame, c, seen.later⟩

theorem frame_of_detection {a : Action} {d : Detection α} (h : .detection d ∈ (p.step a).2.items) :
    ∃ frame, a = .frame frame ∧ frame.Fits p.camera ∧ .detection d ∈ p.itemsFor frame := by
  generalize hstep : p.step a = stepped at h
  have did : p.Transition a stepped := hstep ▸ p.transition a
  cases did with
  | processed fits => exact ⟨_, rfl, fits, h⟩
  | added => exact absurd h List.not_mem_nil
  | switched items_eq => exact absurd (items_eq ▸ h) List.not_mem_nil
  | refused _ items_eq => exact absurd (items_eq ▸ h) List.not_mem_nil

theorem sighting_of_published {actions : List Action} {d : Detection α}
    (h : .detection d ∈ (p.run actions).2.flatMap Answer.items) :
    ∃ s ∈ p.sightings actions, s.state = .confirmed ∧ ∃ frame c, p.SeenIn actions s frame c ∧
      d = detectionOf frame.upright s.frame c.settings s.hit := by
  induction actions generalizing p with
  | nil => exact absurd h List.not_mem_nil
  | cons a rest ih =>
    have h : .detection d ∈ (p.step a).2.items ++
        ((p.step a).1.run rest).2.flatMap Answer.items := h
    rcases List.mem_append.1 h with h | h
    · obtain ⟨frame, rfl, fits, hitem⟩ := frame_of_detection h
      obtain ⟨c, hc, s, hs, confirmed, hd⟩ := sighting_of_detection hitem
      refine ⟨s, List.mem_append_left _ ?_, confirmed, frame, c, .now fits hc hs, hd⟩
      rw [sightingsIn, if_pos fits]
      exact mem_sightingsOn.2 ⟨c, hc, hs⟩
    · obtain ⟨s, hs, confirmed, frame, c, seen, hd⟩ := ih h
      exact ⟨s, List.mem_append_right _ hs, confirmed, frame, c, seen.later, hd⟩

theorem Recorded.debounced (h : p.Recorded log) {s : Sighting α} (hs : s ∈ log)
    (confirmed : s.state = .confirmed) : Debounced p.tunables.trackingRules (s.chain log) s := by
  obtain ⟨_, hsettings, id_eq⟩ := List.mem_map.1 (h.known s hs)
  obtain ⟨c, hc, rfl⟩ := List.mem_map.1 hsettings
  have mine : s ∈ ofClass s.classId log := List.mem_filter.2 ⟨hs, decide_eq_true rfl⟩
  have follows := h.follows c hc
  rw [show c.settings.id = s.classId from id_eq] at follows
  rw [s.chain_eq, ← h.rules_eq c hc]
  exact follows.debounced mine confirmed

/-- Chains of different tracks have no blob in common. -/
theorem Recorded.key_ne (h : p.Recorded log) {s t : Sighting α}
    (other : (s.classId, s.track) ≠ (t.classId, t.track)) :
    ∀ a ∈ s.chain log, ∀ b ∈ t.chain log, a.key ≠ b.key := by
  intro a ha b hb same
  obtain ⟨ha, hchain⟩ := List.mem_filter.1 ha
  obtain ⟨hb, hchain'⟩ := List.mem_filter.1 hb
  obtain ⟨class_eq, track_eq, -⟩ := of_decide_eq_true hchain
  obtain ⟨class_eq', track_eq', -⟩ := of_decide_eq_true hchain'
  have keys : (log.map Sighting.key).Nodup := List.pairwise_map.2 h.keys_nodup
  obtain rfl : a = b := List.inj_on_of_nodup_map keys ha hb same
  exact other (by rw [← class_eq, ← track_eq, class_eq', track_eq'])

/-- What is published has been seen before: a detection is the last of a chain of blobs that its
class accepted, each on a later frame than the one before, not too much later, and near it; the
chain is long enough to confirm the object, and never starts on the frame of the detection. No blob
is in the chains of two different tracks. -/
theorem published_debounced (camera : Camera) (tunables : Tunables α) (actions : List Action) :
    let pipeline := start camera tunables
    let log := pipeline.sightings actions
    (∀ s ∈ log, ∃ frame c, pipeline.SeenIn actions s frame c) ∧
    (∀ d, .detection d ∈ (pipeline.run actions).2.flatMap Answer.items →
      ∃ s ∈ log, ∃ frame c, pipeline.SeenIn actions s frame c ∧
        d = detectionOf frame.upright s.frame c.settings s.hit ∧
        Debounced ⟨tunables.confirmationStreak, tunables.stalenessWindow,
          tunables.distanceTolerance⟩ (s.chain log) s) ∧
    (∀ s ∈ log, ∀ t ∈ log, (s.classId, s.track) ≠ (t.classId, t.track) →
      ∀ a ∈ s.chain log, ∀ b ∈ t.chain log, a.key ≠ b.key) := by
  intro pipeline log
  have recorded : (pipeline.run actions).1.Recorded log :=
    (Recorded.start camera tunables).run actions
  refine ⟨fun s hs => seenIn_of_mem hs, fun d hd => ?_,
    fun s _ t _ other => recorded.key_ne other⟩
  obtain ⟨s, hs, confirmed, frame, c, seen, hd⟩ := sighting_of_published hd
  have debounced := recorded.debounced hs confirmed
  rw [(pipeline.fixed_run actions).2] at debounced
  exact ⟨s, hs, frame, c, seen, hd, debounced⟩

end Pipeline

end ObjectTracking
