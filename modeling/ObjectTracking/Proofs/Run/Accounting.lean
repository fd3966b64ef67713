import ObjectTracking.Proofs.Grid.Counting
import ObjectTracking.Proofs.Run.Memory
import ObjectTracking.Proofs.Run.Sampled
import ObjectTracking.Proofs.Settings.Checked

/-!
# Every blob is accounted for

A class looks at one blob for each connected component of its samples that is large enough, unless
these are more than it may have (`ClassState.length_found`). A blob is rejected or goes to a track,
which is provisional or confirmed then (`ClassState.run_summary`); it is one more track with the
stamp of the frame (`ClassState.stamped_next`), and if the track is confirmed, a detection of the
report.
-/

namespace ObjectTracking

/-! ### The components of a class -/

/-- A sample at the point is given the label of the class. -/
def SampleSet.Labels (set : SampleSet) (classify : Classifier) (classId : UInt8) (p : Point) :
    Prop :=
  ∃ s ∈ set.samples, s.point = p ∧ classify s.features = .object classId

theorem SampleSet.carries_classifyInto {set : SampleSet} {grid : LabelGrid} (spread : set.Spread)
    (valid : grid.Valid) (classify : Classifier) (classId : UInt8) :
    (set.classifyInto classify grid).Carries classId = set.Labels classify classId := by
  ext p
  rw [LabelGrid.carries_iff]
  constructor
  · intro held
    by_cases hp : p ∈ set.points
    · obtain ⟨s, hs, rfl⟩ := List.mem_map.1 hp
      rw [get_classifyInto spread valid hs] at held
      exact ⟨s, hs, rfl, Cell.sampled.inj held⟩
    · rw [get_classifyInto_of_not_mem valid hp] at held
      cases held
  · rintro ⟨s, hs, rfl, label_eq⟩
    rw [get_classifyInto spread valid hs, label_eq]

namespace ClassState
variable {α : Type} [Scalar α] {c : ClassState α} {samples : SampleSet} {tunables : Tunables α}
  {number : Nat}

omit [Scalar α] in
/-- As many blobs are looked at as there are components among the samples with the label of the class
that are large enough, up to the limit. -/
theorem length_found (valid : c.grid.Valid) (tunables : Tunables α) (scanner : Scanner)
    (frame : Frame) (context : ColorStats) :
    let samples := scanner.scan frame.upright.hsv context
    (c.found samples tunables).2.length = min c.settings.maxBlobs
      (largeRegions (samples.Labels c.classify c.settings.id) samples.stride
        (tunables.minPointsFor c.settings.elongated)).ncard := by
  intro samples
  have spread : samples.Spread := scanner.spread_scan frame context
  have stride_pos : 0 < samples.stride := scanner.stride_pos
  have stride_eq : max samples.stride 1 = samples.stride := Nat.max_eq_left stride_pos
  have carries := SampleSet.carries_classifyInto spread valid c.classify c.settings.id
  -- a labelled cell is a sample, so the scan for blobs comes by every component
  have onLattice : ∀ p, (samples.classifyInto c.classify c.grid).Carries c.settings.id p →
      OnLattice samples.phase samples.stride p := by
    intro p held
    rw [carries] at held
    obtain ⟨s, hs, rfl, -⟩ := held
    have point : s.point ∈ samples.points := List.mem_map_of_mem hs
    rw [scanner.points_scan] at point
    exact ((mem_latticePoints stride_pos).1 point).1
  have count := LabelGrid.ncard_largeRegions stride_pos onLattice
    (tunables.minPointsFor c.settings.elongated)
  rw [carries] at count
  rw [count, found, LabelGrid.findBlobs, stride_eq, Blob.length_largest]
  rfl

end ClassState

/-! ### Points and scores of a shape -/

theorem Shape.pointCount_of_ofBlob? {α : Type} [Scalar α] {model : ShapeModel} {blob : Blob}
    {shape : Shape α} (h : ofBlob? model blob = some shape) : shape.pointCount = blob.size := by
  cases model with
  | unknown name => cases h
  | rectangle =>
    rw [← Option.some.inj h, ofRect]
    split <;> rfl

/-- A score is a share, cut down to one. -/
theorem Confidence.score_le_one {model : ConfidenceModel} {shape : Shape Float} {stride : Nat}
    {value : Float} (h : ofShape model shape stride = .score value) : value ≤ 1 := by
  unfold ofShape at h
  split at h
  · unfold ofCounts at h
    split at h
    · cases h
    · obtain rfl := Confidence.score.inj h
      split
      · rename_i share_le
        have one : (Scalar.ofNat 1 : Float) = 1 := by decide +kernel
        rw [← one]
        exact of_decide_eq_true share_le
      · decide +kernel
  · cases h

/-! ### What becomes of the blobs of a frame -/

namespace ClassState
variable {α : Type} [Scalar α] {c : ClassState α} {samples : SampleSet} {tunables : Tunables α}
  {number : Nat}

/-- A blob is rejected, or it is a sighting, and the answer of the tracker is counted. -/
theorem foldl_take_summary (settings : ClassSettings) (tunables : Tunables α) (stride number : Nat)
    (ranked : List (Blob × Nat)) (progress : Progress α) :
    let seen := (progress.tracker.follow number
      (ranked.filterMap (ranked? settings tunables stride))).2
    let summary := (ranked.foldl (Progress.take settings tunables stride number) progress).summary
    summary.blobs = progress.summary.blobs ∧
      summary.rejected + seen.length = progress.summary.rejected + ranked.length ∧
      summary.provisional =
        progress.summary.provisional + seen.countP (·.state = .provisional) ∧
      summary.confirmed = progress.summary.confirmed + seen.countP (·.state = .confirmed) := by
  induction ranked generalizing progress with
  | nil => exact ⟨rfl, rfl, rfl, rfl⟩
  | cons ranked rest ih =>
    obtain ⟨blob, index⟩ := ranked
    simp only [List.foldl_cons, List.filterMap_cons, List.length_cons]
    obtain ⟨blobs, rejected, provisional, confirmed⟩ :=
      ih (progress.take settings tunables stride number (blob, index))
    cases haccepted : accepted? settings tunables stride blob with
    | none =>
      simp only [Progress.take, ranked?, haccepted, Option.map_none] at *
      exact ⟨blobs, by omega, provisional, confirmed⟩
    | some found =>
      obtain ⟨shape, confidence⟩ := found
      cases hobserved : progress.tracker.observe shape.centerX shape.centerY number with
      | mk tracker state =>
        -- either answer of the tracker adds one to its own count, and one sighting to the log
        cases state with
        | provisional =>
          simp [Progress.take, ranked?, haccepted, hobserved, Tracker.follow, Tracker.sight] at *
          omega
        | confirmed =>
          simp [Progress.take, ranked?, haccepted, hobserved, Tracker.follow, Tracker.sight] at *
          omega

omit [Scalar α] in
theorem countP_states (log : List (Sighting α)) :
    log.countP (·.state = .provisional) + log.countP (·.state = .confirmed) = log.length := by
  rw [List.length_eq_countP_add_countP (·.state = TrackState.provisional)]
  congr 1
  refine List.countP_congr fun s _ => ?_
  cases s.state <;> simp

theorem run_summary (enabled : c.flags.enabled = true) (samples : SampleSet)
    (tunables : Tunables α) (number : Nat) :
    let summary := (c.run samples tunables number).2.summary
    summary.blobs = (c.found samples tunables).2.length ∧
      summary.rejected + (c.sightings samples tunables number).length = summary.blobs ∧
      summary.provisional + summary.confirmed = (c.sightings samples tunables number).length ∧
      summary.confirmed = (c.confirmed samples tunables number).length := by
  have seen_eq : c.sightings samples tunables number = (c.tracker.follow number
      ((c.found samples tunables).2.zipIdx.filterMap
        (ranked? c.settings tunables samples.stride))).2 := by
    simp only [sightings, accepted, enabled, if_true]
  have counts := foldl_take_summary c.settings tunables samples.stride number
    (c.found samples tunables).2.zipIdx
    ⟨c.tracker, ⟨c.settings.id, (c.found samples tunables).2.length, 0, 0, 0⟩, []⟩
  simp only [← seen_eq, Nat.zero_add, List.length_zipIdx] at counts
  obtain ⟨blobs, rejected, provisional, confirmed⟩ := counts
  have states := countP_states (c.sightings samples tunables number)
  simp only [run_eq, progress, ClassState.confirmed, ← List.countP_eq_length_filter]
  rw [blobs, provisional, confirmed]
  exact ⟨rfl, rejected, states, rfl⟩

/-- As many tracks have the stamp of the frame as there are accepted blobs on it. -/
theorem stamped_next (bounded : c.tracker.Bounded c.settings.maxBlobs number)
    (numbered : number ≤ Track.maxFrame) (samples : SampleSet) (tunables : Tunables α) :
    (c.next samples tunables number).tracker.stamped number =
      (c.sightings samples tunables number).length := by
  have same := congrArg List.length (c.tracker.map_follow number (c.accepted samples tunables))
  rw [List.length_map] at same
  rw [next_tracker, Tracker.stamped_prune _ numbered, Tracker.stamped_follow,
    bounded.stamped_eq_zero, Nat.zero_add, ← same]
  rfl

/-! ### Ranks, sizes and scores -/

omit [Scalar α] in
theorem of_mem_found {blob : Blob} (h : blob ∈ (c.found samples tunables).2) :
    tunables.minPointsFor c.settings.elongated ≤ blob.size := by
  have kept := LabelGrid.mem_of_mem_largest h
  exact of_decide_eq_true (List.mem_filter.1 kept).2

/-- The accepted blobs of a frame come by rank, the largest first. -/
theorem pairwise_points (c : ClassState α) (samples : SampleSet) (tunables : Tunables α)
    (number : Nat) :
    (c.sightings samples tunables number).Pairwise fun a b =>
      b.shape.pointCount ≤ a.shape.pointCount := by
  refine (c.pairwise_sightings samples tunables number).imp_of_mem fun {a b} ha hb lt => ?_
  have ha := (accepts_of_mem_sightings ha).1
  have hb := (accepts_of_mem_sightings hb).1
  rw [Shape.pointCount_of_ofBlob? ha.fitted, Shape.pointCount_of_ofBlob? hb.fitted]
  obtain ⟨hi, a_eq⟩ := List.getElem?_eq_some_iff.1 ha.found
  obtain ⟨hj, b_eq⟩ := List.getElem?_eq_some_iff.1 hb.found
  have descending : Blob.Descending (c.found samples tunables).2 := Blob.pairwise_largest ..
  rw [← a_eq, ← b_eq]
  exact List.pairwise_iff_getElem.1 descending _ _ hi hj lt

end ClassState

namespace Pipeline
variable {α : Type} [Scalar α] {p : Pipeline α}

/-! ### The part of a class in the report -/

theorem apart_step (p : Pipeline α) (a : Action) (h : p.settings.Pairwise ClassSettings.Apart) :
    (p.step a).1.settings.Pairwise ClassSettings.Apart := by
  generalize hstep : p.step a = stepped
  have did : p.Transition a stepped := hstep ▸ p.transition a
  cases did with
  | added camera_eq new =>
    rw [settings_register]
    refine List.pairwise_append.2 ⟨h, List.pairwise_singleton .., fun s hs other hother => ?_⟩
    obtain rfl := List.mem_singleton.1 hother
    exact ⟨(new s hs).1, (new s hs).2⟩
  | switched => rwa [settings_switch]
  | processed => rwa [settings_after]
  | refused => exact h

theorem apart_run (camera : Camera) (tunables : Tunables α) (actions : List Action) :
    ((start camera tunables).run actions).1.settings.Pairwise ClassSettings.Apart :=
  run_invariant (P := fun p => p.settings.Pairwise ClassSettings.Apart) apart_step .nil actions

omit [Scalar α] in
theorem own_eq (apart : p.settings.Pairwise ClassSettings.Apart) {c : ClassState α}
    (hc : c ∈ p.classes) : p.own c.settings = [c] := by
  obtain ⟨before, after, split⟩ := List.append_of_mem hc
  rw [settings, split] at apart
  obtain ⟨-, hafter, hbefore⟩ := List.pairwise_append.1 (List.pairwise_map.1 apart)
  have others : ∀ classes : List (ClassState α),
      (∀ c' ∈ classes, c'.settings.Apart c.settings) →
        classes.filter (·.settings.sharesWith c.settings) = [] := by
    intro classes hclasses
    refine List.filter_eq_nil_iff.2 fun c' hc' => ?_
    obtain ⟨name_ne, id_ne⟩ := hclasses c' hc'
    simp [ClassSettings.sharesWith, name_ne, id_ne]
  have later : ∀ c' ∈ after, c'.settings.Apart c.settings :=
    fun c' hc' => ((List.pairwise_cons.1 hafter).1 c' hc').symm
  have mine : c.settings.sharesWith c.settings = true := by simp [ClassSettings.sharesWith]
  rw [own, split, List.filter_append, List.filter_cons, if_pos mine, others after later,
    others before fun c' hc' => hbefore c' hc' c (by simp)]
  rfl

/-- A report has one summary of each enabled class, and the objects that the class has confirmed. -/
theorem reportOf_own (apart : p.settings.Pairwise ClassSettings.Apart) {c : ClassState α}
    (hc : c ∈ p.enabled) (frame : Frame) :
    (p.reportOf frame).classes.filter (·.classId = c.settings.id) =
        [(c.run (p.samplesOf frame) p.tunables p.context.frameCount).2.summary] ∧
      (p.reportOf frame).detections.filter (·.className = c.settings.name) =
        p.detectionsBy frame c := by
  obtain ⟨mem, on⟩ := List.mem_filter.1 hc
  have own_eq := own_eq apart mem
  have sole : ∀ c' ∈ p.own c.settings, c'.settings = c.settings := by
    intro c' hc'
    rw [own_eq] at hc'
    rw [List.mem_singleton.1 hc']
  have outcome : p.ownOutcomes c.settings frame =
      [(c.run (p.samplesOf frame) p.tunables p.context.frameCount).2] := by
    rw [ownOutcomes, own_eq]
    simp [ClassState.outcome?, on]
  constructor
  · rw [summaries_of_report sole, outcome, List.map_singleton]
  · rw [detections_of_report sole, outcome, List.flatMap_singleton]
    exact hits_of_enabled hc frame

theorem pairwise_detectionsBy (p : Pipeline α) (frame : Frame) (c : ClassState α) :
    (p.detectionsBy frame c).Pairwise fun a b =>
      a.blobIndex < b.blobIndex ∧ b.points ≤ a.points := by
  have ranks := c.pairwise_sightings (p.samplesOf frame) p.tunables p.context.frameCount
  have points := c.pairwise_points (p.samplesOf frame) p.tunables p.context.frameCount
  exact List.pairwise_map.2 ((ranks.and points).filter _)

theorem accepts_of_mem_detectionsBy {frame : Frame} {c : ClassState α} {d : Detection α}
    (h : d ∈ p.detectionsBy frame c) :
    ∃ b : Accepted α, c.Accepts (p.samplesOf frame) p.tunables b ∧ d.blobIndex = b.blobIndex ∧
      d.points = b.shape.pointCount ∧ d.confidence = b.confidence := by
  obtain ⟨s, hs, rfl⟩ := List.mem_map.1 h
  have accepts := (ClassState.accepts_of_mem_sightings (List.mem_filter.1 hs).1).1
  exact ⟨s.toAccepted, accepts, rfl, rfl, rfl⟩

/-- In every run, each class that is enabled on a frame accounts for all it sees there. It looks at
as many blobs as there are connected components with enough points among the samples that its model
gives its label to, up to its limit. Each of these blobs is rejected, or counts for a provisional or
a confirmed track, and these are the tracks with the stamp of the frame (as long as a word can number
the frames). The confirmed ones are the detections of the class in the report; they come by rank, the
largest first, and each has enough points and a score above the threshold and at most one. -/
theorem blobs_accounted (camera : Camera) (tunables : Tunables Float) (before : List Action)
    (frame : Frame) {p' : Pipeline Float} {report : Report Float} {items : List (Item Float)}
    (used : ((start camera tunables).run before).1.process frame = (p', items, .ok report)) :
    let p := ((start camera tunables).run before).1
    ∀ c ∈ p.enabled,
      let samples := p.samplesOf frame
      let least :=
        if c.settings.elongated then tunables.minBlobPointsElongated else tunables.minBlobPoints
      let threshold :=
        if c.settings.elongated then tunables.minConfidenceElongated else tunables.minConfidence
      let components := largeRegions (samples.Labels c.classify c.settings.id)
        (max tunables.stride 1) least
      let detections := report.detections.filter (·.className = c.settings.name)
      ∃ summary, report.classes.filter (·.classId = c.settings.id) = [summary] ∧
        summary.blobs = min c.settings.maxBlobs components.ncard ∧
        summary.blobs = summary.rejected + summary.provisional + summary.confirmed ∧
        detections.length = summary.confirmed ∧
        (detections.Pairwise fun a b => a.blobIndex < b.blobIndex ∧ b.points ≤ a.points) ∧
        (∀ d ∈ detections, d.blobIndex < summary.blobs ∧ least ≤ d.points ∧
          threshold < d.confidence ∧ d.confidence ≤ 1) ∧
        ∃ c' ∈ p'.classes, c'.settings = c.settings ∧ (p.context.frameCount ≤ Track.maxFrame →
          c'.tracker.stamped p.context.frameCount = summary.provisional + summary.confirmed) := by
  intro p c hc samples least threshold components detections
  obtain ⟨mem, on⟩ := List.mem_filter.1 hc
  have tunables_eq : p.tunables = tunables := ((start camera tunables).fixed_run before).2
  have stride_eq : samples.stride = max tunables.stride 1 :=
    (sees_run camera tunables before).stride_eq
  have apart : p.settings.Pairwise ClassSettings.Apart := apart_run camera tunables before
  have valid : c.grid.Valid := (GridsValid.start camera tunables).run before c mem
  have bounded := bounded_run camera tunables before c mem
  obtain ⟨-, rfl, rfl, -⟩ := of_process_eq_ok used
  obtain ⟨summary_eq, detections_eq⟩ := reportOf_own apart hc frame
  obtain ⟨blobs, rejected, tracked, confirmed⟩ :=
    ClassState.run_summary on (p.samplesOf frame) p.tunables p.context.frameCount
  have length : (c.found samples tunables).2.length = min c.settings.maxBlobs
      (largeRegions (samples.Labels c.classify c.settings.id) samples.stride least).ncard :=
    ClassState.length_found valid tunables p.context.scanner frame p.context.colors
  rw [stride_eq] at length
  refine ⟨_, summary_eq, ?_, by omega, ?_, ?_, fun d hd => ?_, ?_⟩
  · rw [blobs, tunables_eq]
    exact length
  · rw [confirmed, show detections = _ from detections_eq, detectionsBy, List.length_map]
  · rw [show detections = _ from detections_eq]
    exact p.pairwise_detectionsBy frame c
  · obtain ⟨b, accepts, index_eq, points_eq, confidence_eq⟩ :=
      accepts_of_mem_detectionsBy (show d ∈ p.detectionsBy frame c from detections_eq ▸ hd)
    obtain ⟨ranked, held⟩ := List.getElem?_eq_some_iff.1 accepts.found
    have enough := ClassState.of_mem_found (held ▸ List.getElem_mem ranked)
    have above := of_decide_eq_true accepts.above
    rw [tunables_eq] at enough above
    rw [index_eq, points_eq, confidence_eq, Shape.pointCount_of_ofBlob? accepts.fitted, blobs]
    exact ⟨ranked, enough, above, Confidence.score_le_one accepts.scored⟩
  · refine ⟨_, List.mem_map_of_mem mem, ClassState.next_settings .., fun numbered => ?_⟩
    rw [tracked]
    exact ClassState.stamped_next bounded numbered samples p.tunables

/-- A gate is found, scored and confirmed on the second frame it is on. -/
theorem blobs_of_second_frame :
    let tunables : Tunables Float := ⟨1, 2, 3, 0, 1, 1, 0, 0⟩
    let gate : ClassSettings := .usual "gate" 1 .forward "gate.txt"
    let dark : Frame := ⟨.forward, .epoch, .filled 2 2 ⟨0, 0, 0⟩⟩
    let p := ((start .forward tunables).run [.add gate fun _ => .object 1, .frame dark]).1
    ∃ p' report items summary d, p.process dark = (p', items, .ok report) ∧
      report.classes.filter (·.classId = 1) = [summary] ∧ summary.blobs = 1 ∧
      summary.rejected = 0 ∧ summary.provisional = 0 ∧ summary.confirmed = 1 ∧
      report.detections.filter (·.className = "gate") = [d] ∧ d.blobIndex = 0 ∧ 1 ≤ d.points ∧
      0 < d.confidence ∧ d.confidence ≤ 1 ∧
      ∃ c' ∈ p'.classes, c'.settings = gate ∧ c'.tracker.stamped 1 = 1 := by
  intro tunables gate dark p
  obtain ⟨c, t, d, enabled_eq, settings_eq, -, -, -, fits, detected⟩ := gate_seen_twice
  have enabled : c ∈ p.enabled := enabled_eq ▸ List.mem_singleton_self c
  have used := process_of_fits (p := p) fits
  obtain ⟨summary, summary_eq, blobs, sum, detections, -, each, c', hc', settings_eq', stamped⟩ :=
    blobs_accounted .forward tunables _ dark used c enabled
  have own := (reportOf_own (apart_run ..) enabled dark).2
  rw [settings_eq] at summary_eq blobs detections each settings_eq' own
  have stamped := stamped (show 1 ≤ Track.maxFrame by decide)
  have at_most_one : summary.blobs ≤ 1 := blobs.trans_le (Nat.min_le_left ..)
  have some_detection : 0 < summary.confirmed := by
    rw [← detections]
    exact List.length_pos_of_mem (own ▸ detected)
  have confirmed : summary.confirmed = 1 := by omega
  obtain ⟨d, detections_eq⟩ := List.length_eq_one_iff.1 (detections.trans confirmed)
  obtain ⟨index_lt, points, above, below⟩ := each d (detections_eq ▸ List.mem_singleton_self d)
  exact ⟨_, _, _, summary, d, used, summary_eq, by omega, by omega, by omega, confirmed,
    detections_eq, by omega, points, above, below, c', hc', settings_eq',
    stamped.trans (by omega)⟩

end Pipeline

end ObjectTracking
