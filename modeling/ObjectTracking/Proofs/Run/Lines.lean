import ObjectTracking.Proofs.Run.Shapes
import ObjectTracking.Proofs.Shape.Straight

/-!
# Lines in a run

A blob grows over neighbors in the four directions, so a straight one lies along a row or a column
(`LabelGrid.ComponentOf.level_or_upright`), and that it does so is seen in words of any width. So in
every run straight blobs are rejected (`ClassState.accepted?_of_flat`). Those of a frame add to the
count of rejected ones and do nothing else (`ClassState.foldl_take_of_dropped`).
-/

namespace ObjectTracking

open Exact

/-! ### Straight blobs of a grid -/

theorem LabelGrid.ComponentOf.level_or_upright {grid : LabelGrid} {classId : UInt8} {stride : Nat}
    {seed : Point} {blob : Blob} (h : ComponentOf grid classId stride seed blob)
    (stride_pos : 0 < stride) (straight : blob.Straight) :
    (∀ p ∈ blob.points.toList, ∀ q ∈ blob.points.toList, p.y = q.y) ∨
      ∀ p ∈ blob.points.toList, ∀ q ∈ blob.points.toList, p.x = q.x := by
  have mem : ∀ p, p ∈ blob.points.toList ↔ grid.Linked classId stride seed p := fun p =>
    Array.mem_toList_iff.trans (h.mem_area p)
  by_cases alone : ∀ p ∈ blob.points.toList, p = seed
  · exact .inl fun p hp q hq => by rw [alone p hp, alone q hq]
  push Not at alone
  obtain ⟨r, hr, other⟩ := alone
  obtain rfl | ⟨next, hlink, -⟩ := ((mem r).1 hr).cases_head
  · exact absurd rfl other
  -- the first step from the seed already tells which way the line goes
  have cross := fun {p q : Point} => straight.cross (p := seed) (q := next) (r := p) (s := q)
    ((mem seed).2 .refl) ((mem next).2 (.single hlink))
  rcases mem_neighbors.1 hlink.1 with ⟨x_eq, step⟩ | ⟨y_eq, step⟩
  · refine .inr fun p hp q hq => ?_
    have := cross hp hq
    rw [x_eq, sub_self, zero_mul, eq_comm, mul_eq_zero] at this
    omega
  · refine .inl fun p hp q hq => ?_
    have := cross hp hq
    rw [y_eq, sub_self, zero_mul, mul_eq_zero] at this
    omega

namespace ClassState

/-- The straight blobs of a frame of any size. -/
theorem flat_of_mem_found [Exact] {α : Type} {c : ClassState α} {samples : SampleSet}
    {tunables : Tunables α} {blob : Blob} (h : blob ∈ (c.found samples tunables).2)
    (straight : blob.Straight) : blob.Flat := by
  have stride_pos : 0 < max samples.stride 1 :=
    Nat.lt_of_lt_of_le Nat.one_pos (Nat.le_max_right ..)
  have formed := (List.mem_filter.1 (LabelGrid.mem_of_mem_largest h)).1
  have scanned :=
    LabelGrid.scanned_extract (c.labels samples) c.settings.id samples.phase stride_pos
  obtain ⟨seed, -, -, component⟩ := scanned.component blob (List.mem_reverse.2 formed)
  refine Blob.flat_of_keepsDirections ?_
  rcases component.level_or_upright stride_pos straight with level | upright
  · exact keepsDirections_of_level level
  · exact keepsDirections_of_upright upright

theorem accepted?_of_flat [Exact] {blob : Blob} (flat : blob.Flat) (settings : ClassSettings)
    (tunables : Tunables ℝ) (stride : Nat) : accepted? settings tunables stride blob = none := by
  obtain ⟨shape, fitted, -, degenerate⟩ := flat
  cases model : settings.shapeModel with
  | unknown => simp [accepted?, model, Shape.ofBlob?]
  | rectangle =>
    have unscored : (Confidence.ofShape settings.confidenceModel shape stride).value? = none := by
      cases confidenceModel : settings.confidenceModel with
      | rectangle => rw [degenerate .rectangle trivial]; rfl
      | circle => rw [degenerate .circle trivial]; rfl
      | unknown => rfl
    simp [accepted?, model, fitted, Confidence.accepts, unscored]

theorem Accepts.not_flat [Exact] {c : ClassState ℝ} {samples : SampleSet} {tunables : Tunables ℝ}
    {b : Accepted ℝ} (h : c.Accepts samples tunables b) : ¬ b.blob.Flat := fun flat => by
  have accepted : accepted? c.settings tunables samples.stride b.blob =
      some (b.shape, b.confidence) := by
    simp [accepted?, h.fitted, h.scored, h.above, Confidence.accepts, Confidence.value?]
  exact Option.some_ne_none _ (accepted.symm.trans (accepted?_of_flat flat ..))

/-! ### Rejected blobs only count -/

variable {α : Type}

/-- As many more blobs rejected. -/
def Progress.reject (n : Nat) (progress : Progress α) : Progress α :=
  { progress with summary :=
      { progress.summary with rejected := progress.summary.rejected + n } }

@[simp] theorem Progress.reject_tracker (n : Nat) (progress : Progress α) :
    (progress.reject n).tracker = progress.tracker := rfl

@[simp] theorem Progress.reject_summary (n : Nat) (progress : Progress α) :
    (progress.reject n).summary =
      { progress.summary with rejected := progress.summary.rejected + n } := rfl

variable [Scalar α] {settings : ClassSettings} {tunables : Tunables α} {stride number : Nat}

theorem Progress.take_reject (n : Nat) (progress : Progress α) (ranked : Blob × Nat) :
    (progress.reject n).take settings tunables stride number ranked =
      (progress.take settings tunables stride number ranked).reject n := by
  obtain ⟨blob, index⟩ := ranked
  simp only [take, reject]
  cases accepted? settings tunables stride blob with
  | none => simp only [Nat.add_right_comm]
  | some found =>
    simp only
    split <;> rfl

theorem foldl_take_reject (n : Nat) (progress : Progress α) (ranked : List (Blob × Nat)) :
    ranked.foldl (Progress.take settings tunables stride number) (progress.reject n) =
      (ranked.foldl (Progress.take settings tunables stride number) progress).reject n := by
  induction ranked generalizing progress with
  | nil => rfl
  | cons first rest ih => rw [List.foldl_cons, List.foldl_cons, Progress.take_reject, ih]

/-- Blobs that are not accepted may as well be left out and counted. -/
theorem foldl_take_of_dropped (drop : Blob × Nat → Bool) (ranked : List (Blob × Nat))
    (progress : Progress α)
    (dropped : ∀ r ∈ ranked, drop r = true → accepted? settings tunables stride r.1 = none) :
    ranked.foldl (Progress.take settings tunables stride number) progress =
      ((ranked.filter (!drop ·)).foldl (Progress.take settings tunables stride number)
        progress).reject (ranked.countP drop) := by
  induction ranked generalizing progress with
  | nil => rfl
  | cons first rest ih =>
    obtain ⟨head, tail⟩ := List.forall_mem_cons.1 dropped
    cases dropping : drop first with
    | true =>
      have counted : progress.take settings tunables stride number first = progress.reject 1 := by
        simp only [Progress.take, head dropping]
        rfl
      rw [List.foldl_cons, counted, foldl_take_reject, ih _ tail]
      simp [dropping, Progress.reject, Nat.add_assoc]
    | false =>
      rw [List.foldl_cons, ih _ tail]
      simp [dropping]

/-- Where the class would be if it had gone through the bent blobs only, each with its rank. -/
def bent (c : ClassState α) (samples : SampleSet) (tunables : Tunables α) (number : Nat) :
    Progress α :=
  ((c.found samples tunables).2.zipIdx.filter fun ranked => ¬ ranked.1.Straight).foldl
    (Progress.take c.settings tunables samples.stride number)
    ⟨c.tracker, ⟨c.settings.id, (c.found samples tunables).2.length, 0, 0, 0⟩, []⟩

theorem progress_eq_bent [Exact] (c : ClassState ℝ) (samples : SampleSet) (tunables : Tunables ℝ)
    (number : Nat) : c.progress samples tunables number = (c.bent samples tunables number).reject
      ((c.found samples tunables).2.countP fun blob => blob.Straight) := by
  set blobs := (c.found samples tunables).2
  have rejected : ∀ ranked ∈ blobs.zipIdx, decide ranked.1.Straight = true →
      accepted? c.settings tunables samples.stride ranked.1 = none := fun ranked mem straight =>
    accepted?_of_flat (flat_of_mem_found (List.fst_mem_of_mem_zipIdx mem)
      (of_decide_eq_true straight)) ..
  have counted : blobs.zipIdx.countP (fun ranked => ranked.1.Straight) =
      blobs.countP fun blob => blob.Straight := by
    conv_rhs => rw [← List.zipIdx_map_fst 0 blobs, List.countP_map]
    rfl
  rw [progress, foldl_take_of_dropped (fun ranked => ranked.1.Straight) _ _ rejected, counted]
  simp only [bent, decide_not]
  rfl

end ClassState

/-! ### Straight blobs of a run -/

namespace Pipeline

/-- Lines are never detected. A blob is straight if its points lie on one line, so if it has only
one or two. The shape of a straight blob has no width and no model and stride gives it a score, as
long as its coordinates do not jump as words, which they do not below half of the words. In a run
this holds of all straight blobs: each that is looked at is rejected, whatever the thresholds. What
a class says of a frame and the tracks it has afterwards are what they would be without its
straight blobs, but for their number among those rejected. -/
theorem lines_never_detected [Exact] :
    (∀ blob : Blob, blob.Straight ↔ ∃ o v : ℝ × ℝ, ∀ p ∈ blob.points.toList, ∃ t : ℝ,
      (p.x : ℝ) = o.1 + t * v.1 ∧ (p.y : ℝ) = o.2 + t * v.2) ∧
    (∀ blob : Blob, blob.size ≤ 2 → blob.Straight) ∧
    (∀ blob : Blob, blob.Straight → Unbroken blob.points.toList → blob.Flat) ∧
    (∀ points : List Point, (∀ p ∈ points, p.x < 2 ^ 31 ∧ p.y < 2 ^ 31) → Unbroken points) ∧
    ∀ (camera : Camera) (tunables : Tunables ℝ) (before : List Action) (frame : Frame)
      (p' : Pipeline ℝ) (report : Report ℝ) (items : List (Item ℝ)),
      ((start camera tunables).run before).1.process frame = (p', items, .ok report) →
        let p := ((start camera tunables).run before).1
        ∀ c ∈ p.enabled,
          let samples := p.samplesOf frame
          let number := p.context.frameCount
          let blobs := (c.found samples tunables).2
          let bent := c.bent samples tunables number
          (∀ blob ∈ blobs, blob.Straight → blob.Flat ∧
            ClassState.accepted? c.settings tunables samples.stride blob = none) ∧
          report.classes.filter (·.classId = c.settings.id) =
            [{ bent.summary with
                rejected := bent.summary.rejected + blobs.countP fun blob => blob.Straight }] ∧
          (∃ c' ∈ p'.classes, c'.settings = c.settings ∧
            c'.tracker = bent.tracker.prune number) ∧
          ∀ d ∈ report.detections.filter (·.className = c.settings.name),
            ∃ blob, blobs[d.blobIndex]? = some blob ∧ ¬ blob.Straight := by
  refine ⟨fun _ => Blob.straight_iff_onLine, fun _ => Blob.straight_of_size_le_two,
    fun _ straight unbroken => Blob.flat_of_keepsDirections (unbroken.keepsDirections straight),
    fun _ => unbroken_of_low, ?_⟩
  intro camera tunables before frame p' report items used p c hc samples number blobs bent
  obtain ⟨mem, on⟩ := List.mem_filter.1 hc
  have tunables_eq : p.tunables = tunables := ((start camera tunables).fixed_run before).2
  have apart : p.settings.Pairwise ClassSettings.Apart := apart_run camera tunables before
  obtain ⟨-, rfl, rfl, -⟩ := of_process_eq_ok used
  obtain ⟨summary_eq, detections_eq⟩ := reportOf_own apart hc frame
  have progress_eq : c.progress samples p.tunables number =
      bent.reject (blobs.countP fun blob => blob.Straight) :=
    tunables_eq ▸ c.progress_eq_bent samples p.tunables number
  have rejected : ∀ blob ∈ blobs, blob.Straight → blob.Flat ∧
      ClassState.accepted? c.settings tunables samples.stride blob = none :=
    fun blob hblob straight =>
      have flat := ClassState.flat_of_mem_found hblob straight
      ⟨flat, ClassState.accepted?_of_flat flat c.settings tunables samples.stride⟩
  refine ⟨rejected, ?summary, ⟨_, List.mem_map_of_mem mem, ClassState.next_settings .., ?tracker⟩,
    fun d hd => ?detections⟩
  case summary =>
    rw [summary_eq, ClassState.run_eq, progress_eq, ClassState.Progress.reject_summary]
  case tracker =>
    have tracker_eq : (c.next samples p.tunables number).tracker =
        (c.progress samples p.tunables number).tracker.prune number := by
      simp only [ClassState.next, on, if_true, ClassState.run_eq]
    rw [tracker_eq, progress_eq, ClassState.Progress.reject_tracker]
  case detections =>
    obtain ⟨b, accepts, index_eq, -⟩ := accepts_of_mem_detectionsBy
      (show d ∈ p.detectionsBy frame c from detections_eq ▸ hd)
    rw [tunables_eq] at accepts
    exact ⟨b.blob, index_eq ▸ accepts.found, fun straight => accepts.not_flat
      (ClassState.flat_of_mem_found (List.mem_of_getElem? accepts.found) straight)⟩

/-- A class that takes every pixel for its object, on a frame of one row: its one blob is a line. -/
theorem lines_never_detected_in_a_row :
    letI : Exact := .floored
    let tunables : Tunables ℝ := ⟨1, 1, 3, 0, 1, 1, 0, 0⟩
    let gate : ClassSettings := .usual "gate" 1 .forward "gate.txt"
    let row : Frame := ⟨.forward, .epoch, .filled 3 1 ⟨0, 0, 0⟩⟩
    let before : List Action := [.add gate fun _ => .object 1]
    ∃ p' report items,
      ((start .forward tunables).run before).1.process row = (p', items, .ok report) ∧
        report.classes.filter (·.classId = 1) = [⟨1, 1, 1, 0, 0⟩] ∧
        ∃ c' ∈ p'.classes, c'.settings = gate ∧ c'.tracker.tracks = [] := by
  let : Exact := .floored
  intro tunables gate row before
  let p : Pipeline ℝ := ((start .forward tunables).run before).1
  let c : ClassState ℝ := .start tunables gate fun _ => .object 1
  let blob : Blob := ⟨1, #[⟨0, 0⟩, ⟨1, 0⟩, ⟨2, 0⟩]⟩
  have fits : row.Fits p.camera := ⟨by decide, by decide, rfl⟩
  have enabled : c ∈ p.enabled := List.mem_singleton_self _
  have found : (c.found (p.samplesOf row) tunables).2 = [blob] := by decide +kernel
  obtain ⟨-, -, -, -, runs⟩ := lines_never_detected
  have used := process_of_fits fits
  obtain ⟨-, summary, ⟨c', mem, settings_eq, tracker_eq⟩, -⟩ :=
    runs .forward tunables before row _ _ _ used c enabled
  have straight : blob.Straight := by decide
  have nothing : c.bent (p.samplesOf row) tunables p.context.frameCount =
      ⟨c.tracker, ⟨1, 1, 0, 0, 0⟩, []⟩ := by
    rw [ClassState.bent, found]
    simp [straight, c, ClassState.start]
    rfl
  refine ⟨_, _, _, used, ?_, c', mem, settings_eq, ?_⟩
  · rw [nothing, found] at summary
    exact summary.trans (by simp [straight])
  · rw [tracker_eq, nothing]
    rfl

end Pipeline

end ObjectTracking
