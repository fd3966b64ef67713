import ObjectTracking.Proofs.Run.Debounce
import ObjectTracking.Proofs.Run.Isolation

/-!
# What is handed on of a frame

For each enabled class, in the order of registration, its mask if it is asked for and then the
objects it has confirmed, by rank; and last the marked picture (`published_in_order`). The frames
that a pipeline uses are numbered from zero (`frameCount_run`).
-/

namespace ObjectTracking

/-! ### Drawing keeps the size of a picture -/

def Image.size {α : Type} (image : Image α) : Nat × Nat := (image.width, image.height)

section
open Annotation
variable {α : Type}

@[simp] theorem Image.size_plot (image : Image α) (value : α) (at_ : Int × Int) :
    (image.plot value at_).size = image.size := by
  unfold Image.plot
  split <;> simp [Image.size]

@[simp] theorem Stroke.size_draw (image : Image α) (value : α) (stroke : List PixelAt) :
    (Stroke.draw image value stroke).size = image.size :=
  List.foldlRecOn (motive := fun drawn : Image α => drawn.size = image.size) stroke _ rfl
    fun drawn h at_ _ => (drawn.size_plot value at_).trans h

@[simp] theorem Annotation.size_mark [Scalar α] (style : AnnotationStyle) (color : Rgb)
    (image : Image Rgb) (shape : Shape α) :
    (mark style color image shape).size = image.size := by
  cases style <;> simp [mark]

@[simp] theorem Pipeline.size_markHits [Scalar α] (image : Image Rgb) (outcome : ClassOutcome α) :
    (markHits image outcome).size = image.size :=
  List.foldlRecOn (motive := fun marked : Image Rgb => marked.size = image.size) outcome.hits _ rfl
    fun marked h hit _ => (size_mark _ _ marked hit.shape).trans h

end

/-! ### Items -/

namespace Item
variable {α : Type}

def camera : Item α → Camera
  | mask camera .. => camera
  | detection d => d.camera
  | annotated camera .. => camera

def frame : Item α → Nat
  | mask _ _ frame _ => frame
  | detection d => d.frame
  | annotated _ frame _ => frame

def detection? : Item α → Option (Detection α)
  | detection d => some d
  | _ => none

end Item

/-- The answer to a frame that was used. -/
def Answer.isUse {α : Type} : Answer α → Bool
  | processed _ (.ok _) => true
  | _ => false

/-- The class that an action has registered. -/
def Answer.registered? {α : Type} : Action × Answer α → Option ClassSettings
  | (.add settings _, added (.ok _)) => some settings
  | _ => none

namespace ClassState
variable {α : Type} [Scalar α] (c : ClassState α) (samples : SampleSet) (tunables : Tunables α)
  (number : Nat)

/-- The sightings of a frame that confirm an object. -/
def confirmed : List (Sighting α) :=
  (c.sightings samples tunables number).filter (·.state = .confirmed)

theorem pairwise_confirmed :
    (c.confirmed samples tunables number).Pairwise fun a b => a.blobIndex < b.blobIndex := by
  exact (c.pairwise_sightings samples tunables number).filter _

end ClassState

namespace Pipeline
variable {α : Type} [Scalar α] {p : Pipeline α}

/-! ### Numbers and classes -/

theorem frameCount_step (p : Pipeline α) (a : Action) :
    (p.step a).1.context.frameCount =
      p.context.frameCount + if (p.step a).2.isUse then 1 else 0 := by
  cases a with
  | add settings classify =>
    obtain h | ⟨fault, h⟩ := p.step_add settings classify <;> rw [h] <;> rfl
  | update name update =>
    obtain ⟨result, h⟩ := p.exists_step_update name update
    rw [h]
    rfl
  | frame frame =>
    by_cases fits : frame.Fits p.camera
    · rw [step_of_fits fits]
      rfl
    · obtain ⟨fault, h⟩ := step_of_not_fits fits
      rw [h]
      rfl

theorem frameCount_run (p : Pipeline α) (actions : List Action) :
    (p.run actions).1.context.frameCount =
      p.context.frameCount + (p.run actions).2.countP Answer.isUse := by
  induction actions generalizing p with
  | nil => rfl
  | cons a rest ih =>
    rw [run_cons, ih, frameCount_step, List.countP_cons]
    omega

theorem settings_step_eq (p : Pipeline α) (a : Action) :
    (p.step a).1.settings = p.settings ++ (Answer.registered? (a, (p.step a).2)).toList := by
  cases a with
  | add settings classify =>
    obtain h | ⟨fault, h⟩ := p.step_add settings classify <;> rw [h]
    · exact settings_register ..
    · exact (List.append_nil _).symm
  | update name update =>
    obtain ⟨result, h⟩ := p.exists_step_update name update
    rw [h, settings_switch]
    exact (List.append_nil _).symm
  | frame frame =>
    by_cases fits : frame.Fits p.camera
    · rw [step_of_fits fits, settings_after]
      exact (List.append_nil _).symm
    · obtain ⟨fault, h⟩ := step_of_not_fits fits
      rw [h]
      exact (List.append_nil _).symm

theorem settings_run (p : Pipeline α) (actions : List Action) :
    (p.run actions).1.settings =
      p.settings ++ (actions.zip (p.run actions).2).filterMap Answer.registered? := by
  induction actions generalizing p with
  | nil => exact (List.append_nil _).symm
  | cons a rest ih =>
    rw [run_cons, ih, settings_step_eq, List.zip_cons_cons, filterMap_cons_toList,
      List.append_assoc]

/-! ### What is handed on -/

/-- The objects that a class has confirmed on a frame. -/
def detectionsBy (p : Pipeline α) (frame : Frame) (c : ClassState α) : List (Detection α) :=
  (c.confirmed (p.samplesOf frame) p.tunables p.context.frameCount).map fun s =>
    detectionOf frame.upright p.context.frameCount c.settings s.hit

/-- What a class has to hand on: its mask, if it is asked for, and then its detections. -/
def itemsBy (p : Pipeline α) (frame : Frame) (c : ClassState α) : List (Item α) :=
  (if c.flags.publishMask then
    [.mask p.camera c.settings.name p.context.frameCount (c.labels (p.samplesOf frame)).mask]
  else []) ++ (p.detectionsBy frame c).map .detection

/-- The frame with the objects marked that were confirmed on it. -/
def marked (p : Pipeline α) (frame : Frame) : Image Rgb :=
  (p.outcomesOf frame).foldl markHits frame.uprightImage

def enabled (p : Pipeline α) : List (ClassState α) := p.classes.filter (·.flags.enabled)

theorem outcomesOf_eq (p : Pipeline α) (frame : Frame) :
    p.outcomesOf frame = p.enabled.map fun c =>
      (c.run (p.samplesOf frame) p.tunables p.context.frameCount).2 := by
  unfold outcomesOf enabled
  induction p.classes with
  | nil => rfl
  | cons c rest ih =>
    rw [List.filterMap_cons, ih]
    by_cases on : c.flags.enabled = true <;> simp [ClassState.outcome?, on]

theorem hits_of_enabled {c : ClassState α} (h : c ∈ p.enabled) (frame : Frame) :
    (c.run (p.samplesOf frame) p.tunables p.context.frameCount).2.hits.map
        (detectionOf frame.upright p.context.frameCount c.settings) = p.detectionsBy frame c := by
  have said : c.outcome? (p.samplesOf frame) p.tunables p.context.frameCount =
      some (c.run (p.samplesOf frame) p.tunables p.context.frameCount).2 :=
    if_pos (List.mem_filter.1 h).2
  rw [ClassState.outcome?_hits said, List.map_map]
  rfl

theorem itemsOf_enabled {c : ClassState α} (h : c ∈ p.enabled) {frame : Frame}
    (fits : frame.Fits p.camera) :
    itemsOf frame.upright p.context.frameCount
        (c.run (p.samplesOf frame) p.tunables p.context.frameCount).2 = p.itemsBy frame c := by
  have camera_eq : frame.upright.camera = p.camera := fits.camera_eq
  have mask_eq : ∀ {β : Type} (wanted : Bool) (image : Image UInt8) (f : Image UInt8 → β),
      ((if wanted = true then some image else none).map f).toList =
        if wanted = true then [f image] else [] := by
    intro β wanted image f
    cases wanted <;> rfl
  rw [itemsBy, ← hits_of_enabled h, List.map_map, ← camera_eq]
  simp only [itemsOf, ClassState.run_eq, mask_eq]
  rfl

theorem itemsFor_eq {frame : Frame} (fits : frame.Fits p.camera) :
    p.itemsFor frame = p.enabled.flatMap (p.itemsBy frame) ++
      [.annotated p.camera p.context.frameCount
        (p.marked frame)] := by
  have items_eq : (p.outcomesOf frame).flatMap (itemsOf frame.upright p.context.frameCount) =
      p.enabled.flatMap (p.itemsBy frame) := by
    rw [outcomesOf_eq, List.flatMap_map]
    exact List.flatMap_congr fun c hc => itemsOf_enabled hc fits
  rw [itemsFor, items_eq]
  rfl

theorem mem_items_of_detectionsBy {frame : Frame} (fits : frame.Fits p.camera) {c : ClassState α}
    (known : c ∈ p.enabled) {d : Detection α} (h : d ∈ p.detectionsBy frame c) :
    .detection d ∈ p.itemsFor frame := by
  rw [itemsFor_eq fits]
  refine List.mem_append_left _ (List.mem_flatMap.2 ⟨c, known, List.mem_append_right _ ?_⟩)
  exact List.mem_map_of_mem h

theorem detections_eq (p : Pipeline α) (frame : Frame) :
    (p.reportOf frame).detections = p.enabled.flatMap (p.detectionsBy frame) := by
  rw [reportOf, outcomesOf_eq, List.flatMap_map]
  exact List.flatMap_congr fun c hc => hits_of_enabled hc frame

theorem filterMap_itemsBy (p : Pipeline α) (frame : Frame) (c : ClassState α) :
    (p.itemsBy frame c).filterMap Item.detection? = p.detectionsBy frame c := by
  have masks : ∀ wanted : Bool, ∀ mask : Image UInt8,
      (if wanted = true then
        [Item.mask p.camera c.settings.name p.context.frameCount mask] else []).filterMap
          Item.detection? = ([] : List (Detection α)) := by
    intro wanted mask
    cases wanted <;> rfl
  rw [itemsBy, List.filterMap_append, masks, List.nil_append, List.filterMap_map]
  exact List.filterMap_some

theorem detections_of_items {frame : Frame} (fits : frame.Fits p.camera) :
    (p.itemsFor frame).filterMap Item.detection? = (p.reportOf frame).detections := by
  have no_other : ∀ image, [Item.annotated p.camera p.context.frameCount image].filterMap
      Item.detection? = ([] : List (Detection α)) := fun _ => rfl
  rw [itemsFor_eq fits, detections_eq, List.filterMap_append, no_other, List.append_nil,
    List.filterMap_flatMap]
  exact List.flatMap_congr fun c _ => p.filterMap_itemsBy frame c

theorem summaries_eq (p : Pipeline α) (frame : Frame) :
    (p.reportOf frame).classes.map (·.classId) = p.enabled.map (·.settings.id) := by
  rw [reportOf, outcomesOf_eq, List.map_map, List.map_map]
  exact List.map_congr_left fun c _ => c.run_summary_classId ..

theorem of_mem_itemsFor {frame : Frame} (fits : frame.Fits p.camera) {item : Item α}
    (h : item ∈ p.itemsFor frame) :
    item.camera = p.camera ∧ item.frame = p.context.frameCount := by
  rw [itemsFor_eq fits] at h
  rcases List.mem_append.1 h with h | h
  · obtain ⟨c, -, h⟩ := List.mem_flatMap.1 h
    rcases List.mem_append.1 h with h | h
    · split at h
      · obtain rfl := List.mem_singleton.1 h
        exact ⟨rfl, rfl⟩
      · cases h
    · obtain ⟨d, hd, rfl⟩ := List.mem_map.1 h
      obtain ⟨s, -, rfl⟩ := List.mem_map.1 hd
      exact ⟨fits.camera_eq, rfl⟩
  · obtain rfl := List.mem_singleton.1 h
    exact ⟨rfl, rfl⟩

theorem size_marked (p : Pipeline α) (frame : Frame) :
    (p.marked frame).size = frame.uprightImage.size :=
  List.foldlRecOn (motive := fun image : Image Rgb => image.size = frame.uprightImage.size)
    (p.outcomesOf frame) _ rfl fun image h outcome _ => (size_markHits image outcome).trans h

theorem marked_of_none {frame : Frame} (h : (p.reportOf frame).detections = []) :
    p.marked frame = frame.uprightImage := by
  have unhit : ∀ outcome ∈ p.outcomesOf frame, outcome.hits = [] := by
    intro outcome houtcome
    exact List.map_eq_nil_iff.1 (List.flatMap_eq_nil_iff.1 h outcome houtcome)
  refine List.foldlRecOn (motive := (· = frame.uprightImage)) _ _ rfl ?_
  intro image same outcome houtcome
  rw [markHits, unhit outcome houtcome]
  exact same

/-- The frames that a run uses are numbered from zero. Of each of them exactly this is handed on: for
each class that is enabled, in the order of registration, its mask if it is asked for and then the
objects it has confirmed, by rank; and last the upright picture, in which nothing is marked if
nothing was confirmed. The report has the same objects, and an entry for each enabled class. -/
theorem published_in_order (camera : Camera) (tunables : Tunables α) (before : List Action)
    (frame : Frame) {p' : Pipeline α} {report : Report α} {items : List (Item α)}
    (used : ((start camera tunables).run before).1.process frame = (p', items, .ok report)) :
    let p := ((start camera tunables).run before).1
    let answers := ((start camera tunables).run before).2
    let number := answers.countP Answer.isUse
    p.settings = (before.zip answers).filterMap Answer.registered? ∧
    report.camera = camera ∧ report.frame = number ∧
    (∃ image, items = p.enabled.flatMap (p.itemsBy frame) ++ [.annotated camera number image] ∧
      image.size = frame.uprightImage.size ∧
      (report.detections = [] → image = frame.uprightImage)) ∧
    (∀ c ∈ p.enabled, (p.detectionsBy frame c).Pairwise fun a b => a.blobIndex < b.blobIndex) ∧
    report.detections = items.filterMap Item.detection? ∧
    report.classes.map (·.classId) = p.enabled.map (·.settings.id) ∧
    ∀ item ∈ items, item.camera = camera ∧ item.frame = number := by
  intro p answers number
  have camera_eq : p.camera = camera := ((start camera tunables).fixed_run before).1
  have number_eq : p.context.frameCount = number :=
    ((start camera tunables).frameCount_run before).trans (Nat.zero_add _)
  obtain ⟨fits, -, rfl, rfl⟩ := of_process_eq_ok used
  refine ⟨?settings, camera_eq, number_eq, ⟨p.marked frame, ?items, p.size_marked frame,
    marked_of_none⟩, fun c _ => ?ranks, (detections_of_items fits).symm, p.summaries_eq frame, ?all⟩
  case settings => exact (start camera tunables).settings_run before
  case items => rw [itemsFor_eq fits, camera_eq, number_eq]
  case ranks =>
    exact List.pairwise_map.2 (c.pairwise_confirmed (p.samplesOf frame) p.tunables _)
  case all =>
    intro item hitem
    obtain ⟨item_camera, item_frame⟩ := of_mem_itemsFor fits hitem
    exact ⟨item_camera.trans camera_eq, item_frame.trans number_eq⟩

/-- The second frame that is used, after one from another camera, with a mask that is asked for. -/
theorem second_use_in_order :
    let tunables : Tunables Float := .usual 20
    let gate : ClassSettings := .usual "gate" 1 .forward "gate.txt"
    let buoy : ClassSettings := .usual "buoy" 2 .forward "buoy.txt"
    let classify : Classifier := fun _ => .object 1
    let dark (camera : Camera) : Frame := ⟨camera, .epoch, .filled 2 3 ⟨0, 0, 0⟩⟩
    let before : List Action :=
      [.add gate classify, .frame (dark .forward), .update "gate" (.publishMask true),
        .frame (dark .downward), .add buoy classify]
    let p := ((start .forward tunables).run before).1
    ∃ p' report items, p.process (dark .forward) = (p', items, .ok report) ∧ report.frame = 1 ∧
      report.classes.map (·.classId) = [1, 2] ∧
      ∃ image, items = p.enabled.flatMap (p.itemsBy (dark .forward)) ++
          [.annotated .forward 1 image] ∧ image.size = (2, 3) := by
  intro tunables gate buoy classify dark before p
  have fits : (dark .forward).Fits p.camera := ⟨by decide, by decide, rfl⟩
  have used := process_of_fits fits
  obtain ⟨-, -, report_frame, ⟨image, items_eq, size_eq, -⟩, -, -, classes_eq, -⟩ :=
    published_in_order .forward tunables before (dark .forward) used
  exact ⟨_, _, _, used, report_frame, classes_eq, image, items_eq, size_eq⟩

end Pipeline

end ObjectTracking
