import ObjectTracking.Proofs.Run.Blind
import ObjectTracking.Proofs.Run.Refusal

/-!
# Masks

On request a class hands on the labels of its samples as a gray picture. It is drawn before any blob
is claimed, so it shows what the model says of the pixels on the lattice of the frame, and nothing
else (`Image.ShowsLabels`). Whether it is drawn has no part in anything else: a run can be told
without its masks and without the switches for them, and is then the run in which these are left out
(`Pipeline.run_unmasked`).
-/

namespace ObjectTracking

/-! ### What a mask shows -/

/-- The gray picture is as large as the upright frame. A pixel on the lattice that the model takes
for an object is as bright as the id of the object says, and all others are black. -/
structure Image.ShowsLabels (mask : Image UInt8) (frame : Frame) (phase stride : Nat)
    (colors : ColorStats) (classify : Classifier) : Prop where
  size_eq : mask.size = frame.uprightImage.size
  lit : ∀ q pixel id, frame.uprightImage.get? q = some pixel → OnLattice phase stride q →
    classify (.ofColor colors pixel.toHsv) = .object id →
      ∃ level, mask.get? q = some level ∧ level.toNat = min 255 (200 + 10 * id.toNat)
  unlabelled : ∀ q pixel, frame.uprightImage.get? q = some pixel → OnLattice phase stride q →
    classify (.ofColor colors pixel.toHsv) = .nothing → mask.get? q = some 0
  unsampled : ∀ q, frame.uprightImage.Contains q → ¬ OnLattice phase stride q →
    mask.get? q = some 0

theorem toNat_maskLevel (id : UInt8) : (maskLevel id).toNat = min 255 (200 + 10 * id.toNat) := by
  have small : min (id.toNat * 10 + 200) 255 < 256 := by omega
  rw [maskLevel, UInt8.toNat_ofNat_of_lt' small]
  omega

theorem LabelGrid.get?_mask {grid : LabelGrid} {q : Point} (inside : grid.cells.Contains q) :
    grid.mask.get? q = some (grid.get q).maskLevel := by
  rw [mask, Image.get?_map, LabelGrid.get, Image.get?, dif_pos inside]
  rfl

theorem SampleSet.size_classifyInto (set : SampleSet) (classify : Classifier) {grid : LabelGrid}
    (valid : grid.Valid) :
    (set.classifyInto classify grid).cells.size = (set.width, set.height) := by
  rw [classifyInto, valid.reset_eq_empty]
  refine List.foldlRecOn (motive := fun written : LabelGrid =>
    written.cells.size = (set.width, set.height)) set.samples _ rfl ?_
  intro written size_eq sample _
  rw [← size_eq]
  exact Prod.ext (written.width_set ..) (written.height_set ..)

/-- The labels of a frame, drawn before any blob is claimed. -/
theorem ClassState.showsLabels {α : Type} {c : ClassState α} (valid : c.grid.Valid)
    (scanner : Scanner) (frame : Frame) (colors : ColorStats) :
    (c.labels (scanner.scan frame.upright.hsv colors)).mask.ShowsLabels frame scanner.phase
      scanner.stride colors c.classify := by
  set samples := scanner.scan frame.upright.hsv colors
  have size_eq : (c.labels samples).cells.size = frame.uprightImage.size :=
    samples.size_classifyInto c.classify valid
  obtain ⟨width_eq, height_eq⟩ := Prod.mk.inj size_eq
  have level : ∀ q, frame.uprightImage.Contains q →
      (c.labels samples).mask.get? q = some ((c.labels samples).get q).maskLevel := fun q inside =>
    LabelGrid.get?_mask ⟨inside.1.trans_eq width_eq.symm, inside.2.trans_eq height_eq.symm⟩
  have inside : ∀ {q pixel}, frame.uprightImage.get? q = some pixel →
      frame.uprightImage.Contains q := fun held =>
    Decidable.not_not.1 fun outside => by simp [Image.get?_eq_none.2 outside] at held
  have sampled : ∀ q, q ∈ samples.points ↔
      OnLattice scanner.phase scanner.stride q ∧ frame.uprightImage.Contains q := fun q => by
    rw [scanner.points_scan]
    exact mem_latticePoints scanner.stride_pos
  have label : ∀ q pixel, frame.uprightImage.get? q = some pixel →
      OnLattice scanner.phase scanner.stride q →
        (c.labels samples).get q = .sampled (c.classify (.ofColor colors pixel.toHsv)) := by
    intro q pixel held on
    obtain ⟨s, hs, rfl⟩ := List.mem_map.1 ((sampled q).2 ⟨on, inside held⟩)
    obtain ⟨pixel', held', features_eq⟩ := Scanner.of_mem_scan hs
    obtain rfl : pixel' = pixel := Option.some.inj (held'.symm.trans held)
    rw [← features_eq]
    exact SampleSet.get_classifyInto (scanner.spread_scan frame colors) valid hs
  refine ⟨size_eq, fun q pixel id held on object => ?lit,
    fun q pixel held on nothing => ?unlabelled, fun q inside off => ?unsampled⟩
  case lit =>
    refine ⟨_, level q (inside held), ?_⟩
    rw [label q pixel held on, object]
    exact toNat_maskLevel id
  case unlabelled =>
    rw [level q (inside held), label q pixel held on, nothing]
    rfl
  case unsampled =>
    have unsampled : (samples.classifyInto c.classify c.grid).get q = .unsampled :=
      SampleSet.get_classifyInto_of_not_mem valid fun point => off ((sampled q).1 point).1
    rw [level q inside, labels, unsampled]
    rfl

/-! ### Runs without masks -/

def Item.isMask {α : Type} : Item α → Bool
  | mask .. => true
  | _ => false

/-- What an action does besides switching a mask. -/
def Action.unmasked? : Action → Option Action
  | .update _ (.publishMask _) => none
  | .update name (.flags flags) => some (.update name (.enabled flags.enabled))
  | a => some a

theorem Action.unmasked?_idem {a a' : Action} (h : a.unmasked? = some a') :
    a'.unmasked? = some a' := by
  cases a with
  | update name update => cases update <;> cases h <;> rfl
  | _ => cases h; rfl

/-- An answer without masks, and without what it tells of the switch for them. -/
def Answer.unmasked {α : Type} : Answer α → Answer α
  | updated (.ok flags) => updated (.ok ⟨flags.enabled, false⟩)
  | processed items result => processed (items.filter (!·.isMask)) result
  | answer => answer

namespace ClassState
variable {α : Type} (c : ClassState α)

/-- The class as it is when no mask is asked for. -/
def unmasked : ClassState α := { c with flags := ⟨c.flags.enabled, false⟩ }

@[simp] theorem settings_unmasked : c.unmasked.settings = c.settings := rfl

@[simp] theorem enabled_unmasked : c.unmasked.flags.enabled = c.flags.enabled := rfl

variable [Scalar α] (samples : SampleSet) (tunables : Tunables α) (number : Nat)

theorem run_unmasked : c.unmasked.run samples tunables number =
    ((c.run samples tunables number).1.unmasked,
      { (c.run samples tunables number).2 with mask := none }) := rfl

theorem next_unmasked :
    c.unmasked.next samples tunables number = (c.next samples tunables number).unmasked := by
  by_cases enabled : c.flags.enabled = true <;>
    simp only [next, enabled_unmasked, enabled, run_unmasked] <;> rfl

theorem outcome?_unmasked :
    c.unmasked.outcome? samples tunables number =
      (c.outcome? samples tunables number).map fun outcome => { outcome with mask := none } := by
  by_cases enabled : c.flags.enabled = true <;>
    simp only [outcome?, enabled_unmasked, enabled, run_unmasked] <;> rfl

end ClassState

namespace Pipeline
variable {α : Type} [Scalar α] {p q : Pipeline α}

/-- The pipeline as it is when no mask is asked for. -/
def unmasked (p : Pipeline α) : Pipeline α := { p with classes := p.classes.map .unmasked }

/-- A state and an answer without masks. -/
def unmaskedStep (stepped : Pipeline α × Answer α) : Pipeline α × Answer α :=
  (stepped.1.unmasked, stepped.2.unmasked)

/-- Where a run is after each of its actions, and what was answered, told without the masks and
without the actions that do no more than to switch one. -/
def unmaskedHistory (p : Pipeline α) (actions : List Action) : List (Pipeline α × Answer α) :=
  (actions.zip (p.history actions)).filterMap fun (a, stepped) =>
    a.unmasked?.map fun _ => unmaskedStep stepped

/-! ### A frame without masks -/

section
omit [Scalar α]

@[simp] theorem settings_unmasked (p : Pipeline α) : p.unmasked.settings = p.settings := by
  simp [settings, unmasked]

@[simp] theorem unmasked_unmasked (p : Pipeline α) : p.unmasked.unmasked = p.unmasked := by
  simp only [unmasked, List.map_map]
  rfl

end

theorem after_unmasked (p : Pipeline α) (frame : Frame) :
    p.unmasked.after frame = (p.after frame).unmasked := by
  refine congrArg (Pipeline.mk p.camera p.tunables · (p.after frame).context) ?_
  simp only [Pipeline.after, unmasked, List.map_map]
  exact List.map_congr_left fun c _ => c.next_unmasked ..

theorem outcomesOf_unmasked (p : Pipeline α) (frame : Frame) :
    p.unmasked.outcomesOf frame =
      (p.outcomesOf frame).map fun outcome => { outcome with mask := none } := by
  simp only [outcomesOf, unmasked, List.filterMap_map, List.map_filterMap]
  exact List.filterMap_congr fun c _ => c.outcome?_unmasked ..

theorem reportOf_unmasked (p : Pipeline α) (frame : Frame) :
    p.unmasked.reportOf frame = p.reportOf frame := by
  simp only [reportOf, outcomesOf_unmasked, List.flatMap_map, List.map_map]
  rfl

theorem filter_masks_itemsOf (frame : UprightFrame) (number : Nat) (outcome : ClassOutcome α) :
    (itemsOf frame number outcome).filter (!·.isMask) =
      itemsOf frame number { outcome with mask := none } := by
  have masks : ((outcome.mask.map fun mask =>
      Item.mask (α := α) frame.camera outcome.settings.name number mask).toList).filter
        (!·.isMask) = [] := by
    cases outcome.mask <;> rfl
  have detections : (outcome.hits.map fun hit =>
      Item.detection (detectionOf frame number outcome.settings hit)).filter (!·.isMask) =
        outcome.hits.map fun hit =>
          .detection (detectionOf frame number outcome.settings hit) := by
    refine List.filter_eq_self.2 fun item hitem => ?_
    obtain ⟨hit, -, rfl⟩ := List.mem_map.1 hitem
    rfl
  rw [itemsOf, List.filter_append, masks, detections]
  rfl

theorem itemsFor_unmasked (p : Pipeline α) (frame : Frame) :
    p.unmasked.itemsFor frame = (p.itemsFor frame).filter (!·.isMask) := by
  have items : (p.unmasked.outcomesOf frame).flatMap
      (itemsOf frame.upright p.context.frameCount) =
        ((p.outcomesOf frame).flatMap (itemsOf frame.upright p.context.frameCount)).filter
          (!·.isMask) := by
    rw [outcomesOf_unmasked, List.flatMap_map, List.filter_flatMap]
    exact List.flatMap_congr fun outcome _ => (filter_masks_itemsOf ..).symm
  have marked : (p.unmasked.outcomesOf frame).foldl markHits frame.upright.rgb =
      (p.outcomesOf frame).foldl markHits frame.upright.rgb := by
    rw [outcomesOf_unmasked, List.foldl_map]
    rfl
  rw [itemsFor, itemsFor, List.filter_append, ← items, ← marked]
  rfl

/-! ### An action without masks -/

omit [Scalar α] in
theorem class?_unmasked (p : Pipeline α) (name : String) :
    p.unmasked.class? name = (p.class? name).map .unmasked := by
  rw [class?, unmasked, List.find?_map]
  rfl

theorem unmaskedStep_frame (p : Pipeline α) (frame : Frame) :
    unmaskedStep (p.step (.frame frame)) = unmaskedStep (p.unmasked.step (.frame frame)) := by
  by_cases fits : frame.Fits p.camera
  · have fits' : frame.Fits p.unmasked.camera := fits
    rw [step_of_fits fits, step_of_fits fits', unmaskedStep, unmaskedStep, after_unmasked,
      unmasked_unmasked, reportOf_unmasked, itemsFor_unmasked]
    simp [Answer.unmasked]
  · obtain ⟨fault, hfault⟩ := process_of_not_fits (α := α) fits
    simp only [step, stepWith, hfault p rfl, hfault p.unmasked rfl, unmaskedStep, unmasked_unmasked]

theorem unmaskedStep_add (p : Pipeline α) (settings : ClassSettings) (classify : Classifier) :
    unmaskedStep (p.step (.add settings classify)) =
      unmaskedStep (p.unmasked.step (.add settings classify)) := by
  have registered : (p.register settings classify).unmasked =
      (p.unmasked.register settings classify).unmasked := by
    refine congrArg (Pipeline.mk p.camera p.tunables · p.context) ?_
    simp only [unmasked, register, List.map_append, List.map_map]
    rfl
  have camera_eq : p.unmasked.camera = p.camera := rfl
  simp only [step, stepWith, addClass_eq, settings_unmasked, camera_eq]
  split_ifs
  · simp only [unmaskedStep, unmasked_unmasked]
  · simp only [unmaskedStep, unmasked_unmasked]
  · exact congrArg (·, Answer.added (.ok ())) registered

section
omit [Scalar α]
variable {update : ClassUpdate} {on : Bool}

theorem unmasked_switch_publishMask (p : Pipeline α) (name : String) (on : Bool) :
    (p.switch name (.publishMask on)).unmasked = p.unmasked := by
  refine congrArg (Pipeline.mk p.camera p.tunables · p.context)
    (Eq.trans ?_ (modifyClass_id name p.unmasked.classes))
  refine map_modifyClass (f := ClassState.unmasked) (fun _ => rfl) (fun c _ => ?_) p.classes
  rfl

/-- Of what an update does, only whether it enables the class is seen. -/
theorem unmasked_switch (p : Pipeline α) (sets : ∀ flags, (update.apply flags).enabled = on)
    (name : String) :
    (p.switch name update).unmasked = p.unmasked.switch name (.enabled on) := by
  refine congrArg (Pipeline.mk p.camera p.tunables · p.context)
    (map_modifyClass (f := ClassState.unmasked) (fun _ => rfl) (fun c _ => ?_) p.classes)
  simp only [ClassState.switched, ClassState.unmasked, sets]
  rfl

end

theorem unmaskedStep_update (p : Pipeline α) {update : ClassUpdate} {on : Bool}
    (sets : ∀ flags, (update.apply flags).enabled = on) (name : String) :
    unmaskedStep (p.step (.update name update)) =
      unmaskedStep (p.unmasked.step (.update name (.enabled on))) := by
  have switched := unmasked_switch p sets name
  have switched' : (p.unmasked.switch name (.enabled on)).unmasked =
      p.unmasked.unmasked.switch name (.enabled on) :=
    unmasked_switch p.unmasked (fun _ => rfl) name
  simp only [step, stepWith, updateClass_eq, class?_unmasked]
  cases p.class? name with
  | none => simp only [unmaskedStep, Option.map_none, switched, switched', unmasked_unmasked]
  | some c =>
    simp only [unmaskedStep, Option.map_some, switched, switched', unmasked_unmasked,
      Answer.unmasked, sets]
    rfl

/-- What an action does besides switching a mask is seen of it, and nothing else. -/
theorem unmaskedStep_eq {a a' : Action} (h : a.unmasked? = some a') :
    unmaskedStep (p.step a) = unmaskedStep (p.unmasked.step a') := by
  cases a with
  | add settings classify =>
    obtain rfl := Option.some.inj h
    exact p.unmaskedStep_add settings classify
  | frame frame =>
    obtain rfl := Option.some.inj h
    exact p.unmaskedStep_frame frame
  | update name update =>
    cases update with
    | publishMask on => cases h
    | enabled on | flags flags =>
      obtain rfl := Option.some.inj h
      exact p.unmaskedStep_update (fun _ => rfl) name

theorem unmasked_step_of_none {a : Action} (h : a.unmasked? = none) :
    (p.step a).1.unmasked = p.unmasked := by
  cases a with
  | update name update =>
    cases update with
    | publishMask on => rw [step_update, unmasked_switch_publishMask]
    | _ => cases h
  | _ => cases h

/-! ### Runs -/

theorem unmaskedHistory_cons (p : Pipeline α) (a : Action) (rest : List Action) :
    p.unmaskedHistory (a :: rest) =
      (a.unmasked?.map fun _ => unmaskedStep (p.step a)).toList ++
        (p.step a).1.unmaskedHistory rest :=
  filterMap_cons_toList ..

theorem run_unmasked (same : p.unmasked = q.unmasked) (actions : List Action) :
    p.unmaskedHistory actions =
        (q.history (actions.filterMap Action.unmasked?)).map unmaskedStep ∧
      (p.run actions).1.unmasked = (q.run (actions.filterMap Action.unmasked?)).1.unmasked := by
  induction actions generalizing p q with
  | nil => exact ⟨rfl, same⟩
  | cons a rest ih =>
    rw [unmaskedHistory_cons, run_cons]
    cases h : a.unmasked? with
    | none =>
      rw [List.filterMap_cons_none h]
      exact ih ((unmasked_step_of_none h).trans same)
    | some a' =>
      -- both steps are seen as one of the pipeline without masks
      have stepped : unmaskedStep (p.step a) = unmaskedStep (q.step a') := by
        rw [unmaskedStep_eq h, same, ← unmaskedStep_eq (Action.unmasked?_idem h)]
      obtain ⟨told, left⟩ := ih (congrArg (·.1) stepped)
      rw [List.filterMap_cons_some h, history, List.map_cons, ← told, ← stepped]
      exact ⟨rfl, left⟩

/-! ### What is handed on of a frame -/

/-- One mask for each class that asks for it, in the order of registration. -/
theorem filter_itemsFor {frame : Frame} (fits : frame.Fits p.camera) :
    (p.itemsFor frame).filter Item.isMask =
      (p.enabled.filter (·.flags.publishMask)).map fun c =>
        .mask p.camera c.settings.name p.context.frameCount (c.labels (p.samplesOf frame)).mask := by
  have others : ∀ c : ClassState α,
      ((p.detectionsBy frame c).map Item.detection).filter Item.isMask = [] := fun c => by
    refine List.filter_eq_nil_iff.2 fun item hitem => ?_
    obtain ⟨d, -, rfl⟩ := List.mem_map.1 hitem
    exact Bool.false_ne_true
  have last : ∀ image, [Item.annotated p.camera p.context.frameCount image].filter Item.isMask =
      ([] : List (Item α)) := fun _ => rfl
  rw [itemsFor_eq fits, List.filter_append, last, List.append_nil]
  induction p.enabled with
  | nil => rfl
  | cons c rest ih =>
    have kept : (c :: rest).filter (·.flags.publishMask) =
        if c.flags.publishMask then c :: rest.filter (·.flags.publishMask)
        else rest.filter (·.flags.publishMask) := List.filter_cons
    rw [List.flatMap_cons, List.filter_append, ih, itemsBy, List.filter_append, others,
      List.append_nil, kept]
    cases c.flags.publishMask <;> rfl

/-- On a frame, each class that is enabled and asks for it hands on one mask, in the order of
registration, and this shows the labels that its model gives to the pixels on the lattice of the
frame, whatever has become of blobs here or before. Nothing else is seen of the switches for masks:
two runs that differ in these alone go through the same states, but for the switches, and are given
the same answers, but for what these tell of the switches and for the masks themselves. -/
theorem masks_show_labels (camera : Camera) (tunables : Tunables α) (actions : List Action) :
    let p := ((start camera tunables).run actions).1
    let number := ((start camera tunables).run actions).2.countP Answer.isUse
    let stride := max tunables.stride 1
    (∀ frame p' report items, p.process frame = (p', items, .ok report) →
      List.Forall₂ (fun c item => ∃ image, item = .mask camera c.settings.name number image ∧
          image.ShowsLabels frame (number % stride) stride p.context.colors c.classify)
        (p.enabled.filter (·.flags.publishMask)) (items.filter Item.isMask)) ∧
    ∀ others, others.filterMap Action.unmasked? = actions.filterMap Action.unmasked? →
      (start camera tunables).unmaskedHistory others =
          (start camera tunables).unmaskedHistory actions ∧
        ((start camera tunables).run others).1.unmasked = p.unmasked := by
  intro p number stride
  have camera_eq : p.camera = camera := ((start camera tunables).fixed_run actions).1
  have sees : p.context.Sees stride (usedFrames camera actions) := sees_run camera tunables actions
  have used_eq : number = (usedFrames camera actions).length := (context_run ..).2
  have valid : p.GridsValid := (GridsValid.start camera tunables).run actions
  refine ⟨fun frame p' report items used => ?masks, fun others same => ?others⟩
  case masks =>
    obtain ⟨fits, -, -, rfl⟩ := of_process_eq_ok used
    rw [filter_itemsFor fits, List.forall₂_map_right_iff, List.forall₂_same]
    intro c hc
    have known : c ∈ p.classes := List.mem_of_mem_filter (List.mem_of_mem_filter hc)
    have shows := ClassState.showsLabels (valid c known) p.context.scanner frame p.context.colors
    rw [sees.stride_eq, sees.phase_eq, ← used_eq] at shows
    refine ⟨_, ?_, shows⟩
    rw [camera_eq, sees.frameCount_eq, ← used_eq]
    rfl
  case others =>
    obtain ⟨told, left⟩ := run_unmasked (p := start camera tunables) rfl others
    obtain ⟨told', left'⟩ := run_unmasked (p := start camera tunables) rfl actions
    rw [told, told', left, left', same]
    exact ⟨rfl, rfl⟩

/-- A mask of the second frame, which has one sample, and the run without it. -/
theorem mask_of_second_frame :
    let tunables : Tunables Float := .usual 20
    let gate : ClassSettings := .usual "gate" 1 .forward "gate.txt"
    let classify : Classifier := fun _ => .object 1
    let dark : Frame := ⟨.forward, .epoch, .filled 2 2 ⟨0, 0, 0⟩⟩
    let quiet : List Action := [.add gate classify, .frame dark]
    let actions : List Action := quiet ++ [.update "gate" (.publishMask true)]
    let p := ((start .forward tunables).run actions).1
    (∃ p' report items image, p.process dark = (p', items, .ok report) ∧
      items.filter Item.isMask = [.mask .forward "gate" 1 image] ∧
      image.get? ⟨1, 1⟩ = some 210 ∧ image.get? ⟨0, 0⟩ = some 0) ∧
    quiet.filterMap Action.unmasked? = actions.filterMap Action.unmasked? ∧
    (start .forward tunables).unmaskedHistory quiet =
      (start .forward tunables).unmaskedHistory actions := by
  intro tunables gate classify dark quiet actions p
  obtain ⟨masks, others⟩ := masks_show_labels .forward tunables actions
  have fits : dark.Fits p.camera := ⟨by decide, by decide, rfl⟩
  have used := process_of_fits fits
  have shown := masks dark _ _ _ used
  obtain ⟨c, asked, settings_eq, classify_eq⟩ :
      ∃ c, p.enabled.filter (·.flags.publishMask) = [c] ∧ c.settings = gate ∧
        c.classify = classify := ⟨_, rfl, rfl, rfl⟩
  rw [asked, List.forall₂_cons_left_iff] at shown
  obtain ⟨item, rest, ⟨image, rfl, shows⟩, last, items_eq⟩ := shown
  obtain rfl := List.forall₂_nil_left_iff.1 last
  rw [settings_eq] at items_eq
  refine ⟨⟨_, _, _, image, used, items_eq, ?lit, ?dark⟩, rfl, (others quiet rfl).1⟩
  case lit =>
    obtain ⟨level, held, level_eq⟩ :=
      shows.lit ⟨1, 1⟩ ⟨0, 0, 0⟩ 1 rfl ⟨0, 0, rfl⟩ (by rw [classify_eq])
    rw [held, UInt8.toNat_inj.1 (level_eq.trans (show _ = (210 : UInt8).toNat from rfl))]
  case dark =>
    refine shows.unsampled ⟨0, 0⟩ (by decide) ?_
    rintro ⟨i, j, same⟩
    exact absurd (congrArg Point.x same).symm (Nat.ne_of_gt (Nat.le_add_right 1 _))

end Pipeline

end ObjectTracking
