import Mathlib.Data.Set.Function
import ObjectTracking.Proofs.Run.Blind
import ObjectTracking.Proofs.Run.Refusal
import ObjectTracking.Proofs.Sampling.Scan

/-!
# The sideways camera

A picture of the camera that is mounted sideways is turned before anything else is done with it, and
nothing that is done later asks which camera it came from. So a run with that camera is a run with
the other one on pictures that were turned before they arrived, except that the cameras are told the
other way round (`Pipeline.history_swapped`).
-/

namespace ObjectTracking

/-! ### Turning a picture -/

namespace Image
variable {α β : Type} {image : Image α} {p : Point}

/-- Where a pixel lands when a picture of that width is turned. -/
def turnedPoint (width : Nat) (p : Point) : Point := ⟨p.y, width - 1 - p.x⟩

theorem get?_ofFn {width height : Nat} (f : Fin width → Fin height → α) (hx : p.x < width)
    (hy : p.y < height) : (ofFn width height f).get? p = some (f ⟨p.x, hx⟩ ⟨p.y, hy⟩) := by
  have inside : (ofFn width height f).Contains p := ⟨hx, hy⟩
  have offset_eq : offset width p.x p.y = width * p.y + p.x := by rw [offset, Nat.mul_comm]
  have column : offset width p.x p.y % width = p.x := by
    rw [offset_eq, Nat.mul_add_mod, Nat.mod_eq_of_lt hx]
  have row : offset width p.x p.y / width = p.y := by
    rw [offset_eq, Nat.mul_add_div (Nat.zero_lt_of_lt hx), Nat.div_eq_of_lt hx, Nat.add_zero]
  rw [get?_eq, if_pos inside]
  simp only [ofFn, Array.getElem?_ofFn, offset_lt hx hy, dif_pos, column, row]

theorem contains_turned : image.turned.Contains p ↔ p.x < image.height ∧ p.y < image.width :=
  Iff.rfl

theorem get?_turned (inside : image.turned.Contains p) :
    image.turned.get? p = image.get? ⟨image.width - 1 - p.y, p.x⟩ := by
  obtain ⟨hx, hy⟩ := contains_turned.1 inside
  have source : image.Contains ⟨image.width - 1 - p.y, p.x⟩ := ⟨by simp only; omega, hx⟩
  have held : image.get? ⟨image.width - 1 - p.y, p.x⟩ = some (image.get _ source) := dif_pos source
  exact (get?_ofFn _ hx hy).trans held.symm

theorem contains_turnedPoint (inside : image.Contains p) :
    image.turned.Contains (turnedPoint image.width p) := by
  have hx := inside.1
  exact contains_turned.2 ⟨inside.2, by simp only [turnedPoint]; omega⟩

theorem get?_turnedPoint (inside : image.Contains p) :
    image.turned.get? (turnedPoint image.width p) = image.get? p := by
  have hx := inside.1
  have back : image.width - 1 - (image.width - 1 - p.x) = p.x := by omega
  rw [get?_turned (contains_turnedPoint inside), turnedPoint, back]

/-- Each pixel of the turned picture comes from one pixel. -/
theorem bijOn_turnedPoint (image : Image α) :
    Set.BijOn (turnedPoint image.width) {p | image.Contains p} {p | image.turned.Contains p} := by
  refine ⟨fun p inside => contains_turnedPoint inside, fun p inside q inside' same => ?once,
    fun q inside => ?onto⟩
  case once =>
    have hx := inside.1
    have hx' := inside'.1
    obtain ⟨y_eq, x_eq⟩ := Point.mk.inj same
    have x_eq : p.x = q.x := by omega
    cases p
    cases q
    exact congr (congrArg Point.mk x_eq) y_eq
  case onto =>
    obtain ⟨hx, hy⟩ := contains_turned.1 inside
    refine ⟨⟨image.width - 1 - q.y, q.x⟩, ⟨by simp only; omega, hx⟩, ?_⟩
    exact congrArg (Point.mk q.x) (show image.width - 1 - (image.width - 1 - q.y) = q.y by omega)

theorem map_turned (f : α → β) (image : Image α) : image.turned.map f = (image.map f).turned := by
  refine ext_get? rfl rfl fun p => ?_
  have same : (image.map f).turned.Contains p ↔ image.turned.Contains p := Iff.rfl
  by_cases inside : image.turned.Contains p
  · rw [get?_map, get?_turned inside, get?_turned (same.2 inside), get?_map]
    rfl
  · rw [get?_map, get?_eq_none.2 inside, get?_eq_none.2 (mt same.1 inside)]
    rfl

end Image

/-! ### Telling the cameras the other way round -/

def Camera.other : Camera → Camera
  | forward => downward
  | downward => forward

theorem Camera.other_inj {a b : Camera} : a.other = b.other ↔ a = b := by
  cases a <;> cases b <;> decide

/-- The picture, turned, as one of the other camera. -/
def Frame.swapped (frame : Frame) : Frame := ⟨frame.camera.other, frame.taken, frame.image.turned⟩

def ClassSettings.swapped (settings : ClassSettings) : ClassSettings :=
  { settings with camera := settings.camera.other }

def Action.swapped : Action → Action
  | .add settings classify => .add settings.swapped classify
  | .update name change => .update name change
  | .frame picture => .frame picture.swapped

def SettingsFault.swapped : SettingsFault → SettingsFault
  | wrongCamera name belongs given => wrongCamera name belongs.other given.other
  | fault => fault

def FrameFault.swapped : FrameFault → FrameFault
  | zeroSize camera width height => zeroSize camera.other height width
  | wrongCamera delivered expected => wrongCamera delivered.other expected.other
  | noSuchFrame camera index => noSuchFrame camera.other index

def Fault.swapped : Fault → Fault
  | settings cause => .settings cause.swapped
  | malformedFrame cause => .malformedFrame cause.swapped
  | fault => fault

section
variable {α : Type}

def Detection.swapped (d : Detection α) : Detection α := { d with camera := d.camera.other }

def Item.swapped : Item α → Item α
  | mask camera className frame image => .mask camera.other className frame image
  | detection d => .detection d.swapped
  | annotated camera frame image => .annotated camera.other frame image

def Report.swapped (report : Report α) : Report α where
  camera := report.camera.other
  frame := report.frame
  detections := report.detections.map .swapped
  classes := report.classes

def Answer.swapped : Answer α → Answer α
  | added result => .added (result.mapError .swapped)
  | updated result => .updated (result.mapError .swapped)
  | processed items result =>
    .processed (items.map .swapped) ((result.mapError .swapped).map .swapped)

def ClassState.swapped (c : ClassState α) : ClassState α :=
  { c with settings := c.settings.swapped }

/-- The pipeline of the other camera that looks for the same classes and has come as far. -/
def Pipeline.swapped (p : Pipeline α) : Pipeline α where
  camera := p.camera.other
  tunables := p.tunables
  classes := p.classes.map .swapped
  context := p.context

end

/-! ### No stage asks for the camera -/

namespace ClassState
variable {α : Type} [Scalar α] (c : ClassState α) (samples : SampleSet) (tunables : Tunables α)
  (number : Nat)

theorem next_swapped :
    c.swapped.next samples tunables number = (c.next samples tunables number).swapped := by
  have flags_eq : c.swapped.flags = c.flags := rfl
  by_cases enabled : c.flags.enabled = true <;> simp only [next, flags_eq, enabled] <;> rfl

theorem outcome?_swapped :
    c.swapped.outcome? samples tunables number =
      (c.outcome? samples tunables number).map fun outcome =>
        { outcome with settings := outcome.settings.swapped } := by
  have flags_eq : c.swapped.flags = c.flags := rfl
  by_cases enabled : c.flags.enabled = true <;> simp only [outcome?, flags_eq, enabled] <;> rfl

end ClassState

namespace Frame
variable {frame : Frame}

/-- What is turned before it arrives is not turned again. -/
theorem uprightImage_swapped (sideways : frame.camera = .downward) :
    frame.swapped.uprightImage = frame.uprightImage := by
  simp [uprightImage, swapped, sideways, Camera.other, Camera.arrivesUpright]

theorem upright_swapped (sideways : frame.camera = .downward) :
    frame.swapped.upright = { frame.upright with camera := frame.camera.other } := by
  rw [upright, uprightImage_swapped sideways]
  rfl

theorem fits_swapped {camera : Camera} : frame.swapped.Fits camera.other ↔ frame.Fits camera :=
  ⟨fun h => ⟨h.height_pos, h.width_pos, Camera.other_inj.1 h.camera_eq⟩,
    fun h => ⟨h.height_pos, h.width_pos, Camera.other_inj.2 h.camera_eq⟩⟩

end Frame

namespace Pipeline
variable {α : Type} [Scalar α] {p : Pipeline α} {frame : Frame}

/-! ### One frame -/

section
variable (p) (sideways : frame.camera = .downward)
include sideways

omit [Scalar α] in
theorem samplesOf_swapped : p.swapped.samplesOf frame.swapped = p.samplesOf frame := by
  rw [samplesOf, Frame.upright_swapped sideways]
  rfl

theorem outcomesOf_swapped :
    p.swapped.outcomesOf frame.swapped =
      (p.outcomesOf frame).map fun outcome =>
        { outcome with settings := outcome.settings.swapped } := by
  rw [outcomesOf, samplesOf_swapped p sideways]
  simp only [outcomesOf, swapped, List.filterMap_map, List.map_filterMap]
  exact List.filterMap_congr fun c _ => c.outcome?_swapped ..

theorem after_swapped : p.swapped.after frame.swapped = (p.after frame).swapped := by
  rw [after, samplesOf_swapped p sideways]
  refine congrArg (Pipeline.mk p.camera.other p.tunables · (p.after frame).context) ?_
  simp only [after, swapped, List.map_map]
  exact List.map_congr_left fun c _ => c.next_swapped ..

theorem detectionOf_swapped (number : Nat) (settings : ClassSettings) :
    detectionOf (α := α) frame.swapped.upright number settings.swapped =
      .swapped ∘ detectionOf frame.upright number settings := by
  rw [Frame.upright_swapped sideways]
  rfl

theorem reportOf_swapped : p.swapped.reportOf frame.swapped = (p.reportOf frame).swapped := by
  simp only [reportOf, Report.swapped, outcomesOf_swapped p sideways, List.flatMap_map,
    List.map_flatMap, List.map_map, detectionOf_swapped sideways]
  rfl

theorem itemsOf_swapped (number : Nat) (outcome : ClassOutcome α) :
    itemsOf frame.swapped.upright number { outcome with settings := outcome.settings.swapped } =
      (itemsOf frame.upright number outcome).map .swapped := by
  simp only [itemsOf, detectionOf_swapped sideways, List.map_append, List.map_map]
  congr 1
  cases outcome.mask <;> rfl

theorem itemsFor_swapped : p.swapped.itemsFor frame.swapped = (p.itemsFor frame).map .swapped := by
  have marked : (p.swapped.outcomesOf frame.swapped).foldl markHits frame.swapped.upright.rgb =
      (p.outcomesOf frame).foldl markHits frame.upright.rgb := by
    rw [outcomesOf_swapped p sideways, List.foldl_map, Frame.upright_swapped sideways]
    rfl
  rw [itemsFor, marked, outcomesOf_swapped p sideways, List.flatMap_map]
  simp only [itemsFor, List.map_append, List.map_flatMap]
  congr 1
  exact List.flatMap_congr fun outcome _ => itemsOf_swapped sideways ..

end

theorem process_swapped (sideways : p.camera = .downward) (frame : Frame) :
    p.swapped.process frame.swapped =
      ((p.process frame).1.swapped, (p.process frame).2.1.map .swapped,
        ((p.process frame).2.2.mapError .swapped).map .swapped) := by
  by_cases fits : frame.Fits p.camera
  · have frame_sideways : frame.camera = .downward := fits.camera_eq.trans sideways
    rw [process_of_fits fits, process_of_fits (Frame.fits_swapped.2 fits),
      after_swapped p frame_sideways, reportOf_swapped p frame_sideways,
      itemsFor_swapped p frame_sideways]
    rfl
  · by_cases empty : frame.image.width = 0 ∨ frame.image.height = 0
    · have refused : frame.check = .error (.zeroSize frame.camera _ _) := if_pos empty
      have refused' : frame.swapped.check = .error (.zeroSize frame.camera.other _ _) :=
        if_pos empty.symm
      simp only [process, refused, refused']
      rfl
    · have sized : frame.check = .ok () := if_neg empty
      have sized' : frame.swapped.check = .ok () := if_neg fun h => empty h.symm
      have stray : frame.camera ≠ p.camera := fun same => fits ⟨by omega, by omega, same⟩
      have stray' : frame.swapped.camera ≠ p.swapped.camera :=
        fun same => stray (Camera.other_inj.1 same)
      simp only [process, sized, sized', if_pos stray, if_pos stray']
      rfl

/-! ### Registering and switching classes -/

section
omit [Scalar α]

theorem settings_swapped (p : Pipeline α) : p.swapped.settings = p.settings.map .swapped := by
  simp only [settings, swapped, List.map_map]
  rfl

theorem addClass_swapped (p : Pipeline α) (settings : ClassSettings) (classify : Classifier) :
    p.swapped.addClass settings.swapped classify =
      ((p.addClass settings classify).1.swapped,
        (p.addClass settings classify).2.mapError .swapped) := by
  have camera_ne : settings.swapped.camera ≠ p.swapped.camera ↔ settings.camera ≠ p.camera :=
    Camera.other_inj.not
  have taken : (p.swapped.settings.any (·.sharesWith settings.swapped)) =
      p.settings.any (·.sharesWith settings) := by
    rw [settings_swapped, List.any_map]
    rfl
  have registered : p.swapped.register settings.swapped classify =
      (p.register settings classify).swapped := by
    simp only [register, swapped, List.map_append]
    rfl
  simp only [addClass_eq, camera_ne, taken, registered]
  split_ifs <;> rfl

theorem class?_swapped (p : Pipeline α) (name : String) :
    p.swapped.class? name = (p.class? name).map .swapped := by
  rw [class?, swapped, List.find?_map]
  rfl

theorem switch_swapped (p : Pipeline α) (name : String) (update : ClassUpdate) :
    p.swapped.switch name update = (p.switch name update).swapped := by
  refine congrArg (Pipeline.mk p.camera.other p.tunables · p.context) (Eq.symm ?_)
  refine map_modifyClass (f := ClassState.swapped) (fun _ => rfl) (fun c _ => ?_) p.classes
  rfl

theorem updateClass_swapped (p : Pipeline α) (name : String) (update : ClassUpdate) :
    p.swapped.updateClass name update =
      ((p.updateClass name update).1.swapped, (p.updateClass name update).2.mapError .swapped) := by
  rw [updateClass_eq, updateClass_eq, class?_swapped, switch_swapped]
  cases p.class? name <;> rfl

end

/-! ### Runs -/

theorem step_swapped (sideways : p.camera = .downward) (a : Action) :
    p.swapped.step a.swapped = ((p.step a).1.swapped, (p.step a).2.swapped) := by
  cases a with
  | add settings classify =>
    simp only [Action.swapped, step, stepWith, addClass_swapped]
    rfl
  | update name change =>
    simp only [Action.swapped, step, stepWith, updateClass_swapped]
    rfl
  | frame frame =>
    simp only [Action.swapped, step, stepWith, process_swapped sideways]
    rfl

theorem history_of_swapped (sideways : p.camera = .downward) (actions : List Action) :
    p.swapped.history (actions.map .swapped) =
      (p.history actions).map fun (p, answer) => (p.swapped, answer.swapped) := by
  induction actions generalizing p with
  | nil => rfl
  | cons a rest ih =>
    have next : (p.step a).1.camera = .downward := (p.fixed_step a).1.trans sideways
    simp only [List.map_cons, history, step_swapped sideways, ih next]

/-- A run with the sideways camera and the run with the other camera on the turned pictures agree
after each action, in the answer, with all that is reported and handed on, and in the state, with
the tracks, the average color, the phase and the number of frames: but for the cameras, they are
the same. Turning a picture swaps its width and height, moves each pixel to a place of its own,
leaves no place empty, and does the same to the colors in hue, saturation and value. -/
theorem history_swapped (tunables : Tunables α) (actions : List Action) :
    (start .forward tunables).history (actions.map .swapped) =
      ((start .downward tunables).history actions).map
        (fun (p, answer) => (p.swapped, answer.swapped)) ∧
    ∀ image : Image Rgb,
      image.turned.width = image.height ∧ image.turned.height = image.width ∧
      Set.BijOn (fun p => ⟨p.y, image.width - 1 - p.x⟩) {p : Point | image.Contains p}
        {p | image.turned.Contains p} ∧
      (∀ p, image.Contains p → image.turned.get? ⟨p.y, image.width - 1 - p.x⟩ = image.get? p) ∧
      image.turned.map Rgb.toHsv = (image.map Rgb.toHsv).turned :=
  ⟨history_of_swapped (p := start .downward tunables) rfl actions, fun image =>
    ⟨rfl, rfl, image.bijOn_turnedPoint, fun _ inside => Image.get?_turnedPoint inside,
      image.map_turned Rgb.toHsv⟩⟩

/-- A class that is asked for its mask, on a picture three wide and two high whose last pixel is
blue. -/
theorem history_swapped_three_by_two :
    let tunables : Tunables Float := .usual 20
    let gate : ClassSettings := .usual "gate" 1 .downward "gate.json"
    let picture : Image Rgb := Image.set (.filled 3 2 ⟨0, 0, 0⟩) ⟨2, 1⟩ ⟨0, 0, 255⟩
    let actions : List Action := [.add gate fun _ => .object 1, .update "gate" (.publishMask true),
      .frame ⟨.downward, .epoch, picture⟩]
    (start .forward tunables).history (actions.map .swapped) =
      ((start .downward tunables).history actions).map
        (fun (p, answer) => (p.swapped, answer.swapped)) ∧
    picture.Contains ⟨2, 1⟩ ∧ picture.turned.get? ⟨1, 0⟩ = some ⟨0, 0, 255⟩ := by
  intro tunables gate picture actions
  obtain ⟨same, turn⟩ := history_swapped tunables actions
  obtain ⟨-, -, -, moved, -⟩ := turn picture
  have inside : picture.Contains ⟨2, 1⟩ := by decide
  exact ⟨same, inside, moved ⟨2, 1⟩ inside⟩

end Pipeline

end ObjectTracking
