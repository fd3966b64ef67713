import ObjectTracking.Proofs.Run.FreshGrids
import ObjectTracking.Proofs.Run.Published
import ObjectTracking.Proofs.Sampling.Scan

/-!
# What a run has seen of its frames

The context of a pipeline depends on nothing but the frames that were used (`context_run`): how many
there were says which lattice points are next, and the latest with a sample says what the average
color is (`Context.Sees`). What classes there are, how they are switched and what their models say
has no part in it.
-/

namespace ObjectTracking

/-- The colors of a frame that comes after `number` others. -/
def Frame.colorsOn (frame : Frame) (stride number : Nat) : List Hsv :=
  (frame.sampledAt (number % stride) stride).map (·.2)

theorem Frame.hue_lt_of_mem_colorsOn {frame : Frame} {stride number : Nat} {color : Hsv}
    (h : color ∈ frame.colorsOn stride number) : color.hue < 180 := by
  obtain ⟨sample, hsample, rfl⟩ := List.mem_map.1 h
  obtain ⟨pixel, -, color_eq⟩ := Frame.color_of_mem_sampledAt hsample
  rw [color_eq]
  exact pixel.hue_toHsv_lt

/-- The colors of the frames of a run, frame by frame. -/
def colorsSeen (stride : Nat) (frames : List Frame) : List (List Hsv) :=
  frames.zipIdx.map fun (frame, number) => frame.colorsOn stride number

theorem colorsSeen_concat (stride : Nat) (frames : List Frame) (frame : Frame) :
    colorsSeen stride (frames ++ [frame]) =
      colorsSeen stride frames ++ [frame.colorsOn stride frames.length] := by
  simp [colorsSeen, List.zipIdx_append]

theorem hue_lt_of_mem_colorsSeen {stride : Nat} {frames : List Frame} :
    ∀ colors ∈ colorsSeen stride frames, ∀ color ∈ colors, color.hue < 180 := by
  intro colors hcolors color hcolor
  obtain ⟨⟨frame, number⟩, -, rfl⟩ := List.mem_map.1 hcolors
  exact Frame.hue_lt_of_mem_colorsOn hcolor

namespace Context

/-- The context after a frame. -/
def see (context : Context) (frame : Frame) : Context :=
  context.finish (context.scanner.scan frame.upright.hsv context.colors)

/-- What the context tells of the frames so far, with a lattice of the given stride. -/
structure Sees (stride : Nat) (frames : List Frame) (context : Context) : Prop where
  frameCount_eq : context.frameCount = frames.length
  stride_eq : context.scanner.stride = stride
  phase_eq : context.scanner.phase = frames.length % stride
  colors_mean : context.colors.LatestMean (colorsSeen stride frames)

namespace Sees
variable {stride : Nat} {frames : List Frame} {context : Context}

theorem start (stride : Nat) : Sees (max stride 1) [] (Context.start stride) :=
  ⟨rfl, rfl, (Nat.zero_mod _).symm, rfl⟩

theorem next (h : Sees stride frames context) (frame : Frame) :
    Sees stride (frames ++ [frame]) (context.see frame) := by
  obtain ⟨frameCount_eq, stride_eq, phase_eq, colors_mean⟩ := h
  refine ⟨?count, stride_eq, ?phase, ?colors⟩
  case count =>
    rw [List.length_append, ← frameCount_eq]
    rfl
  case phase =>
    show (context.scanner.phase + 1) % context.scanner.stride = _
    rw [phase_eq, stride_eq, Nat.mod_add_mod, List.length_append]
    rfl
  case colors =>
    have seen : (context.scanner.scan frame.upright.hsv context.colors).sums =
        (frame.colorsOn stride frames.length).foldl .add .zero := by
      rw [Scanner.sums_scan, stride_eq, phase_eq]
      rfl
    show ((context.scanner.scan frame.upright.hsv context.colors).sums.average?.getD
      context.colors).LatestMean _
    rw [seen, colorsSeen_concat]
    exact colors_mean.next _

theorem all (h : Sees stride frames context) (later : List Frame) :
    Sees stride (frames ++ later) (later.foldl see context) := by
  induction later generalizing frames context with
  | nil => rwa [List.append_nil]
  | cons frame rest ih =>
    rw [List.append_cons]
    exact ih (h.next frame)

end Sees

end Context

/-- The frame of the action, if it is one that a pipeline of this camera uses. -/
def Action.used? (camera : Camera) : Action → Option Frame
  | .frame taken => if taken.Fits camera then some taken else none
  | _ => none

/-- The frames of a run that are used. -/
def usedFrames (camera : Camera) (actions : List Action) : List Frame :=
  actions.filterMap (·.used? camera)

theorem usedFrames_cons (camera : Camera) (a : Action) (rest : List Action) :
    usedFrames camera (a :: rest) = (a.used? camera).toList ++ usedFrames camera rest :=
  filterMap_cons_toList ..

namespace Pipeline
variable {α : Type} [Scalar α] {p : Pipeline α}

theorem context_step (p : Pipeline α) (a : Action) :
    (p.step a).1.context = (a.used? p.camera).toList.foldl .see p.context ∧
      (p.step a).2.isUse = (a.used? p.camera).isSome := by
  cases a with
  | add settings classify =>
    obtain h | ⟨fault, h⟩ := p.step_add settings classify <;> rw [h] <;> exact ⟨rfl, rfl⟩
  | update name update =>
    obtain ⟨result, h⟩ := p.exists_step_update name update
    rw [h]
    exact ⟨rfl, rfl⟩
  | frame frame =>
    by_cases fits : frame.Fits p.camera
    · rw [step_of_fits fits, Action.used?, if_pos fits]
      exact ⟨rfl, rfl⟩
    · obtain ⟨fault, h⟩ := step_of_not_fits fits
      rw [h, Action.used?, if_neg fits]
      exact ⟨rfl, rfl⟩

/-- Only frames that are used change the context. -/
theorem context_run (p : Pipeline α) (actions : List Action) :
    (p.run actions).1.context = (usedFrames p.camera actions).foldl .see p.context ∧
      (p.run actions).2.countP Answer.isUse = (usedFrames p.camera actions).length := by
  induction actions generalizing p with
  | nil => exact ⟨rfl, rfl⟩
  | cons a rest ih =>
    obtain ⟨context_eq, used_eq⟩ := p.context_step a
    obtain ⟨context_eq', length_eq⟩ := ih (p.step a).1
    rw [(p.fixed_step a).1] at context_eq' length_eq
    rw [usedFrames_cons, List.foldl_append, List.length_append, ← context_eq, ← context_eq',
      ← length_eq, run_cons, List.countP_cons, used_eq]
    refine ⟨rfl, ?_⟩
    cases a.used? p.camera <;> simp [Nat.add_comm]

theorem sees_run (camera : Camera) (tunables : Tunables α) (actions : List Action) :
    ((start camera tunables).run actions).1.context.Sees (max tunables.stride 1)
      (usedFrames camera actions) := by
  rw [(context_run ..).1]
  exact (Context.Sees.start tunables.stride).all _

/-- In every run, the context tells of the frames that were used, and of nothing else: it counts
them, their number gives the phase of the lattice, and the colors are the mean of the latest of them
that had a sample. The next frame is sampled at exactly the points of that lattice that lie in its
upright picture, and what all classes are told of a sample are these colors and that of the pixel. -/
theorem context_of_frames (camera : Camera) (tunables : Tunables α) (actions : List Action) :
    let p := ((start camera tunables).run actions).1
    let frames := usedFrames camera actions
    let stride := max tunables.stride 1
    let phase := frames.length % stride
    ((start camera tunables).run actions).2.countP Answer.isUse = frames.length ∧
    p.context.frameCount = frames.length ∧
    p.context.scanner.stride = stride ∧ p.context.scanner.phase = phase ∧
    p.context.colors.LatestMean (colorsSeen stride frames) ∧ p.context.colors.hue < 180 ∧
    (∀ frame, let samples := p.samplesOf frame
      samples.points.Pairwise Point.Precedes ∧
      (∀ q, q ∈ samples.points ↔ OnLattice phase stride q ∧ frame.uprightImage.Contains q) ∧
      (∀ s ∈ samples.samples, ∃ pixel, frame.uprightImage.get? s.point = some pixel ∧
        s.features = {
          previousSaturation := p.context.colors.saturation
          previousBrightness := p.context.colors.brightness
          hue := pixel.toHsv.hue
          saturation := pixel.toHsv.saturation
          value := pixel.toHsv.value }) ∧
      ∀ c ∈ p.classes,
        (∀ s ∈ samples.samples, (c.labels samples).get s.point = .sampled (c.classify s.features)) ∧
        ∀ q, q ∉ samples.points → (c.labels samples).get q = .unsampled) ∧
    ∀ others, usedFrames camera others = frames →
      ((start camera tunables).run others).1.context = p.context := by
  intro p frames stride phase
  have sees : p.context.Sees stride frames := sees_run camera tunables actions
  have valid : p.GridsValid := (GridsValid.start camera tunables).run actions
  refine ⟨(context_run ..).2, sees.frameCount_eq, sees.stride_eq, sees.phase_eq, sees.colors_mean,
    sees.colors_mean.hue_lt hue_lt_of_mem_colorsSeen, fun frame => ?next, fun others same => ?others⟩
  case next =>
    have points_eq := p.context.scanner.points_scan frame p.context.colors
    rw [sees.stride_eq, sees.phase_eq] at points_eq
    have stride_pos : 0 < stride := sees.stride_eq ▸ p.context.scanner.stride_pos
    have spread := p.context.scanner.spread_scan frame p.context.colors
    refine ⟨?_, fun q => ?_, fun s hs => Scanner.of_mem_scan hs, fun c hc => ⟨fun s hs => ?_, ?_⟩⟩
    · rw [samplesOf, points_eq]
      exact pairwise_latticePoints stride_pos ..
    · rw [samplesOf, points_eq]
      exact mem_latticePoints stride_pos
    · exact SampleSet.get_classifyInto spread (valid c hc) hs
    · exact fun q hq => SampleSet.get_classifyInto_of_not_mem (valid c hc) hq
  case others =>
    rw [(context_run ..).1, (context_run ..).1]
    exact congrArg (List.foldl Context.see _) same

/-- The second frame has no point on its lattice; the classes make no difference. What comes next is
seen against the color of the first. -/
theorem context_of_two_frames :
    let tunables : Tunables Float := .usual 20
    let gray (size : Nat) : Frame := ⟨.forward, .epoch, .filled size size ⟨7, 7, 7⟩⟩
    let blue : Frame := ⟨.forward, .epoch, .filled 3 3 ⟨0, 0, 10⟩⟩
    let actions : List Action :=
      [.add (.usual "gate" 1 .forward "gate.txt") fun _ => .object 1, .frame (gray 2),
        .update "gate" (.enabled false), .frame (gray 1)]
    let p := ((start .forward tunables).run actions).1
    p.context.frameCount = 2 ∧ p.context.scanner.phase = 2 ∧
      p.context.colors.LatestMean [[⟨0, 0, 7⟩], []] ∧
      ((start .forward tunables).run [.frame (gray 2), .frame (gray 1)]).1.context = p.context ∧
      ∃ s ∈ (p.samplesOf blue).samples, s.point = ⟨2, 2⟩ ∧ s.features = ⟨0, 7, 120, 255, 10⟩ := by
  intro tunables gray blue actions p
  obtain ⟨-, count, -, phase, mean, -, next, others⟩ :=
    context_of_frames .forward tunables actions
  have seen : colorsSeen 4 (usedFrames .forward actions) = [[⟨0, 0, 7⟩], []] := by decide
  have same : usedFrames .forward [.frame (gray 2), .frame (gray 1)] =
      usedFrames .forward actions := rfl
  refine ⟨count, phase, seen ▸ mean, others _ same, ?_⟩
  obtain ⟨-, mem_points, features, -⟩ := next blue
  have colors_eq : p.context.colors = ⟨0, 0, 7⟩ := by
    rw [← others _ same]
    decide +kernel
  have sampled := (mem_points ⟨2, 2⟩).2 ⟨⟨0, 0, rfl⟩, by decide⟩
  obtain ⟨s, hs, point_eq⟩ := List.mem_map.1 sampled
  obtain ⟨pixel, pixel_eq, features_eq⟩ := features s hs
  refine ⟨s, hs, point_eq, ?_⟩
  rw [point_eq] at pixel_eq
  obtain rfl : ⟨0, 0, 10⟩ = pixel := Option.some.inj pixel_eq
  rw [features_eq, colors_eq]
  decide

end Pipeline

end ObjectTracking
