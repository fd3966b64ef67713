import ObjectTracking.Image.Color
import ObjectTracking.LabelGrid

/-! # Sparse sampling

Only the pixels of a square lattice are looked at. The lattice has a stride and is shifted along
the diagonal by a phase that moves on with every frame, so that the phases of one round together
visit each position of the diagonal once. Sampling a frame also sums up the colors it saw; their
average is what the classifiers are told about the scene on the next frame. -/

namespace ObjectTracking

/-! ### The lattice -/

/-- `phase, phase + stride, …` as long as the coordinate is below `limit`. -/
def latticeLine (phase stride limit : Nat) : List Nat :=
  (List.range ((limit - phase + (stride - 1)) / stride)).map fun i => phase + i * stride

/-- The lattice points of an area, row by row. -/
def latticePoints (phase stride width height : Nat) : List Point :=
  (latticeLine phase stride height).flatMap fun y =>
    (latticeLine phase stride width).map fun x => ⟨x, y⟩

/-! ### Color averages -/

/-- The average color of an earlier frame. -/
structure ColorStats where
  hue : UInt8
  saturation : UInt8
  brightness : UInt8
  deriving DecidableEq, Repr, Inhabited

/-- Before anything was sampled, the average is black. -/
def ColorStats.initial : ColorStats := ⟨0, 0, 0⟩

/-- The channels of sampled colors, summed up. -/
structure ColorSums where
  hue : Nat
  saturation : Nat
  brightness : Nat
  count : Nat
  deriving DecidableEq, Repr, Inhabited

namespace ColorSums

def zero : ColorSums := ⟨0, 0, 0, 0⟩

def add (sums : ColorSums) (color : Hsv) : ColorSums :=
  ⟨sums.hue + color.hue.toNat, sums.saturation + color.saturation.toNat,
    sums.brightness + color.value.toNat, sums.count + 1⟩

/-- The averages, each rounded down; there are none without a color. -/
def average? (sums : ColorSums) : Option ColorStats :=
  if sums.count = 0 then none
  else some ⟨UInt8.ofNat (sums.hue / sums.count), UInt8.ofNat (sums.saturation / sums.count),
    UInt8.ofNat (sums.brightness / sums.count)⟩

end ColorSums

/-! ### Samples -/

/-- A lattice point with what classifiers are told about it. -/
structure Sample where
  point : Point
  features : Features
  deriving DecidableEq, Repr, Inhabited

structure SampleSet where
  width : Nat
  height : Nat
  stride : Nat
  phase : Nat
  samples : List Sample
  sums : ColorSums

/-- The features of a pixel against the average color of the frame before. -/
def Features.ofColor (context : ColorStats) (color : Hsv) : Features :=
  ⟨context.saturation, context.brightness, color.hue, color.saturation, color.value⟩

/-- Clears the grid and writes one label for each sample. -/
def SampleSet.classifyInto (set : SampleSet) (classify : Classifier) (grid : LabelGrid) :
    LabelGrid :=
  set.samples.foldl (fun grid sample => grid.set sample.point (.sampled (classify sample.features)))
    (grid.reset set.width set.height)

/-! ### The moving lattice -/

/-- The lattice of the current frame. -/
structure Scanner where
  stride : Nat
  phase : Nat
  phase_lt : phase < stride
  deriving DecidableEq, Repr

namespace Scanner

/-- The lattice that starts at phase zero. A stride of zero counts as one. -/
def ofStride (stride : Nat) : Scanner := ⟨max stride 1, 0, by omega⟩

/-- On to the next phase, and from the last to the first. -/
def advance (scanner : Scanner) : Scanner :=
  ⟨scanner.stride, (scanner.phase + 1) % scanner.stride,
    Nat.mod_lt _ (Nat.lt_of_le_of_lt (Nat.zero_le _) scanner.phase_lt)⟩

def points (scanner : Scanner) (width height : Nat) : List Point :=
  latticePoints scanner.phase scanner.stride width height

/-- The colors of an image at the lattice points. -/
def colors (scanner : Scanner) (image : Image Hsv) : List (Point × Hsv) :=
  (scanner.points image.width image.height).filterMap fun p =>
    (image.get? p).map fun color => (p, color)

/-- Samples an image, given the average color of the frame before. -/
def scan (scanner : Scanner) (image : Image Hsv) (context : ColorStats) : SampleSet :=
  let colors := scanner.colors image
  { width := image.width
    height := image.height
    stride := scanner.stride
    phase := scanner.phase
    samples := colors.map fun (p, color) => ⟨p, .ofColor context color⟩
    sums := colors.foldl (fun sums (_, color) => sums.add color) .zero }

end Scanner

end ObjectTracking
