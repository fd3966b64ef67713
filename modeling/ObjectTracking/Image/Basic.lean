/-! # Images

A rectangle of pixels, row by row from the top left. Reading and writing by coordinates, building
from a function of the coordinates, and the quarter turn that sets a sideways picture upright. -/

namespace ObjectTracking

/-- A position in an image: `x` counts to the right, `y` downward. -/
structure Point where
  x : Nat
  y : Nat
  deriving DecidableEq, Repr, Inhabited

/-- `width * height` pixels in row-major order. -/
structure Image (α : Type) where
  width : Nat
  height : Nat
  pixels : Array α
  size_eq : pixels.size = width * height

namespace Image
variable {α β : Type}

/-- Where the pixel `(x, y)` is stored. -/
abbrev offset (width x y : Nat) : Nat := y * width + x

theorem offset_lt {width height x y : Nat} (hx : x < width) (hy : y < height) :
    offset width x y < width * height := by
  have : (y + 1) * width ≤ height * width := Nat.mul_le_mul_right width hy
  rw [Nat.add_mul, Nat.one_mul, Nat.mul_comm height] at this
  simp only [offset]
  omega

def Contains (image : Image α) (p : Point) : Prop := p.x < image.width ∧ p.y < image.height

instance (image : Image α) (p : Point) : Decidable (image.Contains p) :=
  inferInstanceAs (Decidable (_ ∧ _))

def get (image : Image α) (p : Point) (h : image.Contains p) : α :=
  have inside : offset image.width p.x p.y < image.pixels.size :=
    image.size_eq ▸ offset_lt h.1 h.2
  image.pixels[offset image.width p.x p.y]

/-- The pixel at a point, if the point lies in the image. -/
def get? (image : Image α) (p : Point) : Option α :=
  if h : image.Contains p then some (image.get p h) else none

/-- Replaces the pixel at a point; a point outside changes nothing. -/
def set (image : Image α) (p : Point) (value : α) : Image α :=
  if image.Contains p then
    { image with
      pixels := image.pixels.setIfInBounds (offset image.width p.x p.y) value
      size_eq := by rw [Array.size_setIfInBounds, image.size_eq] }
  else image

def filled (width height : Nat) (value : α) : Image α where
  width := width
  height := height
  pixels := Array.replicate (width * height) value
  size_eq := Array.size_replicate

/-- The image whose pixel at `(x, y)` is `f x y`. -/
def ofFn (width height : Nat) (f : Fin width → Fin height → α) : Image α where
  width := width
  height := height
  pixels := Array.ofFn fun i : Fin (width * height) =>
    have width_pos : 0 < width := Nat.pos_of_ne_zero fun h => by
      have : (i : Nat) < 0 * height := h ▸ i.isLt
      omega
    f ⟨i % width, Nat.mod_lt _ width_pos⟩
      ⟨i / width, Nat.div_lt_of_lt_mul i.isLt⟩
  size_eq := Array.size_ofFn

def map (f : α → β) (image : Image α) : Image β where
  width := image.width
  height := image.height
  pixels := image.pixels.map f
  size_eq := by rw [Array.size_map, image.size_eq]

/-- A quarter turn counter-clockwise: the pixel at `(x, y)` lands on `(y, width - 1 - x)`. -/
def turned (image : Image α) : Image α :=
  ofFn image.height image.width fun x y =>
    image.get ⟨image.width - 1 - y, x⟩ ⟨by have := y.isLt; simp only; omega, x.isLt⟩

/-- Sets the pixel at signed coordinates; coordinates outside the image are skipped. -/
def plot (image : Image α) (value : α) (at_ : Int × Int) : Image α :=
  if 0 ≤ at_.1 ∧ 0 ≤ at_.2 then image.set ⟨at_.1.toNat, at_.2.toNat⟩ value else image

/-! ### What reading sees after writing -/

@[simp] theorem width_set (image : Image α) (p : Point) (v : α) :
    (image.set p v).width = image.width := by
  unfold set; split <;> rfl

@[simp] theorem height_set (image : Image α) (p : Point) (v : α) :
    (image.set p v).height = image.height := by
  unfold set; split <;> rfl

@[simp] theorem contains_set {image : Image α} {p q : Point} {v : α} :
    (image.set p v).Contains q ↔ image.Contains q := by
  simp [Contains]

theorem offset_inj {width : Nat} {p q : Point} (hp : p.x < width) (hq : q.x < width)
    (h : offset width p.x p.y = offset width q.x q.y) : p = q := by
  have width_pos : 0 < width := Nat.lt_of_le_of_lt (Nat.zero_le _) hp
  have hy := congrArg (· / width) h
  simp only [offset, Nat.mul_comm _ width, Nat.mul_add_div width_pos, Nat.div_eq_of_lt, hp, hq,
    Nat.add_zero] at hy
  cases p; cases q; simp_all

theorem get?_eq (image : Image α) (p : Point) :
    image.get? p =
      if image.Contains p then image.pixels[offset image.width p.x p.y]? else none := by
  unfold get?
  split
  · rename_i h
    exact (Array.getElem?_eq_getElem (image.size_eq ▸ offset_lt h.1 h.2)).symm
  · rfl

theorem pixels_set (image : Image α) (p : Point) (v : α) :
    (image.set p v).pixels = if image.Contains p then
      image.pixels.setIfInBounds (offset image.width p.x p.y) v else image.pixels := by
  unfold set; split <;> rfl

theorem get?_set_self {image : Image α} {p : Point} (h : image.Contains p) (v : α) :
    (image.set p v).get? p = some v := by
  have := offset_lt h.1 h.2
  rw [get?_eq, pixels_set, if_pos h, if_pos (contains_set.2 h)]
  simp [image.size_eq, this]

theorem get?_set_ne {image : Image α} {p q : Point} (h : p ≠ q) (v : α) :
    (image.set p v).get? q = image.get? q := by
  rw [get?_eq, get?_eq, pixels_set]
  by_cases hq : image.Contains q
  · by_cases hp : image.Contains p
    · have := fun e => h (offset_inj hp.1 hq.1 e)
      simp only [contains_set, hq, hp, if_true, width_set]
      exact Array.getElem?_setIfInBounds_ne this
    · simp [hp]
  · simp [hq]

end Image

end ObjectTracking
