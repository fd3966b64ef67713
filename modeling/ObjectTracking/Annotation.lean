import ObjectTracking.Drawing.Stroke
import ObjectTracking.Image.Color
import ObjectTracking.LabelGrid
import ObjectTracking.Shape.Basic

/-! # Annotations and masks

A confirmed object is marked on the picture that is published. On request the labels of a class are
published as well, as a gray picture in which the labelled pixels light up. -/

namespace ObjectTracking

inductive AnnotationStyle where
  /-- A dot at the center and a line along half of the long axis. -/
  | rotation
  /-- A double circle of the mean half extent. -/
  | radius
  deriving DecidableEq, Repr, Inhabited

namespace AnnotationStyle

def name : AnnotationStyle → String
  | rotation => "rotation"
  | radius => "radius"

def ofName? (text : String) : Option AnnotationStyle :=
  [rotation, radius].find? fun style => style.name == text

end AnnotationStyle

namespace Annotation

/-- The radius of the dot at the center of an object. -/
def dotRadius : Int := 3

def mark {α : Type} [Scalar α] (style : AnnotationStyle) (color : Rgb) (image : Image Rgb)
    (shape : Shape α) : Image Rgb :=
  let cx := Scalar.toDouble shape.centerX
  let cy := Scalar.toDouble shape.centerY
  let width := Scalar.toDouble shape.width
  let height := Scalar.toDouble shape.height
  let rotation := Scalar.toDouble shape.rotation
  let center := (Stroke.coordinate Binary.round cx, Stroke.coordinate Binary.round cy)
  match style with
  | .rotation =>
    let reach := height / 2
    let tip := ((cx + reach * rotation.cos).toFloat32, (cy + reach * rotation.sin).toFloat32)
    let dotted := Stroke.draw image color (Stroke.disc center dotRadius)
    Stroke.draw dotted color (Stroke.line (cx.toFloat32, cy.toFloat32) tip)
  | .radius =>
    let radius := Stroke.coordinate Binary.truncate ((width + height) / 4)
    let inner := Stroke.draw image color (Stroke.circle center radius)
    Stroke.draw inner color (Stroke.circle center (radius + 1))

end Annotation

/-- The gray level of a class in a mask. -/
def maskLevel (classId : UInt8) : UInt8 := UInt8.ofNat (min (classId.toNat * 10 + 200) 255)

def Cell.maskLevel : Cell → UInt8
  | sampled (.object id) => ObjectTracking.maskLevel id
  | _ => 0

/-- The labels of a grid as a gray picture. -/
def LabelGrid.mask (grid : LabelGrid) : Image UInt8 := grid.cells.map Cell.maskLevel

end ObjectTracking
