/-! # Labels and features

A classifier looks at five bytes about one sampled pixel and answers with a label. -/

namespace ObjectTracking

inductive Label where
  | nothing
  /-- The pixel belongs to an object of the class with this id. -/
  | object (id : UInt8)
  deriving DecidableEq, Repr, Inhabited

/-- Models write labels as a number, of which zero stands for no object. -/
def Label.ofCode (code : UInt8) : Label := if code = 0 then nothing else object code

/-- What a classifier is told about a pixel: its color, and the average saturation and
brightness of the frame before, which make up for the lighting of the scene. -/
structure Features where
  previousSaturation : UInt8
  previousBrightness : UInt8
  hue : UInt8
  saturation : UInt8
  value : UInt8
  deriving DecidableEq, Repr, Inhabited

namespace Features

abbrev count : Nat := 5

/-- The features in the order that models number them. -/
def get (features : Features) (index : Fin count) : UInt8 :=
  match index with
  | 0 => features.previousSaturation
  | 1 => features.previousBrightness
  | 2 => features.hue
  | 3 => features.saturation
  | 4 => features.value

end Features

/-- A trained model: a label for every pixel it may be asked about. -/
abbrev Classifier := Features → Label

end ObjectTracking
