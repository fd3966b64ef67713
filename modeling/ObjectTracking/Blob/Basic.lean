import ObjectTracking.LabelGrid

/-! # Blobs

A blob is a cluster of sample points of one class on one frame. -/

namespace ObjectTracking

/-- Sample points of one class that hang together, in the order of their discovery. -/
structure Blob where
  classId : UInt8
  points : Array Point
  deriving DecidableEq, Repr, Inhabited

abbrev Blob.size (blob : Blob) : Nat := blob.points.size

/-- What counts as a blob of a class, and how many of them are wanted. -/
structure BlobCriteria where
  classId : UInt8
  minPoints : Nat
  maxBlobs : Nat
  deriving DecidableEq, Repr

end ObjectTracking
