import ObjectTracking.Blob.Basic

/-! # The largest blobs

The `k` blobs with the most points, largest first, the earlier of two equals first. A list within
the limit is only sorted. From a longer one the best are picked by rank: whenever more than `k` are
held, the weakest is dropped. -/

namespace ObjectTracking.Blob

/-- Largest first; blobs of one size stay in order. -/
def bySize (blobs : List Blob) : List Blob := blobs.mergeSort fun a b => b.size ≤ a.size

/-- What decides between two blobs of a list. -/
structure Rank where
  size : Nat
  /-- The place of the blob in the list. -/
  index : Nat
  deriving DecidableEq, Repr

namespace Rank

def of : Blob × Nat → Rank
  | (blob, index) => ⟨blob.size, index⟩

/-- Larger, or of the same size and no later. -/
def atLeast (a b : Rank) : Bool := b.size < a.size || (a.size = b.size && a.index ≤ b.index)

def weaker (a b : Rank) : Rank := if a.atLeast b then b else a

def weakest (first : Rank) (rest : List Rank) : Rank := rest.foldl weaker first

def dropWeakest : List Rank → List Rank
  | [] => []
  | first :: rest => (first :: rest).erase (weakest first rest)

/-- Holds one more, but never more than `k`. -/
def hold (k : Nat) (held : List Rank) (rank : Rank) : List Rank :=
  let held := rank :: held
  if k < held.length then dropWeakest held else held

end Rank

/-- The ranks of the `k` best, in no order. -/
def best (k : Nat) (blobs : List Blob) : List Rank :=
  (blobs.zipIdx.map Rank.of).foldl (Rank.hold k) []

/-- Takes blobs out of their slots, each of them once. -/
def takeOut : List (Option Blob) → List Rank → List Blob
  | _, [] => []
  | slots, rank :: rest =>
    match slots[rank.index]?.join with
    | some blob => blob :: takeOut (slots.set rank.index none) rest
    | none => takeOut slots rest

/-- The `k` best by rank, the best first. -/
def strongest (k : Nat) (blobs : List Blob) : List Blob :=
  takeOut (blobs.map some) ((best k blobs).mergeSort Rank.atLeast)

/-- The `k` largest blobs, largest first. -/
def largest (k : Nat) (blobs : List Blob) : List Blob :=
  if blobs.length ≤ k then bySize blobs else strongest k blobs

end ObjectTracking.Blob
