import ObjectTracking.Number.Scalar

/-! # Tracks

Classification of sparse samples is noisy: what is seen once may be nothing. A tracker follows the
objects of one class from frame to frame, and an object counts only once it has been seen often
enough at about the same place. A sighting near a track moves the track there; one that is near
none starts a new track; a track that has not been seen for too long is dropped. -/

namespace ObjectTracking

/-- When a track counts, when it is forgotten, and how far it may move. -/
structure TrackingRules (α : Type) where
  /-- Sightings needed before a track is confirmed. -/
  confirmationStreak : Nat
  /-- Frames a track may go unseen. -/
  stalenessWindow : Nat
  /-- The largest distance between a track and a sighting of it. -/
  distanceTolerance : α
  deriving Repr

inductive TrackState where
  | provisional
  | confirmed
  deriving DecidableEq, Repr

structure Track (α : Type) where
  id : Nat
  classId : UInt8
  x : α
  y : α
  lastSeen : Nat
  /-- Sightings after the first. -/
  lifetime : Nat
  deriving Repr

namespace Track
variable {α : Type}

/-- The largest count a track keeps; it stays there. -/
def maxCount : Nat := UInt32.size - 1

def maxFrame : Nat := UInt64.size - 1

/-- On how many frames the object was seen. -/
def sightings (track : Track α) : Nat := min (track.lifetime + 1) maxCount

/-- A track is confirmed by enough sightings, but never by its first. -/
def state (track : Track α) (rules : TrackingRules α) : TrackState :=
  if 0 < track.lifetime ∧ rules.confirmationStreak ≤ track.sightings then .confirmed
  else .provisional

def moveTo (track : Track α) (x y : α) (frame : Nat) : Track α :=
  { track with x, y, lastSeen := frame, lifetime := min (track.lifetime + 1) maxCount }

/-- The last frame on which the track is kept without being seen again. -/
def keptUntil (track : Track α) (window : Nat) : Nat := min (track.lastSeen + window) maxFrame

end Track

/-- The tracks of one class, oldest first. -/
structure Tracker (α : Type) where
  classId : UInt8
  rules : TrackingRules α
  tracks : List (Track α)
  /-- The id of the next new track; ids are never given twice. -/
  nextId : Nat
  deriving Repr

namespace Tracker
variable {α : Type} [Scalar α]
open Scalar

def start (classId : UInt8) (rules : TrackingRules α) : Tracker α := ⟨classId, rules, [], 0⟩

/-- The distance at which a track can take a sighting on a frame: none if it was already seen on
that frame or is too far away. -/
def reach? (tolerance x y : α) (frame : Nat) (track : Track α) : Option α :=
  if track.lastSeen = frame then none
  else
    let distance := hypot (track.x - x) (track.y - y)
    if le distance tolerance then some distance else none

/-- A track that can take a sighting: its place among the tracks, and its distance. -/
structure Candidate (α : Type) where
  index : Nat
  track : Track α
  distance : α

/-- The nearest track within reach, the first of equally near ones. -/
def nearest? (reach : Track α → Option α) : List (Track α) → Option (Candidate α)
  | [] => none
  | track :: rest =>
    let later := (nearest? reach rest).map fun c => { c with index := c.index + 1 }
    match reach track, later with
    | none, _ => later
    | some distance, none => some ⟨0, track, distance⟩
    | some distance, some c =>
      if before c.distance distance then some c else some ⟨0, track, distance⟩

/-- Takes a sighting: the nearest track within reach moves there, or else a new track starts. The
answer is the state of that track. -/
def observe (tracker : Tracker α) (x y : α) (frame : Nat) : Tracker α × TrackState :=
  match nearest? (reach? tracker.rules.distanceTolerance x y frame) tracker.tracks with
  | some nearest =>
    let track := nearest.track.moveTo x y frame
    ({ tracker with tracks := tracker.tracks.set nearest.index track }, track.state tracker.rules)
  | none =>
    let track : Track α := ⟨tracker.nextId, tracker.classId, x, y, frame, 0⟩
    ({ tracker with tracks := tracker.tracks ++ [track], nextId := tracker.nextId + 1 },
      .provisional)

omit [Scalar α] in
/-- Drops the tracks that have not been seen for longer than the window. -/
def prune (tracker : Tracker α) (frame : Nat) : Tracker α :=
  { tracker with
    tracks := tracker.tracks.filter (frame ≤ ·.keptUntil tracker.rules.stalenessWindow) }

def clear (tracker : Tracker α) : Tracker α := { tracker with tracks := [] }

end Tracker

end ObjectTracking
