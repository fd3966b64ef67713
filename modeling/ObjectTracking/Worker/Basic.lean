import ObjectTracking.Pipeline.Basic

/-! # Workers

A worker owns the pipeline of one camera and carries out one command at a time, in the order in
which commands were accepted. Only a few commands may wait behind the one being carried out. Whoever
finds no place may go away, or stand in line until one is free. -/

namespace ObjectTracking

/-- What a worker can be asked to do. The answer to an update is found by its ticket. -/
inductive Command where
  | frame (frame : Frame)
  | update (ticket : Nat) (className : String) (update : ClassUpdate)

/-- What a worker has done. -/
structure WorkTotals where
  processed : Nat
  /-- Frames that were refused. -/
  skipped : Nat
  detections : Nat
  deriving DecidableEq, Repr

structure Reply where
  ticket : Nat
  answer : Except Fault ClassFlags

/-- A worker and everything it has produced so far. -/
structure Worker (α : Type) where
  pipeline : Pipeline α
  /-- How many commands may wait. -/
  places : Nat
  /-- Accepted commands, the oldest first. -/
  queue : List Command
  /-- Commands that stand in line for a place, the oldest first. -/
  line : List Command
  current : Option Command
  totals : WorkTotals
  items : List (Item α)
  replies : List Reply

namespace Worker
variable {α : Type} [Scalar α]

omit [Scalar α] in
/-- A worker that has done nothing yet. There is always one place. -/
def start (pipeline : Pipeline α) (places : Nat) : Worker α :=
  ⟨pipeline, max places 1, [], [], none, ⟨0, 0, 0⟩, [], []⟩

omit [Scalar α] in
/-- Places that are free, but kept for those who stand in line. -/
def reserved (worker : Worker α) : Nat :=
  min worker.line.length (worker.places - worker.queue.length)

omit [Scalar α] in
/-- A command would be accepted at once: a place is neither taken nor kept for somebody else. -/
def hasRoom (worker : Worker α) : Bool :=
  worker.queue.length + worker.reserved < worker.places

/-- Hands in a command, which stands in line if it has to. -/
def offer (worker : Worker α) (command : Command) : Worker α :=
  if worker.hasRoom then { worker with queue := worker.queue ++ [command] }
  else { worker with line := worker.line ++ [command] }

/-- Hands in a command unless it would have to wait for a place; tells whether it was accepted. -/
def tryOffer (worker : Worker α) (command : Command) : Worker α × Bool :=
  if worker.hasRoom then ({ worker with queue := worker.queue ++ [command] }, true)
  else (worker, false)

omit [Scalar α] in
/-- Those who stand first in line get the places that are free. -/
def seat (worker : Worker α) : Worker α :=
  let free := worker.places - worker.queue.length
  { worker with
    queue := worker.queue ++ worker.line.take free
    line := worker.line.drop free }

/-- Takes up the next command, if none is being carried out. Its place goes to the first in line. -/
def takeUp (worker : Worker α) : Worker α :=
  match worker.current, worker.queue with
  | none, command :: rest => seat { worker with current := some command, queue := rest }
  | _, _ => worker

def perform (worker : Worker α) : Command → Worker α
  | .frame frame =>
    let (pipeline, items, result) := worker.pipeline.process frame
    let worker := { worker with pipeline, items := worker.items ++ items }
    match result with
    | .ok report =>
      { worker with
        totals := { worker.totals with
          processed := worker.totals.processed + 1
          detections := worker.totals.detections + report.detections.length } }
    | .error _ =>
      { worker with totals := { worker.totals with skipped := worker.totals.skipped + 1 } }
  | .update ticket className update =>
    let (pipeline, answer) := worker.pipeline.updateClass className update
    { worker with pipeline, replies := worker.replies ++ [⟨ticket, answer⟩] }

def finish (worker : Worker α) : Worker α :=
  match worker.current with
  | some command => { worker.perform command with current := none }
  | none => worker

def runNext (worker : Worker α) : Worker α := worker.takeUp.finish

def runMany : Nat → Worker α → Worker α
  | 0, worker => worker
  | n + 1, worker => runMany n worker.runNext

/-- Goes on until nobody stands in line, and no further. -/
def admitAll (worker : Worker α) : Worker α :=
  let seated := worker.seat
  if seated.line.isEmpty then seated else runMany seated.line.length seated.finish

/-- Carries out everything that has been handed in. -/
def drain (worker : Worker α) : Worker α :=
  runMany (worker.queue.length + worker.line.length) worker.seat.finish

end Worker

end ObjectTracking
