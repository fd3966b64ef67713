import ObjectTracking.Worker.Basic

/-! # The dispatcher

One worker per camera. Frames go to the worker of the camera they come from, updates to the worker
of the camera they name; what happens on one camera does not concern the others. -/

namespace ObjectTracking

/-- The workers, in the order in which they were started, no two for one camera. -/
structure Dispatcher (α : Type) where
  workers : List (Worker α)
  nextTicket : Nat

namespace Dispatcher
variable {α : Type} [Scalar α]

/-- How many commands may wait for a worker if nothing else is asked for. -/
def usualPlaces : Nat := 1

omit [Scalar α] in
abbrev cameraOf (worker : Worker α) : Camera := worker.pipeline.camera

omit [Scalar α] in
/-- Starts a worker for each pipeline. A camera cannot have two. -/
def spawn (places : Nat) : List (Pipeline α) → List (Worker α) → Except Fault (Dispatcher α)
  | [], before => .ok ⟨before.reverse, 0⟩
  | pipeline :: rest, before =>
    if before.any fun worker => cameraOf worker = pipeline.camera then
      .error (.settings (.secondPipeline pipeline.camera))
    else spawn places rest (.start pipeline places :: before)

def cameras (d : Dispatcher α) : List Camera := d.workers.map cameraOf

def worker? (d : Dispatcher α) (camera : Camera) : Option (Worker α) :=
  d.workers.find? fun worker => cameraOf worker = camera

def put (d : Dispatcher α) (worker : Worker α) : Dispatcher α :=
  { d with
    workers := d.workers.map fun w => if cameraOf w = cameraOf worker then worker else w }

def find (d : Dispatcher α) (camera : Camera) : Except Fault (Worker α) :=
  match d.worker? camera with
  | some worker => .ok worker
  | none => .error (.noWorker camera)

/-- Hands in a frame and waits for a place. -/
def submit (d : Dispatcher α) (frame : Frame) : Dispatcher α × Except Fault Unit :=
  match d.find frame.camera with
  | .ok worker => (d.put (worker.offer (.frame frame)).admitAll, .ok ())
  | .error fault => (d, .error fault)

/-- Hands in a frame unless its camera is busy; tells whether it was accepted. -/
def trySubmit (d : Dispatcher α) (frame : Frame) : Dispatcher α × Except Fault Bool :=
  match d.find frame.camera with
  | .ok worker =>
    let (worker, accepted) := worker.tryOffer (.frame frame)
    (d.put worker, .ok accepted)
  | .error fault => (d, .error fault)

/-- Changes the switches of a class and waits for the answer, which comes when everything that was
handed in before is done. -/
def updateClass (d : Dispatcher α) (camera : Camera) (className : String) (update : ClassUpdate) :
    Dispatcher α × Except Fault ClassFlags :=
  match d.find camera with
  | .ok worker =>
    let ticket := d.nextTicket
    let worker := (worker.offer (.update ticket className update)).drain
    let answer := (worker.replies.find? fun reply => reply.ticket = ticket).map (·.answer)
    ({ d.put worker with nextTicket := ticket + 1 }, answer.getD (.error (.noWorker camera)))
  | .error fault => (d, .error fault)

/-- Lets the workers finish what has been handed in. -/
def shutdown (d : Dispatcher α) : List (Worker α) := d.workers.map Worker.drain

end Dispatcher

end ObjectTracking
