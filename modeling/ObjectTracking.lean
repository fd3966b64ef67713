import ObjectTracking.Detection.Record
import ObjectTracking.FileTree
import ObjectTracking.Main
import ObjectTracking.Output.Bus
import ObjectTracking.Proofs.Run.Debounce
import ObjectTracking.Proofs.Run.FreshGrids
import ObjectTracking.Proofs.Run.Isolation
import ObjectTracking.Proofs.Run.Memory
import ObjectTracking.Recording
import ObjectTracking.Proofs.Run.Transition
import ObjectTracking.Proofs.Run.Published
import ObjectTracking.Proofs.Run.Refusal
import ObjectTracking.Proofs.Tracking.Separation
import ObjectTracking.Proofs.Worker.Sequential
import ObjectTracking.Proofs.Worker.Dispatch
import ObjectTracking.Proofs.Worker.Calls
import ObjectTracking.Proofs.Run.Accounting
import ObjectTracking.Proofs.Run.Configured
import ObjectTracking.Proofs.Run.Sampled
import ObjectTracking.Proofs.DecisionTree.Walk
import ObjectTracking.Proofs.Worker.Totals
import ObjectTracking.Proofs.Output.Delivery
import ObjectTracking.Proofs.Output.Traffic
import ObjectTracking.Proofs.Sampling.Rotation
import ObjectTracking.Proofs.Tracking.Nearest
import ObjectTracking.Proofs.Run.Disabled
import ObjectTracking.Proofs.Output.Records
import ObjectTracking.Proofs.Run.Masks
import ObjectTracking.Proofs.Number.Exact
import ObjectTracking.Proofs.Run.Lines
import ObjectTracking.Proofs.Tracking.Steady
import ObjectTracking.Proofs.Settings.Sound
import ObjectTracking.Proofs.Run.Turned
import ObjectTracking.Proofs.Recording.Listing
import ObjectTracking.Proofs.Grid.Calls
import ObjectTracking.Proofs.Tracking.Identity
import ObjectTracking.Proofs.Output.Names
