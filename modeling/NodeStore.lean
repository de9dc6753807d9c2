import NodeStore.Episode.Scripted
import NodeStore.Literal
import NodeStore.Proofs.Frame.Frozen
import NodeStore.Proofs.Frame.TimeTravel
import NodeStore.Proofs.Parity
import NodeStore.Proofs.Store.CaptureRestore
import NodeStore.Proofs.Frame.Rebuild
import NodeStore.Proofs.Frame.Decode
import NodeStore.Proofs.Episode.Basic
import NodeStore.Proofs.Episode.Sealed
import NodeStore.Proofs.Episode.Repeat
import NodeStore.Proofs.Builder.Declarations
import NodeStore.Proofs.Frame.AsDeclared
import NodeStore.Proofs.Frame.Typed
import NodeStore.Proofs.Frame.Chosen
import NodeStore.Proofs.Frame.Fault
import NodeStore.Proofs.Conversion
import NodeStore.Proofs.Store.Fault
import NodeStore.Proofs.Frame.Gate
import NodeStore.Proofs.Image.Tiling
import NodeStore.Proofs.Registry
import NodeStore.Proofs.Memory
import NodeStore.Proofs.Frame.Memory
import NodeStore.Proofs.Action.Plan
import NodeStore.Proofs.Episode.Order
import NodeStore.Proofs.Image.Pushes
import NodeStore.Proofs.InstanceSet.FiniteSet
import NodeStore.Proofs.Frame.Ways
import NodeStore.Proofs.Frame.Keyed
import NodeStore.Proofs.Builder.Sizes
import NodeStore.Proofs.Store.Lossless
import NodeStore.Proofs.Workload.SupplyChain
