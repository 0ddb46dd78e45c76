import SwarmRuntime.Lib.Accumulate
import SwarmRuntime.Lib.Admission
import SwarmRuntime.Lib.Counter
import SwarmRuntime.Lib.Decimal
import SwarmRuntime.Lib.Delimited
import SwarmRuntime.Lib.EtagStore
import SwarmRuntime.Lib.FixedWindow
import SwarmRuntime.Lib.Hex
import SwarmRuntime.Lib.Ieee
import SwarmRuntime.Lib.Interaction
import SwarmRuntime.Lib.Layout
import SwarmRuntime.Lib.Linearize
import SwarmRuntime.Lib.Loop
import SwarmRuntime.Lib.LostReply
import SwarmRuntime.Lib.Pool
import SwarmRuntime.Lib.Projection
import SwarmRuntime.Lib.Rounding
import SwarmRuntime.Lib.Runs
import SwarmRuntime.Lib.Sha256
import SwarmRuntime.Lib.Split
import SwarmRuntime.Lib.Wire
import SwarmRuntime.State.Codec
import SwarmRuntime.State.Encryption
import SwarmRuntime.State.Freeze
import SwarmRuntime.State.Hydrate
import SwarmRuntime.State.Keys
import SwarmRuntime.State.LanceSchema
import SwarmRuntime.State.LossySwarm
import SwarmRuntime.State.Migrations
import SwarmRuntime.State.Owner
import SwarmRuntime.State.Proto
import SwarmRuntime.State.RecoveringOwner
import SwarmRuntime.State.Store
import SwarmRuntime.State.Swarm
import SwarmRuntime.Inference.AtomicBudget
import SwarmRuntime.Inference.Budget
import SwarmRuntime.Inference.Metrics
import SwarmRuntime.Inference.Namespace
import SwarmRuntime.Runtime.Backpressure
import SwarmRuntime.Proofs.Activation
import SwarmRuntime.Proofs.Alone
import SwarmRuntime.Proofs.AtomicBudget
import SwarmRuntime.Proofs.Backpressure
import SwarmRuntime.Proofs.Bootstrap
import SwarmRuntime.Proofs.Budget
import SwarmRuntime.Proofs.Committed
import SwarmRuntime.Proofs.CompareAndSwap
import SwarmRuntime.Proofs.Conservation
import SwarmRuntime.Proofs.Cycles
import SwarmRuntime.Proofs.Digest
import SwarmRuntime.Proofs.Drift
import SwarmRuntime.Proofs.Encryption
import SwarmRuntime.Proofs.Finishing
import SwarmRuntime.Proofs.Freeze
import SwarmRuntime.Proofs.HourlyLimit
import SwarmRuntime.Proofs.Hydrate
import SwarmRuntime.Proofs.Identifiers
import SwarmRuntime.Proofs.Isolation
import SwarmRuntime.Proofs.Linearizable
import SwarmRuntime.Proofs.LossyProgress
import SwarmRuntime.Proofs.LostReplies
import SwarmRuntime.Proofs.MatchedPair
import SwarmRuntime.Proofs.Metrics
import SwarmRuntime.Proofs.Migrations
import SwarmRuntime.Proofs.Namespace
import SwarmRuntime.Proofs.Noninterference
import SwarmRuntime.Proofs.Overspend
import SwarmRuntime.Proofs.Phases
import SwarmRuntime.Proofs.Progress
import SwarmRuntime.Proofs.RecoveringHydrate
import SwarmRuntime.Proofs.Recovery
import SwarmRuntime.Proofs.RoundTrip
import SwarmRuntime.Proofs.Schema
import SwarmRuntime.Proofs.Sequence
import SwarmRuntime.Proofs.Snapshot
import SwarmRuntime.Proofs.SoleOwner
import SwarmRuntime.Proofs.StaleActive
import SwarmRuntime.Proofs.Swarm
import SwarmRuntime.Proofs.Synapse
import SwarmRuntime.Proofs.SynapseRounding
import SwarmRuntime.Proofs.Tags
import SwarmRuntime.Proofs.Thresholds
import SwarmRuntime.Proofs.Upgrade
import SwarmRuntime.Proofs.VersionGap
import SwarmRuntime.Proofs.WrapAround
