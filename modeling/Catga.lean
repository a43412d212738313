import Catga.Behaviors.AutoBatching
import Catga.Behaviors.MutualExclusion
import Catga.Codec.Dates
import Catga.Codec.Decoding
import Catga.Codec.RoundTrip
import Catga.Codec.Shape
import Catga.Dsl.Frame
import Catga.Dsl.ProgressCodec
import Catga.Dsl.StaleLevel
import Catga.Flow.ChildLaunches
import Catga.Flow.ChildReports
import Catga.Flow.ContinuationCodec
import Catga.Flow.ExecutorAgreement
import Catga.Flow.Liveness
import Catga.Flow.MemoryFlows
import Catga.Flow.Ownership
import Catga.Flow.Reconcile
import Catga.Flow.SqlTime
import Catga.Flow.StateMachine
import Catga.Flow.Wakeup
import Catga.Memory.InboxFencing
import Catga.Nats.EventStore
import Catga.Nats.Subscriptions
import Catga.Projection.Aggregate
import Catga.Projection.CatchUp
import Catga.Projection.EventStore
import Catga.Projection.Upgrades
import Catga.Raft.Builder
import Catga.Raft.Companion
import Catga.Raft.CoreImage
import Catga.Raft.Expiry
import Catga.Raft.Leadership
import Catga.Raft.ProposeWait
import Catga.Raft.Replay
import Catga.Raft.Shutdown
import Catga.Raft.StorageRefinement
import Catga.Resilience.Admission
import Catga.Resilience.HalfOpen
import Catga.Resilience.Opening
