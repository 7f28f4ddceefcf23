import AvMesh.Relay.Tombstones
import AvMesh.Telemetry.Replay
import AvMesh.LiveCache.Indexed
import AvMesh.LiveCache.Intact
import AvMesh.Failover.Agreement
import AvMesh.Failover.PromotionRace
import AvMesh.Relay.Accounting
import AvMesh.Talkback.Playout
import AvMesh.UdpFec.Completed
import AvMesh.Subscribe.OneConnection
import AvMesh.Subscribe.Staleness
import AvMesh.Edge.Sessions
import AvMesh.Edge.Ceiling
import AvMesh.Replication.Order
import AvMesh.LiveCache.Segments
import AvMesh.LiveCache.MediaSequence
import AvMesh.LiveCache.Reload
import AvMesh.LiveCache.Epochs
import AvMesh.LiveCache.Locks
import AvMesh.LiveCache.LateReaders
import AvMesh.LiveCache.Coherence
import AvMesh.Relay.AudioEpochs
import AvMesh.Subscribe.Catalog
import AvMesh.Telemetry.Aggregator
import AvMesh.Control.Log
import AvMesh.UdpFec.Isolation
import AvMesh.Talkback.Window
import AvMesh.Talkback.Oldest
import AvMesh.UdpFec.Gaps
import AvMesh.Failover.WarmGauges
import AvMesh.Edge.Decisions
import AvMesh.Subscribe.Delivery
import AvMesh.LiveCache.Retention
import AvMesh.LiveCache.Redelivery
import AvMesh.LiveCache.Freshness
import AvMesh.LiveCache.TailClient
import AvMesh.LiveCache.Timing
import AvMesh.UdpFec.HalfRange
import AvMesh.Edge.RollingWindow
import AvMesh.LiveCache.SoundkitBundle
import AvMesh.LiveCache.ByteStream
import AvMesh.LiveCache.Codecs
import AvMesh.Subscribe.Capacity
import AvMesh.Relay.Configured
import AvMesh.Telemetry.Percentile
import AvMesh.Edge.PlaybackSession
import AvMesh.Telemetry.LatestQueue
import AvMesh.Telemetry.Pacer
import AvMesh.Replication.Demand
import AvMesh.Edge.LivePaths
import AvMesh.Lib.SortedRuns
import AvMesh.Control.Mesh
import AvMesh.Lib.Parts
import AvMesh.Ingest.Node
import AvMesh.Ingest.Evidence
import AvMesh.Lib.Tasks
import AvMesh.Failover.Forwarder
import AvMesh.Lib.Wrapping
import AvMesh.Failover.ForwarderBooks
import AvMesh.Telemetry.Outbound
import AvMesh.Telemetry.Rounds
import AvMesh.Telemetry.EndToEnd
import AvMesh.Edge.GatewayRuns
