import FlowObserver.Agent.LogFilter
import FlowObserver.Agent.Tasks
import FlowObserver.Ingest.Session
import FlowObserver.Json.Reader
import FlowObserver.Link.Controller
import FlowObserver.Link.Host
import FlowObserver.Main
import FlowObserver.Packet.Walk
import FlowObserver.Proofs.Packet.Layout
import FlowObserver.Proofs.Workload.Ownership
import FlowObserver.ServiceMap.Task
import FlowObserver.Telemetry.Endpoint
import FlowObserver.View
import FlowObserver.Workload.Watcher
import FlowObserver.Proofs.Hub.Changes
import FlowObserver.Proofs.Hub.Course
import FlowObserver.Proofs.Hub.Accounting
import FlowObserver.Proofs.Link.Calls
import FlowObserver.Proofs.Ingest.Course
import FlowObserver.Proofs.Link.Filters
import FlowObserver.Proofs.Ingest.Accounting
import FlowObserver.Proofs.Ingest.Offers
import FlowObserver.Proofs.Ingest.Session
import FlowObserver.Proofs.Ingest.Delays
import FlowObserver.Proofs.Ingest.Schedule
import FlowObserver.Proofs.Link.Halves
import FlowObserver.Proofs.Link.Following
import FlowObserver.Proofs.ServiceMap.Counting
import FlowObserver.Proofs.ServiceMap.Window
import FlowObserver.Proofs.Delivery.Accounting
import FlowObserver.Proofs.Packet.Encapsulation
import FlowObserver.Proofs.Workload.Sessions
import FlowObserver.Proofs.Hub.Isolation
import FlowObserver.Proofs.Hub.Closing
import FlowObserver.Proofs.Workload.Healing
import FlowObserver.Proofs.Packet.Emission
import FlowObserver.Proofs.Packet.Truncation
import FlowObserver.Proofs.Packet.Extent
import FlowObserver.Proofs.ServiceMap.AnyOrder
import FlowObserver.Proofs.ServiceMap.Collecting
import FlowObserver.Proofs.Ingest.Losses
import FlowObserver.Proofs.Workload.Rebuilding
import FlowObserver.Proofs.Link.Selection
import FlowObserver.Proofs.ServiceMap.Keeping
import FlowObserver.Proofs.Link.Splitting
import FlowObserver.Proofs.Service.Streams
import FlowObserver.Proofs.Tasks.Accounting
import FlowObserver.Proofs.Packet.Dispatch
import FlowObserver.Proofs.Settings.Durations
