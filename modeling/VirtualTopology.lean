import VirtualTopology.Codec.Error
import VirtualTopology.Codec.Report
import VirtualTopology.Demo
import VirtualTopology.Json.Parser
import VirtualTopology.Main
import VirtualTopology.Proofs.Contexts
import VirtualTopology.Proofs.Dealings
import VirtualTopology.Proofs.Delivery
import VirtualTopology.Proofs.Demonstration
import VirtualTopology.Proofs.Discovery
import VirtualTopology.Proofs.Joining
import VirtualTopology.Proofs.Kinds
import VirtualTopology.Proofs.Matching
import VirtualTopology.Proofs.Releasing
import VirtualTopology.Proofs.Reports
import VirtualTopology.Proofs.Returning
import VirtualTopology.Proofs.Separation
import VirtualTopology.Proofs.Settings
import VirtualTopology.Proofs.Sharing
import VirtualTopology.Proofs.Traffic
import VirtualTopology.Session.Run
import VirtualTopology.TraceId
