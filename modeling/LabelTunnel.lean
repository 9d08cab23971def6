import LabelTunnel.Main
import LabelTunnel.Proofs.Packet.Wire
import LabelTunnel.Proofs.Traffic.Plan
import LabelTunnel.Proofs.Emission.Order
import LabelTunnel.Proofs.Emission.Calls
import LabelTunnel.Proofs.Emission.Sweep
import LabelTunnel.Proofs.Emission.Stride
import LabelTunnel.Proofs.Emission.Clock
import LabelTunnel.Proofs.Emission.Counters
import LabelTunnel.Proofs.Emission.Schedule
import LabelTunnel.Proofs.Emission.Settlement
import LabelTunnel.Proofs.Emission.Bound
import LabelTunnel.Proofs.Emission.Timing
import LabelTunnel.Proofs.Packet.Footprint
import LabelTunnel.Proofs.Emission.Content
import LabelTunnel.Proofs.Traffic.Limits
import LabelTunnel.Proofs.Guarded
import LabelTunnel.Proofs.Packet.Guarded
import LabelTunnel.Proofs.Packet.Acceptance
import LabelTunnel.Proofs.Packet.Relevance
import LabelTunnel.Proofs.Command.Output
import LabelTunnel.Proofs.Command.Choices
import LabelTunnel.Proofs.Command.Spelling
import LabelTunnel.Proofs.Command.Expression
import LabelTunnel.Proofs.Command.Overlay
import LabelTunnel.Proofs.Command.Usage
import LabelTunnel.Proofs.Command.Conflict
import LabelTunnel.Proofs.Command.Record
import LabelTunnel.Proofs.Checksum.Accumulation
import LabelTunnel.Proofs.Checksum.Detection
import LabelTunnel.Proofs.Packet.TunnelChecksum
import LabelTunnel.Proofs.Checksum.Rearrangement
import LabelTunnel.Proofs.Layer.RoundTrip
import LabelTunnel.Proofs.Checksum.Padding
import LabelTunnel.Proofs.Layer.Stack
import LabelTunnel.Proofs.Packet.Padding
import LabelTunnel.Proofs.Traffic.Cidr
import LabelTunnel.Proofs.Packet.Summary
import LabelTunnel.Proofs.Packet.Draft
import LabelTunnel.Proofs.Packet.Limits
import LabelTunnel.Proofs.Traffic.Flow
import LabelTunnel.Proofs.Traffic.Conditions
import LabelTunnel.Proofs.Emission.Account
import LabelTunnel.Proofs.Emission.Looks
