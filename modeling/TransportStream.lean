import TransportStream.Layout.Packet
import TransportStream.Layout.Pes
import TransportStream.Layout.Tables
import TransportStream.Receiver
import TransportStream.Proofs.Packetizer.Alignment
import TransportStream.Proofs.Packetizer.Chunking
import TransportStream.Proofs.Bits.Decoding
import TransportStream.Proofs.Layout.Writing
import TransportStream.Proofs.Layout.Undoing
import TransportStream.Proofs.Layout.AdaptationField
import TransportStream.Proofs.Layout.Packet
import TransportStream.Proofs.Layout.Tables
import TransportStream.Proofs.Tables.Growth
import TransportStream.Proofs.Reassembly.Cutting
import TransportStream.Proofs.Reassembly.Intact
import TransportStream.Proofs.Reassembly.Loss
import TransportStream.Proofs.Demuxer.Run
import TransportStream.Proofs.Demuxer.Isolation
import TransportStream.Proofs.Demuxer.Counts
import TransportStream.Proofs.Demuxer.Loss
import TransportStream.Proofs.Multiplex.Sending
import TransportStream.Proofs.Multiplex.Tables
import TransportStream.Proofs.Multiplex.Reading
import TransportStream.Proofs.Multiplex.Demultiplexing
import TransportStream.Proofs.Packetizer.Search
import TransportStream.Proofs.Packetizer.Soundness
import TransportStream.Proofs.Packetizer.Recovery
import TransportStream.Proofs.Demuxer.Actions
import TransportStream.Proofs.Demuxer.Gapless
import TransportStream.Proofs.Demuxer.Transparency
import TransportStream.Proofs.Packet.Decoding
import TransportStream.Proofs.Demuxer.Accounting
import TransportStream.Proofs.Tables.Carried
import TransportStream.Proofs.Demuxer.LifeCycle
import TransportStream.Proofs.Demuxer.Association
import TransportStream.Proofs.Machine.Checked
import TransportStream.Proofs.Clock.Times
import TransportStream.Proofs.Machine.Clock
import TransportStream.Proofs.Machine.Cursor
import TransportStream.Proofs.Machine.Simulation
import TransportStream.Proofs.Machine.Reading
import TransportStream.Proofs.Machine.Packet
import TransportStream.Proofs.Machine.Demuxer
import TransportStream.Proofs.Machine.Packetizer
import TransportStream.Proofs.Machine.Pes
import TransportStream.Proofs.Machine.Session
import TransportStream.Proofs.Packetizer.Reports
import TransportStream.Proofs.Packetizer.Window
import TransportStream.Proofs.Bits.Values
import TransportStream.Proofs.Tables.Ranges
import TransportStream.Proofs.Reassembly.Size
import TransportStream.Proofs.Demuxer.Bounds
import TransportStream.Proofs.Layout.Spelling
import TransportStream.Proofs.Bits.Bytewise
import TransportStream.Proofs.Tables.Places
import TransportStream.Proofs.Tables.MapForm
import TransportStream.Proofs.Bits.Extent
import TransportStream.Proofs.Tables.AssociationForm
import TransportStream.Proofs.Pes.Acceptance
import TransportStream.Proofs.Layout.Pes
import TransportStream.Proofs.Packet.AdaptationForm
import TransportStream.Proofs.Packet.Acceptance
import TransportStream.Proofs.Bits.Framing
import TransportStream.Proofs.Tables.Framing
import TransportStream.Proofs.Demuxer.Sections
import TransportStream.Proofs.Demuxer.Reset
import TransportStream.Proofs.Tables.Listing
import TransportStream.Proofs.Demuxer.ArrivalOrder
import TransportStream.Proofs.Bits.Session
import TransportStream.Proofs.Bits.Unread
import TransportStream.Proofs.Bits.Failure
import TransportStream.Proofs.Machine.BitSession
import TransportStream.Proofs.Clock.Conversion
