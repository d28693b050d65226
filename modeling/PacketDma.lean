import PacketDma.Hexadecimal
import PacketDma.LittleEndian
import PacketDma.Memory.Block
import PacketDma.Memory.Fault
import PacketDma.Memory.Dense
import PacketDma.Memory.Sparse
import PacketDma.Memory.Basic
import PacketDma.Memory.Aperture
import PacketDma.Fault
import PacketDma.Interrupt
import PacketDma.AddressTable
import PacketDma.Channel
import PacketDma.Frame.Basic
import PacketDma.Frame.CheckSequence
import PacketDma.Timestamp.Event
import PacketDma.Timestamp.Clock
import PacketDma.Settings.Basic
import PacketDma.Settings.Text
import PacketDma.Descriptor.Slot
import PacketDma.Descriptor.Transmit
import PacketDma.Descriptor.Receive
import PacketDma.Chain.Fill
import PacketDma.Chain.Gather
import PacketDma.Transport.FrameQueue
import PacketDma.Transport.Link
import PacketDma.Transport.Wrapped
import PacketDma.Chain.Report
import PacketDma.Register.Map
import PacketDma.Engine.Intake
import PacketDma.Engine.Basic
import PacketDma.Engine.Receive
import PacketDma.Engine.Transmit
import PacketDma.Engine.Registers
import PacketDma.Engine.Bus
import PacketDma.Engine.Operation
import PacketDma.Transport.Pump
import PacketDma.Transport.Session
import PacketDma.Proofs.ByteView
import PacketDma.Proofs.SlotView
import PacketDma.Proofs.FillWalk
import PacketDma.Proofs.WalkSequence
import PacketDma.Proofs.FillSpecification
import PacketDma.Proofs.GatherSpecification
import PacketDma.Proofs.FillEffect
import PacketDma.Proofs.FrameAccounts
import PacketDma.Proofs.MemoryRefinement
import PacketDma.Proofs.DescriptorCodec
import PacketDma.Proofs.GatherWalk
import PacketDma.Proofs.Drain
import PacketDma.Proofs.TransmitEffect
import PacketDma.Proofs.TransmitRejection
import PacketDma.Proofs.ReceiveOutcome
import PacketDma.Proofs.TransmitOutcome
import PacketDma.Proofs.RoundTrip
import PacketDma.Proofs.Confinement
import PacketDma.Proofs.Batching
import PacketDma.Proofs.RingPlan
import PacketDma.Proofs.RingQueue
import PacketDma.Proofs.RingInvariant
import PacketDma.Proofs.RingProtocol
import PacketDma.Proofs.Reachable
import PacketDma.Proofs.Actions
import PacketDma.Proofs.Consistency
import PacketDma.Proofs.EgressAccounts
import PacketDma.Proofs.EventCodec
import PacketDma.Proofs.TimestampLog
import PacketDma.Proofs.PumpAccounts
import PacketDma.Proofs.Outputs
import PacketDma.Proofs.PumpBudgets
import PacketDma.Proofs.ReadyPrefix
import PacketDma.Proofs.QueueHistory
import PacketDma.Proofs.EgressDelivery
import PacketDma.Proofs.MemoryShape
import PacketDma.Proofs.Sessions
import PacketDma.Proofs.FullReset
import PacketDma.Proofs.ChannelHistory
import PacketDma.Proofs.TablePart
import PacketDma.Proofs.TableIsolation
import PacketDma.Proofs.CheckedWalks
import PacketDma.Proofs.Counters
import PacketDma.Proofs.CheckedTransfers
import PacketDma.Proofs.CheckedRegisters
import PacketDma.Proofs.CheckedSessions
import PacketDma.Proofs.Lanes
import PacketDma.Proofs.NarrowReads
import PacketDma.Proofs.RegisterHistory
import PacketDma.Proofs.RegisterReadBack
import PacketDma.Proofs.FailureStatus
import PacketDma.Proofs.TableHistory
import PacketDma.Proofs.DescriptorRewriting
import PacketDma.Proofs.CheckSequencePaths
import PacketDma.Proofs.DisjointWrites
import PacketDma.Proofs.ReceiveOrder
import PacketDma.Proofs.RamViews
import PacketDma.Proofs.CheckSequenceResidue
import PacketDma.Proofs.ChunkAllocation
import PacketDma.Proofs.ApertureAccesses
import PacketDma.Proofs.SettingsAcceptance
