import Contra.Foundation.LittleEndian
import Contra.Foundation.CheckedMemory
import Contra.Foundation.FileStream
import Contra.Foundation.GrowingFile
import Contra.Foundation.PiecewiseWrites
import Contra.Foundation.Transition
import Contra.Foundation.FifoNetwork
import Contra.Foundation.NamedObjects
import Contra.Foundation.CheckThenCreate
import Contra.Foundation.Allocation
import Contra.Foundation.Vec
import Contra.Foundation.Tally
import Contra.Packet
import Contra.PacketCodec
import Contra.Calls
import Contra.FileTransport
import Contra.FileFrames
import Contra.FileTermination
import Contra.FileDelivery
import Contra.FileGrammar
import Contra.FileTruncation
import Contra.FileInterleaving
import Contra.FileSenders
import Contra.FileFailedOpens
import Contra.ZmqTransport
import Contra.ZmqDelivery
import Contra.ZmqProgress
import Contra.UntrustedInput
import Contra.SharedMemoryTransport
import Contra.SharedMemoryLifecycle
import Contra.SegmentGenerations
import Contra.Interchange
import Contra.SharedMemorySteps
import Contra.MutualExclusion
import Contra.InterleavedDelivery
import Contra.ReferenceCounting
import Contra.EpochQueues
import Contra.Relay
import Contra.DemoApps
import Contra.FirstAttachment
import Contra.SharedMemoryAllocation
import Contra.SharedMemoryExhaustion
