import Ipcf.Framework.Buffer
import Ipcf.Framework.Stuffing
import Ipcf.Framework.Endian
import Ipcf.Crc
import Ipcf.Split.Frame
import Ipcf.Split.Bitmap
import Ipcf.Split.Slice
import Ipcf.Split.Receive
import Ipcf.Split.Endpoint
import Ipcf.Split.Accept
import Ipcf.Framework.Fold
import Ipcf.Split.Run
import Ipcf.Split.Packet
import Ipcf.Split.Patch
import Ipcf.Split.SendInvariant
import Ipcf.Split.Reassembly
import Ipcf.Split.Complete
import Ipcf.Split.ReceiveInvariant
import Ipcf.Split.Watch
import Ipcf.Split.Receives
import Ipcf.Split.Peers
import Ipcf.Split.Network
import Ipcf.Split.Fifo
import Ipcf.Split.Exchange
import Ipcf.Compact.Headers
import Ipcf.Framework.Hmap
import Ipcf.Hash
import Ipcf.Compact.Flow
import Ipcf.Compact.Recv
import Ipcf.Compact.Xmit
import Ipcf.Compact.Plain
import Ipcf.Pipeline
import Ipcf.Framework.Ownership
import Ipcf.Compact.Peer
import Ipcf.Compact.Agreement
import Ipcf.Compact.Idpool
import Ipcf.Compact.Tables
import Ipcf.Compact.Runs
import Ipcf.Compact.Acked
import Ipcf.Compact.Conveyed
import Ipcf.Compact.PktList
import Ipcf.Framework.DoWhile
import Ipcf.Split.Upper
import Ipcf.Split.Acknowledge
import Ipcf.Split.Concurrent
import Ipcf.Compact.Restore
import Ipcf.Compact.RestoreTcp
import Ipcf.Split.Codec
import Ipcf.Split.Reorder
import Ipcf.Split.Holes
import Ipcf.Split.Session
import Ipcf.Split.AckRequest
import Ipcf.Split.History
import Ipcf.Split.Retry
import Ipcf.Split.Spacing
import Ipcf.Compact.Expiry
import Ipcf.Compact.Layout
import Ipcf.Framework.OnesComplement
import Ipcf.Compact.Checksum
import Ipcf.Compact.Bounds
import Ipcf.Split.Damage
import Ipcf.Framework.Census
import Ipcf.Lock
import Ipcf.Framework.Simulation
import Ipcf.Split.Duplex
import Ipcf.Program
import Ipcf.Framework.Shards
import Ipcf.Split.Isolation
import Ipcf.Framework.BitFill
import Ipcf.Lib.HmapHeap
import Ipcf.Lib.HmapOps
import Ipcf.Lib.HmapRuns
import Ipcf.Lib.ListRuns
import Ipcf.Lib.LockOrder
import Ipcf.Threads
import Ipcf.Framework.Lease
import Ipcf.Split.Lifetime
import Ipcf.Split.Silence
import Ipcf.Split.Recovery
import Ipcf.CrcErrors
import Ipcf.Split.Noise
import Ipcf.Split.NoisyNetwork
