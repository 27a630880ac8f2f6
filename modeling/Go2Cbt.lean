import Go2Cbt.Lib.LittleEndian
import Go2Cbt.Lib.BitWords
import Go2Cbt.Lib.Image
import Go2Cbt.Lib.Transition
import Go2Cbt.Lib.SortedMap
import Go2Cbt.Basic
import Go2Cbt.Driver.Bitmap
import Go2Cbt.Driver.Ioctl
import Go2Cbt.Driver.Write
import Go2Cbt.Client.CbtClient
import Go2Cbt.Client.BlockState
import Go2Cbt.Engine.Cycle
import Go2Cbt.Client.BlockHasher
import Go2Cbt.Engine.Transfer
import Go2Cbt.Client.VolumeMapper
import Go2Cbt.Engine.Incremental
import Go2Cbt.Lib.Framing
import Go2Cbt.Protocol
import Go2Cbt.Server.MessageParser
import Go2Cbt.Server.RingBuffer
import Go2Cbt.Lib.Fifo
import Go2Cbt.Lib.Runs
import Go2Cbt.Cbtctl.DumpBitmap
import Go2Cbt.Server.ByteQueue
import Go2Cbt.Server.BlockProcessor
import Go2Cbt.Server.Handlers
import Go2Cbt.Server.Connection
import Go2Cbt.Client.StateFile
import Go2Cbt.Client.StateRoundTrip
import Go2Cbt.Server.Writes
import Go2Cbt.Server.Retransmission
import Go2Cbt.Server.Service
import Go2Cbt.Server.Answers
import Go2Cbt.Server.Devices
import Go2Cbt.Server.Closing
import Go2Cbt.Lib.Separation
import Go2Cbt.Lib.Descriptors
import Go2Cbt.Lib.Simulation
import Go2Cbt.Server.Lifetime
import Go2Cbt.Client.NetworkClient
import Go2Cbt.Link.Recovery
import Go2Cbt.Engine.Pipeline
import Go2Cbt.Engine.AckMatching
import Go2Cbt.Lib.Held
import Go2Cbt.Engine.Window
import Go2Cbt.Engine.Accounting
import Go2Cbt.Engine.Tally
import Go2Cbt.Engine.Tiling
import Go2Cbt.Link.Peer
import Go2Cbt.Client.StateShape
import Go2Cbt.Client.VersionCount
import Go2Cbt.Client.Resume
import Go2Cbt.Client.Pending
import Go2Cbt.Client.Manifest
import Go2Cbt.Lib.OpenFile
import Go2Cbt.Client.StateSave
import Go2Cbt.Driver.Marking
import Go2Cbt.Driver.Hook
import Go2Cbt.Driver.Interleaving
import Go2Cbt.Driver.Routing
import Go2Cbt.Driver.SetBits
import Go2Cbt.Driver.QueryBuffer
import Go2Cbt.Client.AckRange
import Go2Cbt.Client.Alignment
import Go2Cbt.Client.Comparison
import Go2Cbt.Engine.ListedHashes
import Go2Cbt.Engine.Geometry
import Go2Cbt.Engine.TwoPass
import Go2Cbt.Engine.TransferAccounts
import Go2Cbt.Server.Interest
import Go2Cbt.Server.Isolation
import Go2Cbt.Server.Store
import Go2Cbt.Server.EventLoop
import Go2Cbt.Server.Process
import Go2Cbt.Client.Stream
import Go2Cbt.Link.FullBackup
import Go2Cbt.Link.Completion
import Go2Cbt.Client.ManifestBytes
import Go2Cbt.Client.BlockRecord
import Go2Cbt.Lib.Crc
import Go2Cbt.Client.Checksum
import Go2Cbt.Lib.Deflate
import Go2Cbt.Lib.Zlib
import Go2Cbt.Lib.Inflate
import Go2Cbt.Lib.Cursor
import Go2Cbt.Client.DataCompressor
import Go2Cbt.Lib.Sweep
import Go2Cbt.Client.FreeSpace
import Go2Cbt.Client.DiskScanner
import Go2Cbt.Client.PartitionContent
import Go2Cbt.Client.DiskParser
import Go2Cbt.Link.SnapshotSource
import Go2Cbt.Engine.CleanTransfer
import Go2Cbt.Client.Lifecycle
import Go2Cbt.Engine.Progress
import Go2Cbt.Engine.ConnectionUse
import Go2Cbt.Engine.Run
import Go2Cbt.Engine.Synchronous
import Go2Cbt.Engine.Stepwise
import Go2Cbt.Link.InPlace
import Go2Cbt.Link.Acknowledged
import Go2Cbt.Link.AcknowledgedSync
import Go2Cbt.Link.Written
import Go2Cbt.Link.Provenance
import Go2Cbt.Link.Codec
import Go2Cbt.Link.Wire
import Go2Cbt.Link.OverWire
import Go2Cbt.Link.WireSync
import Go2Cbt.Link.AllDisks
import Go2Cbt.Lib.Confined
import Go2Cbt.Link.Fleet
import Go2Cbt.Client.VssManager
import Go2Cbt.Client.GptEntries
import Go2Cbt.Lib.BlockCopy
import Go2Cbt.Engine.SavedState
import Go2Cbt.Link.Delivery
import Go2Cbt.Link.Convergence
