import QuicVpn.Lib.Exec
import QuicVpn.Lib.History
import QuicVpn.Lib.Mutex
import QuicVpn.Lib.Threads
import QuicVpn.Lib.Chain
import QuicVpn.Lib.Ring
import QuicVpn.Lib.Lease
import QuicVpn.Lib.Custody
import QuicVpn.Lib.Blocks
import QuicVpn.Lib.Layout
import QuicVpn.Lib.Attempt
import QuicVpn.Lib.Cycle
import QuicVpn.Lib.Reads
import QuicVpn.Lib.CText
import QuicVpn.Lib.Nft
import QuicVpn.Lib.Word
import QuicVpn.Common.Basic
import QuicVpn.Common.InAddr
import QuicVpn.Common.Tun
import QuicVpn.Common.TunFlags
import QuicVpn.Common.TunAddr
import QuicVpn.Common.TunFd
import QuicVpn.Common.StateSync
import QuicVpn.Common.StateSyncSys
import QuicVpn.Common.TimedWait
import QuicVpn.Common.Pool
import QuicVpn.Common.PoolSys
import QuicVpn.Common.PoolLife
import QuicVpn.Common.PoolWake
import QuicVpn.Common.Queue
import QuicVpn.Common.QueueSys
import QuicVpn.Common.LfQueue
import QuicVpn.Common.LfQueueSys
import QuicVpn.Common.LfPool
import QuicVpn.Common.LfPoolSys
import QuicVpn.Common.Netlink
import QuicVpn.Common.NetlinkRoute
import QuicVpn.Common.NetlinkDump
import QuicVpn.Common.NetlinkAddr
import QuicVpn.Common.Wan
import QuicVpn.Common.WanMonitor
import QuicVpn.Common.NetlinkBounds
import QuicVpn.Common.Netmask
import QuicVpn.Common.Cidr
import QuicVpn.Common.Rules
import QuicVpn.Common.BlockSize
import QuicVpn.Common.Deadline
import QuicVpn.Common.CondSync
import QuicVpn.Common.CondSyncSys
import QuicVpn.Common.CntSync
import QuicVpn.Packet.Buffers
import QuicVpn.Packet.Ledger
import QuicVpn.Packet.Flow
import QuicVpn.Packet.Tunnel
import QuicVpn.Packet.RecvLoop
import QuicVpn.Packet.RecvServe
import QuicVpn.Packet.SendLoop
import QuicVpn.Stream.Receive
import QuicVpn.Stream.Machine
import QuicVpn.Stream.Gather
import QuicVpn.Stream.SendHeap
import QuicVpn.Stream.Frame
import QuicVpn.Stream.Reassembly
import QuicVpn.Packet.Inspect
import QuicVpn.Client.Start
import QuicVpn.Client.Close
import QuicVpn.Client.Send
import QuicVpn.Client.Ctrl
import QuicVpn.Client.Config
import QuicVpn.Client.Teardown
import QuicVpn.Client.Release
import QuicVpn.Client.App
import QuicVpn.Client.AppStop
import QuicVpn.Client.Lifecycle
import QuicVpn.Client.Headless
import QuicVpn.Server.IpPool
import QuicVpn.Server.RoundRobin
import QuicVpn.Server.Capacity
import QuicVpn.Server.Lookup
import QuicVpn.Server.Client
import QuicVpn.Server.Ctrl
import QuicVpn.Server.ClientList
import QuicVpn.Server.Conn
import QuicVpn.Server.Addresses
import QuicVpn.Server.Uid
import QuicVpn.Server.Answers
import QuicVpn.Server.Handshake
import QuicVpn.Server.Handles
import QuicVpn.Server.Disconnect
import QuicVpn.Server.Handlers
import QuicVpn.Server.Deliver
import QuicVpn.Server.Routing
import QuicVpn.Server.Start
import QuicVpn.Server.StartUp
import QuicVpn.Server.Teardown
