import ConcOs.Rust.Result
import ConcOs.Rust.Scalar
import ConcOs.Rust.Slice
import ConcOs.Rust.Bytes
import ConcOs.Rust.OnesComplement
import ConcOs.Rust.Run
import ConcOs.Rust.Bitmap
import ConcOs.Rust.BlockStream
import ConcOs.Rust.ShiftXor
import ConcOs.Rust.Terminal
import ConcOs.Rust.BTreeMap
import ConcOs.Rust.ArrayQueue
import ConcOs.Net.Checksum
import ConcOs.Net.Corruption
import ConcOs.Net.Address
import ConcOs.Net.Ipv4
import ConcOs.Net.Ipv4.Parse
import ConcOs.Net.Ipv4.Serialize
import ConcOs.Net.Ipv4.Reencode
import ConcOs.Net.Ipv4.Corruption
import ConcOs.Net.Udp
import ConcOs.Net.Udp.Serialize
import ConcOs.Net.Udp.Reencode
import ConcOs.Net.Udp.Corruption
import ConcOs.Net.Checksum.Callers
import ConcOs.Net.Arp
import ConcOs.Net.Arp.Parse
import ConcOs.Net.Arp.Cache
import ConcOs.Net.Arp.Bounds
import ConcOs.Net.Ethernet
import ConcOs.Net.Ethernet.Parse
import ConcOs.Net.Dhcp
import ConcOs.Net.Dhcp.Options
import ConcOs.Net.Dhcp.Parse
import ConcOs.Net.Dhcp.Reply
import ConcOs.Net.Dhcp.Build
import ConcOs.Net.Dhcp.Request
import ConcOs.Kernel.Handler
import ConcOs.Kernel.Handler.Checksum
import ConcOs.Kernel.Handler.Effects
import ConcOs.Kernel.Handler.Icmp
import ConcOs.Kernel.Handler.Wire
import ConcOs.Kernel.Handler.Receive
import ConcOs.Kernel.Handler.Exchange
import ConcOs.Kernel.Handler.Lease
import ConcOs.Kernel.Handler.Transmit
import ConcOs.Kernel.Handler.Resolve
import ConcOs.Kernel.Handler.Deliver
import ConcOs.Kernel.Mutex
import ConcOs.Kernel.Mutex.Interrupts
import ConcOs.Kernel.Rng
import ConcOs.Kernel.Rng.KeyStream
import ConcOs.Kernel.Rng.Xorshift
import ConcOs.Kernel.Rng.Entropy
import ConcOs.Rust.Page
import ConcOs.Kernel.Vga
import ConcOs.Kernel.Pci
import ConcOs.Kernel.Pci.Probe
import ConcOs.Kernel.Ppa
import ConcOs.Kernel.Ppa.Search
import ConcOs.Kernel.Ppa.Ownership
import ConcOs.Kernel.Ppa.New
import ConcOs.Kernel.Time
import ConcOs.Kernel.Time.Sleepers
import ConcOs.Kernel.Time.Deadline
import ConcOs.Kernel.Time.NextDeadline
import ConcOs.Kernel.Executor
import ConcOs.Kernel.Executor.Wakeup
import ConcOs.Kernel.Stream
import ConcOs.Kernel.Stream.Delivery
import ConcOs.Kernel.Stream.Feed
import ConcOs.Kernel.Serial
import ConcOs.Kernel.Serial.Editor
import ConcOs.Kernel.Serial.Session
import ConcOs.Kernel.Serial.Console
import ConcOs.Kernel.Main
import ConcOs.Kernel.Main.Flood
import ConcOs.Kernel.Main.Refinement
import ConcOs.Kernel.Main.Awake
import ConcOs.Kernel.Handler.Dispatch
import ConcOs.Kernel.Link
import ConcOs.Kernel.Link.Agreement
import ConcOs.Kernel.Link.Traffic
import ConcOs.Rust.Memory
import ConcOs.Kernel.Hal
import ConcOs.Kernel.Hal.Placement
import ConcOs.Kernel.Hal.Isolation
import ConcOs.Kernel.Network
import ConcOs.Kernel.Network.Pipeline
import ConcOs.Kernel.Network.Client
