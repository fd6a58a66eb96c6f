import ConcOs.Kernel.Handler
import ConcOs.Kernel.Stream.Delivery

open rust Result
open conc_os_net.ethernet
open conc_os.network.handler

namespace conc_os.network.device

/-- `virtio_drivers::transport::InterruptStatus`. -/
structure InterruptStatus where
  QUEUE_INTERRUPT : Bool
  DEVICE_CONFIGURATION_INTERRUPT : Bool
deriving DecidableEq

/-- The driver of `virtio_drivers`, as far as the network task and `virtio_irq` use
it, and what its device may do meanwhile: put a packet into a buffer, or anything
else. -/
class VirtioNetDriver (Driver : Type) (RxBuffer : outParam Type) where
  ack_interrupt : Driver → InterruptStatus × Driver
  /-- `none` is an error -/
  receive : Driver → Option RxBuffer × Driver
  /-- `none` is an error -/
  recycle_rx_buffer : Driver → RxBuffer → Option Driver
  packet : RxBuffer → Slice UInt8
  Device : Driver → Option (Slice UInt8) → Driver → Prop

end conc_os.network.device

namespace conc_os.network.handler

/-- `init_network_interface`, with the random draws of `init_dhcp`. -/
def init_network_interface {Error : Type} (mac : MacAddress) (xid : Except Error UInt32)
    (id : Except Error UInt16) : Result (NetworkInterface × List Frame) := do
  let (result, interface, sent) ← (NetworkInterface.initial mac).init_dhcp xid id
  match result with
  | .ok () => return (interface, sent)
  | .error _ => fail (.expect "dhcp initialized")

end conc_os.network.handler

namespace conc_os.interrupts

open conc_os.network.device conc_os.task.network conc_os.task.stream

/-- `virtio_irq`, with what became of its events. -/
def virtio_irq {Waker Driver RxBuffer : Type} [VirtioNetDriver Driver RxBuffer] (driver : Driver)
    (stream : NetworkStream Waker) :
    List (NetworkEvent × Added × Option Waker) × Driver × NetworkStream Waker :=
  let (status, driver) := VirtioNetDriver.ack_interrupt driver
  let (queue, stream) :=
    if status.QUEUE_INTERRUPT then
      let (result, woken, stream) := add_event stream .Queue
      ([(.Queue, result, woken)], stream)
    else ([], stream)
  let (config, stream) :=
    if status.DEVICE_CONFIGURATION_INTERRUPT then
      let (result, woken, stream) := add_event stream .ConfigChange
      ([(.ConfigChange, result, woken)], stream)
    else ([], stream)
  (queue ++ config, driver, stream)

end conc_os.interrupts

namespace conc_os.task.network

open conc_os.network.device conc_os.interrupts conc_os.task.stream

/-- Where `network_task` is. -/
inductive Stage (RxBuffer : Type) where
  /-- before its first poll -/
  | starting
  /-- in `stream.next()` -/
  | waiting
  /-- at the head of the loop of `handle_queue_interrupt` -/
  | receiving
  /-- before `process_rx` -/
  | holding (packet : RxBuffer)
  /-- before `recycle_rx_buffer` -/
  | recycling (packet : RxBuffer)

/-- The device, the statics that its interrupts share with the network task, and
the task. -/
structure Network (Driver RxBuffer Waker : Type) where
  driver : Driver
  stream : Session NetworkEvent Waker
  interface : NetworkInterface
  stage : Stage RxBuffer

/-- The network when the task is spawned. -/
def Network.boot {Driver RxBuffer Waker : Type} (driver : Driver) (mac : MacAddress) :
    Network Driver RxBuffer Waker :=
  ⟨driver, ⟨.uninit, .idle⟩, .initial mac, .starting⟩

inductive NetworkLabel (Error Waker : Type) where
  | device (packet : Option (Slice UInt8))
  /-- an interrupt, with the events queued before it and what became of its own -/
  | irq (queued : List NetworkEvent) (events : List (NetworkEvent × Added × Option Waker))
  | start (sent : List Frame)
  | poll (label : Label NetworkEvent Waker)
  | receive
  | drained
  | process (id : Except Error UInt16) (packet : Slice UInt8) (sent : List Frame)
  | recycle

/-- What the task does once a poll of its stream has ended in `label`. -/
def Stage.after {Waker RxBuffer : Type} (label : Label NetworkEvent Waker) : Stage RxBuffer :=
  if label.yielded? = some .Queue then .receiving else .waiting

/-- The device does something, an interrupt is handled, or the network task takes a
step. -/
inductive NetworkStep {Error Waker Driver RxBuffer : Type} [VirtioNetDriver Driver RxBuffer] :
    Network Driver RxBuffer Waker → NetworkLabel Error Waker → Network Driver RxBuffer Waker → Prop where
  | device {n : Network Driver RxBuffer Waker} {packet : Option (Slice UInt8)} {driver : Driver}
      (hdevice : VirtioNetDriver.Device n.driver packet driver) :
      NetworkStep n (.device packet) { n with driver := driver }
  | irq {n : Network Driver RxBuffer Waker} {events : List (NetworkEvent × Added × Option Waker)}
      {driver : Driver} {channel : NetworkStream Waker}
      (hcall : virtio_irq n.driver n.stream.channel = (events, driver, channel)) :
      NetworkStep n (.irq n.stream.channel.items events)
        { n with driver := driver, stream.channel := channel }
  | start {n : Network Driver RxBuffer Waker} {channel : NetworkStream Waker} {interface : NetworkInterface}
      {sent : List Frame} {xid : Except Error UInt32} {id : Except Error UInt16} (hstage : n.stage = .starting)
      (hinit : n.stream.channel.init = ok channel)
      (hcall : init_network_interface n.interface.mac xid id = ok (interface, sent)) :
      NetworkStep n (.start sent) ⟨n.driver, ⟨channel, n.stream.control⟩, interface, .waiting⟩
  | poll {n : Network Driver RxBuffer Waker} {label : Label NetworkEvent Waker}
      {stream : Session NetworkEvent Waker} (hstage : n.stage = .waiting) (hpolls : label.Polls)
      (hstep : Step n.stream label stream) :
      NetworkStep n (.poll label) { n with stream := stream, stage := .after label }
  | receive {n : Network Driver RxBuffer Waker} {packet : RxBuffer} {driver : Driver}
      (hstage : n.stage = .receiving) (hcall : VirtioNetDriver.receive n.driver = (some packet, driver)) :
      NetworkStep n .receive { n with driver := driver, stage := .holding packet }
  | drained {n : Network Driver RxBuffer Waker} {driver : Driver} (hstage : n.stage = .receiving)
      (hcall : VirtioNetDriver.receive n.driver = (none, driver)) :
      NetworkStep n .drained { n with driver := driver, stage := .waiting }
  | process {n : Network Driver RxBuffer Waker} {packet : RxBuffer} {id : Except Error UInt16}
      {interface : NetworkInterface} {sent : List Frame} (hstage : n.stage = .holding packet)
      (hcall : n.interface.process_rx id (VirtioNetDriver.packet Driver packet) = ok (interface, sent)) :
      NetworkStep n (.process id (VirtioNetDriver.packet Driver packet) sent)
        { n with interface := interface, stage := .recycling packet }
  | recycle {n : Network Driver RxBuffer Waker} {packet : RxBuffer} {driver : Driver}
      (hstage : n.stage = .recycling packet)
      (hcall : VirtioNetDriver.recycle_rx_buffer n.driver packet = some driver) :
      NetworkStep n .recycle { n with driver := driver, stage := .receiving }

end conc_os.task.network
