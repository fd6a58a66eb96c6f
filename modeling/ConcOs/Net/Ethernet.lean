import ConcOs.Net.Arp
import ConcOs.Net.Ipv4

open rust Result
open conc_os_net.arp conc_os_net.ipv4

namespace conc_os_net.ethernet

inductive EtherType where
  | IPV4
  | ARP
deriving DecidableEq

/-- `ethertype as u16`. -/
def EtherType.as_u16 : EtherType → UInt16
  | .IPV4 => 0x0800
  | .ARP => 0x0806

inductive EthernetFrame where
  | Arp (packet : ArpPacket)
  | Ipv4 (packet : Ipv4Packet)
  | Unknown (ethertype : UInt16) (packet : Slice UInt8)
deriving DecidableEq

inductive EthernetError where
  | Ipv4Err (error : Ipv4Error)
  | ArpError (error : ArpError)
  | TooShort
deriving DecidableEq

def EthernetFrame.new (packet : Slice UInt8) : Result (Except EthernetError EthernetFrame) := do
  if packet.len < 14 then return .error .TooShort
  let ethertype := U16.from_be_bytes (← packet.index 12) (← packet.index 13)
  if ethertype = 0x0806 then
    match ← ArpPacket.from_slice (← packet.range_from 14) with
    | .ok arp => return .ok (.Arp arp)
    | .error e => return .error (.ArpError e)
  else if ethertype = 0x0800 then
    match ← Ipv4Packet.from_packet (← packet.range_from 14) with
    | .ok ipv4 => return .ok (.Ipv4 ipv4)
    | .error e => return .error (.Ipv4Err e)
  else return .ok (.Unknown ethertype packet)

end conc_os_net.ethernet
