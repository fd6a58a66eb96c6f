import ConcOs.Kernel.Handler.Wire
import ConcOs.Net.Arp.Cache
import ConcOs.Rust.Run

open rust Result
open conc_os_net
open conc_os_net.arp conc_os_net.ethernet conc_os_net.ipv4

namespace conc_os.network.handler

/-- The traffic of a configured interface. -/
inductive Traffic where
  | send (dst : Ipv4Addr) (packet : Ipv4Packet)
  | arp (packet : ArpPacket)

/-- The record of one operation, with the frames it transmitted. -/
structure Transfer where
  event : Traffic
  before : NetworkInterface
  sent : List Frame
  after : NetworkInterface

def transfer (self : NetworkInterface) (event : Traffic) : Result (Transfer × NetworkInterface) := do
  match event with
  | .send dst packet =>
    let (after, sent) ← self.send_ipv4 dst packet
    return (⟨event, self, sent, after⟩, after)
  | .arp packet =>
    let (after, sent) ← self.handle_arp packet
    return (⟨event, self, sent, after⟩, after)

def isIpv4 (frame : Frame) : Bool := (frame.drop 12).take 2 = [8, 0]

/-- An ARP request for `target`, broadcast over Ethernet. -/
def isRequestFor (target : Ipv4Addr) (frame : Frame) : Bool :=
  frame.take 6 = MacAddress.broadcast.addr.val ∧ (frame.drop 12).take 2 = [8, 6] ∧
    (frame.drop 20).take 2 = [0, 1] ∧ (frame.drop 38).take 4 = target.octets.val

namespace Transfer

/-- The address whose queue an operation is about: the next hop of a packet
sent, or the sender of an ARP packet from another host. -/
def hop (t : Transfer) : Option Ipv4Addr :=
  match t.event with
  | .send dst _ => t.before.next_hop dst
  | .arp packet => if packet.sender_mac ≠ t.before.mac then some packet.sender_addr else none

/-- The serialized packet submitted for next hop `h`. -/
def submission (h : Ipv4Addr) (t : Transfer) : Option (Vec UInt8) :=
  match t.event with
  | .send dst packet =>
    match packet.serialize with
    | ok frame => if t.before.next_hop dst = some h then some frame else none
    | _ => none
  | .arp _ => none

/-- Whether the packet submitted for `h` is dropped: its next hop is not
resolved, and `queue_pending` refuses it. -/
def drops (h : Ipv4Addr) (t : Transfer) : Bool :=
  match t.submission h with
  | some frame => t.before.arp.lookup h = none ∧ (t.before.arp.queue_pending h frame).1 = .Dropped
  | none => false

/-- The hardware address an operation teaches for `h`: that of an ARP packet
with sender address `h` and a MAC other than ours. -/
def teaches (h : Ipv4Addr) (t : Transfer) : Option MacAddress :=
  match t.event with
  | .send _ _ => none
  | .arp packet =>
    if packet.sender_mac ≠ t.before.mac ∧ packet.sender_addr = h then some packet.sender_mac else none

/-- The IPv4 frames transmitted for `h`. -/
def transmits (h : Ipv4Addr) (t : Transfer) : List Frame :=
  if t.hop = some h then t.sent.filter isIpv4 else []

end Transfer

/-- The packets submitted for `h`, without those dropped. -/
def accepted (h : Ipv4Addr) (trace : List Transfer) : List (Vec UInt8) :=
  trace.filterMap fun t => if t.drops h then none else t.submission h

def transmitted (h : Ipv4Addr) (trace : List Transfer) : List Frame := trace.flatMap (Transfer.transmits h)

def requests (h : Ipv4Addr) (trace : List Transfer) : List Frame :=
  (trace.flatMap Transfer.sent).filter (isRequestFor h)

/-- The hardware addresses learned for `h`, oldest first. -/
def learnedMacs (h : Ipv4Addr) (trace : List Transfer) : List MacAddress := trace.filterMap (Transfer.teaches h)

theorem isIpv4_wireFrame (src dst : MacAddress) (payload : List UInt8) :
    isIpv4 (wireFrame src dst .IPV4 payload) = true := by
  rw [isIpv4, drop_wireFrame]
  rfl

theorem isIpv4_wireFrame_arp (src dst : MacAddress) (payload : List UInt8) :
    isIpv4 (wireFrame src dst .ARP payload) = false := by
  rw [isIpv4, drop_wireFrame]
  rfl

theorem isRequestFor_ipv4 (h : Ipv4Addr) (src dst : MacAddress) (payload : List UInt8) :
    isRequestFor h (wireFrame src dst .IPV4 payload) = false := by
  rw [isRequestFor, drop_wireFrame]
  simp [U16.to_be_bytes, EtherType.as_u16]

/-- The fields `isRequestFor` reads in a frame around an ARP packet. -/
theorem isRequestFor_arp (h : Ipv4Addr) (src dst : MacAddress) (operation : ArpOperation)
    (sender_mac : MacAddress) (sender_addr : Ipv4Addr) (target_mac : MacAddress) (target_addr : Ipv4Addr) :
    isRequestFor h (wireFrame src dst .ARP
        (arpPacket operation sender_mac sender_addr target_mac target_addr).serialize.val) = true ↔
      dst = MacAddress.broadcast ∧ operation = .Request ∧ target_addr = h := by
  obtain ⟨a, b, c, d, e, f, hdst⟩ := dst.eq_six
  obtain ⟨a', b', c', d', e', f', hsrc⟩ := src.eq_six
  obtain ⟨s1, s2, s3, s4, s5, s6, hsender⟩ := sender_mac.eq_six
  obtain ⟨t1, t2, t3, t4, t5, t6, htarget⟩ := target_mac.eq_six
  obtain ⟨i1, i2, i3, i4, rfl⟩ := sender_addr.eq_new
  obtain ⟨j1, j2, j3, j4, rfl⟩ := target_addr.eq_new
  have hframe : wireFrame src dst .ARP (arpPacket operation sender_mac (.new i1 i2 i3 i4) target_mac
      (.new j1 j2 j3 j4)).serialize.val = [a, b, c, d, e, f, a', b', c', d', e', f', 8, 6, 0, 1, 8, 0, 6, 4] ++
        U16.to_be_bytes operation.as_u16 ++ [s1, s2, s3, s4, s5, s6, i1, i2, i3, i4, t1, t2, t3, t4, t5, t6,
        j1, j2, j3, j4] ++ List.replicate 18 0 := by
    simp only [wireFrame, ArpPacket.val_serialize, arpPacket, hdst, hsrc, hsender, htarget, Ipv4Addr.octets_new]
    rfl
  have hop : U16.to_be_bytes operation.as_u16 = [0, 1] ↔ operation = .Request := by cases operation <;> decide
  have hmac : [a, b, c, d, e, f] = MacAddress.broadcast.addr.val ↔ dst = MacAddress.broadcast := by
    rw [← hdst]
    exact ⟨MacAddress.ext_val, fun h => by rw [h]⟩
  have haddr : [j1, j2, j3, j4] = h.octets.val ↔ Ipv4Addr.new j1 j2 j3 j4 = h :=
    ⟨fun heq => Ipv4Addr.ext_val heq, fun heq => by rw [← heq]; rfl⟩
  rw [isRequestFor, hframe, decide_eq_true_iff, ← hmac, ← hop, ← haddr]
  simp [U16.to_be_bytes]

/-- Why a packet may be dropped: four frames are parked on its next hop
already, or none is and sixteen other addresses are pending. -/
def Full (cache : ArpCache) (h : Ipv4Addr) : Prop :=
  (∃ queue, cache.entry h = some (.Pending queue) ∧ MAX_PENDING_PER_ADDRESS ≤ queue.length) ∨
    (cache.entry h = none ∧ MAX_PENDING_ADDRESSES ≤ cache.pending_addresses)

/-- What one operation does to the queue of `h`. -/
inductive Effect (mac : MacAddress) (h : Ipv4Addr) (t : Transfer) : Prop where
  | elsewhere (hentry : t.after.arp.entry h = t.before.arp.entry h) (hsubmission : t.submission h = none)
      (htransmits : t.transmits h = []) (hteaches : t.teaches h = none)
      (hrequests : t.sent.filter (isRequestFor h) = [])
  | direct {m : MacAddress} {frame : Vec UInt8} (hentry : t.before.arp.entry h = some (.Resolved m))
      (hafter : t.after.arp.entry h = some (.Resolved m)) (hsubmission : t.submission h = some frame)
      (hdrops : t.drops h = false) (htransmits : t.transmits h = [wireFrame mac m .IPV4 frame.val])
      (hteaches : t.teaches h = none) (hrequests : t.sent.filter (isRequestFor h) = [])
  | opened {frame : Vec UInt8} (hentry : t.before.arp.entry h = none)
      (hafter : t.after.arp.entry h = some (.Pending [frame])) (hsubmission : t.submission h = some frame)
      (hdrops : t.drops h = false) (htransmits : t.transmits h = []) (hteaches : t.teaches h = none)
      (hrequests : (t.sent.filter (isRequestFor h)).length = 1)
  | appended {frame : Vec UInt8} {queue : List (Vec UInt8)}
      (hentry : t.before.arp.entry h = some (.Pending queue)) (hroom : queue.length < MAX_PENDING_PER_ADDRESS)
      (hafter : t.after.arp.entry h = some (.Pending (queue ++ [frame])))
      (hsubmission : t.submission h = some frame) (hdrops : t.drops h = false) (htransmits : t.transmits h = [])
      (hteaches : t.teaches h = none) (hrequests : t.sent.filter (isRequestFor h) = [])
  | dropped (hfull : Full t.before.arp h) (hafter : t.after.arp.entry h = t.before.arp.entry h)
      (hdrops : t.drops h = true) (htransmits : t.transmits h = []) (hteaches : t.teaches h = none)
      (hrequests : t.sent.filter (isRequestFor h) = [])
  | resolved {m : MacAddress} (hafter : t.after.arp.entry h = some (.Resolved m))
      (hsubmission : t.submission h = none)
      (htransmits : t.transmits h = (t.before.arp.parked h).map fun frame => wireFrame mac m .IPV4 frame.val)
      (hteaches : t.teaches h = some m) (hrequests : t.sent.filter (isRequestFor h) = [])

theorem isRequestFor_requestFrame (h : Ipv4Addr) (mac : MacAddress) (ip target : Ipv4Addr) :
    isRequestFor h (requestFrame mac ip target) = true ↔ target = h := by
  rw [requestFrame, isRequestFor_arp]
  simp

theorem filter_requests_arpReplies (h : Ipv4Addr) (self : NetworkInterface) (p : ArpPacket) :
    (self.arpReplies p).filter (isRequestFor h) = [] := by
  unfold NetworkInterface.arpReplies
  split
  · refine List.filter_eq_nil_iff.mpr fun frame hframe => ?_
    rw [List.mem_singleton.mp hframe, isRequestFor_arp]
    simp
  · rfl

theorem filter_ipv4_arpReplies (self : NetworkInterface) (p : ArpPacket) :
    (self.arpReplies p).filter isIpv4 = [] := by
  unfold NetworkInterface.arpReplies
  split
  · simp [isIpv4_wireFrame_arp]
  · rfl

/-- The effect of an ARP packet. -/
theorem effect_arp (h : Ipv4Addr) (self : NetworkInterface) (p : ArpPacket) :
    Effect self.mac h ⟨.arp p, self, (self.learned p).2 ++ self.arpReplies p, (self.learned p).1⟩ := by
  by_cases hmac : p.sender_mac = self.mac
  · refine .elsewhere ?_ rfl ?_ ?_ ?_
    · simp [NetworkInterface.learned, hmac]
    · simp [Transfer.transmits, Transfer.hop, hmac]
    · simp [Transfer.teaches, hmac]
    · simp [NetworkInterface.learned, hmac, filter_requests_arpReplies]
  have hlearned : self.learned p = ({ self with arp := self.arp.put p.sender_addr (.Resolved p.sender_mac) },
      (self.arp.parked p.sender_addr).map fun frame => wireFrame self.mac p.sender_mac .IPV4 frame.val) :=
    if_pos hmac
  have hrequests : ((self.learned p).2 ++ self.arpReplies p).filter (isRequestFor h) = [] := by
    simp [hlearned, filter_requests_arpReplies, List.filter_map, Function.comp_def, isRequestFor_ipv4]
  by_cases haddr : p.sender_addr = h
  · refine .resolved (m := p.sender_mac) ?_ rfl ?_ ?_ hrequests
    · simp [hlearned, ArpCache.entry_put, haddr]
    · simp [Transfer.transmits, Transfer.hop, hmac, haddr, hlearned, filter_ipv4_arpReplies, List.filter_map,
        Function.comp_def, isIpv4_wireFrame]
    · simp [Transfer.teaches, hmac, haddr]
  · refine .elsewhere ?_ rfl ?_ ?_ hrequests
    · simp [hlearned, ArpCache.entry_put, haddr]
    · simp [Transfer.transmits, Transfer.hop, hmac, haddr]
    · simp [Transfer.teaches, haddr]

/-- The effect of submitting a serialized packet to its next hop. -/
theorem effect_send (h ip : Ipv4Addr) {self : NetworkInterface} {dst hop : Ipv4Addr} {packet : Ipv4Packet}
    {frame : Vec UInt8} (hframe : packet.serialize = ok frame) (hhop : self.next_hop dst = some hop) :
    Effect self.mac h ⟨.send dst packet, self, (self.submit ip hop frame).2, (self.submit ip hop frame).1⟩ := by
  by_cases hother : hop = h
  swap
  · refine .elsewhere ?_ ?_ ?_ rfl ?_
    · simp only [NetworkInterface.submit]
      cases self.arp.lookup hop with
      | some mac => rfl
      | none =>
        have hqueue := self.arp.queue_pending_spec hop frame
        dsimp only
        generalize self.arp.queue_pending hop frame = result at hqueue ⊢
        cases hqueue <;> simp [ArpCache.entry_put, hother]
    · simp [Transfer.submission, hframe, hhop, hother]
    · simp [Transfer.transmits, Transfer.hop, hhop, hother]
    · simp only [NetworkInterface.submit]
      cases self.arp.lookup hop with
      | some mac => simp [isRequestFor_ipv4]
      | none =>
        dsimp only
        split
        · refine List.filter_eq_nil_iff.mpr fun frame hframe => ?_
          rw [List.mem_singleton.mp hframe, isRequestFor_requestFrame]
          exact hother
        · rfl
  subst hother
  have hsubmission : ∀ sent after,
    (Transfer.mk (.send dst packet) self sent after).submission hop = some frame := by
    simp [Transfer.submission, hframe, hhop]
  have htransmits : ∀ sent after,
      (Transfer.mk (.send dst packet) self sent after).transmits hop = sent.filter isIpv4 := by
    simp [Transfer.transmits, Transfer.hop, hhop]
  have hdrops : ∀ sent after, (Transfer.mk (.send dst packet) self sent after).drops hop =
      decide (self.arp.lookup hop = none ∧ (self.arp.queue_pending hop frame).1 = .Dropped) := by
    intro sent after
    rw [Transfer.drops, hsubmission]
  cases hlookup : self.arp.lookup hop with
  | some m =>
    have hentry := ArpCache.lookup_eq_some_iff.mp hlookup
    have hsubmit : self.submit ip hop frame = (self, [wireFrame self.mac m .IPV4 frame.val]) := by
      simp only [NetworkInterface.submit, hlookup]
    rw [hsubmit]
    refine .direct hentry hentry (hsubmission _ _) ?_ ?_ rfl ?_
    · rw [hdrops, hlookup]
      simp
    · rw [htransmits]
      simp [isIpv4_wireFrame]
    · simp [isRequestFor_ipv4]
  | none =>
    have hsubmit : self.submit ip hop frame = ({ self with arp := (self.arp.queue_pending hop frame).2 },
        if (self.arp.queue_pending hop frame).1 = .RequestNeeded then [requestFrame self.mac ip hop] else []) := by
      simp only [NetworkInterface.submit, hlookup]
    have hqueue := self.arp.queue_pending_spec hop frame
    rw [hsubmit]
    simp only [hlookup, true_and] at hdrops
    generalize self.arp.queue_pending hop frame = result at hqueue hdrops ⊢
    cases hqueue with
    | appended hentry hroom =>
      refine .appended hentry hroom ?_ (hsubmission _ _) (by rw [hdrops]; rfl) (by rw [htransmits]; rfl) rfl rfl
      simp [ArpCache.entry_put]
    | opened hentry hroom =>
      refine .opened hentry ?_ (hsubmission _ _) (by rw [hdrops]; rfl) ?_ rfl ?_
      · simp [ArpCache.entry_put]
      · rw [htransmits]
        simp [requestFrame, isIpv4_wireFrame_arp]
      · simp [isRequestFor_requestFrame]
    | queueFull hentry hfull =>
      exact .dropped (Or.inl ⟨_, hentry, hfull⟩) rfl (by rw [hdrops]; rfl) (by rw [htransmits]; rfl) rfl rfl
    | addressesFull hentry hfull =>
      exact .dropped (Or.inr ⟨hentry, hfull⟩) rfl (by rw [hdrops]; rfl) (by rw [htransmits]; rfl) rfl rfl
    | resolved hentry =>
      rw [ArpCache.lookup_eq_some_iff.mpr hentry] at hlookup
      cases hlookup

/-- An interface that is configured, and knows no hardware address yet. -/
def NetworkInterface.configured (mac : MacAddress) (ip mask gateway : Ipv4Addr) (dhcp : DHCPState) :
    NetworkInterface where
  mac := mac
  ipv4 := some ip
  gateway := some gateway
  subnet_mask := some mask
  arp := ArpCache.new
  dhcp := dhcp

/-- The same interface with another cache. -/
def NetworkInterface.SameConfig (self other : NetworkInterface) : Prop := other = { self with arp := other.arp }

/-- Where a configured host sends what is for `dst`: straight to it on the own subnet,
and to the gateway otherwise. -/
def route (ip mask gateway dst : Ipv4Addr) : Ipv4Addr :=
  if dst.to_bits &&& mask.to_bits = ip.to_bits &&& mask.to_bits then dst else gateway

theorem NetworkInterface.SameConfig.next_hop_eq {mac : MacAddress} {ip mask gateway : Ipv4Addr}
    {dhcp : DHCPState} {self : NetworkInterface} (h : (configured mac ip mask gateway dhcp).SameConfig self)
    (dst : Ipv4Addr) : self.next_hop dst = some (route ip mask gateway dst) := by
  rw [h]
  simp only [next_hop, configured, Option.bind_eq_bind, Option.bind_some, Ipv4Addr.from_bits_inj, route]
  split <;> rfl

theorem NetworkInterface.submit_sameConfig (self : NetworkInterface) (ip hop : Ipv4Addr) (frame : Vec UInt8) :
    self.SameConfig (self.submit ip hop frame).1 := by
  unfold submit
  cases self.arp.lookup hop <;> rfl

theorem NetworkInterface.learned_sameConfig (self : NetworkInterface) (p : ArpPacket) :
    self.SameConfig (self.learned p).1 := by
  unfold learned
  split <;> rfl

theorem transfer_event {self next : NetworkInterface} {event : Traffic} {t : Transfer}
    (htransfer : transfer self event = ok (t, next)) : t.event = event := by
  cases event with
  | send dst packet | arp packet =>
    obtain ⟨_, _, hok⟩ := bind_eq_ok_iff.mp htransfer
    rw [← (Prod.mk.inj (ok.inj hok)).1]

/-- Every operation on a configured interface has one of the effects on each
address, and leaves the configuration alone. -/
theorem transfer_effect (h : Ipv4Addr) {mac : MacAddress} {ip mask gateway : Ipv4Addr} {dhcp : DHCPState}
    {self next : NetworkInterface} {event : Traffic} {t : Transfer}
    (hconfig : (NetworkInterface.configured mac ip mask gateway dhcp).SameConfig self)
    (htransfer : transfer self event = ok (t, next)) :
    t.before = self ∧ t.after = next ∧ Effect mac h t ∧
      (NetworkInterface.configured mac ip mask gateway dhcp).SameConfig next ∧
      (t.hop = none → t.sent.filter isIpv4 = []) := by
  have hmac : self.mac = mac := by rw [hconfig]; rfl
  have hip : self.ipv4 = some ip := by rw [hconfig]; rfl
  cases event with
  | send dst packet =>
    obtain ⟨⟨after, sent⟩, hsend, hok⟩ := bind_eq_ok_iff.mp htransfer
    simp only [pure_eq_ok, ok.injEq, Prod.mk.injEq] at hok
    obtain ⟨rfl, rfl⟩ := hok
    obtain ⟨hop, hhop⟩ : ∃ hop, self.next_hop dst = some hop := ⟨_, hconfig.next_hop_eq dst⟩
    obtain ⟨frame, hframe⟩ : ∃ frame, packet.serialize = ok frame := by
      rw [NetworkInterface.send_ipv4, hhop] at hsend
      obtain ⟨frame, hframe, _⟩ := bind_eq_ok_iff.mp hsend
      exact ⟨frame, hframe⟩
    rw [NetworkInterface.send_ipv4_of_next_hop hhop hip hframe, ok.injEq] at hsend
    have hafter : (self.submit ip hop frame).1 = after := congrArg Prod.fst hsend
    have hsent : (self.submit ip hop frame).2 = sent := congrArg Prod.snd hsend
    refine ⟨rfl, rfl, ?_, ?_, fun hnone => ?_⟩
    · have heffect := effect_send h ip hframe hhop
      rwa [hafter, hsent, hmac] at heffect
    · have hsame := self.submit_sameConfig ip hop frame
      rw [hafter] at hsame
      rw [NetworkInterface.SameConfig, hsame, hconfig]
    · simp only [Transfer.hop, hhop] at hnone
      cases hnone
  | arp p =>
    obtain ⟨⟨after, sent⟩, harp, hok⟩ := bind_eq_ok_iff.mp htransfer
    simp only [pure_eq_ok, ok.injEq, Prod.mk.injEq] at hok
    obtain ⟨rfl, rfl⟩ := hok
    rw [NetworkInterface.handle_arp_eq, ok.injEq] at harp
    have hafter : (self.learned p).1 = after := congrArg Prod.fst harp
    have hsent : (self.learned p).2 ++ self.arpReplies p = sent := congrArg Prod.snd harp
    refine ⟨rfl, rfl, ?_, ?_, fun hnone => ?_⟩
    · have heffect := effect_arp h self p
      rwa [hafter, hsent, hmac] at heffect
    · have hsame := self.learned_sameConfig p
      rw [hafter] at hsame
      rw [NetworkInterface.SameConfig, hsame, hconfig]
    · have hown : p.sender_mac = self.mac := by
        by_contra hne
        simp [Transfer.hop, hne] at hnone
      rw [← hsent, NetworkInterface.learned, if_neg (not_not.mpr hown), List.nil_append]
      exact filter_ipv4_arpReplies self p

end conc_os.network.handler
