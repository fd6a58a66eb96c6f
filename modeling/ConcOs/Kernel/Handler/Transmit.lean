import ConcOs.Kernel.Handler.Lease
import ConcOs.Kernel.Handler.Resolve
import ConcOs.Net.Arp.Bounds

open rust Result ones_complement
open conc_os_net
open conc_os_net.arp conc_os_net.ethernet conc_os_net.ipv4 conc_os_net.udp

namespace conc_os.network.handler

variable {Error : Type}

/-- The step accepts an acknowledgement, which gives the host `addr`. -/
def Binds (mac : MacAddress) (addr : Ipv4Addr) (label : Label Error) : Prop :=
  ∃ packet id datagram xid offer ack, label.event = .receive packet id ∧ Delivers packet datagram ∧
    label.before.dhcp = .Requesting xid offer ∧
    dhcp.DHCPBinding.from_ack datagram.data xid mac = ok (.ok ack) ∧ ack.server_id = offer.server_id ∧
    ack.client_addr = addr ∧ label.after.ipv4 = some addr

/-- An acknowledgement gave the host `addr`. -/
def Leased (mac : MacAddress) (past : List (Label Error)) (addr : Ipv4Addr) : Prop :=
  ∃ label ∈ past, Binds mac addr label

theorem Leased.snoc {mac : MacAddress} {past : List (Label Error)} {addr : Ipv4Addr} (h : Leased mac past addr)
    (label : Label Error) : Leased mac (past ++ [label]) addr := by
  obtain ⟨binding, hmem, hbinds⟩ := h
  exact ⟨binding, List.mem_append_left _ hmem, hbinds⟩

/-- The frame decodes to an ARP or IPv4 packet that gives `addr` as its sender. -/
def SentFrom (frame : Frame) (addr : Ipv4Addr) : Prop :=
  ∃ s, Slice.val s = frame ∧ ((∃ p, EthernetFrame.new s = ok (.ok (.Arp p)) ∧ p.sender_addr = addr) ∨
    ∃ q, EthernetFrame.new s = ok (.ok (.Ipv4 q)) ∧ q.source = addr)

theorem sentFrom_arp (src dst : MacAddress) (operation : ArpOperation) (sender_mac : MacAddress)
    (sender_addr : Ipv4Addr) (target_mac : MacAddress) (target_addr : Ipv4Addr) :
    SentFrom (wireFrame src dst .ARP
      (arpPacket operation sender_mac sender_addr target_mac target_addr).serialize.val) sender_addr := by
  have hlen := length_wireFrame src dst .ARP
    (arpPacket operation sender_mac sender_addr target_mac target_addr).serialize.val
  rw [Bytes.property] at hlen
  have hmem : 60 ≤ isizeMax := by decide
  exact ⟨⟨_, hlen.trans_le hmem⟩, rfl, Or.inl ⟨_, new_wireFrame_arp ⟨rfl, rfl, rfl, rfl⟩ rfl, rfl⟩⟩

/-- A parked frame is a serialized packet from a leased address. -/
def Parkable (mac : MacAddress) (past : List (Label Error)) (frame : Vec UInt8) : Prop :=
  ∃ p : Ipv4Packet, p.WellFormed ∧ frame.val = p.headerBytes p.headerChecksum ++ p.data.val ∧
    Leased mac past p.source

theorem Parkable.snoc {mac : MacAddress} {past : List (Label Error)} {frame : Vec UInt8}
    (h : Parkable mac past frame) (label : Label Error) : Parkable mac (past ++ [label]) frame := by
  obtain ⟨p, hp, hframe, hleased⟩ := h
  exact ⟨p, hp, hframe, hleased.snoc label⟩

/-- The frames the host may transmit after `past`. -/
def Transmittable (mac : MacAddress) (past : List (Label Error)) (frame : Frame) : Prop :=
  Announcement mac frame ∨ ∃ addr, Leased mac past addr ∧ SentFrom frame addr

theorem Parkable.transmittable {mac : MacAddress} {past : List (Label Error)} {frame : Vec UInt8}
    (h : Parkable mac past frame) (src dst : MacAddress) :
    Transmittable mac past (wireFrame src dst .IPV4 frame.val) := by
  obtain ⟨p, hp, hframe, hleased⟩ := h
  obtain ⟨bytes, _, hbytes, hlen⟩ := hp.serialize_eq
  have htotal := p.total_length.toNat_lt
  have hwire := length_wireFrame src dst .IPV4 frame.val
  rw [hframe, ← hbytes, Slice.length_val] at hwire
  have hmem : (2 ^ 17 : Nat) ≤ isizeMax := by decide
  refine Or.inr ⟨p.source, hleased, ⟨wireFrame src dst .IPV4 (p.headerBytes p.headerChecksum ++ p.data.val), ?_⟩,
    by rw [hframe], Or.inr ⟨_, new_wireFrame hp rfl, rfl⟩⟩
  rw [← hbytes]
  omega

/-- The invariant of the runs of an interface. Without an address there is
nothing to wait for. -/
structure Sound (mac : MacAddress) (past : List (Label Error)) (current : NetworkInterface) : Prop where
  sameMac : current.mac = mac
  bound : ∀ addr, current.ipv4 = some addr → Leased mac past addr
  unbound : current.ipv4 = none → ∀ ip, ¬ current.arp.Awaits ip
  parked : current.arp.AllParked (Parkable mac past)
  sent : ∀ before label after, past = before ++ label :: after → ∀ frame ∈ label.sent,
    Transmittable mac before frame

theorem Sound.initial (mac : MacAddress) : Sound mac ([] : List (Label Error)) (.initial mac) where
  sameMac := rfl
  bound := by
    intro addr hbound
    simp [NetworkInterface.initial] at hbound
  unbound := by
    rintro _ ip ⟨queue, hentry⟩
    simp [NetworkInterface.initial] at hentry
  parked := ArpCache.AllParked.new _
  sent := by
    intro before label after hsplit
    simp at hsplit

/-- What a step has to show to extend the run. -/
theorem Sound.extend {mac : MacAddress} {past : List (Label Error)} {self : NetworkInterface}
    {label : Label Error} (h : Sound mac past self) (hmac : label.after.mac = mac)
    (hbound : label.after.ipv4 = self.ipv4 ∨ ∃ addr, label.after.ipv4 = some addr ∧ Binds mac addr label)
    (hunbound : label.after.ipv4 = none → ∀ ip, ¬ label.after.arp.Awaits ip)
    (hparked : label.after.arp.AllParked (Parkable mac past))
    (hsent : ∀ frame ∈ label.sent, Transmittable mac past frame) : Sound mac (past ++ [label]) label.after where
  sameMac := hmac
  bound := by
    intro addr haddr
    rcases hbound with hsame | ⟨bound, hafter, hbinds⟩
    · exact (h.bound addr (hsame.symm.trans haddr)).snoc label
    · obtain rfl : bound = addr := Option.some.inj (hafter.symm.trans haddr)
      exact ⟨label, by simp, hbinds⟩
  unbound := hunbound
  parked := fun ip frame hframe => (hparked ip frame hframe).snoc label
  sent := forall_split_snoc h.sent hsent

theorem Sound.transmits_learned {mac : MacAddress} {past : List (Label Error)} {self : NetworkInterface}
    (h : Sound mac past self) (p : ArpPacket) :
    ∀ frame ∈ (self.learned p).2 ++ self.arpReplies p, Transmittable mac past frame := by
  intro frame hframe
  rcases List.mem_append.mp hframe with hflushed | hreply
  · unfold NetworkInterface.learned at hflushed
    split at hflushed
    · obtain ⟨parked, hparked, rfl⟩ := List.mem_map.mp hflushed
      exact (h.parked p.sender_addr parked hparked).transmittable self.mac p.sender_mac
    · simp at hflushed
  · unfold NetworkInterface.arpReplies at hreply
    split at hreply
    · rename_i hask
      rw [List.mem_singleton.mp hreply]
      exact Or.inr ⟨p.target_addr, h.bound _ hask.2, sentFrom_arp ..⟩
    · simp at hreply

theorem Sound.learned {mac : MacAddress} {past : List (Label Error)} {self : NetworkInterface}
    (h : Sound mac past self) (p : ArpPacket) :
    (self.learned p).1.arp.AllParked (Parkable mac past) ∧
      (self.ipv4 = none → ∀ ip, ¬ (self.learned p).1.arp.Awaits ip) := by
  unfold NetworkInterface.learned
  split
  · refine ⟨h.parked.put_resolved p.sender_addr p.sender_mac, fun hnone ip hawaits => ?_⟩
    obtain ⟨queue, hentry⟩ := hawaits
    rw [ArpCache.insert_eq, ArpCache.entry_put] at hentry
    split_ifs at hentry
    · cases hentry
    · exact h.unbound hnone ip ⟨queue, hentry⟩
  · exact ⟨h.parked, h.unbound⟩

theorem Sound.submit {mac : MacAddress} {past : List (Label Error)} {self : NetworkInterface}
    (h : Sound mac past self) {ip : Ipv4Addr} (hip : self.ipv4 = some ip) (hop : Ipv4Addr) {frame : Vec UInt8}
    (hframe : Parkable mac past frame) :
    (self.submit ip hop frame).1.arp.AllParked (Parkable mac past) ∧
      ∀ sent ∈ (self.submit ip hop frame).2, Transmittable mac past sent := by
  unfold NetworkInterface.submit
  cases self.arp.lookup hop with
  | some dst =>
    refine ⟨h.parked, fun sent hsent => ?_⟩
    rw [List.mem_singleton.mp hsent]
    exact hframe.transmittable self.mac dst
  | none =>
    refine ⟨h.parked.queue_pending hop hframe, fun sent hsent => ?_⟩
    split_ifs at hsent
    · rw [List.mem_singleton.mp hsent]
      exact Or.inr ⟨ip, h.bound ip hip, sentFrom_arp ..⟩
    · simp at hsent

theorem Sound.received {mac : MacAddress} {past : List (Label Error)} {self : NetworkInterface}
    (h : Sound mac past self) (id : Except Error UInt16) (packet : Slice UInt8) :
    ∃ after sent, self.process_rx id packet = ok (after, sent) ∧
      Sound mac (past ++ [⟨.receive packet id, self, false, sent, after⟩]) after := by
  have hcall := self.process_rx_call id packet
  generalize self.process_rx id packet = result at hcall ⊢
  cases hcall with
  | ignored => exact ⟨self, [], rfl, h.extend h.sameMac (Or.inl rfl) h.unbound h.parked (by simp)⟩
  | @arp p hdecodes =>
    obtain ⟨hparked, hunbound⟩ := h.learned p
    refine ⟨_, _, self.handle_arp_eq p, h.extend ?_ (Or.inl (self.learned_ipv4 p)) ?_ hparked
      (h.transmits_learned p)⟩
    · rw [self.learned_mac, h.sameMac]
    · rwa [self.learned_ipv4]
  | @icmp p hdecodes hlen =>
    rcases self.handle_icmp_spec hlen with heq | ⟨ip, hop, reply, frame, hip, hwell, hframe, heq⟩
    · exact ⟨self, [], heq, h.extend h.sameMac (Or.inl rfl) h.unbound h.parked (by simp)⟩
    · obtain ⟨hparked, hsent⟩ := h.submit hip hop ⟨_, hwell, hframe, h.bound ip hip⟩
      have hsame : (self.submit ip hop frame).1.mac = self.mac ∧
        (self.submit ip hop frame).1.ipv4 = self.ipv4 := by
        rw [self.submit_sameConfig ip hop frame]
        exact ⟨rfl, rfl⟩
      have hbound : (self.submit ip hop frame).1.ipv4 ≠ none := by simp [hsame.2, hip]
      exact ⟨_, _, heq, h.extend (hsame.1.trans h.sameMac) (Or.inl hsame.2) (fun hnone => absurd hnone hbound)
        hparked hsent⟩
  | @dhcp datagram hdelivers =>
    obtain ⟨after, sent, heq, houtcome, hannounced⟩ := self.handle_dhcp_spec id datagram
    rw [h.sameMac] at hannounced
    refine ⟨after, sent, heq, ?_⟩
    have hsent : ∀ frame ∈ sent, Transmittable mac past frame :=
      fun frame hframe => Or.inl (hannounced frame hframe)
    cases houtcome with
    | ignored => exact h.extend h.sameMac (Or.inl rfl) h.unbound h.parked hsent
    | requested => exact h.extend h.sameMac (Or.inl rfl) h.unbound h.parked hsent
    | @committed xid offer ack hrequesting hack hserver =>
      rw [h.sameMac] at hack
      refine h.extend h.sameMac (Or.inr ⟨ack.client_addr, rfl, ?_⟩) (by simp) h.parked hsent
      exact ⟨packet, id, datagram, xid, offer, ack, rfl, hdelivers, hrequesting, hack, hserver, rfl, rfl⟩

theorem Sound.step {mac : MacAddress} {past : List (Label Error)} {self : NetworkInterface}
    (h : Sound mac past self) (event : Event Error) :
    ∃ label next, perform self event = ok (label, next) ∧ Sound mac (past ++ [label]) next := by
  cases event with
  | init draw id =>
    obtain ⟨result, after, sent, heq, houtcome, hannounced⟩ := self.init_dhcp_spec draw id
    rw [h.sameMac] at hannounced
    refine ⟨⟨.init draw id, self, result.isOk, sent, after⟩, after, by simp [perform, heq], ?_⟩
    have hsent : ∀ frame ∈ sent, Transmittable mac past frame :=
      fun frame hframe => Or.inl (hannounced frame hframe)
    generalize result.isOk = opened at houtcome
    cases houtcome with
    | refused => exact h.extend h.sameMac (Or.inl rfl) h.unbound h.parked hsent
    | opened => exact h.extend h.sameMac (Or.inl rfl) h.unbound h.parked hsent
  | receive packet id =>
    obtain ⟨after, sent, heq, hafter⟩ := h.received id packet
    exact ⟨_, after, by simp [perform, heq], hafter⟩

/-- Without an address, nothing is transmitted in answer to an ARP packet. -/
theorem Sound.arp_silent {mac : MacAddress} {past : List (Label Error)} {self : NetworkInterface}
    (h : Sound mac past self) (hnone : self.ipv4 = none) (p : ArpPacket) :
    (self.learned p).2 ++ self.arpReplies p = [] := by
  have hparked : self.arp.parked p.sender_addr = [] := by
    rw [ArpCache.parked]
    cases hentry : self.arp.entry p.sender_addr with
    | none => rfl
    | some e =>
      cases e with
      | Resolved mac => rfl
      | Pending queue => exact absurd ⟨queue, hentry⟩ (h.unbound hnone p.sender_addr)
  rw [NetworkInterface.arpReplies, if_neg (by simp [hnone]), NetworkInterface.learned]
  split
  · simp [ArpCache.insert_eq, hparked]
  · rfl

/-- Whatever frames arrive, and whichever random draws fail, every frame that
goes out announces this client over DHCP or is sent from an address that an
acknowledgement gave it before. An interface without an address has no frame
parked and never answers an ARP packet. -/
theorem transmissions_leased (mac : MacAddress) (events : List (Event Error)) :
    ∃ trace final, execute perform (NetworkInterface.initial mac) events = ok (trace, final) ∧
      (∀ past label future, trace = past ++ label :: future → ∀ frame ∈ label.sent,
        Announcement mac frame ∨ ∃ addr, Leased mac past addr ∧ SentFrom frame addr) ∧
      (final.ipv4 = none → (∀ ip queue, final.arp.entry ip ≠ some (.Pending queue)) ∧
        ∀ (packet : Slice UInt8) (id : Except Error UInt16) (p : ArpPacket),
          EthernetFrame.new packet = ok (.ok (.Arp p)) →
          ∃ after, final.process_rx id packet = ok (after, [])) := by
  obtain ⟨trace, final, hrun, hsound⟩ := execute_total (fun _ past self => Sound mac past self)
    (fun _ _ _ event h => h.step event) events (Sound.initial mac)
  refine ⟨trace, final, hrun, hsound.sent, fun hnone => ⟨fun ip queue hentry => ?_,
    fun packet id p hdecodes => ?_⟩⟩
  · exact hsound.unbound hnone ip ⟨queue, hentry⟩
  · have hcall := final.process_rx_call id packet
    generalize final.process_rx id packet = result at hcall ⊢
    cases hcall with
    | ignored => exact ⟨final, rfl⟩
    | @arp p' => exact ⟨_, by rw [final.handle_arp_eq, hsound.arp_silent hnone]⟩
    | icmp hother =>
      rw [hdecodes] at hother
      cases hother
    | dhcp hdelivers =>
      obtain ⟨q, hother, _⟩ := hdelivers.decodes
      rw [hdecodes] at hother
      cases hother

end conc_os.network.handler
