import ConcOs.Kernel.Handler.Exchange

open rust Result ones_complement
open conc_os_net
open conc_os_net.arp conc_os_net.ethernet conc_os_net.ipv4 conc_os_net.udp

namespace conc_os.network.handler

variable {Error : Type}

/-- The part of a run since its most recent successful `init_dhcp`. -/
abbrev Exchange (past : List (Label Error)) (opening : Label Error) (since : List (Label Error)) : Prop :=
  Since (fun label : Label Error => label.opened = true) past opening since

/-- `opening` drew `xid` and broadcast exactly the discover for it. -/
def Discovered (mac : MacAddress) (xid : UInt32) (opening : Label Error) : Prop :=
  (∃ id, opening.event = .init (.ok xid) id) ∧
    ∃ discover, dhcp.build_discover mac xid = ok discover ∧ datagrams [opening] = [discover.val]

/-- Exactly one datagram has been broadcast, the request for `offer`. -/
def Requested (mac : MacAddress) (xid : UInt32) (offer : dhcp.DHCPBinding) (since : List (Label Error)) : Prop :=
  ∃ request, dhcp.build_request mac xid offer = ok request ∧ datagrams since = [request.val]

/-- The offer was received, from a DHCP server and under this `xid`. -/
def Offered (mac : MacAddress) (xid : UInt32) (offer : dhcp.DHCPBinding) (since : List (Label Error)) : Prop :=
  ∃ label ∈ since, ∃ packet id datagram, label.event = .receive packet id ∧ Delivers packet datagram ∧
    dhcp.DHCPBinding.from_offer datagram.data xid mac = ok (.ok offer)

/-- The step `label`, taken after `past`, is the one that commits the exchange:
the receipt of an acceptable acknowledgement of the one request that was sent. -/
structure Commits (mac : MacAddress) (past : List (Label Error)) (label : Label Error) (datagram : UDPPacket)
    (xid : UInt32) (offer ack : dhcp.DHCPBinding) (opening : Label Error) (since : List (Label Error)) :
    Prop where
  received : ∃ packet id, label.event = .receive packet id ∧ Delivers packet datagram
  accepted : dhcp.DHCPBinding.from_ack datagram.data xid mac = ok (.ok ack)
  exchange : Exchange past opening since
  discovered : Discovered mac xid opening
  requested : Requested mac xid offer since
  offered : Offered mac xid offer since
  server : ack.server_id = offer.server_id
  requesting : label.before.dhcp = .Requesting xid offer
  configured : label.after = { label.before with
    ipv4 := some ack.client_addr
    subnet_mask := some ack.subnet_mask
    gateway := some ack.gateway
    dhcp := .Idle }

/-- All three fields of the configuration are set, or none is. -/
def NetworkInterface.AllOrNone (self : NetworkInterface) : Prop :=
  self.config = (none, none, none) ∨ ∃ addr mask gateway, self.config = (some addr, some mask, some gateway)

/-- At most one request, and at most one change of the configuration. -/
def AtMostOnce (since : List (Label Error)) : Prop :=
  (datagrams since).length ≤ 1 ∧ (since.filter Label.reconfigures).length ≤ 1

/-- How the state of the exchange reflects what was sent and accepted. -/
def Progress (mac : MacAddress) (past : List (Label Error)) : DHCPState → Prop
  | .Idle => ∀ opening since, Exchange past opening since → AtMostOnce since
  | .Selecting xid => ∃ opening since, Exchange past opening since ∧ Discovered mac xid opening ∧
      datagrams since = [] ∧ since.filter Label.reconfigures = []
  | .Requesting xid offer => ∃ opening since, Exchange past opening since ∧ Discovered mac xid opening ∧
      Requested mac xid offer since ∧ Offered mac xid offer since ∧ since.filter Label.reconfigures = []

/-- The invariant of the runs of an interface. -/
structure History (mac : MacAddress) (past : List (Label Error)) (current : NetworkInterface) : Prop where
  sameMac : current.mac = mac
  parked : IcmpParked current.arp
  config : current.AllOrNone
  progress : Progress mac past current.dhcp
  steps : ∀ before label after, past = before ++ label :: after →
    (label.reconfigures = true → ∃ datagram xid offer ack opening since,
        Commits mac before label datagram xid offer ack opening since) ∧ label.after.AllOrNone ∧
      ∀ opening since, Exchange (before ++ [label]) opening since → AtMostOnce since

theorem datagrams_append (first second : List (Label Error)) :
    datagrams (first ++ second) = datagrams first ++ datagrams second := by
  simp [datagrams]

theorem datagrams_singleton (label : Label Error) :
    datagrams [label] = label.sent.filterMap broadcastDatagram := by
  simp [datagrams]

/-- Every state of an exchange is within the bound. -/
theorem Progress.atMostOnce {mac : MacAddress} {past : List (Label Error)} {state : DHCPState}
    (h : Progress mac past state) : ∀ opening since, Exchange past opening since → AtMostOnce since := by
  intro opening since hsince
  cases state with
  | Idle => exact h opening since hsince
  | Selecting xid =>
    obtain ⟨opening', since', hsince', _, hsent, hchanges⟩ := h
    obtain ⟨rfl, rfl⟩ := hsince.unique hsince'
    simp [AtMostOnce, hsent, hchanges]
  | Requesting xid offer =>
    obtain ⟨opening', since', hsince', _, ⟨request, _, hsent⟩, _, hchanges⟩ := h
    obtain ⟨rfl, rfl⟩ := hsince.unique hsince'
    simp [AtMostOnce, hsent, hchanges]

/-- The offer stays in the history. -/
theorem Offered.snoc {mac : MacAddress} {xid : UInt32} {offer : dhcp.DHCPBinding} {since : List (Label Error)}
    (h : Offered mac xid offer since) (label : Label Error) : Offered mac xid offer (since ++ [label]) := by
  obtain ⟨old, hmem, hold⟩ := h
  exact ⟨old, List.mem_append_left _ hmem, hold⟩

/-- A step without datagrams and without a change of the configuration leaves
the exchange where it is. -/
theorem Progress.snoc {mac : MacAddress} {past : List (Label Error)} {state : DHCPState} {label : Label Error}
    (h : Progress mac past state) (hopened : label.opened = false) (hsent : datagrams [label] = [])
    (hconfig : label.reconfigures = false) : Progress mac (past ++ [label]) state := by
  have hnot : ¬ label.opened = true := by simp [hopened]
  have hfilter : [label].filter Label.reconfigures = [] := by simp [hconfig]
  cases state with
  | Idle =>
    intro opening since hsince
    rcases hsince.snoc_cases with ⟨hyes, _⟩ | ⟨since', _, rfl, hpast⟩
    · exact absurd hyes hnot
    · obtain ⟨hrequests, hchanges⟩ := h opening since' hpast
      rw [AtMostOnce, datagrams_append, hsent, List.append_nil, List.filter_append, hfilter, List.append_nil]
      exact ⟨hrequests, hchanges⟩
  | Selecting xid =>
    obtain ⟨opening, since, hsince, hdiscovered, hnone, hchanges⟩ := h
    refine ⟨opening, since ++ [label], hsince.snoc hnot, hdiscovered, ?_, ?_⟩
    · rw [datagrams_append, hnone, hsent, List.append_nil]
    · rw [List.filter_append, hchanges, hfilter, List.append_nil]
  | Requesting xid offer =>
    obtain ⟨opening, since, hsince, hdiscovered, ⟨request, hrequest, hone⟩, hoffered, hchanges⟩ := h
    refine ⟨opening, since ++ [label], hsince.snoc hnot, hdiscovered, ⟨request, hrequest, ?_⟩,
      hoffered.snoc label, ?_⟩
    · rw [datagrams_append, hone, hsent, List.append_nil]
    · rw [List.filter_append, hchanges, hfilter, List.append_nil]

theorem History.initial (mac : MacAddress) : History mac ([] : List (Label Error)) (.initial mac) where
  sameMac := rfl
  parked := ArpCache.AllParked.new _
  config := Or.inl rfl
  progress := by
    intro opening since hsince
    obtain ⟨before, hsplit⟩ := hsince.split
    simp at hsplit
  steps := by
    intro before label after hsplit
    simp at hsplit

/-- What a step has to show to extend the history. -/
theorem History.extend {mac : MacAddress} {past : List (Label Error)} {self : NetworkInterface}
    {label : Label Error} (h : History mac past self) (hmac : label.after.mac = mac)
    (hparked : IcmpParked label.after.arp) (hconfig : label.after.AllOrNone)
    (hprogress : Progress mac (past ++ [label]) label.after.dhcp)
    (hcommits : label.reconfigures = true → ∃ datagram xid offer ack opening since,
      Commits mac past label datagram xid offer ack opening since) :
    History mac (past ++ [label]) label.after where
  sameMac := hmac
  parked := hparked
  config := hconfig
  progress := hprogress
  steps := forall_split_snoc h.steps ⟨hcommits, hconfig, hprogress.atMostOnce⟩

theorem History.silent {mac : MacAddress} {past : List (Label Error)} {self : NetworkInterface}
    {label : Label Error} (h : History mac past self) (hbefore : label.before = self)
    (hopened : label.opened = false) (hsilent : Silent self label.after label.sent) :
    History mac (past ++ [label]) label.after := by
  have hsame : label.reconfigures = false := by
    simp [Label.reconfigures, hbefore, hsilent.config]
  refine h.extend (hsilent.mac.trans h.sameMac) hsilent.parked ?_ ?_ (by simp [hsame])
  · rw [NetworkInterface.AllOrNone, hsilent.config]
    exact h.config
  · rw [hsilent.dhcp]
    exact h.progress.snoc hopened (by rw [datagrams_singleton, hsilent.datagrams]) hsame

theorem History.initiated {mac : MacAddress} {past : List (Label Error)} {self : NetworkInterface}
    {label : Label Error} (h : History mac past self) (hbefore : label.before = self)
    {draw : Except Error UInt32} {id : Except Error UInt16} (hevent : label.event = .init draw id)
    (houtcome : InitOutcome self draw label.opened label.after label.sent) :
    History mac (past ++ [label]) label.after := by
  obtain ⟨event, before, opened, sent, after⟩ := label
  obtain rfl : before = self := hbefore
  dsimp only at houtcome
  cases houtcome with
  | refused => exact h.silent rfl rfl (.refl h.parked)
  | @opened xid discover frame hdraw hidle hdiscover hframe =>
    subst hdraw
    have hlen : 18 ≤ discover.val.length := by
      obtain ⟨msg, hmsg, hval⟩ := dhcp.build_discover_eq before.mac xid
      rw [hdiscover, ok.injEq] at hmsg
      rw [hmsg, hval, dhcp.length_messageBytes _ _ (by decide)]
      omega
    refine h.extend h.sameMac h.parked h.config ?_ fun hchange => ?_
    · refine ⟨_, [], Since.start past rfl, ⟨⟨id, hevent⟩, discover, by rw [← h.sameMac]; exact hdiscover, ?_⟩,
        rfl, rfl⟩
      simp [datagrams_singleton, hframe.broadcastDatagram_eq hlen]
    · simp [Label.reconfigures, NetworkInterface.config] at hchange

theorem History.received {mac : MacAddress} {past : List (Label Error)} {self : NetworkInterface}
    {label : Label Error} (h : History mac past self) (hbefore : label.before = self)
    (hopened : label.opened = false) {packet : Slice UInt8} {id : Except Error UInt16}
    (hevent : label.event = .receive packet id) {datagram : UDPPacket} (hdelivers : Delivers packet datagram)
    (houtcome : DhcpOutcome self datagram.data label.after label.sent) :
    History mac (past ++ [label]) label.after := by
  obtain ⟨event, before, opened, sent, after⟩ := label
  obtain rfl : before = self := hbefore
  obtain rfl : opened = false := hopened
  have hprogress := h.progress
  dsimp only at houtcome
  cases houtcome with
  | ignored => exact h.silent rfl rfl (.refl h.parked)
  | @requested xid offer request frame hselecting hoffer hrequest hframe =>
    have hlen : 18 ≤ request.val.length := by
      obtain ⟨msg, hmsg, hval⟩ := dhcp.build_request_eq before.mac xid offer
      rw [hrequest, ok.injEq] at hmsg
      rw [hmsg, hval, dhcp.length_messageBytes _ _ (by rw [dhcp.length_requestOptions]; omega)]
      omega
    rw [hselecting] at hprogress
    obtain ⟨opening, since, hsince, hdiscovered, hnone, hchanges⟩ := hprogress
    rw [h.sameMac] at hoffer hrequest
    refine h.extend h.sameMac h.parked h.config ?_ fun hchange => ?_
    · refine ⟨opening, _, hsince.snoc (by simp), hdiscovered, ⟨request, hrequest, ?_⟩,
        ⟨_, by simp, packet, id, datagram, hevent, hdelivers, hoffer⟩, ?_⟩
      · simp [datagrams_append, datagrams_singleton, hnone, hframe.broadcastDatagram_eq hlen]
      · simp [List.filter_append, hchanges, Label.reconfigures, NetworkInterface.config]
    · simp [Label.reconfigures, NetworkInterface.config] at hchange
  | @committed xid offer ack hrequesting hack hserver =>
    rw [hrequesting] at hprogress
    obtain ⟨opening, since, hsince, hdiscovered, hrequested, hoffered, hchanges⟩ := hprogress
    rw [h.sameMac] at hack
    refine h.extend h.sameMac h.parked (Or.inr ⟨_, _, _, rfl⟩) ?_ fun _ => ?_
    · intro opening' since' hsince'
      rcases hsince'.snoc_cases with ⟨hyes, _⟩ | ⟨old, _, rfl, hold⟩
      · simp at hyes
      · obtain ⟨rfl, rfl⟩ := hold.unique hsince
        obtain ⟨request, _, hone⟩ := hrequested
        constructor
        · simp [datagrams_append, datagrams_singleton, hone]
        · rw [List.filter_append, hchanges, List.nil_append]
          exact List.length_filter_le _ _
    · exact ⟨datagram, xid, offer, ack, opening, since, ⟨packet, id, hevent, hdelivers⟩, hack, hsince,
        hdiscovered, hrequested, hoffered, hserver, hrequesting, rfl⟩

/-- Every operation returns, and is one of the outcomes of its kind. -/
theorem perform_spec (self : NetworkInterface) (event : Event Error) :
    ∃ label, perform self event = ok (label, label.after) ∧ label.before = self ∧
      ((∃ draw id, label.event = .init draw id ∧ InitOutcome self draw label.opened label.after label.sent) ∨
        ∃ packet id, label.event = .receive packet id ∧ label.opened = false ∧
          RxOutcome self packet label.after label.sent) := by
  cases event with
  | init draw id =>
    obtain ⟨result, after, sent, heq, houtcome, _⟩ := self.init_dhcp_spec draw id
    exact ⟨⟨.init draw id, self, result.isOk, sent, after⟩, by simp [perform, heq], rfl,
      Or.inl ⟨draw, id, rfl, houtcome⟩⟩
  | receive packet id =>
    obtain ⟨after, sent, heq, houtcome⟩ := self.process_rx_spec id packet
    exact ⟨⟨.receive packet id, self, false, sent, after⟩, by simp [perform, heq], rfl,
      Or.inr ⟨packet, id, rfl, rfl, houtcome⟩⟩

/-- Every operation returns and keeps the invariant. -/
theorem History.step {mac : MacAddress} {past : List (Label Error)} {self : NetworkInterface}
    (h : History mac past self) (event : Event Error) :
    ∃ label next, perform self event = ok (label, next) ∧ History mac (past ++ [label]) next := by
  obtain ⟨label, heq, hbefore, hcases⟩ := perform_spec self event
  refine ⟨label, label.after, heq, ?_⟩
  rcases hcases with ⟨draw, id, hevent, houtcome⟩ | ⟨packet, id, hevent, hopened, houtcome⟩
  · exact h.initiated hbefore hevent houtcome
  · rcases houtcome.silent_or_dhcp h.parked with hsilent | ⟨datagram, hdelivers, hdhcp⟩
    · exact h.silent hbefore hopened hsilent
    · exact h.received hbefore hopened hevent hdelivers hdhcp

/-- Whatever frames arrive, and whichever random draws fail, the configuration
changes only by committing an exchange that this host opened: in answer to its
one request since the last successful `init_dhcp`, for an offer of the same
server under the same exchange id. The three fields are always set together,
and a successful `init_dhcp` leads to at most one request and one change. -/
theorem dhcp_exchange (mac : MacAddress) (events : List (Event Error)) :
    ∃ trace final, execute perform (NetworkInterface.initial mac) events = ok (trace, final) ∧
      ∀ past label future, trace = past ++ label :: future →
        (label.reconfigures = true → ∃ datagram xid offer ack opening since,
          Commits mac past label datagram xid offer ack opening since) ∧
        label.after.AllOrNone ∧
        ∀ opening since, Exchange (past ++ [label]) opening since → AtMostOnce since := by
  obtain ⟨trace, final, hrun, hhistory⟩ := execute_total (fun _ past self => History mac past self)
    (fun _ _ _ event h => h.step event) events (History.initial mac)
  exact ⟨trace, final, hrun, hhistory.steps⟩

end conc_os.network.handler
