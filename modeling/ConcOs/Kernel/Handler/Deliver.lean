import ConcOs.Kernel.Handler.Resolve

open rust Result
open conc_os_net
open conc_os_net.arp conc_os_net.ethernet conc_os_net.ipv4

namespace conc_os.network.handler

section

variable (h : Ipv4Addr) (past : List Transfer) (t : Transfer)

theorem accepted_snoc : accepted h (past ++ [t]) =
    accepted h past ++ if t.drops h then [] else (t.submission h).toList := by
  simp only [accepted, List.filterMap_append, List.filterMap_cons, List.filterMap_nil]
  cases t.drops h <;> cases t.submission h <;> rfl

theorem transmitted_snoc : transmitted h (past ++ [t]) = transmitted h past ++ t.transmits h := by
  simp [transmitted]

theorem requests_snoc : requests h (past ++ [t]) = requests h past ++ t.sent.filter (isRequestFor h) := by
  simp [requests]

theorem learnedMacs_snoc : learnedMacs h (past ++ [t]) = learnedMacs h past ++ (t.teaches h).toList := by
  simp only [learnedMacs, List.filterMap_append, List.filterMap_cons, List.filterMap_nil]
  cases t.teaches h <;> rfl

end

/-- The frames sent for `h` carry these payloads, each in a frame addressed to
the given hardware address. -/
def Carried (mac : MacAddress) (frames : List Frame) (payloads : List (Vec UInt8)) : Prop :=
  ∃ delivered : List (MacAddress × Vec UInt8),
    frames = delivered.map (fun d => wireFrame mac d.1 .IPV4 d.2.val) ∧ delivered.map Prod.snd = payloads

theorem Carried.nil (mac : MacAddress) : Carried mac [] [] := ⟨[], rfl, rfl⟩

theorem Carried.append {mac : MacAddress} {frames : List Frame} {payloads : List (Vec UInt8)}
    (h : Carried mac frames payloads) (m : MacAddress) (more : List (Vec UInt8)) :
    Carried mac (frames ++ more.map fun frame => wireFrame mac m .IPV4 frame.val) (payloads ++ more) := by
  obtain ⟨delivered, rfl, rfl⟩ := h
  exact ⟨delivered ++ more.map fun frame => (m, frame), by simp, by simp⟩

/-- What the cache entry of `h` says about the history. -/
def Account (mac : MacAddress) (h : Ipv4Addr) (past : List Transfer) : Option ArpEntry → Prop
  | none => learnedMacs h past = [] ∧ requests h past = [] ∧ accepted h past = [] ∧ transmitted h past = []
  | some (.Pending queue) => learnedMacs h past = [] ∧ (requests h past).length = 1 ∧ accepted h past = queue ∧
      transmitted h past = [] ∧ queue ≠ [] ∧ queue.length ≤ MAX_PENDING_PER_ADDRESS
  | some (.Resolved m) => (learnedMacs h past).getLast? = some m ∧ (requests h past).length ≤ 1 ∧
      Carried mac (transmitted h past) (accepted h past)

/-- A packet for `h` is dropped only when `h` is unresolved and its queue, or
the set of pending addresses, is full. -/
def DropsOnlyWhenFull (h : Ipv4Addr) (t : Transfer) : Prop :=
  t.drops h = true → t.before.arp.lookup h = none ∧
    ((t.before.arp.parked h).length = 4 ∨ (t.before.arp.parked h = [] ∧
      ∃ others : List Ipv4Addr, others.Nodup ∧ others.length = 16 ∧ h ∉ others ∧
        ∀ a ∈ others, ∃ queue, t.before.arp.entry a = some (.Pending queue)))

/-- Every IPv4 frame goes out for some next hop, and for `h` to the hardware
address learned for it most recently. -/
def SendsToLearned (h : Ipv4Addr) (past : List Transfer) (t : Transfer) : Prop :=
  (t.hop = none → t.sent.filter isIpv4 = []) ∧ ∀ frame ∈ t.transmits h,
    ∃ m : MacAddress, (learnedMacs h (past ++ [t])).getLast? = some m ∧ frame.take 6 = m.addr.val

theorem parked_of_pending {cache : ArpCache} {h : Ipv4Addr} {queue : List (Vec UInt8)}
    (hentry : cache.entry h = some (.Pending queue)) : cache.parked h = queue := by
  rw [ArpCache.parked, hentry]

theorem parked_of_none {cache : ArpCache} {h : Ipv4Addr} (hentry : cache.entry h = none) :
    cache.parked h = [] := by
  rw [ArpCache.parked, hentry]

theorem parked_of_resolved {cache : ArpCache} {h : Ipv4Addr} {m : MacAddress}
    (hentry : cache.entry h = some (.Resolved m)) : cache.parked h = [] := by
  rw [ArpCache.parked, hentry]

/-- What was sent and what is parked is what was accepted. -/
theorem Account.carried {mac : MacAddress} {h : Ipv4Addr} {past : List Transfer} {cache : ArpCache}
    (haccount : Account mac h past (cache.entry h)) :
    ∃ payloads, Carried mac (transmitted h past) payloads ∧ payloads ++ cache.parked h = accepted h past := by
  cases hentry : cache.entry h with
  | none =>
    rw [hentry] at haccount
    obtain ⟨_, _, haccepted, hsent⟩ := haccount
    exact ⟨[], by rw [hsent]; exact .nil mac, by rw [parked_of_none hentry, haccepted]; rfl⟩
  | some e =>
    rw [hentry] at haccount
    cases e with
    | Pending queue =>
      obtain ⟨_, _, haccepted, hsent, _⟩ := haccount
      exact ⟨[], by rw [hsent]; exact .nil mac, by rw [parked_of_pending hentry, haccepted]; rfl⟩
    | Resolved m =>
      obtain ⟨_, _, hcarried⟩ := haccount
      exact ⟨_, hcarried, by rw [parked_of_resolved hentry, List.append_nil]⟩

/-- The account is about what was accepted, sent, asked and learned. -/
theorem Account.congr {mac : MacAddress} {h : Ipv4Addr} {past past' : List Transfer} {entry : Option ArpEntry}
    (haccount : Account mac h past entry) (haccepted : accepted h past' = accepted h past)
    (htransmitted : transmitted h past' = transmitted h past) (hrequests : requests h past' = requests h past)
    (hlearned : learnedMacs h past' = learnedMacs h past) : Account mac h past' entry := by
  unfold Account at haccount ⊢
  rw [haccepted, htransmitted, hrequests, hlearned]
  exact haccount

theorem Account.requests_le {mac : MacAddress} {h : Ipv4Addr} {past : List Transfer} {entry : Option ArpEntry}
    (haccount : Account mac h past entry) : (requests h past).length ≤ 1 := by
  match entry, haccount with
  | none, ⟨_, hnone, _⟩ => simp [hnone]
  | some (.Pending _), ⟨_, hone, _⟩ => omega
  | some (.Resolved _), ⟨_, hle, _⟩ => exact hle

/-- An address is pending exactly while its request is out and nothing has been
learned. -/
theorem Account.pending_iff {mac : MacAddress} {h : Ipv4Addr} {past : List Transfer} {entry : Option ArpEntry}
    (haccount : Account mac h past entry) :
    (∃ queue, entry = some (.Pending queue)) ↔ requests h past ≠ [] ∧ learnedMacs h past = [] := by
  match entry, haccount with
  | none, ⟨_, hnone, _⟩ => simp [hnone]
  | some (.Pending queue), ⟨hlearned, hone, _⟩ =>
    refine ⟨fun _ => ⟨fun hnil => ?_, hlearned⟩, fun _ => ⟨queue, rfl⟩⟩
    simp [hnil] at hone
  | some (.Resolved m), ⟨hlast, _⟩ =>
    constructor
    · rintro ⟨queue, hqueue⟩
      cases hqueue
    · rintro ⟨_, hnil⟩
      simp [hnil] at hlast

/-- One operation keeps the account of `h`. -/
theorem Account.snoc {mac : MacAddress} {h : Ipv4Addr} {past : List Transfer} {t : Transfer}
    (haccount : Account mac h past (t.before.arp.entry h)) (heffect : Effect mac h t) :
    Account mac h (past ++ [t]) (t.after.arp.entry h) := by
  cases heffect with
  | elsewhere hentry hsubmission htransmits hteaches hrequests =>
    have hdrops : t.drops h = false := by rw [Transfer.drops, hsubmission]
    rw [hentry]
    exact haccount.congr (by simp [accepted_snoc, hdrops, hsubmission]) (by simp [transmitted_snoc, htransmits])
      (by simp [requests_snoc, hrequests]) (by simp [learnedMacs_snoc, hteaches])
  | direct hentry hafter hsubmission hdrops htransmits hteaches hrequests =>
    rw [hentry] at haccount
    obtain ⟨hlast, hle, hcarried⟩ := haccount
    rw [hafter]
    refine ⟨by simpa [learnedMacs_snoc, hteaches] using hlast, by simpa [requests_snoc, hrequests] using hle, ?_⟩
    simpa [transmitted_snoc, accepted_snoc, hdrops, hsubmission, htransmits] using hcarried.append _ [_]
  | opened hentry hafter hsubmission hdrops htransmits hteaches hrequests =>
    rw [hentry] at haccount
    obtain ⟨hlearned, hnone, haccepted, hsent⟩ := haccount
    rw [hafter]
    simp [Account, accepted_snoc, transmitted_snoc, requests_snoc, learnedMacs_snoc, hdrops, hsubmission,
      htransmits, hteaches, hrequests, hlearned, hnone, haccepted, hsent, MAX_PENDING_PER_ADDRESS]
  | appended hentry hroom hafter hsubmission hdrops htransmits hteaches hrequests =>
    rw [hentry] at haccount
    obtain ⟨hlearned, hone, haccepted, hsent, _, _⟩ := haccount
    rw [hafter]
    simpa [Account, accepted_snoc, transmitted_snoc, requests_snoc, learnedMacs_snoc, hdrops, hsubmission,
      htransmits, hteaches, hrequests, hlearned, hone, haccepted, hsent] using hroom
  | dropped hfull hafter hdrops htransmits hteaches hrequests =>
    rw [hafter]
    exact haccount.congr (by simp [accepted_snoc, hdrops]) (by simp [transmitted_snoc, htransmits])
      (by simp [requests_snoc, hrequests]) (by simp [learnedMacs_snoc, hteaches])
  | resolved hafter hsubmission htransmits hteaches hrequests =>
    have hdrops : t.drops h = false := by rw [Transfer.drops, hsubmission]
    obtain ⟨payloads, hcarried, hpayloads⟩ := haccount.carried
    have hle := haccount.requests_le
    rw [hafter]
    refine ⟨by simp [learnedMacs_snoc, hteaches], by simpa [requests_snoc, hrequests] using hle, ?_⟩
    rw [transmitted_snoc, htransmits, accepted_snoc, hdrops, hsubmission, ← hpayloads]
    simpa using hcarried.append _ _

theorem dropsOnlyWhenFull_of_effect {mac : MacAddress} {h : Ipv4Addr} {past : List Transfer} {t : Transfer}
    (haccount : Account mac h past (t.before.arp.entry h)) (heffect : Effect mac h t) :
    DropsOnlyWhenFull h t := by
  intro hdrops
  cases heffect with
  | elsewhere _ hsubmission | resolved _ hsubmission =>
    rw [Transfer.drops, hsubmission] at hdrops
    cases hdrops
  | direct _ _ _ hno | opened _ _ _ hno | appended _ _ _ _ hno =>
    rw [hdrops] at hno
    cases hno
  | dropped hfull =>
    rcases hfull with ⟨queue, hentry, hlen⟩ | ⟨hentry, hcount⟩
    · rw [hentry] at haccount
      obtain ⟨_, _, _, _, _, hmax⟩ := haccount
      refine ⟨?_, Or.inl ?_⟩
      · rw [ArpCache.lookup_eq, hentry]
      · rw [parked_of_pending hentry]
        exact le_antisymm hmax hlen
    · obtain ⟨others, hnodup, hlen, hpending⟩ := ArpCache.exists_pending_of_le hcount
      refine ⟨?_, Or.inr ⟨parked_of_none hentry, others, hnodup, hlen, fun hmem => ?_, hpending⟩⟩
      · rw [ArpCache.lookup_eq, hentry]
      · obtain ⟨queue, hqueue⟩ := hpending h hmem
        rw [hentry] at hqueue
        cases hqueue

theorem sendsToLearned_of_effect {mac : MacAddress} {h : Ipv4Addr} {past : List Transfer} {t : Transfer}
    (haccount : Account mac h past (t.before.arp.entry h)) (heffect : Effect mac h t)
    (hhop : t.hop = none → t.sent.filter isIpv4 = []) : SendsToLearned h past t := by
  refine ⟨hhop, fun frame hframe => ?_⟩
  cases heffect with
  | elsewhere _ _ htransmits | opened _ _ _ _ htransmits | appended _ _ _ _ _ htransmits
  | dropped _ _ _ htransmits =>
    rw [htransmits] at hframe
    cases hframe
  | @direct m payload hentry _ _ _ htransmits hteaches =>
    rw [hentry] at haccount
    rw [htransmits, List.mem_singleton] at hframe
    refine ⟨m, by simpa [learnedMacs_snoc, hteaches] using haccount.1, ?_⟩
    rw [hframe, take_six_wireFrame]
  | @resolved m _ _ htransmits hteaches =>
    rw [htransmits] at hframe
    obtain ⟨payload, _, rfl⟩ := List.mem_map.mp hframe
    exact ⟨m, by simp [learnedMacs_snoc, hteaches], take_six_wireFrame ..⟩

/-- The invariant of the traffic of a configured interface. -/
structure Books (h : Ipv4Addr) (start : NetworkInterface) (past : List Transfer) (current : NetworkInterface) :
    Prop where
  config : start.SameConfig current
  before : ∀ t ∈ past, start.SameConfig t.before
  account : Account start.mac h past (current.arp.entry h)
  steps : ∀ before t after, past = before ++ t :: after → DropsOnlyWhenFull h t ∧ SendsToLearned h before t

/-- For every run of a configured interface and every next hop `h`: a packet is
submitted for `h` exactly if `h` is where its destination is reached. What was
transmitted for `h`, followed by what is parked on it, is what was submitted
for it in that order, without the packets dropped. Packets are dropped only at
the two limits, every transmission goes to the hardware address learned last,
at most one ARP request is broadcast, and `h` is pending exactly from its
request until an answer. -/
theorem arp_queue_history (h : Ipv4Addr) (mac : MacAddress) (ip mask gateway : Ipv4Addr) (dhcp : DHCPState)
    {traffic : List Traffic} {trace : List Transfer} {final : NetworkInterface}
    (hrun : execute transfer (.configured mac ip mask gateway dhcp) traffic = ok (trace, final)) :
    trace.map Transfer.event = traffic ∧
      (∀ t ∈ trace, ∀ dst, t.before.next_hop dst = some (route ip mask gateway dst)) ∧
      (∃ payloads, Carried mac (transmitted h trace) payloads ∧
        payloads ++ final.arp.parked h = accepted h trace) ∧
      (∀ past t future, trace = past ++ t :: future → DropsOnlyWhenFull h t ∧ SendsToLearned h past t) ∧
      (requests h trace).length ≤ 1 ∧
      ((∃ queue, final.arp.entry h = some (.Pending queue)) ↔
        requests h trace ≠ [] ∧ learnedMacs h trace = []) := by
  have hstart : Books h (.configured mac ip mask gateway dhcp) [] (.configured mac ip mask gateway dhcp) := by
    refine ⟨rfl, by simp, ?_, by simp⟩
    change Account mac h [] (ArpCache.new.entry h)
    rw [ArpCache.entry_new]
    exact ⟨rfl, rfl, rfl, rfl⟩
  have hbooks := execute_invariant (Books h (.configured mac ip mask gateway dhcp))
    (fun past state event label next hinv htransfer => by
      obtain ⟨hbefore, hafter, heffect, hconfig, hhop⟩ := transfer_effect h hinv.config htransfer
      have haccount := hinv.account
      rw [← hbefore] at haccount
      refine ⟨hconfig, ?_, ?_, forall_split_snoc hinv.steps
        ⟨dropsOnlyWhenFull_of_effect haccount heffect, sendsToLearned_of_effect haccount heffect hhop⟩⟩
      · rw [List.forall_mem_append, List.forall_mem_singleton, hbefore]
        exact ⟨hinv.before, hinv.config⟩
      · rw [← hafter]
        exact haccount.snoc heffect) hstart hrun
  refine ⟨execute_recorded (fun state event t next htransfer => ?_) hrun,
    fun t ht dst => (hbooks.before t ht).next_hop_eq dst, hbooks.account.carried, hbooks.steps,
    hbooks.account.requests_le, hbooks.account.pending_iff⟩
  exact transfer_event htransfer

/-- Traffic of well-formed packets never panics. -/
theorem execute_transfer_returns (start : NetworkInterface) (traffic : List Traffic)
    (hwell : ∀ dst packet, Traffic.send dst packet ∈ traffic → packet.WellFormed) :
    ∃ trace final, execute transfer start traffic = ok (trace, final) := by
  refine execute_returns (fun self event hmem => ?_) start
  cases event with
  | send dst packet =>
    rcases self.send_ipv4_wellFormed dst (hwell dst packet hmem) with hsend | ⟨ip, hop, frame, _, _, _, hsend⟩
    · exact ⟨_, _, by simp only [transfer, hsend, bind_tc_ok]; rfl⟩
    · exact ⟨_, _, by simp only [transfer, hsend, bind_tc_ok]; rfl⟩
  | arp packet => exact ⟨_, _, by simp only [transfer, self.handle_arp_eq packet, bind_tc_ok]; rfl⟩

/-- A host behind a gateway sends a packet, and then hears from the gateway. -/
theorem arp_queue_history_gateway :
    ∃ trace final, execute transfer
        (.configured ⟨⟨[2, 0, 0, 0, 0, 1], rfl⟩⟩ (.new 10 0 2 15) (.new 255 255 255 0) (.new 10 0 2 2) .Idle)
        [.send (.new 1 1 1 1) (.ofData Slice.empty (.new 10 0 2 15) (.new 1 1 1 1) 7 .ICMP),
          .arp (arpPacket .Reply ⟨⟨[2, 0, 0, 0, 0, 2], rfl⟩⟩ (.new 10 0 2 2) ⟨⟨[2, 0, 0, 0, 0, 1], rfl⟩⟩
            (.new 10 0 2 15))] = ok (trace, final) ∧
      ∃ payloads, Carried ⟨⟨[2, 0, 0, 0, 0, 1], rfl⟩⟩ (transmitted (.new 10 0 2 2) trace) payloads ∧
        payloads ++ final.arp.parked (.new 10 0 2 2) = accepted (.new 10 0 2 2) trace := by
  obtain ⟨trace, final, hrun⟩ := execute_transfer_returns
    (.configured ⟨⟨[2, 0, 0, 0, 0, 1], rfl⟩⟩ (.new 10 0 2 15) (.new 255 255 255 0) (.new 10 0 2 2) .Idle)
    [.send (.new 1 1 1 1) (.ofData Slice.empty (.new 10 0 2 15) (.new 1 1 1 1) 7 .ICMP),
      .arp (arpPacket .Reply ⟨⟨[2, 0, 0, 0, 0, 2], rfl⟩⟩ (.new 10 0 2 2) ⟨⟨[2, 0, 0, 0, 0, 1], rfl⟩⟩
        (.new 10 0 2 15))]
    (by
      intro dst packet hmem
      simp only [List.mem_cons, Traffic.send.injEq, reduceCtorEq, List.not_mem_nil, or_false] at hmem
      rw [hmem.2]
      exact Ipv4Packet.ofData_wellFormed (by decide) _ _ _ rfl)
  exact ⟨trace, final, hrun, (arp_queue_history (.new 10 0 2 2) _ _ _ _ _ hrun).2.2.1⟩

end conc_os.network.handler
