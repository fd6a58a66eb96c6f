import ConcOs.Net.Arp

open rust Result
open conc_os_net.ethernet

namespace conc_os_net.arp

namespace ArpCache

/-- The cache as a partial function of the address. -/
def entry (self : ArpCache) (ip : Ipv4Addr) : Option ArpEntry := self.entries[ip]?

/-- The cache with one entry replaced. -/
def put (self : ArpCache) (ip : Ipv4Addr) (e : ArpEntry) : ArpCache := ⟨self.entries.insert ip e⟩

theorem entry_put (self : ArpCache) (ip : Ipv4Addr) (e : ArpEntry) (other : Ipv4Addr) :
    (self.put ip e).entry other = if ip = other then some e else self.entry other := by
  simp [entry, put, Std.TreeMap.getElem?_insert]

@[simp] theorem entry_new (ip : Ipv4Addr) : new.entry ip = none := by
  simp [entry, new]

/-- The frames parked on an address. -/
def parked (self : ArpCache) (ip : Ipv4Addr) : List (Vec UInt8) :=
  match self.entry ip with
  | some (.Pending queue) => queue
  | some (.Resolved _) | none => []

theorem insert_eq (self : ArpCache) (ip : Ipv4Addr) (mac : MacAddress) :
    self.insert ip mac = (self.parked ip, self.put ip (.Resolved mac)) := rfl

theorem lookup_eq (self : ArpCache) (ip : Ipv4Addr) :
    self.lookup ip = match self.entry ip with
      | some (.Resolved mac) => some mac
      | some (.Pending _) | none => none := rfl

theorem lookup_eq_some_iff {self : ArpCache} {ip : Ipv4Addr} {mac : MacAddress} :
    self.lookup ip = some mac ↔ self.entry ip = some (.Resolved mac) := by
  unfold lookup entry
  split <;> simp_all

/-- What `queue_pending` may do, with the reason for each. -/
inductive QueueOutcome (self : ArpCache) (ip : Ipv4Addr) (frame : Vec UInt8) : Queued × ArpCache → Prop where
  | appended {queue : List (Vec UInt8)} (hentry : self.entry ip = some (.Pending queue))
      (hroom : queue.length < MAX_PENDING_PER_ADDRESS) :
      QueueOutcome self ip frame (.AlreadyPending, self.put ip (.Pending (queue ++ [frame])))
  | opened (hentry : self.entry ip = none) (hroom : self.pending_addresses < MAX_PENDING_ADDRESSES) :
      QueueOutcome self ip frame (.RequestNeeded, self.put ip (.Pending [frame]))
  | queueFull {queue : List (Vec UInt8)} (hentry : self.entry ip = some (.Pending queue))
      (hfull : MAX_PENDING_PER_ADDRESS ≤ queue.length) : QueueOutcome self ip frame (.Dropped, self)
  | addressesFull (hentry : self.entry ip = none) (hfull : MAX_PENDING_ADDRESSES ≤ self.pending_addresses) :
      QueueOutcome self ip frame (.Dropped, self)
  | resolved {mac : MacAddress} (hentry : self.entry ip = some (.Resolved mac)) :
      QueueOutcome self ip frame (.Dropped, self)

theorem queue_pending_spec (self : ArpCache) (ip : Ipv4Addr) (frame : Vec UInt8) :
    QueueOutcome self ip frame (self.queue_pending ip frame) := by
  unfold queue_pending
  cases hentry : self.entries[ip]? with
  | none =>
    simp only
    split
    · exact .addressesFull hentry ‹_›
    · exact .opened hentry (Nat.lt_of_not_le ‹_›)
  | some e =>
    cases e with
    | Resolved mac => exact .resolved hentry
    | Pending queue =>
      simp only
      split
      · exact .appended hentry ‹_›
      · exact .queueFull hentry (Nat.le_of_not_lt ‹_›)

theorem pending_of_mem_parked {self : ArpCache} {ip : Ipv4Addr} {frame : Vec UInt8}
    (h : frame ∈ self.parked ip) : ∃ queue, self.entry ip = some (.Pending queue) := by
  unfold parked at h
  split at h
  · exact ⟨_, ‹_›⟩
  all_goals cases h

/-- A frame is parked behind those that wait for the same address, or dropped. -/
theorem parked_queue_pending (self : ArpCache) (ip : Ipv4Addr) (frame : Vec UInt8) (other : Ipv4Addr) :
    (self.queue_pending ip frame).2.parked other = self.parked other ∨
      other = ip ∧ (self.queue_pending ip frame).2.parked other = self.parked other ++ [frame] := by
  have hspec := self.queue_pending_spec ip frame
  generalize self.queue_pending ip frame = result at hspec ⊢
  cases hspec with
  | queueFull | addressesFull | resolved => exact Or.inl rfl
  | appended hentry hroom | opened hentry hroom =>
    by_cases hsame : ip = other
    · subst hsame
      right
      simp only [parked, entry_put, hentry, if_true, true_and, List.nil_append]
    · left
      simp only [parked, entry_put, hsame, if_false]

/-- An address that frames wait for was waited for before, or has to be asked
for now. -/
theorem pending_of_queue_pending {self : ArpCache} {ip other : Ipv4Addr} {frame : Vec UInt8}
    {queue : List (Vec UInt8)} (h : (self.queue_pending ip frame).2.entry other = some (.Pending queue)) :
    (∃ queue, self.entry other = some (.Pending queue)) ∨
      other = ip ∧ (self.queue_pending ip frame).1 = .RequestNeeded := by
  have hspec := self.queue_pending_spec ip frame
  generalize self.queue_pending ip frame = result at hspec h ⊢
  cases hspec with
  | queueFull | addressesFull | resolved => exact Or.inl ⟨queue, h⟩
  | appended hentry hroom =>
    rw [entry_put] at h
    split_ifs at h with hsame
    · exact Or.inl ⟨_, hsame ▸ hentry⟩
    · exact Or.inl ⟨queue, h⟩
  | opened hentry hroom =>
    rw [entry_put] at h
    split_ifs at h with hsame
    · exact Or.inr ⟨hsame.symm, rfl⟩
    · exact Or.inl ⟨queue, h⟩

/-- Every parked frame has the property `P`. -/
def AllParked (P : Vec UInt8 → Prop) (self : ArpCache) : Prop := ∀ ip, ∀ frame ∈ self.parked ip, P frame

theorem AllParked.new (P : Vec UInt8 → Prop) : AllParked P ArpCache.new := by
  intro ip frame hframe
  simp [parked] at hframe

theorem AllParked.put_resolved {P : Vec UInt8 → Prop} {self : ArpCache} (h : AllParked P self) (ip : Ipv4Addr)
    (mac : MacAddress) : AllParked P (self.put ip (.Resolved mac)) := by
  intro other frame hframe
  rw [parked, entry_put] at hframe
  split_ifs at hframe
  · simp at hframe
  · exact h other frame hframe

theorem AllParked.put_pending {P : Vec UInt8 → Prop} {self : ArpCache} (h : AllParked P self) (ip : Ipv4Addr)
    {queue : List (Vec UInt8)} (hqueue : ∀ frame ∈ queue, P frame) :
    AllParked P (self.put ip (.Pending queue)) := by
  intro other frame hframe
  rw [parked, entry_put] at hframe
  split_ifs at hframe
  · exact hqueue frame hframe
  · exact h other frame hframe

theorem AllParked.queue_pending {P : Vec UInt8 → Prop} {self : ArpCache} (h : AllParked P self) (ip : Ipv4Addr)
    {frame : Vec UInt8} (hframe : P frame) : AllParked P (self.queue_pending ip frame).2 := by
  have hspec := self.queue_pending_spec ip frame
  generalize self.queue_pending ip frame = result at hspec ⊢
  cases hspec with
  | appended hentry hroom =>
    refine h.put_pending ip fun other hother => ?_
    rcases List.mem_append.mp hother with hold | hnew
    · exact h ip other (by rw [parked, hentry]; exact hold)
    · rwa [List.mem_singleton.mp hnew]
  | opened hentry hroom =>
    refine h.put_pending ip fun other hother => ?_
    rwa [List.mem_singleton.mp hother]
  | queueFull | addressesFull | resolved => exact h

/-- The count of pending addresses counts distinct addresses. -/
theorem exists_pending_of_le {self : ArpCache} {n : Nat} (h : n ≤ self.pending_addresses) :
    ∃ addrs : List Ipv4Addr, addrs.Nodup ∧ addrs.length = n ∧
      ∀ a ∈ addrs, ∃ queue, self.entry a = some (.Pending queue) := by
  let pending := self.entries.toList.filter fun e => is_pending e.2
  have hcount : pending.length = self.pending_addresses := List.countP_eq_length_filter.symm
  have hnodup : (pending.map Prod.fst).Nodup := by
    refine List.pairwise_map.mpr ((self.entries.distinct_keys_toList.filter _).imp ?_)
    intro a b hne heq
    exact hne (by simp [heq])
  refine ⟨(pending.map Prod.fst).take n, hnodup.sublist (List.take_sublist _ _), ?_, ?_⟩
  · rw [List.length_take, List.length_map]
    omega
  · intro a ha
    obtain ⟨⟨key, e⟩, hmem, rfl⟩ := List.mem_map.mp (List.mem_of_mem_take ha)
    obtain ⟨hlist, hpending⟩ := List.mem_filter.mp hmem
    have hentry : self.entry key = some e := Std.TreeMap.mem_toList_iff_getElem?_eq_some.mp hlist
    cases e with
    | Resolved mac => simp [is_pending] at hpending
    | Pending queue => exact ⟨queue, hentry⟩

end ArpCache

end conc_os_net.arp
