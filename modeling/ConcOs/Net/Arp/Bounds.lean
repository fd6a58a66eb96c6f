import ConcOs.Net.Arp.Cache

open rust Result
open conc_os_net.ethernet

namespace conc_os_net.arp

namespace ArpCache

/-- The address awaits a reply. -/
def Awaits (self : ArpCache) (ip : Ipv4Addr) : Prop := ∃ queue, self.entry ip = some (.Pending queue)

theorem entry_remove (self : ArpCache) (ip other : Ipv4Addr) :
    (self.remove ip).entry other = if ip = other then none else self.entry other := by
  simp [entry, remove, Std.TreeMap.getElem?_erase]

/-- Distinct addresses that await a reply are all counted. -/
theorem le_pending_addresses {self : ArpCache} {addrs : List Ipv4Addr} (hnodup : addrs.Nodup)
    (hawaits : ∀ a ∈ addrs, self.Awaits a) : addrs.length ≤ self.pending_addresses := by
  have hsubset : addrs ⊆ (self.entries.toList.filter fun e => is_pending e.2).map Prod.fst := by
    intro a ha
    obtain ⟨queue, hentry⟩ := hawaits a ha
    refine List.mem_map.mpr ⟨(a, .Pending queue), List.mem_filter.mpr ⟨?_, rfl⟩, rfl⟩
    exact Std.TreeMap.mem_toList_iff_getElem?_eq_some.mpr hentry
  have hle := (List.subperm_of_subset hnodup hsubset).length_le
  rwa [List.length_map, ← List.countP_eq_length_filter] at hle

/-- A cache with fewer waiting addresses has a smaller count. -/
theorem pending_addresses_mono {self other : ArpCache} (h : ∀ ip, other.Awaits ip → self.Awaits ip) :
    other.pending_addresses ≤ self.pending_addresses := by
  obtain ⟨addrs, hnodup, hlen, hawaits⟩ := other.exists_pending_of_le le_rfl
  rw [← hlen]
  exact le_pending_addresses hnodup fun a ha => h a (hawaits a ha)

/-- Replacing one entry adds at most one waiting address. -/
theorem pending_addresses_put_le (self : ArpCache) (ip : Ipv4Addr) (e : ArpEntry) :
    (self.put ip e).pending_addresses ≤ self.pending_addresses + 1 := by
  obtain ⟨addrs, hnodup, hlen, hawaits⟩ := (self.put ip e).exists_pending_of_le le_rfl
  -- all that wait now, except perhaps `ip`, waited before
  have hothers : (addrs.erase ip).length ≤ self.pending_addresses := by
    refine le_pending_addresses (hnodup.erase ip) fun a ha => ?_
    obtain ⟨hne, hmem⟩ := (hnodup.mem_erase_iff).mp ha
    obtain ⟨queue, hentry⟩ := hawaits a hmem
    rw [entry_put, if_neg (Ne.symm hne)] at hentry
    exact ⟨queue, hentry⟩
  have hcount := List.length_erase_add_one (a := ip) (l := addrs)
  by_cases hmem : ip ∈ addrs
  · have := hcount hmem
    omega
  · rw [List.erase_of_not_mem hmem] at hothers
    omega

/-- The bounds a cache keeps. -/
structure Bounded (cache : ArpCache) : Prop where
  queues : ∀ ip queue, cache.entry ip = some (.Pending queue) →
    1 ≤ queue.length ∧ queue.length ≤ MAX_PENDING_PER_ADDRESS
  addresses : cache.pending_addresses ≤ MAX_PENDING_ADDRESSES

theorem Bounded.new : Bounded ArpCache.new where
  queues := by
    intro ip queue hentry
    simp at hentry
  addresses := by
    obtain ⟨addrs, _, hlen, hawaits⟩ := ArpCache.new.exists_pending_of_le le_rfl
    cases addrs with
    | nil => simp [← hlen]
    | cons a addrs =>
      obtain ⟨queue, hentry⟩ := hawaits a (by simp)
      simp at hentry

/-- A new entry keeps the bounds if its queue does, and if there is room for one
more waiting address or the address waited before. -/
theorem Bounded.put {self : ArpCache} (h : self.Bounded) {ip : Ipv4Addr} {e : ArpEntry}
    (hqueue : ∀ queue, e = .Pending queue → 1 ≤ queue.length ∧ queue.length ≤ MAX_PENDING_PER_ADDRESS)
    (hroom : (∃ queue, e = .Pending queue) →
      self.Awaits ip ∨ self.pending_addresses < MAX_PENDING_ADDRESSES) :
    (self.put ip e).Bounded where
  queues := by
    intro other queue hentry
    rw [entry_put] at hentry
    split_ifs at hentry
    · exact hqueue queue (Option.some.inj hentry)
    · exact h.queues other queue hentry
  addresses := by
    have haddresses := h.addresses
    have hput := self.pending_addresses_put_le ip e
    by_cases hnew : (∃ queue, e = .Pending queue) ∧ ¬ self.Awaits ip
    · rcases hroom hnew.1 with hawaits | hlt
      · exact absurd hawaits hnew.2
      · omega
    · refine le_trans (pending_addresses_mono fun other hother => ?_) haddresses
      obtain ⟨queue, hentry⟩ := hother
      rw [entry_put] at hentry
      split_ifs at hentry with hsame
      · subst hsame
        by_contra hnot
        exact hnew ⟨⟨queue, Option.some.inj hentry⟩, hnot⟩
      · exact ⟨queue, hentry⟩

theorem Bounded.insert {self : ArpCache} (h : self.Bounded) (ip : Ipv4Addr) (mac : MacAddress) :
    (self.insert ip mac).2.Bounded := by
  rw [insert_eq]
  exact h.put (by rintro queue ⟨⟩) (by rintro ⟨queue, ⟨⟩⟩)

theorem Bounded.queue_pending {self : ArpCache} (h : self.Bounded) (ip : Ipv4Addr) (frame : Vec UInt8) :
    (self.queue_pending ip frame).2.Bounded := by
  have hspec := self.queue_pending_spec ip frame
  generalize self.queue_pending ip frame = result at hspec ⊢
  cases hspec with
  | @appended queue hentry hroom =>
    refine h.put ?_ fun _ => Or.inl ⟨queue, hentry⟩
    rintro _ ⟨⟩
    rw [List.length_append, List.length_singleton]
    omega
  | opened hentry hroom =>
    refine h.put ?_ fun _ => Or.inr hroom
    rintro _ ⟨⟩
    rw [List.length_singleton]
    decide
  | queueFull | addressesFull | resolved => exact h

theorem Bounded.remove {self : ArpCache} (h : self.Bounded) (ip : Ipv4Addr) : (self.remove ip).Bounded where
  queues := by
    intro other queue hentry
    rw [entry_remove] at hentry
    split_ifs at hentry
    exact h.queues other queue hentry
  addresses := by
    refine le_trans (pending_addresses_mono fun other hother => ?_) h.addresses
    obtain ⟨queue, hentry⟩ := hother
    rw [entry_remove] at hentry
    split_ifs at hentry
    exact ⟨queue, hentry⟩

/-- The operations that change a cache. -/
inductive Operation where
  | insert (ip : Ipv4Addr) (mac : MacAddress)
  | queue_pending (ip : Ipv4Addr) (frame : Vec UInt8)
  | remove (ip : Ipv4Addr)

namespace Operation

/-- The address an operation is about. -/
def address : Operation → Ipv4Addr
  | .insert ip _ | .queue_pending ip _ | .remove ip => ip

def apply (self : ArpCache) : Operation → ArpCache
  | .insert ip mac => (self.insert ip mac).2
  | .queue_pending ip frame => (self.queue_pending ip frame).2
  | .remove ip => self.remove ip

end Operation

/-- The cache after a sequence of operations. -/
def after (operations : List Operation) : ArpCache := operations.foldl Operation.apply ArpCache.new

theorem Bounded.apply {self : ArpCache} (h : self.Bounded) (operation : Operation) :
    (operation.apply self).Bounded := by
  cases operation with
  | insert ip mac => exact h.insert ip mac
  | queue_pending ip frame => exact h.queue_pending ip frame
  | remove ip => exact h.remove ip

theorem bounded_after (operations : List Operation) : (after operations).Bounded := by
  induction operations using List.reverseRecOn with
  | nil => exact Bounded.new
  | append_singleton operations operation ih =>
    rw [after, List.foldl_append]
    exact ih.apply operation

/-- An operation only touches the entry of its address. -/
theorem Operation.entry_apply (self : ArpCache) (operation : Operation) {other : Ipv4Addr}
    (hother : other ≠ operation.address) : (operation.apply self).entry other = self.entry other := by
  cases operation with
  | insert ip mac =>
    rw [apply, insert_eq, entry_put]
    exact if_neg (Ne.symm hother)
  | remove ip =>
    rw [apply, entry_remove]
    exact if_neg (Ne.symm hother)
  | queue_pending ip frame =>
    rw [apply]
    have hspec := self.queue_pending_spec ip frame
    generalize self.queue_pending ip frame = result at hspec ⊢
    cases hspec with
    | appended | opened =>
      rw [entry_put]
      exact if_neg (Ne.symm hother)
    | queueFull | addressesFull | resolved => rfl

/-- The outcome of `queue_pending` says what it did to the cache. -/
theorem queue_pending_outcome (self : ArpCache) (ip : Ipv4Addr) (frame : Vec UInt8) :
    ((self.queue_pending ip frame).1 = .RequestNeeded ↔ self.entry ip = none ∧
        (self.queue_pending ip frame).2.entry ip = some (.Pending [frame])) ∧
      ((self.queue_pending ip frame).1 = .AlreadyPending ↔ ∃ queue, self.entry ip = some (.Pending queue) ∧
        (self.queue_pending ip frame).2.entry ip = some (.Pending (queue ++ [frame]))) ∧
      ((self.queue_pending ip frame).1 = .Dropped ↔
        ∀ other, (self.queue_pending ip frame).2.entry other = self.entry other) ∧
      ((self.queue_pending ip frame).1 = .Dropped → (self.queue_pending ip frame).2 = self) := by
  have hspec := self.queue_pending_spec ip frame
  generalize self.queue_pending ip frame = result at hspec ⊢
  cases hspec with
  | @appended queue hentry hroom =>
    refine ⟨by simp [hentry], by simp [hentry, entry_put], ?_, by simp⟩
    refine ⟨by simp, fun hsame => ?_⟩
    have hqueue := hsame ip
    simp [entry_put, hentry] at hqueue
  | opened hentry hroom =>
    refine ⟨by simp [hentry, entry_put], by simp [hentry], ?_, by simp⟩
    refine ⟨by simp, fun hsame => ?_⟩
    have hqueue := hsame ip
    simp [entry_put, hentry] at hqueue
  | queueFull hentry hfull => simp [hentry]
  | addressesFull hentry hfull => simp [hentry]
  | resolved hentry => simp [hentry]

/-- Whatever is inserted, queued and removed, each waiting address holds between
one and four frames and at most sixteen addresses wait. The outcome of
`queue_pending` is exact, and every operation leaves the other addresses
alone. -/
theorem arp_cache_bounds (operations : List Operation) :
    (∀ ip queue, (after operations).entry ip = some (.Pending queue) →
        1 ≤ queue.length ∧ queue.length ≤ MAX_PENDING_PER_ADDRESS) ∧
      (after operations).pending_addresses ≤ MAX_PENDING_ADDRESSES ∧
      (∀ addrs : List Ipv4Addr, addrs.Nodup → (∀ ip ∈ addrs, (after operations).Awaits ip) →
        addrs.length ≤ MAX_PENDING_ADDRESSES) ∧
      (∀ ip frame, ∀ outcome cache, (after operations).queue_pending ip frame = (outcome, cache) →
        (outcome = .RequestNeeded ↔ (after operations).entry ip = none ∧
          cache.entry ip = some (.Pending [frame])) ∧
        (outcome = .AlreadyPending ↔ ∃ queue, (after operations).entry ip = some (.Pending queue) ∧
          cache.entry ip = some (.Pending (queue ++ [frame]))) ∧
        (outcome = .Dropped ↔ ∀ other, cache.entry other = (after operations).entry other) ∧
        (outcome = .Dropped → cache = after operations)) ∧
      ∀ operation : Operation, ∀ other, other ≠ operation.address →
        (operation.apply (after operations)).entry other = (after operations).entry other := by
  have hbounded := bounded_after operations
  refine ⟨hbounded.queues, hbounded.addresses, fun addrs hnodup hawaits => ?_, ?_,
    fun operation other hother => operation.entry_apply _ hother⟩
  · exact (le_pending_addresses hnodup hawaits).trans hbounded.addresses
  intro ip frame outcome cache hqueued
  have houtcome := (after operations).queue_pending_outcome ip frame
  rwa [hqueued] at houtcome

end ArpCache

end conc_os_net.arp
