import ConcOs.Net.Dhcp

open rust Result

namespace conc_os_net.dhcp

/-- One item of an options field: a pad byte, or a tag with a length and that
many value bytes. -/
inductive Item where
  | pad
  | option (tag : UInt8) (value : List UInt8)
deriving DecidableEq

namespace Item

def encode : Item → List UInt8
  | pad => [OPT_PAD]
  | option tag value => tag :: UInt8.ofNat value.length :: value

/-- The length and value rules for the tags the client reads. -/
structure Allowed (tag : UInt8) (value : List UInt8) : Prop where
  addr : tag = OPT_SUBNET_MASK ∨ tag = OPT_SERVER_ID → value.length = 4
  router : tag = OPT_ROUTER → 0 < value.length ∧ 4 ∣ value.length
  message_type : tag = OPT_MESSAGE_TYPE → ∃ ty : UInt8, value = [ty] ∧ 1 ≤ ty.toNat ∧ ty.toNat ≤ 8

def WellFormed : Item → Prop
  | pad => True
  | option tag value => tag ≠ OPT_PAD ∧ tag ≠ OPT_END ∧ value.length < 256 ∧ Allowed tag value

def valueOf (tag : UInt8) : Item → Option (List UInt8)
  | pad => none
  | option tag' value => if tag' = tag then some value else none

end Item

/-- The bytes of a sequence of items. -/
def encode (items : List Item) : List UInt8 := items.flatMap Item.encode

/-- The value of the last item with a given tag. -/
def lastValue (tag : UInt8) (items : List Item) : Option (List UInt8) :=
  (items.filterMap (Item.valueOf tag)).getLast?

@[simp] theorem encode_nil : encode [] = [] := rfl

@[simp] theorem encode_cons (item : Item) (items : List Item) :
    encode (item :: items) = item.encode ++ encode items := rfl

@[simp] theorem encode_append (first second : List Item) :
    encode (first ++ second) = encode first ++ encode second := List.flatMap_append

theorem lastValue_append_pad (tag : UInt8) (items : List Item) :
    lastValue tag (items ++ [.pad]) = lastValue tag items := by
  simp [lastValue, Item.valueOf]

theorem lastValue_append_option (tag tag' : UInt8) (value : List UInt8) (items : List Item) :
    lastValue tag (items ++ [.option tag' value]) = if tag' = tag then some value else lastValue tag items := by
  by_cases htag : tag' = tag <;> simp [lastValue, Item.valueOf, htag]

/-- A field that ends in an End byte splits at most one way: after a prefix of
well-formed items, what is left is the encoding of the remaining items. -/
theorem encode_append_cancel {items all : List Item} {left rest : List UInt8}
    (hitems : ∀ item ∈ items, item.WellFormed) (hall : ∀ item ∈ all, item.WellFormed)
    (heq : encode items ++ left = encode all ++ OPT_END :: rest) :
    ∃ more, all = items ++ more ∧ left = encode more ++ OPT_END :: rest := by
  induction items generalizing all with
  | nil => exact ⟨all, rfl, heq⟩
  | cons item items ih =>
    obtain ⟨hitem, hitems⟩ := List.forall_mem_cons.mp hitems
    cases all with
    | nil =>
      -- The End byte would have to be the first byte of a well-formed item.
      cases item with
      | pad => simp [Item.encode, OPT_PAD, OPT_END] at heq
      | option tag value =>
        simp only [encode_cons, Item.encode, encode_nil, List.cons_append, List.nil_append,
          List.cons.injEq] at heq
        exact absurd heq.1 hitem.2.1
    | cons first all =>
      obtain ⟨hfirst, hothers⟩ := List.forall_mem_cons.mp hall
      have hsame : item = first ∧ encode items ++ left = encode all ++ OPT_END :: rest := by
        cases item with
        | pad =>
          cases first with
          | pad => simpa [Item.encode] using heq
          | option tag value =>
            simp only [encode_cons, Item.encode, List.cons_append, List.nil_append, List.cons.injEq] at heq
            exact absurd heq.1.symm hfirst.1
        | option tag value =>
          cases first with
          | pad =>
            simp only [encode_cons, Item.encode, List.cons_append, List.nil_append, List.cons.injEq] at heq
            exact absurd heq.1 hitem.1
          | option tag' value' =>
            simp only [encode_cons, Item.encode, List.cons_append, List.append_assoc, List.cons.injEq] at heq
            obtain ⟨htag, hcount, htail⟩ := heq
            have hlen : value.length = value'.length := by
              have hnat := congrArg UInt8.toNat hcount
              have hlt := hitem.2.2.1
              have hlt' := hfirst.2.2.1
              simp only [UInt8.toNat_ofNat'] at hnat
              omega
            obtain ⟨hvalue, htail⟩ := List.append_inj htail hlen
            exact ⟨by rw [htag, hvalue], htail⟩
      obtain ⟨rfl, htail⟩ := hsame
      obtain ⟨more, rfl, hleft⟩ := ih hitems hothers htail
      exact ⟨more, rfl, hleft⟩

/-- What follows a tag other than Pad and End in a well-formed field: its
length byte, and at least that many bytes, which form its item. -/
theorem encode_option_inv {tag : UInt8} {tail rest : List UInt8} {items : List Item}
    (hpad : tag ≠ OPT_PAD) (hend : tag ≠ OPT_END) (hitems : ∀ item ∈ items, item.WellFormed)
    (heq : tag :: tail = encode items ++ OPT_END :: rest) :
    ∃ value after, tail = UInt8.ofNat value.length :: (value ++ after) ∧ value.length < 256 ∧
      Item.Allowed tag value := by
  cases items with
  | nil =>
    simp only [encode_nil, List.nil_append, List.cons.injEq] at heq
    exact absurd heq.1 hend
  | cons item items =>
    obtain ⟨hitem, _⟩ := List.forall_mem_cons.mp hitems
    cases item with
    | pad =>
      simp only [encode_cons, Item.encode, List.cons_append, List.nil_append, List.cons.injEq] at heq
      exact absurd heq.1 hpad
    | option tag' value =>
      simp only [encode_cons, Item.encode, List.cons_append, List.append_assoc, List.cons.injEq] at heq
      obtain ⟨rfl, htail⟩ := heq
      exact ⟨value, encode items ++ OPT_END :: rest, htail, hitem.2.2.1, hitem.2.2.2⟩

/-- An address option of four bytes. -/
def addrOf (value : List UInt8) : Option Ipv4Addr :=
  if h : value.length = 4 then some (Ipv4Addr.from_octets ⟨value, h⟩) else none

theorem addrOf_eq_some {value : List UInt8} {addr : Ipv4Addr} :
    addrOf value = some addr ↔ value = addr.octets.val := by
  constructor
  · intro h
    unfold addrOf at h
    split at h
    · cases h
      rfl
    · cases h
  · rintro rfl
    rw [addrOf, dif_pos addr.length_octets]
    rfl

/-- The options a sequence of items leaves behind: the last of each kind. -/
def optionsOf (items : List Item) : Options where
  message_type := (lastValue OPT_MESSAGE_TYPE items).bind fun value =>
    value.head?.bind DHCPMessageType.try_from
  subnet_mask := (lastValue OPT_SUBNET_MASK items).bind addrOf
  router := (lastValue OPT_ROUTER items).bind fun value => addrOf (value.take 4)
  server_id := (lastValue OPT_SERVER_ID items).bind addrOf

end conc_os_net.dhcp
