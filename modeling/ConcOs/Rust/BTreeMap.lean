import Std.Data.TreeMap.Lemmas

namespace rust

variable {κ ν : Type} {cmp : κ → κ → Ordering}

/-- The entry with the least key. -/
def BTreeMap.first_entry (map : Std.TreeMap κ ν cmp) : Option (κ × ν) :=
  map.minKey?.bind fun key => map[key]?.map fun value => (key, value)

variable [Std.TransCmp cmp]

theorem BTreeMap.size_erase_add_one {map : Std.TreeMap κ ν cmp} {key : κ} {value : ν}
    (h : map[key]? = some value) : (map.erase key).size + 1 = map.size := by
  have hmem : key ∈ map := by rw [Std.TreeMap.mem_iff_isSome_getElem?, h, Option.isSome_some]
  have hsize : map.size ≠ 0 := by
    intro hzero
    have hempty : map.isEmpty = true := by simp [Std.TreeMap.isEmpty_eq_size_eq_zero, hzero]
    exact absurd hmem (Std.TreeMap.not_mem_of_isEmpty hempty)
  rw [Std.TreeMap.size_erase, if_pos (Std.TreeMap.mem_iff_contains.mp hmem)]
  omega

variable [Std.LawfulEqCmp cmp]

theorem BTreeMap.first_entry_eq_none_iff {map : Std.TreeMap κ ν cmp} :
    first_entry map = none ↔ ∀ key : κ, map[key]? = none := by
  constructor
  · intro hnone key
    cases hmin : map.minKey? with
    | none =>
      have hempty := Std.TreeMap.minKey?_eq_none_iff.mp hmin
      exact Std.TreeMap.getElem?_of_isEmpty hempty
    | some least =>
      obtain ⟨hmem, _⟩ := Std.TreeMap.minKey?_eq_some_iff_mem_and_forall.mp hmin
      rw [first_entry, hmin, Option.bind_some, Option.map_eq_none_iff] at hnone
      rw [Std.TreeMap.mem_iff_isSome_getElem?, hnone] at hmem
      cases hmem
  · intro hempty
    simp [first_entry, hempty]

theorem BTreeMap.first_entry_eq_some {map : Std.TreeMap κ ν cmp} {key : κ} {value : ν}
    (h : first_entry map = some (key, value)) :
    map[key]? = some value ∧ ∀ other held, map[other]? = some held → (cmp key other).isLE = true := by
  rw [first_entry, Option.bind_eq_some_iff] at h
  obtain ⟨least, hmin, hvalue⟩ := h
  simp only [Option.map_eq_some_iff, Prod.mk.injEq, exists_eq_right_right] at hvalue
  obtain ⟨hvalue, rfl⟩ := hvalue
  obtain ⟨_, hleast⟩ := Std.TreeMap.minKey?_eq_some_iff_mem_and_forall.mp hmin
  refine ⟨hvalue, fun other held hother => hleast other ?_⟩
  rw [Std.TreeMap.mem_iff_isSome_getElem?, hother, Option.isSome_some]

theorem BTreeMap.getElem?_erase [DecidableEq κ] (map : Std.TreeMap κ ν cmp) (key other : κ) :
    (map.erase key)[other]? = if key = other then none else map[other]? := by
  simp only [Std.TreeMap.getElem?_erase, Std.LawfulEqCmp.compare_eq_iff_eq]

theorem BTreeMap.getElem?_insert [DecidableEq κ] (map : Std.TreeMap κ ν cmp) (key other : κ) (value : ν) :
    (map.insert key value)[other]? = if key = other then some value else map[other]? := by
  simp only [Std.TreeMap.getElem?_insert, Std.LawfulEqCmp.compare_eq_iff_eq]

end rust
