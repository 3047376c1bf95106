import Std.Data.ExtTreeMap.Lemmas

/-! Ordered maps up to extensionality: what one update leaves behind, and when
two chains of updates are the same map. -/

namespace Store
open Std

variable {α β : Type} {cmp : α → α → Ordering} [TransCmp cmp] {store : ExtTreeMap α β cmp} {key other : α} {value : β}

theorem mem_iff_get : key ∈ store ↔ ∃ value, store[key]? = some value := by
  rw [ExtTreeMap.mem_iff_isSome_getElem?, Option.isSome_iff_exists]

theorem not_mem_iff_get : key ∉ store ↔ store[key]? = none := by
  rw [ExtTreeMap.mem_iff_isSome_getElem?, Option.not_isSome_iff_eq_none]

theorem contains_of_get (found : store[key]? = some value) : store.contains key = true := by
  rw [ExtTreeMap.contains_eq_isSome_getElem?, found]
  rfl

theorem contains_of_absent (absent : store[key]? = none) : store.contains key = false := by
  rw [ExtTreeMap.contains_eq_isSome_getElem?, absent]
  rfl

variable [LawfulEqCmp cmp]

theorem get_insert_other (differs : other ≠ key) : (store.insert key value)[other]? = store[other]? := by
  rw [ExtTreeMap.getElem?_insert]
  have distinct : cmp key other ≠ .eq := fun same => differs (LawfulEqCmp.eq_of_compare same).symm
  rw [if_neg distinct]

theorem get_erase_other (differs : other ≠ key) : (store.erase key)[other]? = store[other]? := by
  rw [ExtTreeMap.getElem?_erase]
  have distinct : cmp key other ≠ .eq := fun same => differs (LawfulEqCmp.eq_of_compare same).symm
  rw [if_neg distinct]

theorem insert_insert (first second : β) : (store.insert key first).insert key second = store.insert key second := by
  apply ExtTreeMap.ext_getElem?
  intro other
  by_cases same : other = key
  · subst same
    rw [ExtTreeMap.getElem?_insert_self, ExtTreeMap.getElem?_insert_self]
  · rw [get_insert_other same, get_insert_other same, get_insert_other same]

/-- Storing what is already there changes nothing. -/
theorem insert_get (found : store[key]? = some value) : store.insert key value = store := by
  apply ExtTreeMap.ext_getElem?
  intro other
  by_cases same : other = key
  · subst same
    rw [ExtTreeMap.getElem?_insert_self, found]
  · rw [get_insert_other same]

theorem insertIfNew_of_absent (absent : store[key]? = none) : store.insertIfNew key value = store.insert key value := by
  apply ExtTreeMap.ext_getElem?
  intro other
  rw [ExtTreeMap.getElem?_insertIfNew, ExtTreeMap.getElem?_insert]
  by_cases same : cmp key other = .eq
  · have fresh : key ∉ store := not_mem_iff_get.mpr absent
    rw [if_pos ⟨same, fresh⟩, if_pos same]
  · rw [if_neg (fun both => same both.1), if_neg same]

end Store
