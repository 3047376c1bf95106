import Mathlib.Data.List.Count

/-! Items that wait for their reader. It takes the first of them; of the others
only those that come late are still there for the next time. -/

namespace Inbox

variable {α : Type}

/-- The first item, and what is left once so many have come late. -/
def take (late : Nat) : List α → Option (α × List α)
  | [] => none
  | first :: rest => some (first, rest.drop (rest.length - late))

variable {late : Nat} {items left : List α} {first item : α}

theorem take_eq_some (taken : take late items = some (first, left)) : ∃ rest, items = first :: rest ∧ left.Sublist rest := by
  cases items with
  | nil => cases taken
  | cons head rest =>
    cases taken
    exact ⟨rest, rfl, List.drop_sublist _ _⟩

theorem take_returns (some : items ≠ []) : ∃ first left, take late items = .some (first, left) := by
  obtain ⟨first, rest, rfl⟩ := List.exists_cons_of_ne_nil some
  exact ⟨first, _, rfl⟩

/-- A single item leaves nothing. -/
theorem take_alone : take late [item] = some (item, []) := by rw [take, List.drop_nil]

/-- Without late items only the first one is seen. -/
theorem take_prompt (rest : List α) : take 0 (item :: rest) = some (item, []) := by rw [take, Nat.sub_zero, List.drop_length]

theorem mem_of_take (taken : take late items = some (first, left)) : first ∈ items ∧ ∀ item ∈ left, item ∈ items := by
  obtain ⟨rest, rfl, sublist⟩ := take_eq_some taken
  exact ⟨List.mem_cons_self, fun item member => List.mem_cons_of_mem _ (sublist.subset member)⟩

/-- A reader that takes an item of a kind leaves fewer of that kind. -/
theorem count_of_take {kind : α → Bool} (taken : take late items = some (first, left)) :
    left.countP kind + (if kind first then 1 else 0) ≤ items.countP kind := by
  obtain ⟨rest, rfl, sublist⟩ := take_eq_some taken
  rw [List.countP_cons]
  exact Nat.add_le_add_right sublist.countP_le _

end Inbox
