import Mathlib.Data.Finset.Fold
import TransactionalServer.Proofs.Missing
import TransactionalServer.Proofs.Frames

/-! What `canCommit` computes from the numbers that a record has: the gaps up to
its highest number or the commit number, in order. -/

namespace TransactionalServer.Proofs.GapScan
open LogHandler

/-- The record of a transaction that has received these numbers. -/
structure Numbered (record : Record) (numbers : Finset Int) : Prop where
  keys : ∀ key, key ∈ record ↔ key = -1 ∨ key = 0 ∨ key ∈ numbers
  positive : ∀ number ∈ numbers, 1 ≤ number

section
variable {record : Record} {numbers : Finset Int} {number n : Int}

theorem Numbered.low (numbered : Numbered record numbers) : ∀ key ∈ record, -1 ≤ key := by
  intro key member
  rcases (numbered.keys key).mp member with status | file | received
  · omega
  · omega
  · have := numbered.positive key received
    omega

private theorem le_highest : number ≤ numbers.fold max n id ↔ number ≤ n ∨ ∃ key ∈ numbers, number ≤ key := Finset.le_fold_max number

/-- The gaps are the positive numbers up to the highest one that the record
lacks. -/
theorem Numbered.mem_missing (numbered : Numbered record numbers) (high : 1 ≤ n) :
    number ∈ missing record n ↔ 1 ≤ number ∧ number ≤ numbers.fold max n id ∧ number ∉ numbers := by
  rw [Proofs.mem_missing numbered.low, le_highest, numbered.keys]
  constructor
  · rintro ⟨natural, absent, wanted⟩
    obtain ⟨notStatus, notFile, absent⟩ : number ≠ -1 ∧ number ≠ 0 ∧ number ∉ numbers := by simpa only [not_or] using absent
    refine ⟨by omega, ?_, absent⟩
    rcases wanted with below | ⟨key, member, before⟩
    · exact Or.inl below
    · rcases (numbered.keys key).mp member with status | file | received
      · omega
      · omega
      · exact Or.inr ⟨key, received, Int.le_of_lt before⟩
  · rintro ⟨positive, wanted, absent⟩
    refine ⟨by omega, by rw [not_or, not_or]; exact ⟨by omega, by omega, absent⟩, ?_⟩
    rcases wanted with below | ⟨key, received, before⟩
    · exact Or.inl below
    · have differs : number ≠ key := fun same => absent (same ▸ received)
      exact Or.inr ⟨key, (numbered.keys key).mpr (Or.inr (Or.inr received)), by omega⟩

/-- There is no gap exactly when the numbers run from one to the commit number
or beyond. -/
theorem Numbered.missing_empty (numbered : Numbered record numbers) (high : 1 ≤ n) :
    missing record n = [] ↔ ∃ m, n ≤ m ∧ ∀ number, number ∈ numbers ↔ 1 ≤ number ∧ number ≤ m := by
  rw [List.eq_nil_iff_forall_not_mem]
  constructor
  · intro none
    refine ⟨numbers.fold max n id, le_highest.mpr (Or.inl (Int.le_refl n)), ?_⟩
    intro number
    constructor
    · intro received
      exact ⟨numbered.positive number received, le_highest.mpr (Or.inr ⟨number, received, Int.le_refl number⟩)⟩
    · rintro ⟨positive, below⟩
      by_contra absent
      exact none number ((numbered.mem_missing high).mpr ⟨positive, below, absent⟩)
  · rintro ⟨m, beyond, received⟩ number gap
    obtain ⟨positive, below, absent⟩ := (numbered.mem_missing high).mp gap
    apply absent
    rw [received]
    refine ⟨positive, ?_⟩
    rcases le_highest.mp below with below | ⟨key, member, below⟩
    · omega
    · have := (received key).mp member
      exact Int.le_trans below this.2

end

/-- Whatever numbers a transaction has received, the scan for a commit fills an
empty `fetch` with exactly the positive numbers that are missing up to the
highest of these numbers and the commit number, in increasing order, and allows
the commit exactly when the numbers run from one to the commit number or beyond. -/
theorem gap_scan_finds_every_gap_in_order {log : Log} {tsn : Int} {record : Record} {numbers : Finset Int} {n : Int}
    (inLog : log[tsn]? = some record) (numbered : Numbered record numbers) (high : 1 ≤ n) :
    ∃ ready fetch, canCommit log tsn n [] = .ok (ready, fetch) ∧ fetch.Pairwise (· < ·) ∧
      (∀ number, number ∈ fetch ↔ 1 ≤ number ∧ number ≤ numbers.fold max n id ∧ number ∉ numbers) ∧
      (ready = true ↔ ∃ m, n ≤ m ∧ ∀ number, number ∈ numbers ↔ 1 ≤ number ∧ number ≤ m) := by
  refine ⟨_, _, canCommit_of_get inLog n, missing_ordered numbered.low n, fun _ => numbered.mem_missing high, ?_⟩
  have notZero : (n != 0) = true := bne_iff_ne.mpr (by omega)
  rw [notZero, Bool.and_true, List.isEmpty_iff, numbered.missing_empty high]

/-- A transaction with the numbers 1, 3 and 4, and a commit of 1..6. -/
private def gapped : Record :=
  (freshRecord "aa").insert 1 ("WRITE 5 1 3", "xx") |>.insert 3 ("WRITE 5 3 3", "zz") |>.insert 4 ("WRITE 5 4 3", "ww")

private theorem gapped_numbered : Numbered gapped {1, 3, 4} where
  keys key := by
    simp only [gapped, freshRecord, Std.ExtTreeMap.mem_insert, Std.ExtTreeMap.mem_insertIfNew, Std.ExtTreeMap.not_mem_empty, or_false,
      compare_eq_iff_eq, Finset.mem_insert, Finset.mem_singleton]
    omega
  positive number received := by
    simp only [Finset.mem_insert, Finset.mem_singleton] at received
    omega

theorem gaps_between_and_above_are_found :
    ∃ ready fetch, canCommit ((∅ : Log).insert 5 gapped) 5 6 [] = .ok (ready, fetch) ∧ fetch.Pairwise (· < ·) ∧
      (∀ number, number ∈ fetch ↔
        1 ≤ number ∧ number ≤ ({1, 3, 4} : Finset Int).fold max 6 id ∧ number ∉ ({1, 3, 4} : Finset Int)) ∧
      (ready = true ↔ ∃ m, 6 ≤ m ∧ ∀ number, number ∈ ({1, 3, 4} : Finset Int) ↔ 1 ≤ number ∧ number ≤ m) :=
  gap_scan_finds_every_gap_in_order Std.ExtTreeMap.getElem?_insert_self gapped_numbered (by decide)

end TransactionalServer.Proofs.GapScan
