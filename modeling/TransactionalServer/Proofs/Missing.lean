import TransactionalServer.Proofs.LogSteps
import Mathlib.Data.List.Sort

/-! The gap scan. It asks for exactly the numbers a record lacks below its
highest entry or up to the commit number. -/

namespace TransactionalServer.Proofs
open LogHandler

private theorem mem_scanKey {current key number : Int} {fetch : List Int} :
    number ∈ (scanKey (current, fetch) key).2 ↔ number ∈ fetch ∨ (current < number ∧ number < key) := by
  simp only [scanKey]
  split
  next => simp only [List.mem_append, Int.mem_range_iff, Int.add_one_le_iff]
  next adjacent =>
    have adjacent : current = key - 1 := not_not.mp adjacent
    constructor
    · exact Or.inl
    · rintro (inside | between)
      · exact inside
      · omega

private theorem mem_scan {keys : List Int} {current : Int} (number : Int) (fetch : List Int) (ordered : keys.Pairwise (· < ·))
    (low : ∀ key ∈ keys, current ≤ key) :
    number ∈ (keys.foldl scanKey (current, fetch)).2 ↔
      number ∈ fetch ∨ (current < number ∧ number ∉ keys ∧ ∃ key ∈ keys, number < key) := by
  induction keys generalizing current fetch with
  | nil => simp
  | cons key keys ih =>
    obtain ⟨above, ordered⟩ := List.pairwise_cons.mp ordered
    have start := low key List.mem_cons_self
    have step : (key :: keys).foldl scanKey (current, fetch) =
        keys.foldl scanKey (key, (scanKey (current, fetch) key).2) := rfl
    rw [step, ih _ ordered (fun next member => Int.le_of_lt (above next member)), mem_scanKey]
    simp only [List.mem_cons, not_or, exists_eq_or_imp]
    constructor
    · rintro ((inside | between) | ⟨later, absent, next, member, before⟩)
      · exact Or.inl inside
      · refine Or.inr ⟨between.1, ⟨by omega, ?_⟩, Or.inl between.2⟩
        intro member
        have := above number member
        omega
      · exact Or.inr ⟨by omega, ⟨by omega, absent⟩, Or.inr ⟨next, member, before⟩⟩
    · rintro (inside | ⟨after, ⟨differs, absent⟩, before | ⟨next, member, before⟩⟩)
      · exact Or.inl (Or.inl inside)
      · exact Or.inl (Or.inr ⟨after, before⟩)
      · by_cases between : number < key
        · exact Or.inl (Or.inr ⟨after, between⟩)
        · exact Or.inr ⟨by omega, absent, next, member, before⟩

private theorem scan_last {keys : List Int} {current : Int} (fetch : List Int) (ordered : keys.Pairwise (· < ·))
    (low : ∀ key ∈ keys, current ≤ key) :
    current ≤ (keys.foldl scanKey (current, fetch)).1 ∧ (∀ key ∈ keys, key ≤ (keys.foldl scanKey (current, fetch)).1) ∧
      ((keys.foldl scanKey (current, fetch)).1 = current ∨ (keys.foldl scanKey (current, fetch)).1 ∈ keys) := by
  induction keys generalizing current fetch with
  | nil => simp
  | cons key keys ih =>
    obtain ⟨above, ordered⟩ := List.pairwise_cons.mp ordered
    have start := low key List.mem_cons_self
    have step : (key :: keys).foldl scanKey (current, fetch) =
        keys.foldl scanKey (key, (scanKey (current, fetch) key).2) := rfl
    obtain ⟨first, every, last⟩ := ih (scanKey (current, fetch) key).2 ordered
      (fun next member => Int.le_of_lt (above next member))
    rw [step]
    refine ⟨Int.le_trans start first, ?_, Or.inr ?_⟩
    · intro next member
      rcases List.mem_cons.mp member with rfl | later
      · exact first
      · exact every next later
    · rcases last with same | inside
      · rw [same]
        exact List.mem_cons_self
      · exact List.mem_cons_of_mem _ inside

theorem keys_ordered (record : Record) : record.keys.Pairwise (· < ·) :=
  record.ordered_keys.imp (fun before => Int.compare_eq_lt.mp before)

/-- A number is asked for when the record lacks it and it is not above both the
commit number and every entry. -/
theorem mem_missing {record : Record} {commitSeq number : Int} (low : ∀ key ∈ record, -1 ≤ key) :
    number ∈ missing record commitSeq ↔
      0 ≤ number ∧ number ∉ record ∧ (number ≤ commitSeq ∨ ∃ key ∈ record, number < key) := by
  have lowKeys : ∀ key ∈ record.keys, -1 ≤ key := fun key member => low key (Std.ExtTreeMap.mem_keys.mp member)
  have scanned := mem_scan number [] (keys_ordered record) lowKeys
  obtain ⟨start, every, last⟩ := scan_last [] (keys_ordered record) lowKeys
  simp only [List.not_mem_nil, false_or, Std.ExtTreeMap.mem_keys] at scanned every last
  unfold missing
  generalize record.keys.foldl scanKey (-1, []) = result at scanned start every last
  obtain ⟨current, fetch⟩ := result
  simp only at scanned start every last ⊢
  have top : number ∉ record → (current < number ↔ 0 ≤ number ∧ ¬ ∃ key ∈ record, number < key) := by
    intro absent
    constructor
    · intro above
      refine ⟨by omega, ?_⟩
      rintro ⟨key, member, before⟩
      have := every key member
      omega
    · rintro ⟨positive, highest⟩
      rcases last with same | inside
      · omega
      · by_contra below
        have differs : current ≠ number := fun same => absent (same ▸ inside)
        exact highest ⟨current, inside, by omega⟩
  have appended : number ∈ (Int.range current commitSeq).map (· + 1) ↔ current < number ∧ number ≤ commitSeq := by
    simp only [List.mem_map, Int.mem_range_iff]
    constructor
    · rintro ⟨before, range, rfl⟩
      omega
    · intro range
      exact ⟨number - 1, by omega, by omega⟩
  have asked : number ∈ (if current < commitSeq then fetch ++ (Int.range current commitSeq).map (· + 1) else fetch) ↔
      number ∈ fetch ∨ (current < number ∧ number ≤ commitSeq) := by
    split
    · rw [List.mem_append, appended]
    · constructor
      · exact Or.inl
      · rintro (inside | range)
        · exact inside
        · omega
  rw [asked, scanned]
  constructor
  · rintro (⟨positive, absent, later⟩ | ⟨above, below⟩)
    · exact ⟨by omega, absent, Or.inr later⟩
    · have absent : number ∉ record := fun member => by
        have := every number member
        omega
      exact ⟨by omega, absent, Or.inl below⟩
  · rintro ⟨positive, absent, below | later⟩
    · by_cases later : ∃ key ∈ record, number < key
      · exact Or.inl ⟨by omega, absent, later⟩
      · exact Or.inr ⟨(top absent).mpr ⟨positive, later⟩, below⟩
    · exact Or.inl ⟨by omega, absent, later⟩

private theorem range_ordered (low high : Int) : (Int.range low high).Pairwise (· < ·) := by
  unfold Int.range
  rw [List.pairwise_map]
  exact List.pairwise_lt_range.imp (fun before => by omega)

/-- A scan adds its gaps in order, and none of them above the key it has come to. -/
private theorem scan_ordered {keys : List Int} {current : Int} {fetch : List Int} (ordered : keys.Pairwise (· < ·))
    (low : ∀ key ∈ keys, current ≤ key) (sorted : fetch.Pairwise (· < ·)) (behind : ∀ number ∈ fetch, number ≤ current) :
    (keys.foldl scanKey (current, fetch)).2.Pairwise (· < ·) ∧
      ∀ number ∈ (keys.foldl scanKey (current, fetch)).2, number ≤ (keys.foldl scanKey (current, fetch)).1 := by
  induction keys generalizing current fetch with
  | nil => exact ⟨sorted, behind⟩
  | cons key keys ih =>
    obtain ⟨above, ordered⟩ := List.pairwise_cons.mp ordered
    have start := low key List.mem_cons_self
    have step : (key :: keys).foldl scanKey (current, fetch) =
        keys.foldl scanKey (key, (scanKey (current, fetch) key).2) := rfl
    rw [step]
    apply ih ordered (fun next member => Int.le_of_lt (above next member))
    · simp only [scanKey]
      split
      · rw [List.pairwise_append]
        refine ⟨sorted, range_ordered _ _, ?_⟩
        intro old earlier new later
        have before := behind old earlier
        have after := Int.mem_range_iff.mp later
        omega
      · exact sorted
    · intro number member
      rcases mem_scanKey.mp member with earlier | between
      · exact Int.le_trans (behind number earlier) start
      · omega

/-- The numbers are asked for in increasing order. -/
theorem missing_ordered {record : Record} (low : ∀ key ∈ record, -1 ≤ key) (commitSeq : Int) :
    (missing record commitSeq).Pairwise (· < ·) := by
  have lowKeys : ∀ key ∈ record.keys, -1 ≤ key := fun key member => low key (Std.ExtTreeMap.mem_keys.mp member)
  obtain ⟨sorted, behind⟩ := scan_ordered (keys_ordered record) lowKeys List.Pairwise.nil (fun _ member => absurd member List.not_mem_nil)
  unfold missing
  generalize record.keys.foldl scanKey (-1, []) = result at sorted behind
  obtain ⟨current, fetch⟩ := result
  simp only at sorted behind ⊢
  split
  · rw [List.pairwise_append, List.pairwise_map]
    refine ⟨sorted, (range_ordered _ _).imp (fun before => by omega), ?_⟩
    intro old earlier new later
    obtain ⟨number, member, rfl⟩ := List.mem_map.mp later
    have before := behind old earlier
    have after := Int.mem_range_iff.mp member
    omega
  · exact sorted

theorem missing_empty {record : Record} {commitSeq : Int} (low : ∀ key ∈ record, -1 ≤ key) :
    missing record commitSeq = [] ↔
      ∀ number, 0 ≤ number → (number ≤ commitSeq ∨ ∃ key ∈ record, number < key) → number ∈ record := by
  rw [List.eq_nil_iff_forall_not_mem]
  constructor
  · intro none number positive wanted
    by_contra absent
    exact none number ((mem_missing low).mpr ⟨positive, absent, wanted⟩)
  · intro every number member
    obtain ⟨positive, absent, wanted⟩ := (mem_missing low).mp member
    exact absent (every number positive wanted)

/-- A record with a status lacks no number that is not asked for, whatever
entries it has below. -/
theorem mem_of_gapless {record : Record} {seq number : Int} (status : (-1 : Int) ∈ record) (complete : missing record seq = [])
    (from1 : 1 ≤ number) (below : number ≤ seq) : number ∈ record := by
  have ordered := keys_ordered record
  have members (key : Int) : key ∈ record.keys ↔ key ∈ record := Std.ExtTreeMap.mem_keys
  cases keys : record.keys with
  | nil =>
    rw [← members, keys] at status
    cases status
  | cons first rest =>
    rw [keys] at ordered
    obtain ⟨above, ordered⟩ := List.pairwise_cons.mp ordered
    have start : first ≤ -1 := by
      rw [← members, keys] at status
      rcases List.mem_cons.mp status with same | later
      · omega
      · exact Int.le_of_lt (above _ later)
    have skipped : scanKey (-1, []) first = (first, []) := by
      have nothing : Int.range (-1 + 1) first = [] := by
        rw [List.eq_nil_iff_forall_not_mem]
        intro key member
        have range := Int.mem_range_iff.mp member
        omega
      simp only [scanKey, nothing, List.append_nil, ite_self]
    have low : ∀ key ∈ rest, first ≤ key := fun key member => Int.le_of_lt (above key member)
    have scanned := mem_scan number [] ordered low
    obtain ⟨_, every, last⟩ := scan_last [] ordered low
    by_contra absent
    rw [← members, keys, List.mem_cons, not_or] at absent
    rw [missing, keys, List.foldl_cons, skipped] at complete
    generalize rest.foldl scanKey (first, []) = result at scanned every last complete
    obtain ⟨current, fetch⟩ := result
    simp only [List.not_mem_nil, false_or] at scanned every last complete
    by_cases later : ∃ key ∈ rest, number < key
    · have asked : number ∈ fetch := scanned.mpr ⟨by omega, absent.2, later⟩
      split at complete
      · rw [List.append_eq_nil_iff.mp complete |>.1] at asked
        cases asked
      · rw [complete] at asked
        cases asked
    · have behind : current < number := by
        rcases last with same | inside
        · omega
        · by_contra notBehind
          have differs : current ≠ number := fun same => absent.2 (same ▸ inside)
          exact later ⟨current, inside, by omega⟩
      rw [if_pos (by omega)] at complete
      have asked : number ∈ (Int.range current seq).map (· + 1) :=
        List.mem_map.mpr ⟨number - 1, Int.mem_range_iff.mpr ⟨by omega, by omega⟩, by omega⟩
      rw [(List.append_eq_nil_iff.mp complete).2] at asked
      cases asked

/-- The scan looks at the numbers of a record and not at its entries. -/
theorem missing_of_numbers {record other : Record} (same : ∀ key : Int, key ∈ other ↔ key ∈ record) (commitSeq : Int) :
    missing other commitSeq = missing record commitSeq := by
  have keys : other.keys = record.keys := by
    apply (keys_ordered _).eq_of_mem_iff (keys_ordered _)
    intro key
    rw [Std.ExtTreeMap.mem_keys, Std.ExtTreeMap.mem_keys, same]
  simp only [missing, keys]

theorem missing_insert_present {record : Record} {seq : Int} {entry : LogPair} (present : record[seq]? = some entry)
    (other : LogPair) (commitSeq : Int) : missing (record.insert seq other) commitSeq = missing record commitSeq := by
  apply missing_of_numbers
  intro key
  rw [Store.mem_iff_get, Store.mem_iff_get]
  by_cases same : key = seq
  · subst same
    simp [present]
  · rw [Store.get_insert_other same]

end TransactionalServer.Proofs
