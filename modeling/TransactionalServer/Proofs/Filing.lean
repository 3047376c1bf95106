import TransactionalServer.Process
import TransactionalServer.Proofs.Completeness
import TransactionalServer.Proofs.Immutability

/-! Committed transactions and the appends that hold their lines. -/

namespace TransactionalServer.Proofs
open ServerTools LogHandler Exec Session Ledger Traces

def Committed (log : Log) (tsn : Int) : Prop := ∃ record number, Found log tsn record "COMMITTED" number

/-- The append holds the file name and the lines of a committed transaction. -/
def Written (log : Log) (append : Append) : Prop :=
  ∃ record marker number, Found log append.tsn record "COMMITTED" number ∧ record[(0 : Int)]? = some (marker, append.path) ∧
    committedLines log append.tsn (atoi number) = .ok append.lines

/-- Every committed transaction has been written. -/
def Filed (log : Log) (appended : List Append) : Prop :=
  ∀ tsn : Int, 1 ≤ tsn → Committed log tsn → ∃ append ∈ appended, append.tsn = tsn ∧ Written log append

variable {granted : Scope} {log after : Log} {tsn : Int} {before next : State} {label : Option Effect} {disk : Disk}
  {append : Append} {appended : List Append}

theorem Committed.of_same (committed : Committed log tsn) (same : after[tsn]? = log[tsn]?) : Committed after tsn := by
  obtain ⟨record, number, found⟩ := committed
  exact ⟨record, number, same.trans found.inLog, found.entry⟩

theorem Committed.act (committed : Committed before.log tsn) (positive : 1 ≤ tsn) (act : Act granted before label next) :
    Committed next.log tsn := by
  obtain ⟨record, number, found⟩ := committed
  exact ⟨record, number, Immutability.act_keeps_committed positive found act, found.entry⟩

theorem Committed.not_found {record : Record} {status number : Text} (committed : Committed log tsn)
    (found : Found log tsn record status number) (other : status ≠ "COMMITTED") : False := by
  obtain ⟨_, _, settled⟩ := committed
  exact other (found_unique found settled).2.1

/-- Only an append commits. -/
theorem move_commits (move : Move granted log after) (positive : 1 ≤ tsn) (committed : Committed after tsn) : Committed log tsn := by
  have same_status {changed : Int} {record grown : Record} {status number : Text} (found : Found log changed record status number)
      (entry : grown[(-1 : Int)]? = record[(-1 : Int)]?) (committed : Committed (log.insert changed grown) tsn) : Committed log tsn := by
    by_cases here : tsn = changed
    · subst here
      obtain ⟨settled, digits, inLog, settledEntry⟩ := committed
      rw [Std.ExtTreeMap.getElem?_insert_self, Option.some.injEq] at inLog
      subst inLog
      exact ⟨record, digits, found.inLog, entry ▸ settledEntry⟩
    · exact committed.of_same (Store.get_insert_other here).symm
  cases move with
  | reserved same => exact committed.of_same (same tsn positive).symm
  | @create created data =>
    by_cases here : tsn = created
    · subst here
      have fresh : Found (log.insert tsn (freshRecord data)) tsn (freshRecord data) "ACTIVE" "0" :=
        ⟨Std.ExtTreeMap.getElem?_insert_self, twoEntries_status _ _⟩
      exact (committed.not_found fresh (by decide)).elim
    · exact committed.of_same (Store.get_insert_other here).symm
  | write _ _ found _ high => exact same_status found (Store.get_insert_other (by omega)) committed
  | @mark changed record status number following data _ found _ notDone =>
    by_cases here : tsn = changed
    · subst here
      exact (committed.not_found (mark_found log tsn record following data) notDone).elim
    · exact committed.of_same (mark_other here).symm
  | age _ _ found => exact same_status found (Store.get_insert_other (by decide)) committed
  | @remove removed =>
    by_cases here : tsn = removed
    · subst here
      obtain ⟨_, _, inLog, _⟩ := committed
      rw [Std.ExtTreeMap.getElem?_erase_self] at inLog
      cases inLog
    · exact committed.of_same (Store.get_erase_other here).symm

/-- The lines are read from the entries 1..n alone. -/
theorem committedLines_congr (same : ∀ seq : Int, 1 ≤ seq → pair after tsn seq = pair log tsn seq) (bound : Int) :
    committedLines after tsn bound = committedLines log tsn bound := by
  unfold committedLines
  split
  · rfl
  apply mapM_congr
  intro seq member
  have range := Int.mem_range_iff.mp member
  rw [getData, getData, same seq (by omega)]

theorem pair_congr (same : after[tsn]? = log[tsn]?) (seq : Int) : pair after tsn seq = pair log tsn seq := by
  rw [pair, pair, same]

theorem Written.of_same (written : Written log append) (same : after[append.tsn]? = log[append.tsn]?) : Written after append := by
  obtain ⟨record, marker, number, found, file, read⟩ := written
  refine ⟨record, marker, number, ⟨same.trans found.inLog, found.entry⟩, file, ?_⟩
  rw [committedLines_congr (fun seq _ => pair_congr same seq), read]

theorem Written.act (written : Written before.log append) (positive : 1 ≤ append.tsn) (act : Act granted before label next) :
    Written next.log append := by
  have ⟨record, _, number, found, _, _⟩ := written
  exact written.of_same ((Immutability.act_keeps_committed positive found act).trans found.inLog.symm)

theorem Written.named (written : Written log append) : getFileName log append.tsn = .ok append.path := by
  obtain ⟨record, marker, number, found, file, _⟩ := written
  simp only [getFileName, pair_eq_ok.mpr ⟨record, found.inLog, file⟩, ok_bind, pure_eq_ok]

/-- The append that commits a transaction has written it. -/
theorem written_of_append {record : Record} {number marker path : Text} {lines : List Text} (found : Found log tsn record "WRITING" number)
    (file : record[(0 : Int)]? = some (marker, path)) (read : committedLines log tsn (atoi number) = .ok lines) :
    Written (mark log tsn record "COMMITTED" number) ⟨tsn, path, lines⟩ := by
  refine ⟨_, marker, number, mark_found log tsn record "COMMITTED" number, ?_, ?_⟩
  · rw [Store.get_insert_other (by decide)]
    exact file
  · rw [committedLines_congr, read]
    intro seq high
    have read : (mark log tsn record "COMMITTED" number)[tsn]? = some (record.insert (-1) ("COMMITTED", number)) :=
      (mark_found log tsn record "COMMITTED" number).inLog
    rw [pair, pair, read, found.inLog, defined_some, defined_some, ok_bind, ok_bind, Store.get_insert_other (by omega)]

theorem Filed.of_transactions (filed : Filed log appended) (same : ∀ tsn : Int, 1 ≤ tsn → after[tsn]? = log[tsn]?) : Filed after appended := by
  intro tsn positive committed
  obtain ⟨append, member, rfl, written⟩ := filed tsn positive (committed.of_same (same tsn positive).symm)
  exact ⟨append, member, rfl, written.of_same (same append.tsn positive)⟩

theorem Filed.mono {more : List Append} (filed : Filed log appended) : Filed log (appended ++ more) := by
  intro tsn positive committed
  obtain ⟨append, member, same⟩ := filed tsn positive committed
  exact ⟨append, List.mem_append_left _ member, same⟩

/-- Every act leaves the committed transactions of the memory written. -/
theorem Filed.act (filed : Filed before.log disk.appended) (act : Act granted before label next) :
    Filed next.log (label.elim disk disk.apply).appended := by
  cases act with
  | @move log after move =>
    intro tsn positive committed
    have earlier := move_commits move positive committed
    obtain ⟨append, member, rfl, written⟩ := filed tsn positive earlier
    exact ⟨append, member, rfl, written.act positive (.move move)⟩
  | send => exact filed
  | save => exact filed
  | @append log tsn record number marker path lines from1 allowed found file read =>
    intro other positive committed
    by_cases here : other = tsn
    · subst here
      exact ⟨⟨other, path, lines⟩, List.mem_append_right _ List.mem_cons_self, rfl, written_of_append found file read⟩
    · have earlier : Committed log other := committed.of_same (mark_other here).symm
      obtain ⟨append, member, rfl, written⟩ := filed other positive earlier
      exact ⟨append, List.mem_append_left _ member, rfl, written.act positive (.append from1 allowed found file read)⟩

end TransactionalServer.Proofs
