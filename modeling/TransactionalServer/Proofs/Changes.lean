import TransactionalServer.Proofs.BackupSteps
import TransactionalServer.Proofs.SweepSteps

/-! What one operation can make of the record of a transaction. Results that
follow one transaction on two servers read these cases. -/

namespace TransactionalServer.Proofs
open ServerTools LogHandler Exec

/-- Two records with the same writes and the same file name. -/
structure SameWrites (record changed : Record) : Prop where
  file : (changed[(0 : Int)]?).map Prod.snd = (record[(0 : Int)]?).map Prod.snd
  writes : ∀ seq : Int, 1 ≤ seq → changed[seq]? = record[seq]?

/-- A committed record never changes, and an expired one can only go. Whether
the operation may commit, and what it may write, are its own. -/
inductive Change (commits : Prop) (log after : Log) (tsn : Int) : Option (Int × LogPair) → Prop where
  | same {write : Option (Int × LogPair)} (same : after[tsn]? = log[tsn]?) : Change commits log after tsn write
  | gone {write : Option (Int × LogPair)} {record : Record} {status number : Text} (found : Found log tsn record status number)
      (notCommitted : status ≠ "COMMITTED") (absent : after[tsn]? = none) : Change commits log after tsn write
  | marked {write : Option (Int × LogPair)} {record changed : Record} {status number next digits : Text} (found : Found log tsn record status number)
      (notCommitted : status ≠ "COMMITTED") (notExpired : status ≠ "EXPIRED") (leaves : Found after tsn changed next digits)
      (entries : SameWrites record changed) (allowed : next = "COMMITTED" → commits) : Change commits log after tsn write
  | wrote {seq : Int} {entry : LogPair} {record changed : Record} {status number next digits : Text} (found : Found log tsn record status number)
      (notCommitted : status ≠ "COMMITTED") (notExpired : status ≠ "EXPIRED") (high : 1 ≤ seq) (fresh : record[seq]? = none)
      (leaves : Found after tsn changed next digits) (entries : SameWrites (record.insert seq entry) changed)
      (allowed : next = "COMMITTED" → commits) : Change commits log after tsn (some (seq, entry))

section
variable {record : Record} {log : Log} {header data : Text} {io : Bool} {out : Outcome} {commits : Prop}

theorem SameWrites.refl (record : Record) : SameWrites record record := ⟨rfl, fun _ _ => rfl⟩

theorem SameWrites.marked (record : Record) (entry : LogPair) : SameWrites record (record.insert (-1) entry) :=
  ⟨by rw [Store.get_insert_other (by decide)], fun seq high => Store.get_insert_other (by omega)⟩

theorem SameWrites.aged {marker path : Text} (file : record[(0 : Int)]? = some (marker, path)) (next : Text) :
    SameWrites record (record.insert 0 (next, path)) := by
  constructor
  · rw [Std.ExtTreeMap.getElem?_insert_self, file]
    rfl
  · intro seq high
    exact Store.get_insert_other (by omega)

/-- A COMMIT marks the record that it finds open. -/
theorem Commits.marks (made : Commits log header io out) (positive : 1 ≤ getTsn header) :
    out.log = log ∨ ∃ record status number next, Found log (getTsn header) record status number ∧ status ≠ "COMMITTED" ∧ status ≠ "EXPIRED" ∧
      out.log = mark log (getTsn header) record next (iToS (getSeq header)) ∧ (next = "COMMITTED" → NotPrimary log) := by
  cases made with
  | absent | already | expired | otherNumber | nothing => exact Or.inl rfl
  | incomplete found allowed _ _ marked =>
    exact Or.inr ⟨_, _, _, _, found, allowed.committed, allowed.expired, marked, fun next => absurd next (by decide)⟩
  | primary found allowed _ _ marked =>
    exact Or.inr ⟨_, _, _, _, found, allowed.committed, allowed.expired, marked, fun next => absurd next (by decide)⟩
  | written found allowed _ _ marked role notRole _ finished =>
    refine Or.inr ⟨_, _, _, _, found, allowed.committed, allowed.expired, finished, ?_⟩
    intro _ primary
    subst marked
    rw [getServerStatus_of_get (mark_other (by omega)), primary, Except.ok.injEq] at role
    exact notRole role.symm
  | failed found allowed _ _ _ _ _ _ _ finished =>
    exact Or.inr ⟨_, _, _, _, found, allowed.committed, allowed.expired, finished, fun next => absurd next (by decide)⟩

theorem Commits.change (made : Commits log header io out) (positive : 1 ≤ getTsn header) (allowed : NotPrimary log → commits) :
    Change commits log out.log (getTsn header) none := by
  rcases made.marks positive with same | ⟨record, status, number, next, found, notCommitted, notExpired, marked, backup⟩
  · exact .same (by rw [same])
  · exact .marked found notCommitted notExpired (by rw [marked]; exact mark_found _ _ _ _ _) (.marked _ _) (fun next => allowed (backup next))

theorem Adds.change (adds : Adds log header data io out) (positive : 1 ≤ getTsn header) (allowed : NotPrimary log → commits) :
    Change commits log out.log (getTsn header) (some (getSeq header, (header, data))) := by
  cases adds with
  | low | absent | committed | expired | duplicate | above => exact .same rfl
  | kept high found fresh _ grows =>
    subst grows
    exact .wrote found (by decide) (by decide) high fresh (found.grow high _) (.refl _) (fun next => absurd next (by decide))
  | added high found notCommitted notExpired _ fresh grows =>
    subst grows
    exact .wrote found notCommitted notExpired high fresh (mark_found _ _ _ _ _) (.marked _ _) (fun next => absurd next (by decide))
  | @completes record grown number _ high found fresh _ grows _ made =>
    subst grows
    have sameTsn := pendingCommit_getTsn (getTsn_isInt header) (atoi number)
    have grown := found.grow high (header, data)
    have marks := made.marks (by rw [sameTsn]; exact positive)
    rw [sameTsn] at marks
    rcases marks with same | ⟨again, status, digits, next, again', _, _, marked, backup⟩
    · exact .wrote found (by decide) (by decide) high fresh (by rw [same]; exact grown) (.refl _) (fun next => absurd next (by decide))
    · obtain ⟨rfl, _, _⟩ := found_unique again' grown
      refine .wrote found (by decide) (by decide) high fresh (by rw [marked]; exact mark_found _ _ _ _ _) (.marked _ _) ?_
      intro next
      exact allowed ((backup next).of_get (Store.get_insert_other (by omega)).symm)

theorem Aborts.change (aborts : Aborts log header out) : Change commits log out.log (getTsn header) none := by
  cases aborts with
  | absent | committed | expired => exact .same rfl
  | erased found notCommitted => exact .gone found notCommitted Std.ExtTreeMap.getElem?_erase_self

end

theorem Sweeps.change {log after : Log} {key : Int} {erased : Bool} (sweeps : Sweeps log key after erased) (tsn : Int) :
    Change False log after tsn none := by
  by_cases here : tsn = key
  · subst here
    cases sweeps with
    | absent | low | bare | kept => exact .same rfl
    | @marked record status number _ found notKept notExpired =>
      refine .marked found (fun committed => notKept (Or.inl committed)) notExpired (mark_found _ _ _ _ _) (.marked _ _) ?_
      intro committed
      unfold aged at committed
      split at committed
      · exact absurd committed (by decide)
      · exact absurd committed (by decide)
    | removed _ found => exact .gone found (by decide) Std.ExtTreeMap.getElem?_erase_self
    | @waits record number marker path _ found file =>
      have leaves : Found (log.insert tsn (record.insert 0 (aged marker, path))) tsn (record.insert 0 (aged marker, path)) "WAITING" number :=
        ⟨Std.ExtTreeMap.getElem?_insert_self, (Store.get_insert_other (by decide)).trans found.entry⟩
      exact .marked found (by decide) (by decide) leaves (.aged file _) (fun committed => absurd committed (by decide))
    | dropped _ found => exact .gone found (by decide) Std.ExtTreeMap.getElem?_erase_self
  · apply Change.same
    cases sweeps with
    | absent | low | bare | kept => rfl
    | marked => exact mark_other here
    | removed | dropped => exact Store.get_erase_other here
    | waits => exact Store.get_insert_other here

end TransactionalServer.Proofs
