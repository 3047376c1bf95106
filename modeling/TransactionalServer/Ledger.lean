import TransactionalServer.Library.Traces
import TransactionalServer.Proofs.LogSteps

/-! The log as a ledger: what a server may do to its transactions and in which
order memory, file and saved log change. The sessions, the sweep and the manager
are shown to do nothing else. -/

namespace TransactionalServer
open ServerTools LogHandler Proofs

namespace Ledger

/-- The ids that an activity may create, commit and remove. -/
structure Scope where
  creates : Int → Prop := fun _ => False
  commits : Int → Prop := fun _ => False
  removes : Int → Prop := fun _ => False

/-- A change of one record, or of what belongs to no transaction. -/
inductive Move (scope : Scope) (log : Log) : Log → Prop where
  | reserved {after : Log} (same : ∀ tsn : Int, 1 ≤ tsn → after[tsn]? = log[tsn]?) : Move scope log after
  | create {tsn : Int} (data : Text) (positive : 1 ≤ tsn) (allowed : scope.creates tsn) (absent : log[tsn]? = none) :
      Move scope log (log.insert tsn (freshRecord data))
  | write {tsn seq : Int} {record : Record} {status number : Text} (entry : LogPair) (positive : 1 ≤ tsn)
      (found : Found log tsn record status number) (notCommitted : status ≠ "COMMITTED") (high : 1 ≤ seq)
      (fresh : record[seq]? = none) : Move scope log (log.insert tsn (record.insert seq entry))
  | mark {tsn : Int} {record : Record} {status number : Text} (next data : Text) (positive : 1 ≤ tsn)
      (found : Found log tsn record status number) (notCommitted : status ≠ "COMMITTED") (notDone : next ≠ "COMMITTED")
      (complete : next = "WRITING" → 1 ≤ atoi data ∧ ∀ seq : Int, 1 ≤ seq → seq ≤ atoi data → seq ∈ record) :
      Move scope log (Proofs.mark log tsn record next data)
  | age {tsn : Int} {record : Record} {status number marker path : Text} (next : Text) (positive : 1 ≤ tsn)
      (found : Found log tsn record status number) (notCommitted : status ≠ "COMMITTED")
      (file : record[(0 : Int)]? = some (marker, path)) : Move scope log (log.insert tsn (record.insert 0 (next, path)))
  | remove {tsn : Int} {record : Record} {status number : Text} (positive : 1 ≤ tsn)
      (found : Found log tsn record status number) (notCommitted : status ≠ "COMMITTED") (allowed : scope.removes tsn) :
      Move scope log (log.erase tsn)

/-- The log in memory, and whether a transaction was committed that has not been
saved since. -/
structure State where
  log : Log
  unsaved : Bool

/-- An append takes the lines of a complete transaction and commits it. The log
is saved before anything else happens. -/
inductive Act (scope : Scope) : State → Option Effect → State → Prop where
  | move {log after : Log} (move : Move scope log after) : Act scope ⟨log, false⟩ none ⟨after, false⟩
  | send (log : Log) (packet : Text) : Act scope ⟨log, false⟩ (some (.send packet)) ⟨log, false⟩
  | save (log : Log) (unsaved : Bool) : Act scope ⟨log, unsaved⟩ (some (.save log)) ⟨log, false⟩
  | append {log : Log} {tsn : Int} {record : Record} {number marker path : Text} {lines : List Text} (positive : 1 ≤ tsn)
      (allowed : scope.commits tsn) (found : Found log tsn record "WRITING" number) (file : record[(0 : Int)]? = some (marker, path))
      (read : committedLines log tsn (atoi number) = .ok lines) :
      Act scope ⟨log, false⟩ (some (.append tsn path lines)) ⟨Proofs.mark log tsn record "COMMITTED" number, true⟩

/-- A run that leaves nothing unsaved. -/
abbrev Runs (scope : Scope) (log : Log) (effects : List Effect) (after : Log) : Prop :=
  Traces.Acts (Act scope) ⟨log, false⟩ effects ⟨after, false⟩

end Ledger
end TransactionalServer
