import TransactionalServer.Proofs.Acknowledgments
import TransactionalServer.Proofs.FileContents

/-! What was acknowledged is on disk, whenever the server crashes. -/

namespace TransactionalServer.Proofs.Durability
open ServerTools LogHandler Exec Session Ledger Traces Completeness FileContents Immutability

/-- Committed transactions are written, and saved before anything else happens. -/
structure Synced (state : State) (disk : Disk) : Prop where
  memory : Filed state.log disk.appended
  loaded : Filed disk.saved disk.appended
  saved : state.unsaved = false → ∀ tsn record number, 1 ≤ tsn → Found state.log tsn record "COMMITTED" number → disk.saved[tsn]? = some record

section
variable {granted : Scope} {log after : Log} {before next state : State} {label : Option Effect} {disk : Disk} {tsn : Int} {record : Record}
  {append : Append}

theorem Synced.act (synced : Synced before disk) (act : Act granted before label next) : Synced next (label.elim disk disk.apply) := by
  refine ⟨synced.memory.act act, ?_, ?_⟩
  · cases act with
    | move => exact synced.loaded
    | send => exact synced.loaded
    | save => exact synced.memory
    | append => exact synced.loaded.mono
  · intro settled tsn record number positive found
    cases act with
    | move move =>
      obtain ⟨old, digits, earlier⟩ := move_commits move positive ⟨record, number, found⟩
      have kept := move_keeps_committed positive earlier move
      rw [found.inLog] at kept
      rw [Option.some.inj kept]
      exact synced.saved rfl tsn old digits positive earlier
    | send => exact synced.saved rfl tsn record number positive found
    | save => exact found.inLog
    | append => cases settled

theorem Synced.restart (synced : Synced state disk) (same : ∀ tsn : Int, 1 ≤ tsn → log[tsn]? = disk.saved[tsn]?) : Synced ⟨log, false⟩ disk := by
  refine ⟨synced.loaded.of_transactions same, synced.loaded, ?_⟩
  intro _ tsn record number positive found
  rw [← same tsn positive]
  exact found.inLog

/-- A committed transaction with its append, in memory and on disk. -/
structure Settled (tsn : Int) (record : Record) (append : Append) (state : State) (disk : Disk) : Prop where
  committed : ∃ number, record[(-1 : Int)]? = some (("COMMITTED" : Text), number)
  memory : state.log[tsn]? = some record
  saved : disk.saved[tsn]? = some record
  written : append ∈ disk.appended

theorem Settled.act (settled : Settled tsn record append before disk) (positive : 1 ≤ tsn) (act : Act granted before label next) :
    Settled tsn record append next (label.elim disk disk.apply) := by
  obtain ⟨number, entry⟩ := settled.committed
  refine ⟨settled.committed, act_keeps_committed positive ⟨settled.memory, entry⟩ act, ?_, ?_⟩
  · cases act with
    | save => exact settled.memory
    | move | send | append => exact settled.saved
  · cases act with
    | move | send | save => exact settled.written
    | append => exact List.mem_append_left _ settled.written

/-- A transaction is in memory and on disk, or the event has removed it. -/
def Present (granted : Scope) (tsn : Int) (state : State) (disk : Disk) : Prop :=
  (tsn ∈ state.log ∧ tsn ∈ disk.saved) ∨ (granted.removes tsn ∧ state.log[tsn]? = none)

theorem move_keeps_present (positive : 1 ≤ tsn) (present : tsn ∈ log) (move : Move granted log after) :
    tsn ∈ after ∨ (granted.removes tsn ∧ after[tsn]? = none) := by
  have untouched (same : after[tsn]? = log[tsn]?) : tsn ∈ after := by
    obtain ⟨record, inLog⟩ := Store.mem_iff_get.mp present
    exact Store.mem_iff_get.mpr ⟨record, same.trans inLog⟩
  have inserted {changed : Int} {grown : Record} (grows : after = log.insert changed grown) : tsn ∈ after := by
    by_cases here : tsn = changed
    · rw [grows, here]
      exact Store.mem_iff_get.mpr ⟨grown, Std.ExtTreeMap.getElem?_insert_self⟩
    · rw [grows] at untouched ⊢
      exact untouched (Store.get_insert_other here)
  cases move with
  | reserved same => exact Or.inl (untouched (same tsn positive))
  | create => exact Or.inl (inserted rfl)
  | write => exact Or.inl (inserted rfl)
  | mark => exact Or.inl (inserted rfl)
  | age => exact Or.inl (inserted rfl)
  | @remove removed _ _ _ _ _ _ allowed =>
    by_cases here : tsn = removed
    · subst here
      exact Or.inr ⟨allowed, Std.ExtTreeMap.getElem?_erase_self⟩
    · exact Or.inl (untouched (Store.get_erase_other here))

theorem Present.act (present : Present granted tsn before disk) (positive : 1 ≤ tsn) (either : granted.removes tsn → ¬ granted.creates tsn)
    (act : Act granted before label next) : Present granted tsn next (label.elim disk disk.apply) := by
  rcases present with ⟨memory, saved⟩ | ⟨allowed, absent⟩
  · cases act with
    | move move =>
      rcases move_keeps_present positive memory move with still | removed
      · exact Or.inl ⟨still, saved⟩
      · exact Or.inr removed
    | send => exact Or.inl ⟨memory, saved⟩
    | save => exact Or.inl ⟨memory, memory⟩
    | @append log written old number _ _ _ _ _ found =>
      refine Or.inl ⟨?_, saved⟩
      by_cases here : tsn = written
      · rw [here]
        exact Store.mem_iff_get.mpr ⟨_, (mark_found log written old "COMMITTED" number).inLog⟩
      · obtain ⟨record, inLog⟩ := Store.mem_iff_get.mp memory
        exact Store.mem_iff_get.mpr ⟨record, (mark_other here).trans inLog⟩
  · exact Or.inr ⟨allowed, act_keeps_absent positive absent (either allowed) act⟩

end

/-- The saved log and the data file hold the committed transaction. -/
structure Durable (disk : Disk) (tsn seq : Int) (record : Record) : Prop where
  saved : disk.saved[tsn]? = some record
  committed : ∃ number, record[(-1 : Int)]? = some (("COMMITTED" : Text), number) ∧ atoi number = seq
  written : ∃ marker path text, record[(0 : Int)]? = some (marker, path) ∧ Contribution disk.saved tsn text ∧
    (Disk.IsDataFile path → ∃ front back, disk.files path = some (front ++ text ++ back))

theorem files_of_mem {disk : Disk} {append : Append} (takes : disk.Takes) (member : append ∈ disk.appended) :
    ∃ front back, disk.files append.path = some (front ++ bytes append ++ back) := by
  have inside : append ∈ disk.appended.filter (·.path = append.path) := List.mem_filter.mpr ⟨member, decide_eq_true rfl⟩
  obtain ⟨earlier, later, shape⟩ := List.append_of_mem inside
  refine ⟨(disk.existing append.path).getD [] ++ Disk.contents earlier, Disk.contents later, ?_⟩
  unfold Disk.files
  rw [written_of_takes takes, shape]
  cases earlier <;> simp [Disk.contents, bytes, List.append_assoc]

section
variable {π : Type} {answer : Answer π} {fuel : Nat} {process next : Process π} {event : Process.Event π} {effects : List Effect}

theorem perform_room (ran : Process.perform answer fuel process event = .ok (next, effects)) : next.disk.room = process.disk.room := by
  cases event with
  | event =>
    obtain ⟨_, _, ran⟩ := bind_eq_ok.mp ran
    obtain ⟨_, _, same⟩ := bind_eq_ok.mp ran
    cases same
    exact apply_room _ _
  | crash =>
    cases ran
    exact apply_room _ _

structure Kept (process : Process π) : Prop where
  steady : Steady process
  synced : Synced ⟨process.server.log, false⟩ process.disk

theorem fresh_kept (restart : Restart π) (existing : Text → Option Text) (room : List Bool) : Kept (fresh restart existing room) := by
  have empty (tsn : Int) : ¬ Committed (∅ : Log) tsn := by
    intro committed
    obtain ⟨record, number, inLog, _⟩ := committed
    rw [Std.ExtTreeMap.getElem?_empty] at inLog
    cases inLog
  have saved : Filed (∅ : Log) [] := fun tsn _ committed => absurd committed (empty tsn)
  have start := start_transactions restart { saved := ∅, existing, room }
  refine ⟨fresh_steady restart existing room, saved.of_transactions start, saved, ?_⟩
  intro _ tsn record number positive found
  exact absurd (Committed.of_same ⟨record, number, found⟩ (start tsn positive).symm) (empty tsn)

theorem perform_kept (addressed : AddressedProcess event) (kept : Kept process)
    (ran : Process.perform answer fuel process event = .ok (next, effects)) : Kept next := by
  refine ⟨perform_steady addressed kept.steady ran, ?_⟩
  exact perform_preserves Synced (fun _ _ _ _ synced act => synced.act act) (fun _ _ _ synced same => synced.restart same) addressed
    kept.synced ran

theorem run_kept {events : List (Process.Event π)} (addressed : ∀ event ∈ events, AddressedProcess event) (kept : Kept process)
    (ran : events.foldlM (Process.step answer fuel) process = .ok next) : Kept next := by
  refine run_preserves Kept ?_ (along_of_forall addressed process) kept ran
  intro process event next kept addressed stepped
  obtain ⟨effects, performed⟩ := step_performs stepped
  exact perform_kept addressed kept performed

/-- A settled transaction stays in memory, in the saved log and in its file. -/
theorem run_settled {events : List (Process.Event π)} {tsn : Int} {record : Record} {append : Append} (positive : 1 ≤ tsn)
    (addressed : ∀ event ∈ events, AddressedProcess event) (settled : Settled tsn record append ⟨process.server.log, false⟩ process.disk)
    (ran : events.foldlM (Process.step answer fuel) process = .ok next) : Settled tsn record append ⟨next.server.log, false⟩ next.disk := by
  refine run_preserves (fun process => Settled tsn record append ⟨process.server.log, false⟩ process.disk) ?_
    (along_of_forall addressed process) settled ran
  intro process event next settled addressed stepped
  obtain ⟨effects, performed⟩ := step_performs stepped
  refine perform_preserves (Settled tsn record append) (fun _ _ _ _ settled act => settled.act positive act) ?_ addressed settled performed
  intro reached disk log settled same
  exact ⟨settled.committed, (same tsn positive).trans settled.saved, settled.saved, settled.written⟩

/-- An ABORT or a sweep does not remove the transaction. -/
def Stays (answer : Answer π) (fuel : Nat) (tsn : Int) (process : Process π) (event : Process.Event π) : Prop :=
  (eventScope (about event)).removes tsn → ∀ next, Process.step answer fuel process event = .ok next → tsn ∈ next.server.log

theorem step_present {tsn : Int} (positive : 1 ≤ tsn) (present : tsn ∈ process.server.log ∧ tsn ∈ process.disk.saved)
    (addressed : AddressedProcess event) (stays : Stays answer fuel tsn process event)
    (stepped : Process.step answer fuel process event = .ok next) : tsn ∈ next.server.log ∧ tsn ∈ next.disk.saved := by
  obtain ⟨effects, performed⟩ := step_performs stepped
  have kept : Present (eventScope (about event)) tsn ⟨next.server.log, false⟩ next.disk := by
    refine perform_preserves (Present (eventScope (about event)) tsn) ?_ ?_ addressed (Or.inl present) performed
    · intro before label after disk present act
      exact present.act positive (scope_either (about event) tsn) act
    · intro reached disk log present same
      cases saved : disk.saved[tsn]? with
      | some record =>
        have loaded := (same tsn positive).trans saved
        exact Or.inl ⟨Store.mem_iff_get.mpr ⟨record, loaded⟩, Store.mem_iff_get.mpr ⟨record, saved⟩⟩
      | none =>
        rcases present with ⟨_, inside⟩ | ⟨allowed, _⟩
        · exact absurd inside (Store.not_mem_iff_get.mpr saved)
        · exact Or.inr ⟨allowed, (same tsn positive).trans saved⟩
  rcases kept with still | ⟨allowed, absent⟩
  · exact still
  · exact absurd (stays allowed next stepped) (Store.not_mem_iff_get.mpr absent)

/-- A commit that is answered with an ACK has settled its transaction. -/
theorem settled_of_acknowledged {env : Env} {auth : Bool} {header packet : Text} {payload : Option Text} {valid : validHeader header = true}
    {drawn : ∀ draw ∈ env.draws, 1 ≤ draw ∧ draw ≤ 100000} (kept : Kept process) (addressed : AddressedProcess event)
    (named : about event = .packet env auth header payload valid drawn) (method : parse header = 3)
    (performed : Process.perform answer fuel process event = .ok (next, effects)) (sent : .send packet ∈ effects) (ack : Acknowledges packet) :
    ∃ record append number, Settled (getTsn header) record append ⟨next.server.log, false⟩ next.disk ∧
      record[(-1 : Int)]? = some (("COMMITTED" : Text), number) ∧ atoi number = getSeq header ∧ append.tsn = getTsn header ∧
      Written next.disk.saved append ∧
      ∀ seq entry, 1 ≤ seq → Recorded process.server.log (getTsn header) seq entry → record[seq]? = some entry := by
  have names := addressed.header named
  have positive : 1 ≤ getTsn header := names (Or.inr (Or.inl method))
  obtain ⟨handled, received, rfl, disk, memory⟩ := acknowledged_step named addressed (Or.inr (Or.inr method)) performed sent ack
  obtain ⟨_, record, number, found, same⟩ := commit_acknowledged names method received sent ack
  have draws : ∀ draw ∈ ({ env with files := process.disk.files } : Env).draws, 1 ≤ draw := fun draw member => (drawn draw member).1
  have run := receive_runs names draws received
  have synced : Synced ⟨handled.server.log, false⟩ next.disk := by
    rw [disk]
    exact run.preserves (fun _ _ _ _ synced act => synced.act act) kept.synced
  have saved := synced.saved rfl (getTsn header) record number positive found
  obtain ⟨append, member, tsn, written⟩ := synced.loaded (getTsn header) positive ⟨record, number, saved, found.entry⟩
  refine ⟨record, append, number, ⟨⟨number, found.entry⟩, ?_, saved, member⟩, found.entry, same, tsn, written, ?_⟩
  · cases event with
    | event =>
      rw [memory]
      exact found.inLog
    | crash => exact (memory _ positive).trans saved
  · intro seq entry high recorded
    have entries := run.keeps (fun state => Recorded state.log (getTsn header) seq entry ∨
        ((scope header).removes (getTsn header) ∧ state.log[getTsn header]? = none))
      (fun _ _ _ kept act => act_keeps_entry positive high (scope_either (.packet env auth header payload valid drawn) _) kept act)
      (Or.inl recorded)
    rcases entries with ⟨last, inLog, inRecord⟩ | ⟨_, absent⟩
    · rw [Option.some.inj (found.inLog.symm.trans inLog)]
      exact inRecord
    · rw [found.inLog] at absent
      cases absent

theorem run_room {events : List (Process.Event π)} (ran : events.foldlM (Process.step answer fuel) process = .ok next) :
    next.disk.room = process.disk.room := by
  refine run_preserves (fun other => other.disk.room = process.disk.room) ?_ (along_of_forall (fun _ _ => trivial) process) rfl ran
  intro other event last same _ stepped
  obtain ⟨effects, performed⟩ := step_performs stepped
  exact (perform_room performed).trans same

end

private def written (room : List Bool) : Exec (Process Unit) :=
  [.event createFive, .event writeFive].foldlM (Process.step Backup.noPeer 2) (fresh alone (fun _ => none) room)

private theorem acknowledged_packet : Acknowledges "ACK 5 1 0 23\r\n\r\nCommitted successfully.\r\n" := by decide

theorem Durable.file {disk : Disk} {tsn seq : Int} {record : Record} (durable : Durable disk tsn seq record) :
    ∃ marker path, record[(0 : Int)]? = some (marker, path) ∧ (Disk.IsDataFile path → disk.files path ≠ some []) := by
  obtain ⟨marker, path, text, file, contribution, written⟩ := durable.written
  refine ⟨marker, path, file, ?_⟩
  intro data
  obtain ⟨front, back, files⟩ := written data
  rw [files, Ne, Option.some.injEq]
  intro empty
  have ends := Contribution.ends contribution
  rw [(List.append_eq_nil_iff.mp (List.append_eq_nil_iff.mp empty).1).2] at ends
  cases ends

end TransactionalServer.Proofs.Durability
