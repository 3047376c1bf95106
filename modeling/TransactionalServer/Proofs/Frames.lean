import TransactionalServer.Proofs.Commands

/-! Frame conditions: an operation touches the record of its own transaction
only, and none makes a server the primary. -/

namespace TransactionalServer.Proofs
open ServerTools LogHandler Exec Session

variable {π : Type} {log : Log} {header data : Text} {io : Bool} {out : Outcome}

theorem Commits.frame {other : Int} (commits : Commits log header io out) (differs : other ≠ getTsn header) :
    out.log[other]? = log[other]? := by
  cases commits with
  | absent => rfl
  | already => rfl
  | expired => rfl
  | otherNumber => rfl
  | nothing => rfl
  | incomplete _ _ _ _ marked =>
    subst marked
    exact mark_other differs
  | primary _ _ _ _ marked =>
    subst marked
    exact mark_other differs
  | written _ _ _ _ _ _ _ _ finished =>
    subst finished
    exact mark_other differs
  | failed _ _ _ _ _ _ _ _ _ finished =>
    subst finished
    exact mark_other differs

theorem Adds.frame {other : Int} (adds : Adds log header data io out) (differs : other ≠ getTsn header) :
    out.log[other]? = log[other]? := by
  cases adds with
  | low => rfl
  | absent => rfl
  | committed => rfl
  | expired => rfl
  | duplicate => rfl
  | above => rfl
  | kept => exact Store.get_insert_other differs
  | completes _ found _ _ _ _ commits =>
    rw [commits.frame (by rwa [pendingCommit_getTsn (getTsn_isInt header)])]
    exact Store.get_insert_other differs
  | added => exact mark_other differs

theorem Aborts.frame {other : Int} (aborts : Aborts log header out) (differs : other ≠ getTsn header) :
    out.log[other]? = log[other]? := by
  cases aborts with
  | absent => rfl
  | committed => rfl
  | expired => rfl
  | erased => exact Store.get_erase_other differs

theorem makeTxn_frame {data : Text} {tsn other : Int} (differs : other ≠ tsn) :
    (makeTxn log data tsn).1[other]? = log[other]? := by
  unfold makeTxn
  split
  · exact Store.get_insert_other differs
  · rfl

/-- The role of a server is read from record 0. -/
theorem getServerStatus_of_get {other : Log} (same : other[(0 : Int)]? = log[(0 : Int)]?) :
    getServerStatus other = getServerStatus log := by
  simp only [getServerStatus, pair, same]

def NotPrimary (log : Log) : Prop := getServerStatus log ≠ .ok "primary"

theorem notPrimary_of_status (statuses : ∀ record status number, Found log 0 record status number → status ≠ "primary") :
    NotPrimary log := by
  intro primary
  obtain ⟨record, number, found⟩ := found_of_getStatus primary
  exact statuses record _ number found rfl

theorem NotPrimary.of_get {other : Log} (backup : NotPrimary log) (same : other[(0 : Int)]? = log[(0 : Int)]?) :
    NotPrimary other := by
  unfold NotPrimary
  rw [getServerStatus_of_get same]
  exact backup

theorem found_unique {tsn : Int} {first second : Record} {status other number data : Text}
    (one : Found log tsn first status number) (two : Found log tsn second other data) :
    first = second ∧ status = other ∧ number = data := by
  obtain rfl : first = second := Option.some.inj (one.inLog.symm.trans two.inLog)
  have same := Option.some.inj (one.entry.symm.trans two.entry)
  exact ⟨rfl, congrArg Prod.fst same, congrArg Prod.snd same⟩

theorem NotPrimary.mark {tsn : Int} {record : Record} {status number : Text} (backup : NotPrimary log)
    (other : status ≠ "primary") : NotPrimary (mark log tsn record status number) := by
  by_cases here : tsn = 0
  · subst here
    apply notPrimary_of_status
    intro _ _ _ found
    rw [(found_unique found (mark_found _ _ _ _ _)).2.1]
    exact other
  · exact backup.of_get (mark_other (Ne.symm here))

theorem NotPrimary.insert {tsn : Int} {record : Record} {status number : Text} (backup : NotPrimary log)
    (entry : record[(-1 : Int)]? = some (status, number)) (other : status ≠ "primary") :
    NotPrimary (log.insert tsn record) := by
  by_cases here : tsn = 0
  · subst here
    apply notPrimary_of_status
    intro _ _ _ found
    rw [(found_unique found ⟨Std.ExtTreeMap.getElem?_insert_self, entry⟩).2.1]
    exact other
  · exact backup.of_get (Store.get_insert_other (Ne.symm here))

theorem NotPrimary.erase {tsn : Int} (backup : NotPrimary log) : NotPrimary (log.erase tsn) := by
  by_cases here : tsn = 0
  · subst here
    apply notPrimary_of_status
    intro _ _ _ found
    have gone := found.inLog
    rw [Std.ExtTreeMap.getElem?_erase_self] at gone
    cases gone
  · exact backup.of_get (Store.get_erase_other (Ne.symm here))

theorem Commits.notPrimary (commits : Commits log header io out) (backup : NotPrimary log) : NotPrimary out.log := by
  cases commits with
  | absent => exact backup
  | already => exact backup
  | expired => exact backup
  | otherNumber => exact backup
  | nothing => exact backup
  | incomplete _ _ _ _ marked =>
    subst marked
    exact backup.mark (by decide)
  | primary _ _ _ _ marked =>
    subst marked
    exact backup.mark (by decide)
  | written _ _ _ _ _ _ _ _ finished =>
    subst finished
    exact backup.mark (by decide)
  | failed _ _ _ _ _ _ _ _ _ finished =>
    subst finished
    exact backup.mark (by decide)

theorem Adds.notPrimary (adds : Adds log header data io out) (backup : NotPrimary log) : NotPrimary out.log := by
  cases adds with
  | low => exact backup
  | absent => exact backup
  | committed => exact backup
  | expired => exact backup
  | duplicate => exact backup
  | above => exact backup
  | kept high found fresh below grows gaps =>
    subst grows
    exact backup.insert (found.grow high _).entry (by decide)
  | completes high found fresh below grows complete commits =>
    subst grows
    exact commits.notPrimary (backup.insert (found.grow high _).entry (by decide))
  | added => exact backup.mark (by decide)

theorem Aborts.notPrimary (aborts : Aborts log header out) (backup : NotPrimary log) : NotPrimary out.log := by
  cases aborts with
  | absent => exact backup
  | committed => exact backup
  | expired => exact backup
  | erased => exact backup.erase

/-- A record of two entries, as transactions and servers start. -/
def twoEntries (status file : LogPair) : Record := ((∅ : Record).insertIfNew (-1) status).insertIfNew 0 file

private theorem twoEntries_eq (status file : LogPair) :
    twoEntries status file = ((∅ : Record).insert (-1) status).insert 0 file := by
  have first : (∅ : Record)[(-1 : Int)]? = none := Std.ExtTreeMap.getElem?_empty
  have second : ((∅ : Record).insert (-1) status)[(0 : Int)]? = none := by
    rw [Store.get_insert_other (by decide)]
    exact Std.ExtTreeMap.getElem?_empty
  rw [twoEntries, Store.insertIfNew_of_absent first, Store.insertIfNew_of_absent second]

theorem twoEntries_status (status file : LogPair) : (twoEntries status file)[(-1 : Int)]? = some status := by
  rw [twoEntries_eq, Store.get_insert_other (by decide), Std.ExtTreeMap.getElem?_insert_self]

theorem twoEntries_file (status file : LogPair) : (twoEntries status file)[(0 : Int)]? = some file := by
  rw [twoEntries_eq, Std.ExtTreeMap.getElem?_insert_self]

theorem twoEntries_other {seq : Int} (notStatus : seq ≠ -1) (notFile : seq ≠ 0) (status file : LogPair) :
    (twoEntries status file)[seq]? = none := by
  rw [twoEntries_eq, Store.get_insert_other notFile, Store.get_insert_other notStatus]
  exact Std.ExtTreeMap.getElem?_empty

theorem mem_twoEntries {seq : Int} {status file : LogPair} : seq ∈ twoEntries status file → seq = -1 ∨ seq = 0 := by
  intro member
  by_contra neither
  rw [not_or] at neither
  rw [Store.mem_iff_get, twoEntries_other neither.1 neither.2] at member
  obtain ⟨_, absurd⟩ := member
  cases absurd

theorem freshRecord_eq (data : Text) : freshRecord data = twoEntries ("ACTIVE", "0") ("NEW_TXN", data) := rfl

theorem serverData_eq (log : Log) (ip port role dir : Text) :
    serverData log ip port role dir = (log.erase 0).insert 0 (twoEntries (role, dir) (ip, port)) := rfl

theorem serverData_role (log : Log) (ip port role dir : Text) :
    getServerStatus (serverData log ip port role dir) = .ok role := by
  have found : Found (serverData log ip port role dir) 0 (twoEntries (role, dir) (ip, port)) role dir :=
    ⟨Std.ExtTreeMap.getElem?_insert_self, twoEntries_status _ _⟩
  exact found.getStatus

theorem makeTxn_notPrimary {tsn : Int} (backup : NotPrimary log) : NotPrimary (makeTxn log data tsn).1 := by
  unfold makeTxn
  split
  · exact backup.insert (twoEntries_status _ _) (by decide)
  · exact backup

/-- MAKE_TXN creates an absent record and does nothing otherwise. -/
theorem makeTxn_cases {log made : Log} {data : Text} {tsn : Int} {effects : List Effect} {fresh : Bool}
    (makes : makeTxn log data tsn = (made, effects, fresh)) :
    (log[tsn]? = none ∧ made = log.insert tsn (freshRecord data) ∧ effects = [.save made]) ∨
      (log.contains tsn = true ∧ made = log ∧ effects = []) := by
  unfold makeTxn at makes
  split at makes
  next missing =>
    cases makes
    have unknown : log.contains tsn = false := by simpa using missing
    exact Or.inl ⟨Std.ExtTreeMap.getElem?_eq_none_of_contains_eq_false unknown, rfl, rfl⟩
  next present =>
    cases makes
    exact Or.inr ⟨by simpa using present, rfl, rfl⟩

theorem newTxn_cases {log created : Log} {data : Text} {draws : List Int} {effects : List Effect} {tsn : Int}
    (drawn : newTxn log data draws = .ok (created, effects, tsn)) :
    (created = log ∧ effects = [] ∧ tsn = 0 ∧ portablePosixName data = false) ∨
      (portablePosixName data = true ∧ tsn ∈ draws ∧ log[tsn]? = none ∧ created = log.insert tsn (freshRecord data) ∧
        effects = [.save created]) := by
  unfold newTxn at drawn
  cases valid : portablePosixName data with
  | false =>
    simp only [valid, Bool.not_false, if_true, pure_eq_ok, Except.ok.injEq, Prod.mk.injEq] at drawn
    obtain ⟨rfl, rfl, rfl⟩ := drawn
    exact Or.inl ⟨rfl, rfl, rfl, rfl⟩
  | true =>
    simp only [valid, Bool.not_true, Bool.false_eq_true, if_false, bind_eq_ok, finished_eq_ok, pure_eq_ok, Except.ok.injEq,
      Prod.mk.injEq] at drawn
    obtain ⟨id, chosen, rfl, rfl, rfl⟩ := drawn
    have free : log.contains id = false := by simpa using List.find?_some chosen
    refine Or.inr ⟨rfl, List.mem_of_find?_eq_some chosen, ?_, rfl, rfl⟩
    exact Std.ExtTreeMap.getElem?_eq_none_of_contains_eq_false free

theorem enqueue_log {server queued : Server π} {header data : Text}
    (enqueued : ReplicationManager.enqueue server header data = .ok queued) : queued.log = server.log := by
  obtain ⟨role, _, rfl⟩ := enqueue_eq_ok.mp enqueued
  split <;> rfl

/-- A server that is not the primary queues nothing. -/
theorem enqueue_backup {server queued : Server π} {header data : Text} (backup : NotPrimary server.log)
    (enqueued : ReplicationManager.enqueue server header data = .ok queued) : queued = server := by
  obtain ⟨role, read, rfl⟩ := enqueue_eq_ok.mp enqueued
  have other : role ≠ "primary" := fun primary => backup (primary ▸ read)
  rw [if_neg other]

theorem register_frame {log registered : Log} {data : Text} {other : Int} (differs : other ≠ -1)
    (registers : register log data = .ok registered) : registered[other]? = log[other]? := by
  unfold register at registers
  split at registers
  · unfold backupServerData at registers
    split at registers
    · cases registers
      exact Store.get_insert_other differs
    · cases registers
  · cases registers
    rfl

/-- A server that is told to be a backup is one already, or rewrites its record
and starts its tries over with no target. -/
theorem switchToBackup_cases {server switched : Server π} (switches : ReplicationManager.switchToBackup server = .ok switched) :
    (getServerStatus server.log = .ok "backup" ∧ switched = server) ∨
      ∃ ip port dir, getIpThis server.log = .ok ip ∧ getPortThis server.log = .ok port ∧ getNetDir server.log = .ok dir ∧
        switched = { server with
          log := serverData server.log ip port "backup" dir,
          link := Client.closeSocket server.link,
          manager := { server.manager with ip := "0.0.0.0", port := "0", tries := -10 } } := by
  unfold ReplicationManager.switchToBackup at switches
  obtain ⟨role, read, switches⟩ := bind_eq_ok.mp switches
  split at switches
  next backup =>
    subst backup
    cases switches
    exact Or.inl ⟨read, rfl⟩
  next =>
    obtain ⟨ip, readIp, switches⟩ := bind_eq_ok.mp switches
    obtain ⟨port, readPort, switches⟩ := bind_eq_ok.mp switches
    obtain ⟨dir, readDir, same⟩ := bind_eq_ok.mp switches
    cases same
    exact Or.inr ⟨ip, port, dir, readIp, readPort, readDir, rfl⟩

theorem switchToBackup_notPrimary {server switched : Server π}
    (switches : ReplicationManager.switchToBackup server = .ok switched) : NotPrimary switched.log := by
  intro primary
  rcases switchToBackup_cases switches with ⟨backup, rfl⟩ | ⟨_, _, _, _, _, _, rfl⟩
  · rw [backup] at primary
    exact absurd primary (by decide)
  · rw [serverData_role] at primary
    exact absurd primary (by decide)

/-- A queued method leaves the other records alone. -/
theorem Executes.frame {server : Server π} {env : Env} {auth : Bool} {header data : Text} {out : Command π} {other : Int}
    (executes : Executes server env auth header data out) (replicated : Replicated header) (differs : other ≠ getTsn header) :
    out.server.log[other]? = server.log[other]? := by
  cases executes with
  | refused => rfl
  | read => rfl
  | notAborted _ aborts => exact aborts.frame differs
  | aborted _ aborts _ enqueued =>
    rw [enqueue_log enqueued]
    exact aborts.frame differs
  | created method => exact absurd method (not_replicated replicated (by decide))
  | commits _ commits => exact commits.frame differs
  | added _ adds _ enqueued =>
    rw [enqueue_log enqueued]
    exact adds.frame differs
  | completed _ adds _ _ enqueued =>
    rw [enqueue_log enqueued]
    exact adds.frame differs
  | notAdded _ adds => exact adds.frame differs
  | made _ makes =>
    have same := congrArg Prod.fst makes
    simp only at same
    rw [← same]
    exact makeTxn_frame differs
  | pinged method => exact absurd method (not_replicated replicated (by decide))
  | authenticated => rfl
  | demoted method => exact absurd method (not_replicated replicated (by decide))

theorem Executes.notPrimary {server : Server π} {env : Env} {auth : Bool} {header data : Text} {out : Command π}
    (executes : Executes server env auth header data out) (backup : NotPrimary server.log) : NotPrimary out.server.log := by
  cases executes with
  | refused => exact backup
  | read => exact backup
  | notAborted _ aborts => exact aborts.notPrimary backup
  | aborted _ aborts _ enqueued =>
    rw [enqueue_log enqueued]
    exact aborts.notPrimary backup
  | created _ drawn _ enqueued =>
    rw [enqueue_log enqueued]
    rcases newTxn_cases drawn with ⟨rfl, _⟩ | ⟨_, _, _, rfl, _⟩
    · exact backup
    · exact backup.insert (twoEntries_status _ _) (by decide)
  | commits _ commits => exact commits.notPrimary backup
  | added _ adds _ enqueued =>
    rw [enqueue_log enqueued]
    exact adds.notPrimary backup
  | completed _ adds _ _ enqueued =>
    rw [enqueue_log enqueued]
    exact adds.notPrimary backup
  | notAdded _ adds => exact adds.notPrimary backup
  | made _ makes =>
    have same := congrArg Prod.fst makes
    simp only at same
    rw [← same]
    exact makeTxn_notPrimary backup
  | pinged _ _ registers => exact backup.of_get (register_frame (by decide) registers)
  | authenticated => exact backup
  | demoted _ switches => exact switchToBackup_notPrimary switches

end TransactionalServer.Proofs
