import TransactionalServer.Backup
import TransactionalServer.System
import TransactionalServer.Proofs.Peers
import TransactionalServer.Proofs.SessionSteps
import TransactionalServer.Proofs.SweepSteps

/-! The ids that no client owns. Record 0 is the server's, record -1 the
registration of its backup; one lemma for each thing that can happen. -/

namespace TransactionalServer.Proofs.Reserved
open ServerTools LogHandler Exec Session ReplicationManager

variable {π : Type} {answer : Answer π} {fuel : Nat} {own : Identity}

/-- The record that PING makes. -/
def registration (ip port : Text) : Record := (∅ : Record).insertIfNew 0 (ip, port)

/-- Record 0 is the server's own, in one of its two roles; record -1 is a
registration when there is one; the others belong to transactions. -/
structure Intact (own : Identity) (log : Log) : Prop where
  server : ∃ role : Text, (role = "primary" ∨ role = "backup") ∧ log[(0 : Int)]? = some (twoEntries (role, own.dir) (own.ip, own.port))
  backup : log[(-1 : Int)]? = none ∨ ∃ ip port, log[(-1 : Int)]? = some (registration ip port)
  others : ∀ tsn record, log[tsn]? = some record → tsn = 0 ∨ tsn = -1 ∨ 1 ≤ tsn

/-- A packet that neither takes away nor misuses what the lookups rely on. -/
structure Minds (log : Log) (header data : Text) : Prop where
  abort : parse header = 1 → getTsn header ≠ 0 ∧ (getTsn header = -1 → log[(-1 : Int)]? = none)
  commit : parse header = 3 → (getTsn header = 0 → getSeq header < 1) ∧ (getTsn header = -1 → log[(-1 : Int)]? = none)
  write : parse header = 5 → 1 ≤ getSeq header → getTsn header ≠ 0 ∧ (getTsn header = -1 → log[(-1 : Int)]? = none)
  make : parse header = 6 → getTsn header = -1 → log[(-1 : Int)]? ≠ none
  ping : parse header = 7 → log[(-1 : Int)]? = none → '|' ∈ data

/-- A packet that lets the reserved ids be: it creates none of them either. -/
structure Respects (log : Log) (header data : Text) : Prop extends Minds log header data where
  creates : parse header = 6 → getTsn header < 0 → log.contains (getTsn header) = true

/-- The packets about a transaction: ABORT, COMMIT, WRITE and MAKE_TXN. -/
def Transactional (header : Text) : Prop := parse header ∈ [1, 3, 5, 6]

instance (header : Text) : Decidable (Transactional header) := inferInstanceAs (Decidable (_ ∈ [1, 3, 5, 6]))

def SameReserved (log after : Log) : Prop := ∀ tsn ≤ (0 : Int), after[tsn]? = log[tsn]?

/-- Nothing is created under an id that no client owns, the server's record stays
as it is, and so does the registration of the backup, unless an attempt to
connect to that backup has failed meanwhile. -/
structure Untouched (server next : Server π) : Prop where
  others : ∀ tsn ≤ (0 : Int), tsn ≠ -1 → next.log[tsn]? = server.log[tsn]?
  registration : next.log[(-1 : Int)]? = server.log[(-1 : Int)]? ∨
    next.log[(-1 : Int)]? = none ∧ ∃ attempts, server.link.connects = attempts ++ next.link.connects ∧ false ∈ attempts

section
variable {log : Log} {role : Text}

/-- The address of a server is the one in its record. -/
theorem identity_of_record (inLog : log[(0 : Int)]? = some (twoEntries (role, own.dir) (own.ip, own.port))) :
    getIpThis log = .ok own.ip ∧ getPortThis log = .ok own.port ∧ getNetDir log = .ok own.dir := by
  have file := pair_eq_ok.mpr ⟨_, inLog, twoEntries_file (role, own.dir) (own.ip, own.port)⟩
  have status := pair_eq_ok.mpr ⟨_, inLog, twoEntries_status (role, own.dir) (own.ip, own.port)⟩
  simp only [getIpThis, getPortThis, getNetDir, file, status, ok_bind, pure_eq_ok, and_self]

/-- A server that changes its role keeps its address. -/
theorem serverData_renewed {ip port dir renewed : Text} (inLog : log[(0 : Int)]? = some (twoEntries (role, own.dir) (own.ip, own.port)))
    (readIp : getIpThis log = .ok ip) (readPort : getPortThis log = .ok port) (readDir : getNetDir log = .ok dir) :
    serverData log ip port renewed dir = serverData log own.ip own.port renewed own.dir := by
  obtain ⟨sameIp, samePort, sameDir⟩ := identity_of_record inLog
  obtain rfl := Except.ok.inj (sameIp.symm.trans readIp)
  obtain rfl := Except.ok.inj (samePort.symm.trans readPort)
  obtain rfl := Except.ok.inj (sameDir.symm.trans readDir)
  rfl

/-- A sweep leaves both roles alone. -/
theorem kept_of_record {record : Record} {status number : Text} (either : role = "primary" ∨ role = "backup")
    (inLog : log[(0 : Int)]? = some (twoEntries (role, own.dir) (own.ip, own.port))) (found : Found log 0 record status number) :
    Kept status := by
  have same := (found_unique found ⟨inLog, twoEntries_status _ _⟩).2.1
  rcases either with primary | backup
  · exact Or.inr (Or.inr (Or.inr (same.trans primary)))
  · exact Or.inr (Or.inr (Or.inl (same.trans backup)))

end

section
variable {log after : Log} {tsn : Int}

theorem Intact.role (intact : Intact own log) :
    ∃ role : Text, (role = "primary" ∨ role = "backup") ∧ getServerStatus log = .ok role := by
  obtain ⟨role, either, inLog⟩ := intact.server
  have found : Found log 0 (twoEntries (role, own.dir) (own.ip, own.port)) role own.dir := ⟨inLog, twoEntries_status _ _⟩
  exact ⟨role, either, found.getStatus⟩

theorem registration_status (ip port : Text) : (registration ip port)[(-1 : Int)]? = none := by
  have absent : (∅ : Record)[(0 : Int)]? = none := Std.ExtTreeMap.getElem?_empty
  rw [registration, Store.insertIfNew_of_absent absent, Store.get_insert_other (by decide)]
  exact Std.ExtTreeMap.getElem?_empty

/-- A registration has no status, so no operation finds one. -/
theorem Intact.not_found (intact : Intact own log) {record : Record} {status number : Text} : ¬ Found log (-1) record status number := by
  intro found
  rcases intact.backup with absent | ⟨ip, port, inLog⟩
  · rw [found.inLog] at absent
    cases absent
  · obtain rfl := Option.some.inj (found.inLog.symm.trans inLog)
    have entry := found.entry
    rw [registration_status] at entry
    cases entry

theorem Intact.positive (intact : Intact own log) {record : Record} {status number : Text} (found : Found log tsn record status number)
    (notServer : tsn ≠ 0) : 1 ≤ tsn := by
  rcases intact.others _ _ found.inLog with server | backup | positive
  · exact absurd server notServer
  · exact absurd (backup ▸ found) intact.not_found
  · exact positive

theorem SameReserved.of_frame (positive : 1 ≤ tsn) (frame : ∀ other, other ≠ tsn → after[other]? = log[other]?) : SameReserved log after :=
  fun other low => frame other (by omega)

theorem Intact.of_same (intact : Intact own log) (same : SameReserved log after) : Intact own after := by
  refine ⟨?_, ?_, ?_⟩
  · rw [same 0 (by decide)]
    exact intact.server
  · rw [same (-1) (by decide)]
    exact intact.backup
  · intro other record inLog
    by_cases low : other ≤ 0
    · rw [same other low] at inLog
      exact intact.others other record inLog
    · exact Or.inr (Or.inr (by omega))

theorem Intact.of_frame (intact : Intact own log) (positive : 1 ≤ tsn) (frame : ∀ other, other ≠ tsn → after[other]? = log[other]?) :
    Intact own after := intact.of_same (.of_frame positive frame)

theorem Intact.kept (intact : Intact own log) (kept : LogKept log after) : Intact own after := by
  rcases kept with rfl | rfl
  · exact intact
  refine ⟨?_, Or.inl Std.ExtTreeMap.getElem?_erase_self, ?_⟩
  · rw [Store.get_erase_other (by decide)]
    exact intact.server
  · intro other record inLog
    by_cases here : other = -1
    · exact Or.inr (Or.inl here)
    · rw [Store.get_erase_other here] at inLog
      exact intact.others other record inLog

/-- A server takes over what the loaded log holds below and above id 0. -/
theorem serverData_intact (backup : log[(-1 : Int)]? = none ∨ ∃ ip port, log[(-1 : Int)]? = some (registration ip port))
    (others : ∀ tsn record, log[tsn]? = some record → tsn = 0 ∨ tsn = -1 ∨ 1 ≤ tsn) {role : Text}
    (either : role = "primary" ∨ role = "backup") : Intact own (serverData log own.ip own.port role own.dir) := by
  rw [serverData_eq]
  refine ⟨⟨role, either, Std.ExtTreeMap.getElem?_insert_self⟩, ?_, ?_⟩
  · rw [Store.get_insert_other (by decide), Store.get_erase_other (by decide)]
    exact backup
  · intro other record inLog
    by_cases here : other = 0
    · exact Or.inl here
    · rw [Store.get_insert_other here, Store.get_erase_other here] at inLog
      exact others other record inLog

end

section
variable {log : Log} {header data : Text} {io : Bool} {out : Outcome}

/-- A COMMIT changes the log only where it finds a status. -/
theorem commits_changes (commits : Commits log header io out) :
    out.log = log ∨ (1 ≤ getSeq header ∧ ∃ record status number, Found log (getTsn header) record status number) := by
  cases commits with
  | absent | already | expired | otherNumber | nothing => exact Or.inl rfl
  | incomplete found _ high | primary found _ high | written found _ high | failed found _ high =>
    exact Or.inr ⟨high, _, _, _, found⟩

theorem adds_changes (adds : Adds log header data io out) :
    out.log = log ∨ (1 ≤ getSeq header ∧ ∃ record status number, Found log (getTsn header) record status number) := by
  cases adds with
  | low | absent | committed | expired | duplicate | above => exact Or.inl rfl
  | kept high found | completes high found | added high found => exact Or.inr ⟨high, _, _, _, found⟩

theorem aborts_changes (aborts : Aborts log header out) :
    out.log = log ∨ ∃ record status number, Found log (getTsn header) record status number := by
  cases aborts with
  | absent | committed | expired => exact Or.inl rfl
  | erased found => exact Or.inr ⟨_, _, _, found⟩

theorem Intact.commits (intact : Intact own log) (commits : Commits log header io out) (ordinary : 1 ≤ getSeq header → getTsn header ≠ 0) :
    SameReserved log out.log := by
  rcases commits_changes commits with same | ⟨high, _, _, _, found⟩
  · rw [same]
    exact fun _ _ => rfl
  · exact .of_frame (intact.positive found (ordinary high)) (fun other differs => commits.frame differs)

theorem Intact.adds (intact : Intact own log) (adds : Adds log header data io out) (ordinary : 1 ≤ getSeq header → getTsn header ≠ 0) :
    SameReserved log out.log := by
  rcases adds_changes adds with same | ⟨high, _, _, _, found⟩
  · rw [same]
    exact fun _ _ => rfl
  · exact .of_frame (intact.positive found (ordinary high)) (fun other differs => adds.frame differs)

theorem Intact.aborts (intact : Intact own log) (aborts : Aborts log header out) (ordinary : getTsn header ≠ 0) :
    SameReserved log out.log := by
  rcases aborts_changes aborts with same | ⟨_, _, _, found⟩
  · rw [same]
    exact fun _ _ => rfl
  · exact .of_frame (intact.positive found ordinary) (fun other differs => aborts.frame differs)

theorem Intact.makeTxn (intact : Intact own log) {tsn : Int} (ordinary : tsn < 0 → log.contains tsn = true) :
    SameReserved log (LogHandler.makeTxn log data tsn).1 := by
  cases inLog : log[tsn]? with
  | some record =>
    rw [LogHandler.makeTxn, Store.contains_of_get inLog]
    exact fun _ _ => rfl
  | none =>
    refine .of_frame ?_ (fun other differs => makeTxn_frame differs)
    have notServer : tsn ≠ 0 := by
      rintro rfl
      obtain ⟨_, _, server⟩ := intact.server
      rw [server] at inLog
      cases inLog
    have notNegative : ¬ tsn < 0 := by
      intro negative
      have present := ordinary negative
      rw [Store.contains_of_absent inLog] at present
      cases present
    omega

theorem Intact.register (intact : Intact own log) {registered : Log} (registers : Session.register log data = .ok registered) :
    Intact own registered := by
  unfold Session.register at registers
  split at registers
  next unregistered =>
    have absent : log[(-1 : Int)]? = none := by
      have missing : backupRegistered log = false := by simpa using unregistered
      exact Std.ExtTreeMap.getElem?_eq_none_of_contains_eq_false missing
    unfold backupServerData at registers
    split at registers
    next ip port _ _ =>
      cases registers
      refine ⟨?_, Or.inr ⟨ip, port, ?_⟩, ?_⟩
      · rw [Store.get_insert_other (by decide)]
        exact intact.server
      · rw [Std.ExtTreeMap.getElem?_insert_self, absent]
        rfl
      · intro other record inLog
        by_cases here : other = -1
        · exact Or.inr (Or.inl here)
        · rw [Store.get_insert_other here] at inLog
          exact intact.others other record inLog
    next => cases registers
  next =>
    cases registers
    exact intact

/-- A new transaction gets one of the numbers that were drawn. -/
theorem Intact.newTxn (intact : Intact own log) {draws : List Int} (drawn : ∀ draw ∈ draws, 1 ≤ draw) {created : Log}
    {effects : List Effect} {tsn : Int} (creates : LogHandler.newTxn log data draws = .ok (created, effects, tsn)) : Intact own created := by
  rcases newTxn_cases creates with ⟨rfl, _⟩ | ⟨_, chosen, _, rfl, _⟩
  · exact intact
  · exact intact.of_frame (drawn tsn chosen) (fun other differs => Store.get_insert_other differs)

end

theorem Intact.renewed {log : Log} {role ip port dir : Text} (intact : Intact own log) (either : role = "primary" ∨ role = "backup")
    (readIp : getIpThis log = .ok ip) (readPort : getPortThis log = .ok port) (readDir : getNetDir log = .ok dir) :
    Intact own (serverData log ip port role dir) := by
  obtain ⟨_, _, inLog⟩ := intact.server
  rw [serverData_renewed inLog readIp readPort readDir]
  exact serverData_intact intact.backup intact.others either

theorem Intact.switchToBackup {server switched : Server π} (intact : Intact own server.log)
    (switches : ReplicationManager.switchToBackup server = .ok switched) : Intact own switched.log := by
  rcases switchToBackup_cases switches with ⟨_, rfl⟩ | ⟨ip, port, dir, readIp, readPort, readDir, rfl⟩
  · exact intact
  · exact intact.renewed (Or.inr rfl) readIp readPort readDir

theorem Intact.sweeps {log after : Log} {key : Int} {erased : Bool} (intact : Intact own log) (sweeps : Sweeps log key after erased) :
    Intact own after := by
  have positive {record : Record} {status number : Text} (found : Found log key record status number) (notKept : ¬ Kept status) : 1 ≤ key := by
    apply intact.positive found
    rintro rfl
    obtain ⟨_, either, inLog⟩ := intact.server
    exact notKept (kept_of_record either inLog found)
  cases sweeps with
  | absent | low | bare | kept => exact intact
  | marked _ found notKept => exact intact.of_frame (positive found notKept) (fun other differs => mark_other differs)
  | removed _ found => exact intact.of_frame (positive found (by decide)) (fun other differs => Store.get_erase_other differs)
  | waits _ found => exact intact.of_frame (positive found (by decide)) (fun other differs => Store.get_insert_other differs)
  | dropped _ found => exact intact.of_frame (positive found (by decide)) (fun other differs => Store.get_erase_other differs)

section
variable {server : Server π} {env : Env} {auth : Bool} {header data : Text}

/-- What a packet about a transaction does before its commit goes on. -/
theorem Intact.transacts {out : Command π} (intact : Intact own server.log) (respects : Respects server.log header data)
    (transactional : Transactional header) (executes : Executes server env auth header data out) :
    out.server.link = server.link ∧ SameReserved server.log out.server.log := by
  have other {method : Nat} (is : parse header = method) (not : method ∉ [1, 3, 5, 6]) : False := not (is ▸ transactional)
  cases executes with
  | refused => exact ⟨rfl, fun _ _ => rfl⟩
  | notAborted method aborts => exact ⟨rfl, intact.aborts aborts (respects.abort method).1⟩
  | aborted method aborts _ enqueued =>
    rw [enqueue_log enqueued, enqueue_link enqueued]
    exact ⟨rfl, intact.aborts aborts (respects.abort method).1⟩
  | commits method commits =>
    exact ⟨rfl, intact.commits commits (fun high server => absurd ((respects.commit method).1 server) (by omega))⟩
  | added method adds _ enqueued =>
    rw [enqueue_log enqueued, enqueue_link enqueued]
    exact ⟨rfl, intact.adds adds (fun high => (respects.write method high).1)⟩
  | completed method adds _ _ enqueued =>
    rw [enqueue_log enqueued, enqueue_link enqueued]
    exact ⟨rfl, intact.adds adds (fun high => (respects.write method high).1)⟩
  | notAdded method adds => exact ⟨rfl, intact.adds adds (fun high => (respects.write method high).1)⟩
  | made method makes =>
    have same := congrArg Prod.fst makes
    simp only at same
    rw [← same]
    exact ⟨rfl, intact.makeTxn (respects.creates method)⟩
  | read method | created method | pinged method | authenticated method | demoted method => exact (other method (by decide)).elim

theorem Intact.executes {out : Command π} (intact : Intact own server.log) (respects : Respects server.log header data)
    (drawn : ∀ draw ∈ env.draws, 1 ≤ draw ∧ draw ≤ 100000) (executes : Executes server env auth header data out) :
    Intact own out.server.log := by
  by_cases transactional : Transactional header
  · exact intact.of_same (intact.transacts respects transactional executes).2
  cases executes with
  | refused | read | authenticated => exact intact
  | created _ creates _ enqueued =>
    rw [enqueue_log enqueued]
    exact intact.newTxn (fun draw member => (drawn draw member).1) creates
  | pinged _ _ registers => exact intact.register registers
  | demoted _ switches => exact intact.switchToBackup switches
  | notAborted method | aborted method | commits method | added method | completed method | notAdded method | made method =>
    exact absurd (by rw [Transactional, method]; decide) transactional

/-- A packet that asks for a commit is about a transaction. -/
theorem committed_ordinary {out : Command π} (respects : Respects server.log header data)
    (executes : Executes server env auth header data out) (refused : out.ret = false) (code : out.error = "committed") :
    getTsn header ≠ 0 := by
  have high := executes.high refused code
  rcases executes.committed_method refused code with commit | write
  · exact fun server => absurd ((respects.commit commit).1 server) (by omega)
  · exact (respects.write write high).1

theorem Intact.concludes {io : Bool} {done : Handled π} (intact : Intact own server.log) (ordinary : getTsn header ≠ 0)
    (concludes : Concludes answer fuel io server auth header done) : Intact own done.server.log := by
  obtain ⟨log, unchanged, same | ⟨record, status, number, found, same⟩⟩ := concludes.log
  · rw [same]
    exact intact.kept unchanged
  · have kept := intact.kept unchanged
    rw [same]
    exact kept.of_frame (kept.positive found ordinary) (fun other differs => mark_other differs)

/-- Handling a packet that lets the reserved ids be. -/
theorem Intact.receive {payload : Option Text} {handled : Handled π} (intact : Intact own server.log)
    (respects : Executed server auth header payload → Respects server.log header (payload.getD " "))
    (drawn : ∀ draw ∈ env.draws, 1 ≤ draw ∧ draw ≤ 100000) (ran : receive answer fuel env server auth header payload = .ok handled) :
    Intact own handled.server.log := by
  rcases receive_cases ran with ⟨same, _⟩ | ⟨executed, out, executes, follows⟩
  · rw [same]
    exact intact
  · have after := intact.executes (respects executed) drawn executes
    cases follows with
    | returned | asks | answers => exact after
    | @concludes done refused code concludes =>
      have ordinary := committed_ordinary (respects executed) executes refused code
      have kept : Intact own done.server.log := after.concludes ordinary concludes
      exact kept

/-- A commit that goes on is about no reserved id. -/
theorem Intact.concludes_untouched {io : Bool} {done : Handled π} (intact : Intact own server.log) (ordinary : getTsn header ≠ 0)
    (concludes : Concludes answer fuel io server auth header done) : Untouched server done.server := by
  obtain ⟨final, forgets, link, marked⟩ := concludes.forgets
  have marks : SameReserved final.log done.server.log := by
    rcases marked with same | ⟨record, status, number, found, same⟩
    · rw [same]
      exact fun _ _ => rfl
    · rw [same]
      exact .of_frame ((intact.kept forgets.kept).positive found ordinary) (fun other differs => mark_other differs)
  refine ⟨?_, ?_⟩
  · intro tsn low differs
    rw [marks tsn low, forgets.kept.other differs]
  · rw [marks (-1) (by decide), link]
    obtain ⟨attempts, script, same | ⟨erased, failed⟩⟩ := forgets
    · exact Or.inl (by rw [same])
    · exact Or.inr ⟨by rw [erased, Std.ExtTreeMap.getElem?_erase_self], attempts, script, failed⟩

/-- A packet about a transaction touches no reserved id. -/
theorem Intact.receive_untouched {payload : Option Text} {handled : Handled π} (intact : Intact own server.log)
    (respects : Executed server auth header payload → Respects server.log header (payload.getD " ")) (transactional : Transactional header)
    (ran : Session.receive answer fuel env server auth header payload = .ok handled) : Untouched server handled.server := by
  rcases receive_cases ran with ⟨same, _⟩ | ⟨executed, out, executes, follows⟩
  · rw [same]
    exact ⟨fun _ _ _ => rfl, Or.inl rfl⟩
  have respects := respects executed
  obtain ⟨link, same⟩ := intact.transacts respects transactional executes
  cases follows with
  | returned | asks | answers => exact ⟨fun tsn low _ => same tsn low, Or.inl (same (-1) (by decide))⟩
  | @concludes done refused code concludes =>
    have later := (intact.of_same same).concludes_untouched (committed_ordinary respects executes refused code) concludes
    have untouched : Untouched server done.server := by
      refine ⟨fun tsn low differs => (later.others tsn low differs).trans (same tsn low), ?_⟩
      rw [← same (-1) (by decide), ← link]
      exact later.registration
    exact untouched

end

/-- The manager's timer changes roles and forgets the backup. -/
theorem Intact.check {tick : Tick} {server next : Server π} (intact : Intact own server.log)
    (ran : ReplicationManager.check answer fuel tick server = .ok (some next)) : Intact own next.log := by
  rcases check_log ran with kept | ⟨ip, port, dir, readIp, readPort, readDir, same⟩
  · exact intact.kept kept
  · rw [same]
    exact intact.renewed (Or.inl rfl) readIp readPort readDir

/-- What an event must not do while it runs. -/
def Allowed (server : Server π) : System.Event → Prop
  | .packet _ auth header payload _ _ => Executed server auth header payload → Respects server.log header (payload.getD " ")
  | _ => True

def AboutTransaction : System.Event → Prop
  | .packet _ _ header _ _ _ => Transactional header
  | .sweep | .save | .tick _ => False

theorem step_intact {server next : Server π} {event : System.Event} (intact : Intact own server.log) (allowed : Allowed server event)
    (stepped : System.step answer fuel server event = .ok next) : Intact own next.log := by
  cases step_cases stepped with
  | packet valid drawn received => exact intact.receive allowed drawn received
  | sweep swept => exact timeouts_preserves (fun _ _ _ _ holds sweeps => holds.sweeps sweeps) intact swept
  | save => exact intact
  | tick checked => exact intact.check checked

theorem step_untouched {server next : Server π} {event : System.Event} (intact : Intact own server.log) (allowed : Allowed server event)
    (about : AboutTransaction event) (stepped : System.step answer fuel server event = .ok next) : Untouched server next := by
  cases step_cases stepped with
  | packet valid drawn received => exact intact.receive_untouched allowed about received
  | sweep | save | tick => exact about.elim

/-- Whatever a server is sent and whatever its timers and its peer do, as long as
no packet it executes misuses a reserved id, the reserved ids stay reserved, and
no packet about a transaction touches them. -/
theorem reserved_ids_stay_reserved {loaded : Log} (backup : loaded[(-1 : Int)]? = none ∨ ∃ ip port, loaded[(-1 : Int)]? = some (registration ip port))
    (others : ∀ tsn record, loaded[tsn]? = some record → tsn = 0 ∨ tsn = -1 ∨ 1 ≤ tsn) (primary : Bool) (peer : π) (wires : List Wire)
    (connects : List Bool) {events : List System.Event} {final : Server π}
    (along : Along (System.step answer fuel) Allowed (System.start own primary loaded peer wires connects) events)
    (ran : events.foldlM (System.step answer fuel) (System.start own primary loaded peer wires connects) = .ok final) :
    Intact own final.log ∧ ∀ event next, AboutTransaction event → Allowed final event → System.step answer fuel final event = .ok next →
      Untouched final next := by
  have started : Intact own (System.start own primary loaded peer wires connects).log := by
    apply serverData_intact backup others
    split
    · exact Or.inl rfl
    · exact Or.inr rfl
  have intact : Intact own final.log :=
    run_preserves (fun server => Intact own server.log) (fun _ _ _ intact allowed stepped => step_intact intact allowed stepped) along started ran
  exact ⟨intact, fun event next about allowed stepped => step_untouched intact allowed about stepped⟩

/-- A primary that has just been started with no log. -/
def freshPrimary : Server Unit := System.start ⟨"ip", "80", "dir"⟩ true ∅ () [] []

def createFive : System.Event := .packet { draws := [5] } false "NEW_TXN -1 0 3" (some "aa") (Eq.refl true) System.five_drawn

def demote : System.Event := .packet {} false "KILL -1 0 0" none (Eq.refl true) System.nothing_drawn

def abortFive : System.Event := .packet {} false "ABORT 5 0 0" none (Eq.refl true) System.nothing_drawn

/-- A packet about no reserved id misuses none. -/
private theorem respects_of_positive {log : Log} {header data : Text} (positive : 1 ≤ getTsn header) (pings : parse header ≠ 7) :
    Respects log header data where
  abort _ := ⟨by omega, fun backup => by omega⟩
  commit _ := ⟨fun server => by omega, fun backup => by omega⟩
  write _ _ := ⟨by omega, fun backup => by omega⟩
  make _ backup := by omega
  ping method := absurd method pings
  creates _ negative := by omega

private theorem respects_of_method {log : Log} {header data : Text} (other : ¬ Transactional header) (pings : parse header ≠ 7) :
    Respects log header data where
  abort method := absurd (by rw [Transactional, method]; decide) other
  commit method := absurd (by rw [Transactional, method]; decide) other
  write method := absurd (by rw [Transactional, method]; decide) other
  make method := absurd (by rw [Transactional, method]; decide) other
  ping method := absurd method pings
  creates method := absurd (by rw [Transactional, method]; decide) other

/-- The transaction is created and aborted, the server demoted. -/
theorem created_and_demoted_keeps_reserved_ids :
    ∃ final next, [createFive, demote].foldlM (System.step Backup.noPeer 0) freshPrimary = .ok final ∧ Intact ⟨"ip", "80", "dir"⟩ final.log ∧
      System.step Backup.noPeer 0 final abortFive = .ok next ∧ Untouched final next := by
  obtain ⟨final, ran⟩ : ∃ final, [createFive, demote].foldlM (System.step Backup.noPeer 0) freshPrimary = .ok final :=
    returned_of_isOk (by decide +kernel)
  have returns : ([createFive, demote].foldlM (System.step Backup.noPeer 0) freshPrimary >>= fun final =>
      System.step Backup.noPeer 0 final abortFive).isOk := by decide +kernel
  rw [ran, ok_bind] at returns
  obtain ⟨next, aborted⟩ := returned_of_isOk returns
  have along : Along (System.step Backup.noPeer 0) Allowed freshPrimary [createFive, demote] :=
    ⟨fun _ => respects_of_method (by decide) (by decide), fun _ _ => ⟨fun _ => respects_of_method (by decide) (by decide), fun _ _ => trivial⟩⟩
  have unloaded : ∀ (tsn : Int) record, (∅ : Log)[tsn]? = some record → tsn = 0 ∨ tsn = -1 ∨ 1 ≤ tsn := by
    intro tsn record inLog
    rw [Std.ExtTreeMap.getElem?_empty] at inLog
    cases inLog
  obtain ⟨intact, untouched⟩ := reserved_ids_stay_reserved (Or.inl Std.ExtTreeMap.getElem?_empty) unloaded true () [] [] along ran
  refine ⟨final, next, ran, intact, aborted, ?_⟩
  exact untouched abortFive next (show Transactional _ by decide) (fun _ => respects_of_positive (by decide) (by decide)) aborted

def writeServerRecord : System.Event := .packet {} false "WRITE 0 1 2" (some "x") (Eq.refl true) System.nothing_drawn

/-- A client's WRITE of id 0 takes the primary role away. -/
theorem write_of_id_zero_changes_the_role :
    ∃ next, System.step Backup.noPeer 0 freshPrimary writeServerRecord = .ok next ∧ ¬ Intact ⟨"ip", "80", "dir"⟩ next.log := by
  have role : (System.step Backup.noPeer 0 freshPrimary writeServerRecord).map (fun next => getServerStatus next.log) =
      .ok (.ok "ACTIVE") := by decide +kernel
  obtain ⟨next, stepped⟩ : ∃ next, System.step Backup.noPeer 0 freshPrimary writeServerRecord = .ok next :=
    returned_of_isOk (by decide +kernel)
  rw [stepped] at role
  have active : getServerStatus next.log = .ok "ACTIVE" := Except.ok.inj role
  refine ⟨next, stepped, fun intact => ?_⟩
  obtain ⟨role, either, read⟩ := intact.role
  rw [active, Except.ok.injEq] at read
  subst read
  exact absurd either (by decide)

end TransactionalServer.Proofs.Reserved
