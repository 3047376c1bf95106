import TransactionalServer.Proofs.Completeness
import TransactionalServer.Proofs.Reserved

/-! The files that commits append to. A name enters the log with the request
that creates a transaction and stays as it is. -/

namespace TransactionalServer.Proofs.FileNames
open ServerTools LogHandler Exec Session ReplicationManager

/-- A portable name that is not the one of the saved log. -/
structure GoodName (name : Text) : Prop where
  portable : portablePosixName name = true
  notSaved : name ≠ ".server.log"

/-- The record has a good file name. -/
def Named (record : Record) : Prop := ∃ marker name, record[(0 : Int)]? = some (marker, name) ∧ GoodName name

/-- Every record has a good file name, a registration of the backup apart. -/
def Tidy (log : Log) : Prop :=
  ∀ (tsn : Int) record, log[tsn]? = some record → tsn ≠ -1 ∨ record[(-1 : Int)]? ≠ none → Named record

/-- What leaves the memory is tidy. -/
structure TidyEffects (effects : List Effect) : Prop where
  saves : ∀ log, Effect.save log ∈ effects → Tidy log
  appends : ∀ tsn path lines, Effect.append tsn path lines ∈ effects → GoodName path

/-- A request whose name, if it brings one into the log, is good. `newTxn`
checks for itself that the name is portable. -/
structure Names (log : Log) (header data : Text) : Prop where
  new : parse header = 2 → data ≠ ".server.log"
  make : parse header = 6 → log[getTsn header]? = none → GoodName data

section
variable {record : Record} {log after : Log} {tsn seq : Int} {status number : Text}

theorem Named.write (named : Named record) (high : 1 ≤ seq) (entry : LogPair) : Named (record.insert seq entry) := by
  obtain ⟨marker, name, file, good⟩ := named
  exact ⟨marker, name, by rw [Store.get_insert_other (by omega), file], good⟩

theorem Named.mark (named : Named record) (entry : LogPair) : Named (record.insert (-1) entry) := by
  obtain ⟨marker, name, file, good⟩ := named
  exact ⟨marker, name, by rw [Store.get_insert_other (by decide), file], good⟩

theorem Named.age (named : Named record) {marker path : Text} (file : record[(0 : Int)]? = some (marker, path)) (next : Text) :
    Named (record.insert 0 (next, path)) := by
  obtain ⟨_, name, same, good⟩ := named
  cases file.symm.trans same
  exact ⟨next, path, Std.ExtTreeMap.getElem?_insert_self, good⟩

theorem twoEntries_named (status : LogPair) (marker : Text) {name : Text} (good : GoodName name) : Named (twoEntries status (marker, name)) :=
  ⟨marker, name, twoEntries_file _ _, good⟩

theorem tidy_empty : Tidy ∅ := by
  intro tsn record inLog
  rw [Std.ExtTreeMap.getElem?_empty] at inLog
  cases inLog

theorem Tidy.found (tidy : Tidy log) (found : Found log tsn record status number) : Named record := by
  apply tidy tsn record found.inLog
  rw [found.entry]
  exact Or.inr (Option.some_ne_none _)

theorem Tidy.insert (tidy : Tidy log) (named : Named record) : Tidy (log.insert tsn record) := by
  intro other changed inLog whose
  by_cases here : other = tsn
  · subst here
    rw [Std.ExtTreeMap.getElem?_insert_self, Option.some.injEq] at inLog
    exact inLog ▸ named
  · rw [Store.get_insert_other here] at inLog
    exact tidy other changed inLog whose

theorem Tidy.erase (tidy : Tidy log) (tsn : Int) : Tidy (log.erase tsn) := by
  intro other record inLog whose
  by_cases here : other = tsn
  · subst here
    rw [Std.ExtTreeMap.getElem?_erase_self] at inLog
    cases inLog
  · rw [Store.get_erase_other here] at inLog
    exact tidy other record inLog whose

theorem Tidy.kept (tidy : Tidy log) (kept : LogKept log after) : Tidy after := by
  rcases kept with rfl | rfl
  · exact tidy
  · exact tidy.erase _

theorem Tidy.mark (tidy : Tidy log) (found : Found log tsn record status number) (next data : Text) : Tidy (mark log tsn record next data) :=
  tidy.insert ((tidy.found found).mark _)

/-- The name of a transaction with a status. -/
theorem Tidy.fileName (tidy : Tidy log) (found : Found log tsn record status number) {path : Text} (read : getFileName log tsn = .ok path) :
    GoodName path := by
  obtain ⟨marker, name, file, good⟩ := tidy.found found
  simp only [getFileName, LogHandler.pair, found.inLog, file, defined_some, ok_bind, pure_eq_ok, Except.ok.injEq] at read
  exact read ▸ good

theorem Tidy.server (tidy : Tidy log) {port : Text} (read : getPortThis log = .ok port) : GoodName port := by
  obtain ⟨⟨marker, name⟩, file, same⟩ := bind_eq_ok.mp read
  cases same
  obtain ⟨record, inLog, file⟩ := pair_eq_ok.mp file
  obtain ⟨_, _, same, good⟩ := tidy 0 record inLog (Or.inl (by decide))
  cases file.symm.trans same
  exact good

theorem Tidy.serverData (tidy : Tidy log) {port : Text} (good : GoodName port) (ip role dir : Text) : Tidy (serverData log ip port role dir) := by
  rw [serverData_eq]
  exact (tidy.erase 0).insert (twoEntries_named _ _ good)

theorem tidy_nothing : TidyEffects [] where
  saves _ member := by cases member
  appends _ _ _ member := by cases member

theorem TidyEffects.append {first second : List Effect} (one : TidyEffects first) (two : TidyEffects second) : TidyEffects (first ++ second) := by
  constructor
  · intro log member
    exact (List.mem_append.mp member).elim (one.saves log) (two.saves log)
  · intro tsn path lines member
    exact (List.mem_append.mp member).elim (one.appends tsn path lines) (two.appends tsn path lines)

theorem tidy_packets {effects : List Effect} (packets : ∀ effect ∈ effects, ∃ packet, effect = .send packet) : TidyEffects effects := by
  constructor
  · intro log member
    obtain ⟨_, same⟩ := packets _ member
    cases same
  · intro tsn path lines member
    obtain ⟨_, same⟩ := packets _ member
    cases same

theorem tidy_send (packet : Text) : TidyEffects [.send packet] := tidy_packets (by simp)

theorem Tidy.saved (tidy : Tidy log) : TidyEffects [.save log] := by
  constructor
  · intro other member
    cases List.mem_singleton.mp member
    exact tidy
  · intro _ _ _ member
    cases List.mem_singleton.mp member

/-- What `writeFile` appends. -/
theorem Tidy.writeFile (tidy : Tidy log) {io written : Bool} {effects : List Effect} (ran : LogHandler.writeFile log tsn io = .ok (written, effects)) :
    TidyEffects effects := by
  rcases writeFile_cases ran with ⟨_, _, path, lines, rfl, named, bound, read, _⟩ | ⟨_, rfl, _⟩
  · constructor
    · intro _ member
      cases List.mem_singleton.mp member
    · intro _ _ _ member
      cases List.mem_singleton.mp member
      obtain ⟨⟨status, number⟩, entry, _⟩ := bind_eq_ok.mp read
      obtain ⟨record, inLog, entry⟩ := pair_eq_ok.mp entry
      exact tidy.fileName ⟨inLog, entry⟩ named
  · exact tidy_nothing

end

section
variable {log : Log} {header data : Text} {io : Bool} {out : Outcome} {effects : List Effect}

theorem Tidy.commits (tidy : Tidy log) (commits : Commits log header io out) : Tidy out.log ∧ TidyEffects out.effects := by
  cases commits with
  | absent | already | expired | otherNumber | nothing => exact ⟨tidy, tidy_nothing⟩
  | incomplete found _ _ _ marked | primary found _ _ _ marked =>
    subst marked
    exact ⟨tidy.mark found _ _, (tidy.mark found _ _).saved⟩
  | written found _ _ _ marked _ _ appended finished =>
    subst marked finished
    have writing := tidy.mark found "WRITING" (iToS (getSeq header))
    have committed := tidy.mark found "COMMITTED" (iToS (getSeq header))
    exact ⟨committed, writing.saved.append ((writing.writeFile appended).append committed.saved)⟩
  | failed found _ _ _ marked _ _ _ _ finished =>
    subst marked finished
    have writing := tidy.mark found "WRITING" (iToS (getSeq header))
    have waiting := tidy.mark found "WAITING" (iToS (getSeq header))
    exact ⟨waiting, writing.saved.append waiting.saved⟩

theorem Tidy.adds (tidy : Tidy log) (adds : Adds log header data io out) : Tidy out.log ∧ TidyEffects out.effects := by
  cases adds with
  | low | absent | committed | expired | duplicate | above => exact ⟨tidy, tidy_nothing⟩
  | kept high found _ _ grows =>
    subst grows
    exact ⟨tidy.insert ((tidy.found found).write high _), tidy_nothing⟩
  | completes high found _ _ grows _ commits =>
    subst grows
    exact (tidy.insert ((tidy.found found).write high _)).commits commits
  | added high found _ _ _ _ grows =>
    subst grows
    exact ⟨tidy.insert (((tidy.found found).write high _).mark _), tidy_nothing⟩

theorem Tidy.aborts (tidy : Tidy log) (aborts : Aborts log header out) : Tidy out.log ∧ TidyEffects out.effects := by
  cases aborts with
  | absent | committed | expired => exact ⟨tidy, tidy_nothing⟩
  | erased => exact ⟨tidy.erase _, tidy_nothing⟩

theorem Tidy.create (tidy : Tidy log) (good : GoodName data) (tsn : Int) : Tidy (log.insert tsn (freshRecord data)) := by
  rw [freshRecord_eq]
  exact tidy.insert (twoEntries_named _ _ good)

theorem Tidy.newTxn (tidy : Tidy log) (notSaved : data ≠ ".server.log") {draws : List Int} {created : Log} {tsn : Int}
    (creates : LogHandler.newTxn log data draws = .ok (created, effects, tsn)) : Tidy created ∧ TidyEffects effects := by
  rcases newTxn_cases creates with ⟨rfl, rfl, _⟩ | ⟨portable, _, _, rfl, rfl⟩
  · exact ⟨tidy, tidy_nothing⟩
  · have created := tidy.create ⟨portable, notSaved⟩ tsn
    exact ⟨created, created.saved⟩

theorem Tidy.makeTxn (tidy : Tidy log) {tsn : Int} (good : log[tsn]? = none → GoodName data) {made : Log} {fresh : Bool}
    (makes : LogHandler.makeTxn log data tsn = (made, effects, fresh)) : Tidy made ∧ TidyEffects effects := by
  rcases makeTxn_cases makes with ⟨absent, rfl, rfl⟩ | ⟨_, rfl, rfl⟩
  · have created := tidy.create (good absent) tsn
    exact ⟨created, created.saved⟩
  · exact ⟨tidy, tidy_nothing⟩

/-- A registration has no status, so nothing is ever written under its name. -/
theorem Tidy.register (tidy : Tidy log) {registered : Log} (registers : Session.register log data = .ok registered) : Tidy registered := by
  unfold Session.register at registers
  split at registers
  next unregistered =>
    have absent : log[(-1 : Int)]? = none := by
      have missing : backupRegistered log = false := by simpa using unregistered
      exact Std.ExtTreeMap.getElem?_eq_none_of_contains_eq_false missing
    unfold backupServerData at registers
    split at registers
    next ip port _ _ =>
      cases registers
      intro other record inLog whose
      by_cases backup : other = -1
      · subst backup
        rw [Std.ExtTreeMap.getElem?_insert_self, absent, Option.some.injEq] at inLog
        have bare : record[(-1 : Int)]? = none := inLog ▸ Reserved.registration_status ip port
        exact absurd bare (whose.resolve_left (fun other => other rfl))
      · rw [Store.get_insert_other backup] at inLog
        exact tidy other record inLog whose
    next => cases registers
  next =>
    cases registers
    exact tidy

theorem Tidy.sweeps {after : Log} {key : Int} {erased : Bool} (tidy : Tidy log) (sweeps : Sweeps log key after erased) : Tidy after := by
  cases sweeps with
  | absent | low | bare | kept => exact tidy
  | marked _ found => exact tidy.mark found _ _
  | removed | dropped => exact tidy.erase _
  | waits _ found file => exact tidy.insert ((tidy.found found).age file _)

end

section
variable {π : Type} {answer : Answer π} {fuel : Nat} {server : Server π} {env : Env} {auth : Bool} {header data : Text}

theorem Tidy.switchToBackup (tidy : Tidy server.log) {switched : Server π} (switches : ReplicationManager.switchToBackup server = .ok switched) :
    Tidy switched.log := by
  rcases switchToBackup_cases switches with ⟨_, rfl⟩ | ⟨ip, port, dir, _, read, _, rfl⟩
  · exact tidy
  · exact tidy.serverData (tidy.server read) _ _ _

theorem Tidy.executes {out : Command π} (tidy : Tidy server.log) (names : Names server.log header data)
    (executes : Executes server env auth header data out) : Tidy out.server.log ∧ TidyEffects out.effects := by
  cases executes with
  | refused | authenticated => exact ⟨tidy, tidy_nothing⟩
  | read => exact ⟨tidy, tidy_send _⟩
  | notAborted _ aborts => exact tidy.aborts aborts
  | aborted _ aborts _ enqueued =>
    rw [enqueue_log enqueued]
    exact ⟨(tidy.aborts aborts).1, tidy_send _⟩
  | created method creates _ enqueued =>
    rw [enqueue_log enqueued]
    obtain ⟨created, effects⟩ := tidy.newTxn (names.new method) creates
    exact ⟨created, effects.append (tidy_send _)⟩
  | commits _ commits => exact tidy.commits commits
  | added _ adds _ enqueued =>
    rw [enqueue_log enqueued]
    obtain ⟨grown, effects⟩ := tidy.adds adds
    exact ⟨grown, effects.append (tidy_send _)⟩
  | completed _ adds _ _ enqueued =>
    rw [enqueue_log enqueued]
    exact tidy.adds adds
  | notAdded _ adds => exact tidy.adds adds
  | made method makes =>
    obtain ⟨made, effects⟩ := tidy.makeTxn (names.make method) makes
    exact ⟨made, effects.append (tidy_send _)⟩
  | pinged _ _ registers => exact ⟨tidy.register registers, tidy_send _⟩
  | demoted _ switches => exact ⟨tidy.switchToBackup switches, tidy_nothing⟩

theorem Tidy.concludes {io : Bool} {done : Handled π} (tidy : Tidy server.log) (concludes : Concludes answer fuel io server auth header done) :
    Tidy done.server.log ∧ TidyEffects done.effects := by
  have kept {message : Text} {replicated : Bool} {final : Server π}
      (commits : ReplicationManager.commit answer fuel server message = .ok (replicated, final)) : Tidy final.log :=
    tidy.kept ((manager_keeps answer fuel).2.1 _ _ _ _ commits)
  cases concludes with
  | acknowledged => exact ⟨tidy, tidy_send _⟩
  | refused _ refuses => exact ⟨kept refuses, tidy_send _⟩
  | exits _ replicates => exact ⟨kept replicates, tidy_nothing⟩
  | finishes _ replicates written marks =>
    obtain ⟨record, status, number, found, rfl⟩ := changeStatus_cases marks
    have committed := (kept replicates).mark found "COMMITTED" number
    exact ⟨committed, ((kept replicates).writeFile written).append (committed.saved.append (tidy_send _))⟩

/-- A packet whose name is good if it is executed at all. -/
def NamesIfExecuted (server : Server π) (auth : Bool) (header : Text) (payload : Option Text) : Prop :=
  Executed server auth header payload → Names server.log header (payload.getD " ")

theorem Tidy.receive {payload : Option Text} {handled : Handled π} (tidy : Tidy server.log) (names : NamesIfExecuted server auth header payload)
    (received : receive answer fuel env server auth header payload = .ok handled) : Tidy handled.server.log ∧ TidyEffects handled.effects := by
  rcases receive_cases received with ⟨same, _, _, packet, _, effects⟩ | ⟨executed, out, executes, follows⟩
  · rw [same, effects]
    exact ⟨tidy, tidy_send _⟩
  obtain ⟨after, leaves⟩ := tidy.executes (names executed) executes
  cases follows with
  | returned => exact ⟨after, leaves⟩
  | asks _ _ asked => exact ⟨after, leaves.append (tidy_packets (sendAckResend_effects asked))⟩
  | answers => exact ⟨after, leaves.append (tidy_send _)⟩
  | concludes _ _ concludes =>
    obtain ⟨final, appended⟩ := after.concludes concludes
    exact ⟨final, leaves.append appended⟩

/-- A command that has returned in a call that has not. -/
private theorem tidy_command {payload : Option Text} {halt : Halt} {out : Command π} (tidy : Tidy server.log) (valid : validHeader header = true)
    (names : NamesIfExecuted server auth header payload) (halted : Session.receive answer fuel env server auth header payload = .error halt)
    (executed : executeCommand env server auth (parse header) header (payload.getD " ") = .ok out) : TidyEffects out.effects := by
  have complete : needsData header = true → payload ≠ none := by
    rintro needed rfl
    obtain ⟨text, made⟩ := answerable_genAnswerStr (answerable_of_valid valid) "ERROR" "204" "Method requires data."
    simp only [Session.receive, needed, if_true, made, ok_bind, pure_eq_ok, reduceCtorEq] at halted
  cases checked : unauthorized server auth (parse header) with
  | error => simp only [executeCommand, checked, error_bind, reduceCtorEq] at executed
  | ok refused =>
    cases refused with
    | true =>
      simp only [executeCommand, checked, ok_bind, if_true] at executed
      obtain ⟨error, text, same⟩ := bind_eq_ok.mp executed
      cases same
      exact tidy_nothing
    | false => exact (tidy.executes (names ⟨checked, complete⟩) (executeCommand_cases executed)).2

theorem Tidy.check (tidy : Tidy server.log) {tick : Tick} {next : Server π}
    (ran : ReplicationManager.check answer fuel tick server = .ok (some next)) : Tidy next.log := by
  rcases check_log ran with kept | ⟨ip, port, dir, _, read, _, same⟩
  · exact tidy.kept kept
  · rw [same]
    exact tidy.serverData (tidy.server read) _ _ _

/-- The packet of an event, if any, brings good names only. -/
def NamesEvent (server : Server π) : System.Event → Prop
  | .packet _ auth header payload _ _ => NamesIfExecuted server auth header payload
  | _ => True

theorem Tidy.perform (tidy : Tidy server.log) {event : System.Event} (names : NamesEvent server event) {next : Option (Server π)}
    {effects : List Effect} (ran : System.perform answer fuel server event = .ok (next, effects)) :
    (∀ running, next = some running → Tidy running.log) ∧ TidyEffects effects := by
  cases event with
  | packet env auth header payload valid drawn =>
    obtain ⟨handled, received, same⟩ := bind_eq_ok.mp ran
    obtain ⟨after, leaves⟩ := tidy.receive names received
    cases same
    refine ⟨?_, leaves⟩
    intro running same
    split at same
    · cases same
    · cases same
      exact after
  | sweep =>
    obtain ⟨⟨log, dangling⟩, swept, same⟩ := bind_eq_ok.mp ran
    cases same
    have after : Tidy log := timeouts_preserves (fun _ _ _ _ tidy sweeps => Tidy.sweeps tidy sweeps) tidy swept
    refine ⟨?_, after.saved⟩
    rintro _ ⟨⟩
    exact after
  | save =>
    cases ran
    refine ⟨?_, tidy.saved⟩
    rintro _ ⟨⟩
    exact tidy
  | tick tick =>
    obtain ⟨ticked, checked, same⟩ := bind_eq_ok.mp ran
    cases same
    refine ⟨?_, tidy_nothing⟩
    rintro running rfl
    exact tidy.check checked

/-- Also what an event has done that does not return. -/
theorem Tidy.reached (tidy : Tidy server.log) {event : System.Event} (names : NamesEvent server event) :
    TidyEffects (Process.reached answer fuel server event) := by
  unfold Process.reached
  split
  next performed => exact (tidy.perform names performed).2
  next halt performed =>
    cases event with
    | packet env auth header payload valid drawn =>
      simp only
      split
      next out executed =>
        cases received : Session.receive answer fuel env server auth header payload with
        | error halt => exact tidy_command tidy valid names received executed
        | ok handled => simp only [System.perform, received, ok_bind, pure_eq_ok, reduceCtorEq] at performed
      next => exact tidy_nothing
    | sweep | save | tick => exact tidy_nothing

end

section
variable {π : Type} {answer : Answer π} {fuel : Nat} {process next : Process π}

/-- The log in memory and the saved one are tidy, and so is every append. -/
structure Fine (process : Process π) : Prop where
  memory : Tidy process.server.log
  saved : Tidy process.disk.saved
  appended : ∀ append ∈ process.disk.appended, GoodName append.path

/-- The port that the command line gives is a number. -/
def Numbered (self : Identity) : Prop := ∃ number, self.port = iToS number

/-- The packet of an event brings good names only, and a restart has a port. -/
def Allowed (process : Process π) (event : Process.Event π) : Prop :=
  NamesEvent process.server (about event) ∧ ∀ during done restart, event = .crash during done restart → Numbered restart.self

theorem Numbered.good {self : Identity} (numbered : Numbered self) : GoodName self.port := by
  obtain ⟨number, same⟩ := numbered
  rw [same]
  have letters {char : Char} (member : char ∈ iToS number) : char.isDigit = true ∨ char = '-' := Decimal.render_char member
  constructor
  · unfold portablePosixName
    rw [Bool.and_eq_true, List.all_eq_true]
    constructor
    · have present : iToS number ≠ [] := Decimal.render_ne_nil number
      simpa using present
    · intro char member
      rcases letters member with digit | rfl
      · simp [Char.isAlphanum, digit]
      · decide
  · intro log
    have dot : '.' ∈ iToS number := by
      rw [log]
      decide
    exact absurd (letters dot) (by decide)

theorem apply_tidy {disk : Disk} {effects : List Effect} (tidy : TidyEffects effects) (saved : Tidy disk.saved)
    (appended : ∀ append ∈ disk.appended, GoodName append.path) :
    Tidy (effects.foldl Disk.apply disk).saved ∧ ∀ append ∈ (effects.foldl Disk.apply disk).appended, GoodName append.path := by
  induction effects generalizing disk with
  | nil => exact ⟨saved, appended⟩
  | cons effect effects ih =>
    have rest : TidyEffects effects := ⟨fun log member => tidy.saves log (List.mem_cons_of_mem _ member),
      fun tsn path lines member => tidy.appends tsn path lines (List.mem_cons_of_mem _ member)⟩
    cases effect with
    | save log => exact ih rest (tidy.saves log List.mem_cons_self) appended
    | send packet => exact ih rest saved appended
    | append tsn path lines =>
      have later : ∀ append ∈ (disk.apply (.append tsn path lines)).appended, GoodName append.path := by
        intro append member
        rcases List.mem_append.mp member with before | last
        · exact appended append before
        · rw [List.mem_singleton.mp last]
          exact tidy.appends tsn path lines List.mem_cons_self
      exact @ih (disk.apply (.append tsn path lines)) rest saved later

theorem start_fine {restart : Restart π} (numbered : Numbered restart.self) {disk : Disk} (saved : Tidy disk.saved)
    (appended : ∀ append ∈ disk.appended, GoodName append.path) : Fine (Process.start restart disk) :=
  ⟨saved.serverData numbered.good _ _ _, saved, appended⟩

theorem onDisk_names {server : Server π} {event : System.Event} (disk : Disk) (names : NamesEvent server event) :
    NamesEvent server (Process.onDisk disk event) := by
  cases event <;> exact names

theorem step_fine {event : Process.Event π} (fine : Fine process) (allowed : Allowed process event)
    (stepped : Process.step answer fuel process event = .ok next) : Fine next := by
  obtain ⟨effects, performed⟩ := step_performs stepped
  obtain ⟨names, restarts⟩ := allowed
  cases event with
  | event event =>
    obtain ⟨⟨running, had⟩, happened, ran⟩ := bind_eq_ok.mp performed
    obtain ⟨server, runs, same⟩ := bind_eq_ok.mp ran
    cases same
    obtain ⟨after, leaves⟩ := fine.memory.perform (onDisk_names process.disk names) happened
    obtain ⟨saved, appended⟩ := apply_tidy leaves fine.saved fine.appended
    exact ⟨after server (finished_eq_ok.mp runs), saved, appended⟩
  | crash during done restart =>
    cases performed
    have leaves : TidyEffects (Process.reached answer fuel process.server (Process.onDisk process.disk during)) :=
      fine.memory.reached (onDisk_names process.disk names)
    have cut : TidyEffects ((Process.reached answer fuel process.server (Process.onDisk process.disk during)).take done) :=
      ⟨fun log member => leaves.saves log (List.mem_of_mem_take member),
        fun tsn path lines member => leaves.appends tsn path lines (List.mem_of_mem_take member)⟩
    obtain ⟨saved, appended⟩ := apply_tidy cut fine.saved fine.appended
    exact start_fine (restarts during done restart rfl) saved appended

/-- From a first start on, whatever packets, sweeps, ticks, crashes and restarts
have happened: when no executed NEW_TXN names the saved log and every executed
MAKE_TXN of a new id has a good name, every transaction has a good file name
and every append was to such a file. -/
theorem commits_only_write_data_files {restart : Restart π} {existing : Text → Option Text} {room : List Bool}
    {events : List (Process.Event π)} {final : Process π} (numbered : Numbered restart.self)
    (along : Along (Process.step answer fuel) Allowed (Completeness.fresh restart existing room) events)
    (ran : events.foldlM (Process.step answer fuel) (Completeness.fresh restart existing room) = .ok final) :
    (∀ tsn : Int, 1 ≤ tsn → tsn ∈ final.server.log → ∃ name, getFileName final.server.log tsn = .ok name ∧ GoodName name) ∧
      ∀ append ∈ final.disk.appended, GoodName append.path := by
  have start : Fine (Completeness.fresh restart existing room) := start_fine numbered tidy_empty (fun _ member => by cases member)
  have fine : Fine final := run_preserves Fine (fun _ _ _ fine allowed stepped => step_fine fine allowed stepped) along start ran
  refine ⟨?_, fine.appended⟩
  intro tsn positive present
  obtain ⟨record, inLog⟩ := Store.mem_iff_get.mp present
  obtain ⟨marker, name, file, good⟩ := fine.memory tsn record inLog (Or.inl (by omega))
  refine ⟨name, ?_, good⟩
  simp only [getFileName, LogHandler.pair, inLog, file, defined_some, ok_bind, pure_eq_ok]

end

open Completeness in
/-- A transaction that is created, written and committed. -/
theorem committed_file_is_named : ∃ final : Process Unit,
    [Process.Event.event createFive, .event writeFive, .event commitFive].foldlM (Process.step Backup.noPeer 2) (fresh alone fun _ => none) =
      .ok final ∧ ∀ append ∈ final.disk.appended, GoodName append.path := by
  obtain ⟨final, ran⟩ := returned_of_isOk (show ([Process.Event.event createFive, .event writeFive, .event commitFive].foldlM
    (Process.step Backup.noPeer 2) (fresh alone fun _ => none)).isOk by decide +kernel)
  have allowed (process : Process Unit) (event : System.Event) (names : NamesEvent process.server event) : Allowed process (.event event) :=
    ⟨names, fun _ _ _ same => by cases same⟩
  have create (process : Process Unit) : NamesEvent process.server createFive := fun _ => ⟨fun _ => by decide, fun method => absurd method (by decide)⟩
  have write (process : Process Unit) : NamesEvent process.server writeFive := fun _ =>
    ⟨fun method => absurd method (by decide), fun method => absurd method (by decide)⟩
  have commit (process : Process Unit) : NamesEvent process.server commitFive := fun _ =>
    ⟨fun method => absurd method (by decide), fun method => absurd method (by decide)⟩
  have along : Along (Process.step Backup.noPeer 2) Allowed (fresh alone fun _ => none)
      [.event createFive, .event writeFive, .event commitFive] :=
    ⟨allowed _ _ (create _), fun _ _ => ⟨allowed _ _ (write _), fun _ _ => ⟨allowed _ _ (commit _), fun _ _ => trivial⟩⟩⟩
  exact ⟨final, ran, (commits_only_write_data_files ⟨80, by decide⟩ along ran).2⟩

/-- Any client may create a transaction whose file lies outside the directory. -/
def makeOutside : System.Event := .packet {} false "MAKE_TXN 5 0 5" (some "../x") (Eq.refl true) System.nothing_drawn

open Completeness in
theorem made_name_leaves_the_directory : ∃ final : Process Unit,
    [Process.Event.event makeOutside, .event writeFive, .event commitFive].foldlM (Process.step Backup.noPeer 2) (fresh alone fun _ => none) =
      .ok final ∧ final.disk.appended = [⟨5, "../x", ["xx"]⟩] ∧ getFileName final.server.log 5 = .ok "../x" ∧ ¬ GoodName "../x" := by
  obtain ⟨final, ran⟩ := returned_of_isOk (show ([Process.Event.event makeOutside, .event writeFive, .event commitFive].foldlM
    (Process.step Backup.noPeer 2) (fresh alone fun _ => none)).isOk by decide +kernel)
  have seen : ([Process.Event.event makeOutside, .event writeFive, .event commitFive].foldlM (Process.step Backup.noPeer 2)
      (fresh alone fun _ => none)).map (fun final => (final.disk.appended, getFileName final.server.log 5)) =
      .ok ([⟨5, "../x", ["xx"]⟩], .ok "../x") := by decide +kernel
  rw [ran] at seen
  obtain ⟨appended, named⟩ := Prod.mk.inj (Except.ok.inj seen)
  refine ⟨final, ran, appended, named, ?_⟩
  intro good
  exact absurd good.portable (by decide)

end TransactionalServer.Proofs.FileNames
