import TransactionalServer.Launch
import TransactionalServer.Pair
import TransactionalServer.Proofs.Peers
import TransactionalServer.Proofs.Reserved

/-! The address of a server in primary.txt and in its PING, and what the other
server reads there. -/

namespace TransactionalServer.Proofs.Addresses
open ServerTools LogHandler Exec Session ReplicationManager Pair

theorem clean_bar {field : Text} (clean : Fields.Clean ['|', '\n'] field) : Fields.Clean ['|'] field := by
  intro char member bar
  exact clean char member (List.mem_cons.mpr (Or.inl (List.mem_singleton.mp bar)))

theorem line_eq {ip port : Text} (cleanIp : Fields.Clean ['|', '\n'] ip) (cleanPort : Fields.Clean ['|', '\n'] port) :
    line ip port = "IP: ".toList ++ '|' :: (ip ++ '|' :: ("\tport: ".toList ++ '|' :: (port ++ '|' :: []))) := by
  have single {field : Text} (clean : Fields.Clean ['|', '\n'] field) : ∀ char ∈ field, decide (char ≠ '\n') = true := by
    intro char member
    have outside := clean char member
    simp only [List.mem_cons, not_or] at outside
    exact decide_eq_true outside.2.1
  have text : "IP: |".toList ++ ip ++ "|\tport: |".toList ++ port ++ "|\n".toList =
      ("IP: |".toList ++ ip ++ "|\tport: |".toList ++ port ++ "|".toList) ++ '\n' :: [] := by simp
  have whole : ∀ char ∈ "IP: |".toList ++ ip ++ "|\tport: |".toList ++ port ++ "|".toList, decide (char ≠ '\n') = true := by
    intro char member
    simp only [List.mem_append] at member
    rcases member with (((first | inside) | middle) | inside) | last
    · exact List.all_eq_true.mp (by decide : "IP: |".toList.all (· ≠ '\n') = true) char first
    · exact single cleanIp char inside
    · exact List.all_eq_true.mp (by decide : "|\tport: |".toList.all (· ≠ '\n') = true) char middle
    · exact single cleanPort char inside
    · exact List.all_eq_true.mp (by decide : "|".toList.all (· ≠ '\n') = true) char last
  unfold line Client.firstLine
  simp only [text]
  rw [List.takeWhile_append_of_pos whole]
  simp

/-- The fields of the line are the address it was written with. -/
theorem line_fields {ip port : Text} (cleanIp : Fields.Clean ['|', '\n'] ip) (cleanPort : Fields.Clean ['|', '\n'] port) :
    Fields.split ['|'] (line ip port) = ["IP: ".toList, ip, "\tport: ".toList, port, []] := by
  have first : Fields.Clean ['|'] "IP: ".toList := by decide
  have third : Fields.Clean ['|'] "\tport: ".toList := by decide
  have separates : '|' ∈ ['|'] := List.mem_singleton_self _
  rw [line_eq cleanIp cleanPort, Fields.split_field first separates, Fields.split_field (clean_bar cleanIp) separates,
    Fields.split_field third separates, Fields.split_field (clean_bar cleanPort) separates]
  rfl

/-- A server that finds this text in primary.txt loads this address. -/
def Loads (text ip port : Text) : Prop :=
  ∀ reader : Server Unit, loadPrimary { primaryTxt := some (Client.firstLine text).1 } reader =
    .ok (some { reader with manager := { reader.manager with primIp := ip, primPort := port } })

/-- A server without a backup that is sent this data registers this address. -/
def Registers (data ip port : Text) : Prop :=
  ∀ log : Log, log[(-1 : Int)]? = none →
    ∃ registered, backupServerData log data = .ok registered ∧ getIpBackup registered = .ok ip ∧ getPortBackup registered = .ok port

section
variable {ip port otherIp otherPort : Text}

theorem iToS_clean (value : Int) : Fields.Clean ['|', '\n'] (iToS value) := by
  intro char member
  rcases Decimal.render_char member with digit | same
  · intro separator
    simp only [List.mem_cons, List.not_mem_nil, or_false] at separator
    rcases separator with rfl | rfl
    · exact absurd digit (by decide)
    · exact absurd digit (by decide)
  · rw [same]
    decide

/-- What is written into primary.txt is what is read there. -/
theorem loads_iff (cleanIp : Fields.Clean ['|', '\n'] ip) (cleanPort : Fields.Clean ['|', '\n'] port) :
    Loads (primaryText ip port) otherIp otherPort ↔ ip = otherIp ∧ port = otherPort := by
  have loaded (reader : Server Unit) : loadPrimary { primaryTxt := some (Client.firstLine (primaryText ip port)).1 } reader =
      .ok (some { reader with manager := { reader.manager with primIp := ip, primPort := port } }) := by
    have shape : Fields.split ['|'] (Client.firstLine (primaryText ip port)).1 = _ := line_fields cleanIp cleanPort
    simp only [loadPrimary, shape]
    rfl
  constructor
  · intro loads
    have same := (loaded ⟨∅, {}, ⟨(), false, [], [], []⟩⟩).symm.trans (loads _)
    simp only [Except.ok.injEq, Option.some.injEq, Server.mk.injEq, Manager.mk.injEq, true_and, and_true] at same
    exact same
  · rintro ⟨rfl, rfl⟩
    exact loaded

/-- What a PING carries is what is registered. -/
theorem registers_iff (cleanIp : Fields.Clean ['|'] ip) (cleanPort : Fields.Clean ['|'] port) :
    Registers (ip ++ "|" ++ port) otherIp otherPort ↔ ip = otherIp ∧ port = otherPort := by
  have shape : Fields.split ['|'] (ip ++ "|" ++ port) = [ip, port] := by
    have bar : ip ++ "|".toList ++ port = ip ++ '|' :: port := by simp
    rw [bar, Fields.split_field cleanIp (List.mem_singleton_self _), Fields.split_last cleanPort]
  have registered {log : Log} (absent : log[(-1 : Int)]? = none) : backupServerData log (ip ++ "|" ++ port) =
      .ok (log.insert (-1) (Reserved.registration ip port)) := by
    simp only [backupServerData, shape, absent, Option.getD_none, Reserved.registration]
  have entry (log : Log) : pair (log.insert (-1) (Reserved.registration ip port)) (-1) 0 = .ok (ip, port) := by
    refine pair_eq_ok.mpr ⟨_, Std.ExtTreeMap.getElem?_insert_self, ?_⟩
    rw [Reserved.registration, Store.insertIfNew_of_absent Std.ExtTreeMap.getElem?_empty, Std.ExtTreeMap.getElem?_insert_self]
  constructor
  · intro registers
    obtain ⟨log, registers, hasIp, hasPort⟩ := registers ∅ Std.ExtTreeMap.getElem?_empty
    obtain rfl := Except.ok.inj ((registered Std.ExtTreeMap.getElem?_empty).symm.trans registers)
    simp only [getIpBackup, getPortBackup, entry, ok_bind, pure_eq_ok, Except.ok.injEq] at hasIp hasPort
    exact ⟨hasIp, hasPort⟩
  · rintro ⟨rfl, rfl⟩ log absent
    refine ⟨_, registered absent, ?_, ?_⟩
    · simp only [getIpBackup, entry, ok_bind, pure_eq_ok]
    · simp only [getPortBackup, entry, ok_bind, pure_eq_ok]

end

/-- The record of a server that was started with this address. -/
def Own (own : Identity) (log : Log) : Prop :=
  ∃ role : Text, (role = "primary" ∨ role = "backup") ∧ log[(0 : Int)]? = some (twoEntries (role, own.dir) (own.ip, own.port))

/-- A packet that leaves the record of the server alone. -/
structure Spares (header : Text) : Prop where
  abort : parse header = 1 → getTsn header ≠ 0
  numbered : parse header = 3 ∨ parse header = 5 → 1 ≤ getSeq header → getTsn header ≠ 0

/-- The packet of an event spares that record if it is executed at all. -/
def Spared {π : Type} (server : Server π) : System.Event → Prop
  | .packet _ auth header payload _ _ => Executed server auth header payload → Spares header
  | .sweep | .save | .tick _ => True

section
variable {π : Type} {answer : Answer π} {fuel : Nat} {own : Identity} {log after : Log} {server : Server π} {env : Env} {auth : Bool}
  {header data : Text}

theorem Own.of_get (holds : Own own log) (same : after[(0 : Int)]? = log[(0 : Int)]?) : Own own after := by
  obtain ⟨role, either, inLog⟩ := holds
  exact ⟨role, either, same.trans inLog⟩

theorem serverData_own (log : Log) {role : Text} (either : role = "primary" ∨ role = "backup") :
    Own own (serverData log own.ip own.port role own.dir) := by
  rw [serverData_eq]
  exact ⟨role, either, Std.ExtTreeMap.getElem?_insert_self⟩

theorem Own.identity (holds : Own own log) : getIpThis log = .ok own.ip ∧ getPortThis log = .ok own.port ∧ getNetDir log = .ok own.dir := by
  obtain ⟨_, _, inLog⟩ := holds
  exact Reserved.identity_of_record inLog

theorem Own.taken (holds : Own own log) : log[(0 : Int)]? ≠ none := by
  obtain ⟨role, _, inLog⟩ := holds
  rw [inLog]
  exact Option.some_ne_none _

/-- MAKE_TXN changes no record that is there. -/
theorem Own.makeTxn (holds : Own own log) (data : Text) (tsn : Int) : (LogHandler.makeTxn log data tsn).1[(0 : Int)]? = log[(0 : Int)]? := by
  by_cases server : tsn = 0
  · subst server
    obtain ⟨role, _, inLog⟩ := holds
    rw [LogHandler.makeTxn, Store.contains_of_get inLog]
    rfl
  · exact makeTxn_frame (Ne.symm server)

theorem Own.renewed {role ip port dir : Text} (holds : Own own log) (either : role = "primary" ∨ role = "backup")
    (readIp : getIpThis log = .ok ip) (readPort : getPortThis log = .ok port) (readDir : getNetDir log = .ok dir) :
    Own own (serverData log ip port role dir) := by
  obtain ⟨_, _, inLog⟩ := holds
  rw [Reserved.serverData_renewed inLog readIp readPort readDir]
  exact serverData_own _ either

theorem Own.switchToBackup {switched : Server π} (holds : Own own server.log)
    (switches : ReplicationManager.switchToBackup server = .ok switched) : Own own switched.log := by
  rcases switchToBackup_cases switches with ⟨_, rfl⟩ | ⟨ip, port, dir, readIp, readPort, readDir, rfl⟩
  · exact holds
  · exact holds.renewed (Or.inr rfl) readIp readPort readDir

theorem Own.sweeps {key : Int} {erased : Bool} (holds : Own own log) (sweeps : Sweeps log key after erased) : Own own after := by
  have other {record : Record} {status number : Text} (found : Found log key record status number) (notKept : ¬ Kept status) :
      (0 : Int) ≠ key := by
    rintro rfl
    obtain ⟨_, either, inLog⟩ := holds
    exact notKept (Reserved.kept_of_record either inLog found)
  cases sweeps with
  | absent | low | bare | kept => exact holds
  | marked _ found notKept => exact holds.of_get (mark_other (other found notKept))
  | removed _ found | dropped _ found => exact holds.of_get (Store.get_erase_other (other found (by decide)))
  | waits _ found => exact holds.of_get (Store.get_insert_other (other found (by decide)))

/-- Only a KILL changes the record of the server, and it keeps the address. -/
theorem Own.executes {out : Command π} (holds : Own own server.log) (spares : Spares header)
    (executes : Executes server env auth header data out) : Own own out.server.log := by
  have numbered {out : Outcome} (method : parse header = 3 ∨ parse header = 5)
      (changes : out.log = server.log ∨ (1 ≤ getSeq header ∧ ∃ record status number, Found server.log (getTsn header) record status number))
      (frame : (0 : Int) ≠ getTsn header → out.log[(0 : Int)]? = server.log[(0 : Int)]?) : Own own out.log := by
    rcases changes with same | ⟨high, _⟩
    · rw [same]
      exact holds
    · exact holds.of_get (frame (spares.numbered method high).symm)
  cases executes with
  | refused | read | authenticated => exact holds
  | notAborted method aborts => exact holds.of_get (aborts.frame (spares.abort method).symm)
  | aborted method aborts _ enqueued =>
    rw [enqueue_log enqueued]
    exact holds.of_get (aborts.frame (spares.abort method).symm)
  | created _ creates _ enqueued =>
    rw [enqueue_log enqueued]
    rcases newTxn_cases creates with ⟨rfl, _⟩ | ⟨_, _, absent, rfl, _⟩
    · exact holds
    · refine holds.of_get (Store.get_insert_other ?_)
      rintro rfl
      exact holds.taken absent
  | commits method commits => exact numbered (Or.inl method) (Reserved.commits_changes commits) commits.frame
  | added method adds _ enqueued | completed method adds _ _ enqueued =>
    rw [enqueue_log enqueued]
    exact numbered (Or.inr method) (Reserved.adds_changes adds) adds.frame
  | notAdded method adds => exact numbered (Or.inr method) (Reserved.adds_changes adds) adds.frame
  | made _ makes =>
    have same := congrArg Prod.fst makes
    simp only at same
    rw [← same]
    exact holds.of_get (holds.makeTxn data (getTsn header))
  | pinged _ _ registers => exact holds.of_get (register_frame (by decide) registers)
  | demoted _ switches => exact holds.switchToBackup switches

theorem Own.concludes {io : Bool} {done : Handled π} (holds : Own own server.log) (ordinary : getTsn header ≠ 0)
    (concludes : Concludes answer fuel io server auth header done) : Own own done.server.log :=
  holds.of_get (concludes.frame (Ne.symm ordinary) (by decide))

theorem Own.receive {payload : Option Text} {handled : Handled π} (holds : Own own server.log)
    (spares : Executed server auth header payload → Spares header) (ran : receive answer fuel env server auth header payload = .ok handled) :
    Own own handled.server.log := by
  rcases receive_cases ran with ⟨same, _⟩ | ⟨executed, out, executes, follows⟩
  · rw [same]
    exact holds
  · have after := holds.executes (spares executed) executes
    cases follows with
    | returned | asks | answers => exact after
    | @concludes done refused code concludes =>
      have ordinary := (spares executed).numbered (executes.committed_method refused code) (executes.high refused code)
      have kept : Own own done.server.log := after.concludes ordinary concludes
      exact kept

theorem Own.check {tick : Tick} {next : Server π} (holds : Own own server.log)
    (ran : ReplicationManager.check answer fuel tick server = .ok (some next)) : Own own next.log := by
  rcases check_log ran with kept | ⟨ip, port, dir, readIp, readPort, readDir, same⟩
  · exact holds.of_get (kept.other (by decide))
  · rw [same]
    exact holds.renewed (Or.inl rfl) readIp readPort readDir

theorem step_own {next : Server π} {event : System.Event} (holds : Own own server.log) (spared : Spared server event)
    (stepped : System.step answer fuel server event = .ok next) : Own own next.log := by
  cases step_cases stepped with
  | packet valid drawn received => exact holds.receive spared received
  | sweep swept => exact timeouts_preserves (fun _ _ _ _ before sweeps => before.sweeps sweeps) holds swept
  | save => exact holds
  | tick checked => exact holds.check checked

end

/-- A backup that promotes itself writes its text into its own directory. -/
theorem publish_writes {setup : Setup} {pair next : Pair} {side : Side} {tick : Tick} (promoted : promotes setup pair side = true)
    (published : publish setup pair side (.tick tick) = .ok next) :
    ∃ text dir, writtenText (pair.servers side) = .ok text ∧ getNetDir (pair.servers side).log = .ok dir ∧
      next.primaryTxt dir = some (Client.firstLine text).1 := by
  simp only [publish, promoted, if_true, bind_eq_ok, pure_eq_ok, Except.ok.injEq] at published
  obtain ⟨ip, readIp, port, readPort, dir, readDir, rfl⟩ := published
  refine ⟨primaryText ip port, dir, ?_, readDir, if_pos rfl⟩
  simp only [writtenText, readIp, readPort, ok_bind, pure_eq_ok]

section
variable {fuel : Nat}

/-- Packets arrive as they were sent. -/
def asSent : Backup.Arrival := fun header data => .ok (header, some data)

private theorem ping_handled {peer : Backup} {io : Bool} {length : Int} {info : Text} {reply : Option Text} {after : Backup}
    (answered : Backup.answer asSent peer io ("PING -1 0 " ++ iToS length) info = .ok (after, reply)) : register peer.log info = .ok after.log := by
  have shape : fields ("PING -1 0 ".toList ++ iToS length) = "PING".toList :: "-1".toList :: "0".toList :: fields (iToS length) :=
    fields_compose (show FieldText "PING" by decide) (show FieldText "-1" by decide) (show FieldText "0" by decide) (iToS length)
  have method : parse ("PING -1 0 ".toList ++ iToS length) = 7 := by
    rw [parse_of_fields shape]
    rfl
  obtain ⟨⟨_, payload⟩, same, answered⟩ := bind_eq_ok.mp answered
  cases same
  obtain ⟨handled, received, same⟩ := bind_eq_ok.mp answered
  cases same
  simp only [Session.receive, dispatch, executeCommand, method, unauthorized, bind_eq_ok, pure_eq_ok] at received
  obtain ⟨out, ⟨refused, checked, executed⟩, concluded⟩ := received
  obtain rfl : refused = false := by simpa using checked.symm
  simp only [Bool.false_eq_true, if_false, bind_eq_ok, Except.ok.injEq] at executed
  obtain ⟨ack, _, log, registers, rfl⟩ := executed
  simp only [if_true, Except.ok.injEq] at concluded
  subst concluded
  exact registers

/-- The tick of a backup that is in step with its primary sends its PING there. -/
theorem ping_registers {server next : Server Backup} {tick : Tick} {info : Text}
    (connects : (Client.connectSocket (Client.closeSocket server.link)).1 = true)
    (synced : (!server.manager.backupDidSync && !server.manager.restarted) = false) (built : pingInfo server = .ok info)
    (ran : backupOps (Backup.answer asSent) fuel tick server = .ok (some next)) : register server.link.peer.log info = .ok next.link.peer.log := by
  cases backupOps_steps ran with
  | checks _ unsynced =>
    rw [synced] at unsynced
    cases unsynced
  | searches down =>
    rw [down] at connects
    cases connects
  | pings up _ readIp readPort exchanged =>
    simp only [pingInfo, readIp, readPort, ok_bind, pure_eq_ok, Except.ok.injEq] at built
    subst built
    have peer := connectSocket_peer (Client.closeSocket server.link)
    rw [up] at peer
    cases exchange_cases exchanged with
    | answered _ _ answered =>
      rw [← show _ = server.link.peer from peer]
      exact ping_handled answered

end

/-- A command line that gives this address. -/
structure Given (options : Options) (ip : Text) (p : Int) : Prop where
  hasIp : options.ipArg = some ip
  clean : Fields.Clean ['|', '\n'] ip
  hasPort : ∃ arg, options.portArg = some arg ∧ atoi arg = p
  range : 1 ≤ p ∧ p ≤ 65535

section
variable {options : Options} {ip : Text} {p : Int}

theorem toShort_of_port (low : 1 ≤ p) (high : p ≤ 65535) : toShort p = if p ≤ 32767 then p else p - 65536 := by
  have size : (2 : Nat) ^ 16 = 65536 := by decide
  rw [toShort, Decimal.wrap, size, Int.bmod_def]
  split <;> split <;> omega

theorem Given.port_eq (given : Given options ip p) : options.port = if p ≤ 32767 then p else p - 65536 := by
  obtain ⟨arg, present, number⟩ := given.hasPort
  obtain ⟨low, high⟩ := given.range
  have short := toShort_of_port low high
  simp only [Options.port, present, Option.map_some, Option.getD_some, number, short]
  split <;> split <;> omega

theorem Given.ip_eq (given : Given options ip p) : options.ip = if ip = "NULL" then ("127.0.0.1" : Text) else ip := by
  simp only [Options.ip, given.hasIp, Option.getD_some]

/-- The acceptor listens on the port that was given. -/
theorem Given.listens (given : Given options ip p) : options.listening = p := by
  obtain ⟨low, high⟩ := given.range
  rw [Options.listening, given.port_eq]
  split <;> omega

theorem Given.clean_ip (given : Given options ip p) : Fields.Clean ['|', '\n'] options.ip := by
  rw [given.ip_eq]
  split
  · decide
  · exact given.clean

theorem iToS_injective {first second : Int} (same : iToS first = iToS second) : first = second := by
  have parsed := congrArg Decimal.parse? same
  rw [iToS, iToS, Decimal.parse_render, Decimal.parse_render] at parsed
  exact Option.some.inj parsed

/-- The server knows the address that was given only when the port fits a
`short` and the address is not the word for none. -/
theorem Given.known (given : Given options ip p) : options.ip = ip ∧ iToS options.port = iToS p ↔ p ≤ 32767 ∧ ip ≠ "NULL" := by
  rw [given.ip_eq, given.port_eq]
  constructor
  · rintro ⟨sameIp, samePort⟩
    have same := iToS_injective samePort
    constructor
    · by_contra large
      rw [if_neg large] at same
      omega
    · rintro rfl
      rw [if_pos rfl] at sameIp
      exact absurd sameIp (by decide)
  · rintro ⟨small, other⟩
    rw [if_neg other, if_pos small]
    exact ⟨rfl, rfl⟩

variable {π : Type} {answer : Answer π} {fuel : Nat}

theorem start_own {accepts : Text → Bool} {loaded : Log} {peer : π} {wires : List Wire} {connects : List Bool} {started : Server π}
    (starts : options.start accepts loaded peer wires connects = some started) :
    Own ⟨options.ip, iToS options.port, options.netDir⟩ started.log := by
  unfold Options.start at starts
  split at starts
  · cases starts
    apply serverData_own
    split
    · exact Or.inl rfl
    · exact Or.inr rfl
  · cases starts

end

/-- Whatever address the command line gives, the acceptor listens on its port;
but what `main` and `switchToPrimary` write into primary.txt and what the PING
of a backup carries is read as that address exactly when the port is at most
32767 and the ip is not "NULL", after every run in which no executed packet is
an ABORT or a numbered COMMIT or WRITE of id 0. The one is what a promotion leaves
in primary.txt, the other what the peer of a backup in step registers. -/
theorem advertised_addresses_decode_exactly_for_ports_that_fit_a_short {options : Options} {ip : Text} {p : Int} (given : Given options ip p) :
    options.listening = p ∧
    (∀ text, options.written = some text → (Loads text ip (iToS p) ↔ p ≤ 32767 ∧ ip ≠ "NULL")) ∧
    (∀ {π : Type} {answer : Answer π} {fuel : Nat} {accepts : Text → Bool} {loaded : Log} {peer : π} {wires : List Wire} {connects : List Bool}
      {started final : Server π} {events : List System.Event}, options.start accepts loaded peer wires connects = some started →
      Along (System.step answer fuel) Spared started events → events.foldlM (System.step answer fuel) started = .ok final →
      (∃ text, writtenText final = .ok text ∧ (Loads text ip (iToS p) ↔ p ≤ 32767 ∧ ip ≠ "NULL")) ∧
        ∃ data, pingInfo final = .ok data ∧ (Registers data ip (iToS p) ↔ p ≤ 32767 ∧ ip ≠ "NULL")) ∧
    (∀ {setup : Setup} {pair next : Pair} {side : Side} {tick : Tick}, promotes setup pair side = true →
      publish setup pair side (.tick tick) = .ok next → ∃ text dir, writtenText (pair.servers side) = .ok text ∧
        getNetDir (pair.servers side).log = .ok dir ∧ next.primaryTxt dir = some (Client.firstLine text).1) ∧
    ∀ {fuel : Nat} {server next : Server Backup} {tick : Tick} {data : Text}, (Client.connectSocket (Client.closeSocket server.link)).1 = true →
      (!server.manager.backupDidSync && !server.manager.restarted) = false → pingInfo server = .ok data →
      backupOps (Backup.answer asSent) fuel tick server = .ok (some next) → register server.link.peer.log data = .ok next.link.peer.log := by
  have loads : Loads (primaryText options.ip (iToS options.port)) ip (iToS p) ↔ p ≤ 32767 ∧ ip ≠ "NULL" :=
    (loads_iff given.clean_ip (iToS_clean _)).trans given.known
  refine ⟨given.listens, ?_, ?_, fun promoted published => publish_writes promoted published,
    fun connects synced built ran => ping_registers connects synced built ran⟩
  · intro text written
    unfold Options.written at written
    split at written
    · cases written
      exact loads
    · cases written
  · intro π answer fuel accepts loaded peer wires connects started final events starts along ran
    have own : Own ⟨options.ip, iToS options.port, options.netDir⟩ final.log :=
      run_preserves (fun server => Own _ server.log) (fun _ _ _ holds spared stepped => step_own holds spared stepped) along (start_own starts) ran
    obtain ⟨readIp, readPort, _⟩ := own.identity
    refine ⟨⟨_, ?_, loads⟩, _, ?_, (registers_iff (clean_bar given.clean_ip) (clean_bar (iToS_clean _))).trans given.known⟩
    · simp only [writtenText, readIp, readPort, ok_bind, pure_eq_ok]
    · simp only [pingInfo, readIp, readPort, ok_bind, pure_eq_ok]

/-- A primary at this address with this -p. -/
private def primaryAt (port : Text) : Options := { ipArg := some "10.0.0.1", portArg := some port, primary := true, netDir := "dir" }

private def isLocal (text : Text) : Bool := text == "10.0.0.1".toList

private theorem primaryAt_given : Given (primaryAt "8081") "10.0.0.1" 8081 where
  hasIp := rfl
  clean := by decide
  hasPort := ⟨"8081", rfl, by decide +kernel⟩
  range := by decide

theorem port_8081_is_advertised : ∃ started final : Server Unit, (primaryAt "8081").start isLocal ∅ () [] [] = some started ∧
    [Reserved.demote, .sweep, .save].foldlM (System.step Backup.noPeer 0) started = .ok final ∧ (primaryAt "8081").listening = 8081 ∧
    Loads (primaryText "10.0.0.1" "8081") "10.0.0.1" "8081" ∧ (∃ text, writtenText final = .ok text ∧ Loads text "10.0.0.1" "8081") ∧
    ∃ data, pingInfo final = .ok data ∧ Registers data "10.0.0.1" "8081" := by
  obtain ⟨listens, loads, publishes, _⟩ := advertised_addresses_decode_exactly_for_ports_that_fit_a_short primaryAt_given
  have fits : (8081 : Int) ≤ 32767 ∧ ("10.0.0.1" : Text) ≠ "NULL" := by decide
  obtain ⟨started, starts⟩ : ∃ started, (primaryAt "8081").start isLocal ∅ () [] [] = some started := ⟨_, rfl⟩
  obtain ⟨final, ran⟩ : ∃ final, [Reserved.demote, .sweep, .save].foldlM (System.step Backup.noPeer 0) started = .ok final := by
    cases starts
    exact returned_of_isOk (by decide +kernel)
  have along : Along (System.step Backup.noPeer 0) Spared started [Reserved.demote, .sweep, .save] :=
    ⟨fun _ => ⟨fun method => absurd method (by decide), fun method => absurd method (by decide)⟩,
      fun _ _ => ⟨trivial, fun _ _ => ⟨trivial, fun _ _ => trivial⟩⟩⟩
  obtain ⟨⟨text, written, read⟩, data, built, registered⟩ := publishes starts along ran
  exact ⟨started, final, starts, ran, listens, (loads _ (by decide +kernel)).mpr fits, ⟨text, written, read.mpr fits⟩, data, built,
    registered.mpr fits⟩

/-- The acceptor listens on port 40000, and every text says -25536. -/
theorem port_40000_is_advertised_as_another : ∃ started : Server Unit, (primaryAt "40000").start isLocal ∅ () [] [] = some started ∧
    (primaryAt "40000").listening = 40000 ∧
    (primaryAt "40000").written = some (primaryText "10.0.0.1" "-25536") ∧ ¬ Loads (primaryText "10.0.0.1" "-25536") "10.0.0.1" "40000" ∧
    writtenText started = .ok (primaryText "10.0.0.1" "-25536") ∧
    pingInfo started = .ok "10.0.0.1|-25536" ∧ ¬ Registers "10.0.0.1|-25536" "10.0.0.1" "40000" := by
  have loads := @loads_iff "10.0.0.1" "-25536" "10.0.0.1" "40000" (by decide) (by decide)
  have registers := @registers_iff "10.0.0.1" "-25536" "10.0.0.1" "40000" (by decide) (by decide)
  have differs : ¬ (("10.0.0.1" : Text) = "10.0.0.1" ∧ ("-25536" : Text) = "40000") := by decide
  exact ⟨_, rfl, by decide +kernel, by decide +kernel, fun claimed => differs (loads.mp claimed), by decide +kernel, by decide +kernel,
    fun claimed => differs (registers.mp claimed)⟩

end TransactionalServer.Proofs.Addresses
