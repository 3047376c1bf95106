import TransactionalServer.Proofs.FileAgreement
import TransactionalServer.Proofs.Docility
import TransactionalServer.Proofs.Promotion

/-! A backup whose primary has gone. It takes over when its count of failed
attempts is full, whatever else it handles meanwhile, with all that its primary
had committed and shipped. -/

namespace TransactionalServer.Proofs.Takeover
open ServerTools LogHandler Exec Session ReplicationManager Promotion

variable {π : Type} {answer : Answer π} {fuel : Nat} {server final : Server π} {env : Env} {auth : Bool} {header data : Text} {attempts : Nat}

/-- So many attempts to connect will fail. -/
def Deserted (server : Server π) (attempts : Nat) : Prop :=
  ∃ count, attempts ≤ count ∧ server.link.connects = List.replicate count false

theorem Deserted.fewer (deserted : Deserted server (attempts + 1)) : Deserted server attempts := by
  obtain ⟨count, enough, down⟩ := deserted
  exact ⟨count, by omega, down⟩

theorem Deserted.of_link (deserted : Deserted server attempts) (same : final.link = server.link) : Deserted final attempts := by
  unfold Deserted
  rw [same]
  exact deserted

/-- An attempt fails and leaves one less. -/
theorem Deserted.attempt (deserted : Deserted server (attempts + 1)) {link next : Link π} (connects : link.connects = server.link.connects)
    {up : Bool} (attempt : Client.connectSocket link = (up, next)) :
    up = false ∧ ∃ count, attempts ≤ count ∧ next.connects = List.replicate count false := by
  obtain ⟨count, enough, down⟩ := deserted
  obtain ⟨count, rfl⟩ : ∃ rest, count = rest + 1 := ⟨count - 1, by omega⟩
  rw [← connects, List.replicate_succ] at down
  unfold Client.connectSocket at attempt
  rw [down] at attempt
  cases attempt
  exact ⟨rfl, count, by omega, rfl⟩

theorem executes_link {out : Command π} (executes : Executes server env auth header data out) (other : parse header ≠ 9) :
    out.server.link = server.link := by
  cases executes with
  | refused | notAborted | commits | notAdded | read | made | pinged | authenticated => rfl
  | aborted _ _ _ enqueued | created _ _ _ enqueued | added _ _ _ enqueued | completed _ _ _ _ enqueued =>
    have link := enqueue_link enqueued
    exact link
  | demoted kill => exact absurd kill other

/-- Off the primary role no packet goes on to the peer. -/
theorem receive_link {payload : Option Text} {handled : Handled π} (backup : NotPrimary server.log) (other : parse header ≠ 9)
    (received : receive answer fuel env server auth header payload = .ok handled) : handled.server.link = server.link := by
  rcases receive_cases received with ⟨same, _⟩ | ⟨_, out, executes, follows⟩
  · rw [same]
  have link := executes_link executes other
  have role := executes.notPrimary backup
  cases follows with
  | returned | asks | answers => exact link
  | @concludes done _ _ concludes =>
    cases concludes with
    | acknowledged => exact link
    | refused primary | exits primary | finishes primary => exact absurd primary role

/-- A packet about transactions leaves the server's own record alone, unless it is a KILL. -/
theorem executes_record {out : Command π} (executes : Executes server env auth header data out) (addressed : Addressed header)
    (drawn : ∀ draw ∈ env.draws, 1 ≤ draw ∧ draw ≤ 100000) (other : parse header ≠ 9) :
    out.server.log[(0 : Int)]? = server.log[(0 : Int)]? := by
  have kept (replicated : Replicated header) : out.server.log[(0 : Int)]? = server.log[(0 : Int)]? :=
    executes.frame replicated (by have := addressed replicated; omega)
  cases executes with
  | refused | read | authenticated => rfl
  | notAborted method | aborted method => exact kept (Or.inl method)
  | commits method => exact kept (Or.inr (Or.inl method))
  | added method | completed method | notAdded method => exact kept (Or.inr (Or.inr (Or.inl method)))
  | made method => exact kept (Or.inr (Or.inr (Or.inr method)))
  | created _ creates _ enqueued =>
    rw [enqueue_log enqueued]
    rcases newTxn_cases creates with ⟨rfl, _⟩ | ⟨_, chosen, _, rfl, _⟩
    · rfl
    · have positive := (drawn _ chosen).1
      exact Store.get_insert_other (by omega)
  | pinged _ _ registers => exact register_frame (by decide) registers
  | demoted kill => exact absurd kill other

theorem receive_record {payload : Option Text} {handled : Handled π} (addressed : Addressed header)
    (drawn : ∀ draw ∈ env.draws, 1 ≤ draw ∧ draw ≤ 100000) (other : parse header ≠ 9)
    (received : receive answer fuel env server auth header payload = .ok handled) : handled.server.log[(0 : Int)]? = server.log[(0 : Int)]? := by
  rcases receive_cases received with ⟨same, _⟩ | ⟨_, out, executes, follows⟩
  · rw [same]
  have first := executes_record executes addressed drawn other
  cases follows with
  | returned | asks | answers => exact first
  | @concludes done refused code concludes =>
    have positive := addressed (Or.inr ((executes.committed_method refused code).imp id Or.inl))
    have later : done.server.log[(0 : Int)]? = out.server.log[(0 : Int)]? := concludes.frame (by omega) (by decide)
    exact later.trans first

/-- A packet or a timer that neither demotes the server nor names its own record. -/
structure Quiet (event : System.Event) : Prop where
  addressed : AddressedEvent event
  spared : isKill event = false

def isTick : System.Event → Bool
  | .tick _ => true
  | .packet _ _ _ _ _ _ | .sweep | .save => false

/-- The role after so many failed attempts, with the count that the server began
with. Only a server that waits need be deserted. -/
inductive Tenure (began : Int) (failed attempts : Nat) (server : Server π) : Prop where
  | waits (backup : NotPrimary server.log) (count : server.manager.tries = began + failed) (few : began + failed ≤ 4)
      (deserted : Deserted server attempts)
  | leads (primary : IsPrimary server.log) (many : 4 < began + failed)

/-- Only a tick that finds nobody counts, and only the one that finds the count full promotes. -/
theorem step_tenure {event : System.Event} {began : Int} {failed : Nat} (tenure : Tenure began failed (attempts + 1) server)
    (quiet : Quiet event) (stepped : System.step answer fuel server event = .ok final) :
    Tenure began (failed + if isTick event then 1 else 0) attempts final := by
  cases step_cases stepped with
  | @packet _ _ header _ _ valid drawn received =>
    have other : parse header ≠ 9 := by simpa [isKill] using quiet.spared
    have record := receive_record quiet.addressed drawn other received
    cases tenure with
    | waits backup count few deserted =>
      have link := receive_link backup other received
      exact .waits (backup.of_get record) ((receive_calm other received).tries.trans count) few (deserted.fewer.of_link link)
    | leads primary many => exact .leads (primary.of_get record) many
  | sweep swept =>
    cases tenure with
    | waits backup count few deserted =>
      exact .waits (timeouts_preserves (fun _ _ _ _ holds sweeps => sweeps.notPrimary holds) backup swept) count few deserted.fewer
    | leads primary many => exact .leads (timeouts_preserves (fun _ _ _ _ holds sweeps => sweeps.primary holds) primary swept) many
  | save =>
    cases tenure with
    | waits backup count few deserted => exact .waits backup count few deserted.fewer
    | leads primary many => exact .leads primary many
  | tick checked =>
    simp only [isTick, if_true]
    cases tenure with
    | leads primary many =>
      rcases check_cases checked with ⟨_, ops⟩ | ⟨backup, _⟩
      · exact .leads (primary.kept ((manager_keeps answer fuel).1 _ _ ops)) (by omega)
      · exact absurd primary backup
    | waits backup count few deserted =>
      rcases check_cases checked with ⟨primary, _⟩ | ⟨_, ops⟩
      · exact absurd primary backup
      have left : Deserted final attempts := by
        cases backupOps_steps ops with
        | checks up | pings up =>
          obtain ⟨failed, _⟩ := deserted.attempt rfl up
          cases failed
        | @searches link _ down searches =>
          obtain ⟨_, left⟩ := deserted.attempt rfl down
          have same : final.link = link := (searchPrimary_writes searches).1
          unfold Deserted
          rw [same]
          exact left
      cases backupOps_cases backup ops with
      | reached up =>
        obtain ⟨down, _⟩ := @Deserted.attempt π server attempts deserted (Client.closeSocket server.link) _ rfl _ rfl
        exact absurd (up.symm.trans down) (by decide)
      | failed _ searches =>
        rcases searches.role with ⟨low, same, counted⟩ | ⟨full, primary, _⟩
        · exact .waits (same ▸ backup) (by omega) (by omega) left
        · exact .leads primary (by omega)

/-- Whatever a deserted backup handles meanwhile, it is the primary exactly from
the tick on that finds four failures counted. -/
theorem deserted_backup_leads_exactly_after_its_failures {events : List System.Event} (backup : NotPrimary server.log)
    (few : server.manager.tries ≤ 4) (deserted : Deserted server events.length) (quiet : ∀ event ∈ events, Quiet event)
    (ran : events.foldlM (System.step answer fuel) server = .ok final) :
    IsPrimary final.log ↔ 5 ≤ server.manager.tries + (events.countP isTick : Nat) := by
  have run (events : List System.Event) (failed : Nat) (before : Server π) (tenure : Tenure server.manager.tries failed events.length before)
      (quiet : ∀ event ∈ events, Quiet event) (ran : events.foldlM (System.step answer fuel) before = .ok final) :
      Tenure server.manager.tries (failed + events.countP isTick) 0 final := by
    induction events generalizing failed before with
    | nil =>
      cases ran
      exact tenure
    | cons event events ih =>
      rw [List.foldlM_cons] at ran
      obtain ⟨next, stepped, ran⟩ := bind_eq_ok.mp ran
      have later := ih _ next (step_tenure tenure (quiet event List.mem_cons_self) stepped)
        (fun other member => quiet other (List.mem_cons_of_mem _ member)) ran
      rw [List.countP_cons]
      have sum : failed + (events.countP isTick + if isTick event then 1 else 0) = failed + (if isTick event then 1 else 0) + events.countP isTick := by
        omega
      rw [sum]
      exact later
  have tenure := run events 0 server (.waits backup (by omega) (by omega) deserted) quiet ran
  cases tenure with
  | waits still _ few => exact iff_of_false still (by omega)
  | leads primary many => exact iff_of_true primary (by omega)

/-- primary.txt still names the server that has gone. -/
private def named : Tick := { primaryTxt := some "IP: |other|\tport: |81|" }

private def killed : System.Event := .packet {} true "KILL -1 0 0" none (Eq.refl true) System.nothing_drawn

/-- A backup registers and is connected, then the server is demoted. -/
private def demotion : List System.Event :=
  [.packet {} true "PING -1 0 6" (some "ip|81") (Eq.refl true) System.nothing_drawn, .tick {}, killed]

/-- A transaction is made between the third failure and the fourth, and a sweep comes before the fifth. -/
private def meanwhile : List System.Event :=
  [.tick named, .tick named, .tick named, .packet {} true "MAKE_TXN 5 0 3" (some "aa") (Eq.refl true) System.nothing_drawn, .tick named, .sweep] ++
    List.replicate 11 (.tick named)

/-- A primary that was connected when a KILL came counts up from -10. -/
theorem fifteenth_failure_promotes_a_demoted_primary :
    ∃ demoted final,
      demotion.foldlM (System.step Backup.noPeer 2) (System.start ⟨"ip", "80", "dir"⟩ true ∅ () [] (true :: List.replicate 17 false)) = .ok demoted ∧
      demoted.manager.alive = true ∧ meanwhile.foldlM (System.step Backup.noPeer 2) demoted = .ok final ∧ IsPrimary final.log := by
  let server : Server Unit := System.start ⟨"ip", "80", "dir"⟩ true ∅ () [] (true :: List.replicate 17 false)
  obtain ⟨demoted, demotes⟩ : ∃ demoted, demotion.foldlM (System.step Backup.noPeer 2) server = .ok demoted := returned_of_isOk (by decide +kernel)
  have seen : (demotion.foldlM (System.step Backup.noPeer 2) server).map (fun demoted =>
      (getServerStatus demoted.log, demoted.manager.tries, demoted.link.connects, demoted.manager.alive)) =
        .ok (.ok "backup".toList, -10, List.replicate 17 false, true) := by decide +kernel
  have returns : (demotion.foldlM (System.step Backup.noPeer 2) server >>= meanwhile.foldlM (System.step Backup.noPeer 2)).isOk := by decide +kernel
  rw [demotes, ok_bind] at returns
  obtain ⟨final, ran⟩ := returned_of_isOk returns
  rw [demotes] at seen
  simp only [Except.map, Except.ok.injEq, Prod.mk.injEq] at seen
  obtain ⟨role, tries, connects, alive⟩ := seen
  have backup : NotPrimary demoted.log := fun primary => absurd (Except.ok.inj (role.symm.trans primary)) (by decide)
  have quiet : ∀ event ∈ meanwhile, Quiet event := by
    have makes : Quiet (.packet {} true "MAKE_TXN 5 0 3" (some "aa") (Eq.refl true) System.nothing_drawn) := ⟨fun _ => by decide, rfl⟩
    have others (event : System.Event) (timer : AddressedEvent event) (spared : isKill event = false) : Quiet event := ⟨timer, spared⟩
    intro event member
    rcases List.mem_append.mp member with first | last
    · simp only [List.mem_cons, List.not_mem_nil, or_false] at first
      rcases first with rfl | rfl | rfl | rfl | rfl | rfl
      exacts [others _ trivial rfl, others _ trivial rfl, others _ trivial rfl, makes, others _ trivial rfl, others _ trivial rfl]
    · rw [List.eq_of_mem_replicate last]
      exact others _ trivial rfl
  refine ⟨demoted, final, demotes, alive, ran, ?_⟩
  exact (deserted_backup_leads_exactly_after_its_failures backup (by rw [tries]; decide) ⟨17, by decide, connects⟩ quiet ran).mpr
    (by rw [tries]; decide)

/-- What a server that looks for its primary finds in primary.txt, and that it could write there. -/
def Readable (tick : Tick) : Prop := tick.writable = true ∧ ∃ ip port, Names tick ip port

/-- What happens to a server under its own name, and to no record of a transaction. -/
structure Renamed (own : Identity) (before after : Log) : Prop where
  own : Addresses.Own own after
  kept : ∀ tsn : Int, tsn ≠ 0 → after[tsn]? = before[tsn]?

theorem own_status {own : Identity} {log : Log} (holds : Addresses.Own own log) : ∃ role, getServerStatus log = .ok role := by
  obtain ⟨role, _, inLog⟩ := holds
  have found : Found log 0 (twoEntries (role, own.dir) (own.ip, own.port)) role own.dir := ⟨inLog, twoEntries_status _ _⟩
  exact ⟨role, found.getStatus⟩

theorem switchToPrimary_returns {own : Identity} {tick : Tick} (holds : Addresses.Own own server.log) (writable : tick.writable = true) :
    ∃ switched, switchToPrimary tick server = .ok (some switched) ∧ Renamed own server.log switched.log := by
  obtain ⟨role, status⟩ := own_status holds
  by_cases primary : role = "primary"
  · refine ⟨server, ?_, holds, fun _ _ => rfl⟩
    simp only [switchToPrimary, status, ok_bind, primary, if_true, pure_eq_ok]
  · obtain ⟨ip, port, dir⟩ := holds.identity
    refine ⟨{ server with log := serverData server.log own.ip own.port "primary" own.dir }, ?_, Addresses.serverData_own _ (Or.inl rfl), ?_⟩
    · simp only [switchToPrimary, status, ok_bind, primary, if_false, writable, if_true, ip, port, dir, pure_eq_ok]
    · intro tsn ordinary
      simp only [serverData_eq]
      rw [Store.get_insert_other ordinary, Store.get_erase_other ordinary]

theorem promote_returns {own : Identity} {tick : Tick} (holds : Addresses.Own own server.log) (writable : tick.writable = true) :
    ∃ promoted, promote tick server = .ok (some promoted) ∧ Renamed own server.log promoted.log := by
  by_cases many : server.manager.tries > 3
  · obtain ⟨switched, switches, renamed⟩ := switchToPrimary_returns holds writable
    refine ⟨{ switched with manager := { switched.manager with tries := 0 } }, ?_, renamed⟩
    simp only [promote, many, if_true, switches, ok_bind, pure_eq_ok]
  · refine ⟨server, ?_, holds, fun _ _ => rfl⟩
    simp only [promote, many, if_false, pure_eq_ok]

theorem retarget_returns {own : Identity} (holds : Addresses.Own own server.log) :
    ∃ target, retarget server = .ok target ∧ target.log = server.log := by
  obtain ⟨ip, port, _⟩ := holds.identity
  unfold retarget
  simp only [ip, port, ok_bind, pure_eq_ok]
  refine ⟨_, rfl, ?_⟩
  split
  · rfl
  · rfl

/-- The search returns where primary.txt can be read. -/
theorem searchPrimary_returns {own : Identity} {tick : Tick} (holds : Addresses.Own own server.log) (readable : Readable tick) :
    ∃ next, searchPrimary tick server = .ok (some next) ∧ Renamed own server.log next.log := by
  obtain ⟨writable, ip, port, line, read, first, third⟩ := readable
  obtain ⟨promoted, promotes, renamed⟩ := promote_returns holds writable
  let loaded : Server π := { promoted with manager := { promoted.manager with primIp := ip, primPort := port } }
  have loads : loadPrimary tick promoted = .ok (some loaded) := by
    simp only [loadPrimary, read, first, third, defined_some, ok_bind, pure_eq_ok, loaded]
  obtain ⟨target, retargets, same⟩ := @retarget_returns π loaded own renamed.own
  refine ⟨target, ?_, same ▸ renamed⟩
  simp only [searchPrimary, promotes, loads, retargets, ok_bind, pure_eq_ok]

/-- So does a tick that finds nobody. -/
theorem step_returns {own : Identity} {tick : Tick} (holds : Addresses.Own own server.log) (backup : NotPrimary server.log)
    (deserted : Deserted server (attempts + 1)) (readable : Readable tick) :
    ∃ next, System.step answer fuel server (.tick tick) = .ok next ∧ Renamed own server.log next.log := by
  rcases attempt : Client.connectSocket (Client.closeSocket server.link) with ⟨up, link⟩
  obtain ⟨rfl, _⟩ := deserted.attempt rfl attempt
  obtain ⟨next, searches, renamed⟩ := @searchPrimary_returns π { server with link } own tick holds readable
  obtain ⟨role, status⟩ := own_status holds
  have other : role ≠ "primary" := by
    rintro rfl
    exact backup status
  refine ⟨next, ?_, renamed⟩
  simp only [System.step, System.perform, check, status, ok_bind, other, if_false, backupOps, attempt, Bool.false_eq_true, searches, pure_eq_ok,
    finished_some]

theorem Renamed.trans {own : Identity} {first second third : Log} (one : Renamed own first second) (two : Renamed own second third) :
    Renamed own first third :=
  ⟨two.own, fun tsn ordinary => (two.kept tsn ordinary).trans (one.kept tsn ordinary)⟩

/-- The process on its disk makes the same step. -/
theorem process_ticks {process : Process π} {next : Server π} {tick : Tick} (stepped : System.step answer fuel process.server (.tick tick) = .ok next) :
    Process.step answer fuel process (.event (.tick tick)) = .ok ⟨next, process.disk⟩ := by
  obtain ⟨⟨running, effects⟩, performed, finishes⟩ := bind_eq_ok.mp stepped
  obtain rfl := finished_eq_ok.mp finishes
  obtain ⟨_, _, same⟩ := bind_eq_ok.mp performed
  obtain rfl : effects = [] := (Prod.mk.inj (Except.ok.inj same)).2.symm
  simp only [Process.step, Process.perform, Process.onDisk, performed, ok_bind, finished_some, pure_eq_ok, List.foldl_nil]

/-- The ticks up to the one that promotes all return. -/
theorem ticks_return {process : Process π} {own : Identity} {began : Int} {failed : Nat} {ticks : List Tick} (holds : Addresses.Own own process.server.log)
    (tenure : Tenure began failed ticks.length process.server) (enough : began + failed + ticks.length ≤ 5)
    (readable : ∀ tick ∈ ticks, Readable tick) :
    ∃ final, ticks.foldlM (fun process tick => Process.step answer fuel process (.event (.tick tick))) process = .ok ⟨final, process.disk⟩ ∧
      Renamed own process.server.log final.log ∧ Tenure began (failed + ticks.length) 0 final := by
  induction ticks generalizing failed process with
  | nil => exact ⟨process.server, rfl, ⟨holds, fun _ _ => rfl⟩, tenure⟩
  | cons tick ticks ih =>
    have length : (tick :: ticks).length = ticks.length + 1 := List.length_cons
    obtain ⟨backup, deserted⟩ : NotPrimary process.server.log ∧ Deserted process.server (ticks.length + 1) := by
      cases tenure with
      | waits backup _ _ deserted => exact ⟨backup, deserted⟩
      | leads _ many => omega
    have quiet : Quiet (.tick tick) := ⟨trivial, rfl⟩
    obtain ⟨next, stepped, first⟩ := step_returns holds backup deserted (readable tick List.mem_cons_self)
    have counted : Tenure began (failed + 1) ticks.length next := step_tenure tenure quiet stepped
    obtain ⟨final, ran, later, still⟩ := @ih ⟨next, process.disk⟩ _ first.own counted (by omega)
      (fun other member => readable other (List.mem_cons_of_mem _ member))
    refine ⟨final, ?_, first.trans later, ?_⟩
    · rw [List.foldlM_cons, process_ticks stepped, ok_bind, ran]
    · have sum : failed + (tick :: ticks).length = failed + 1 + ticks.length := by omega
      rw [sum]
      exact still

section
open FileAgreement Convergence Pending

/-- The standby's copy of a transaction has no part in its own name. -/
theorem twins_renamed {own : Identity} {log copy after : Log} (twins : Twins log copy) (renamed : Renamed own copy after) : Twins log after := by
  intro tsn notServer notBackup
  cases twins tsn notServer notBackup with
  | absent here there => exact .absent here ((renamed.kept tsn notServer).trans there)
  | present here there range twin => exact .present here ((renamed.kept tsn notServer).trans there) range twin

/-- A primary goes at any moment between two handlers. After five ticks that find
nobody its backup is the primary. Its files have what the old primary had shipped,
in the same order; with nothing left in the queue it has every transaction and
answers every READ as the old primary did. -/
theorem backup_takes_over_with_the_files {own other : Identity} {loaded copy : Log} {existing : Text → Option Text} {wires : List Wire}
    {connects : List Bool} (bare : Bare loaded) (bareCopy : Bare copy) (files : ∀ wire ∈ wires, Writes wire) {events : List System.Event}
    {final : Process Standby} (allowed : ∀ event ∈ events, Allowed event ∧ Carries event)
    (ran : (events.map Process.Event.event).foldlM (Process.step answers fuel) (beginning own other loaded copy existing wires connects) = .ok final)
    {ticks : List Tick} (five : ticks.length = 5) (readable : ∀ tick ∈ ticks, Readable tick) :
    ∃ promoted, ticks.foldlM (fun standby tick => Process.step Backup.noPeer fuel standby (.event (.tick tick)))
        (final.server.link.peer.orphaned 5) = .ok promoted ∧
      IsPrimary promoted.server.log ∧ promoted.disk.appended <+: final.disk.appended ∧
      (final.server.manager.syncQueue = [] → (∀ tsn : Int, tsn ≠ 0 → tsn ≠ -1 → Agree final.server.log promoted.server.log tsn) ∧
        ∀ path, Disk.IsDataFile path → readFile promoted.disk.files path = readFile final.disk.files path) := by
  obtain ⟨settled, agrees⟩ := run_agrees bare bareCopy files allowed ran
  have pends := agrees.mirrors.ships.pends
  have ready := pends.ready
  obtain ⟨own, holds⟩ := ready.own
  have tries : final.server.link.peer.server.manager.tries = 0 := congrArg Manager.tries ready.idle
  obtain ⟨promoted, promotes, renamed, tenure⟩ := @ticks_return Unit Backup.noPeer fuel (final.server.link.peer.orphaned 5) own 0 0 ticks holds
    (.waits ready.receptive.notPrimary tries (by decide) ⟨5, by omega, rfl⟩) (by omega) readable
  refine ⟨_, promotes, ?_, ?_, ?_⟩
  · cases tenure with
    | leads primary => exact primary
    | waits _ _ few => omega
  · rw [← agrees.appended]
    exact (pends_appends pends).appended
  · intro drained
    rw [drained] at pends
    obtain rfl := pends.empty
    refine ⟨?_, fun path _ => by rw [← agrees.files]; rfl⟩
    intro tsn notServer notBackup
    exact (twins_renamed agrees.mirrors.twins renamed tsn notServer notBackup).agree

private def create : System.Event := .packet { draws := [5] } true "NEW_TXN -1 0 3" (some "aa") (Eq.refl true) System.five_drawn

private def write : System.Event := .packet {} true "WRITE 5 1 3" (some "xx") (Eq.refl true) System.nothing_drawn

private def commit : System.Event := .packet {} true "COMMIT 5 1 0" none (Eq.refl true) System.nothing_drawn

/-- The reply to the MAKE_TXN is lost. -/
private def shipped : List System.Event :=
  [.packet {} true "PING -1 0 6" (some "ip|81") (Eq.refl true) System.nothing_drawn, .tick {}, create, .tick {}, .tick {}, write, commit]

private theorem shipped_allowed : ∀ event ∈ shipped, Allowed event ∧ Carries event := by
  have allowed {env : Env} {header : Text} (io : env.io = true) (method : parse header ≠ 6 ∧ parse header ≠ 9)
      (addressed : Addressed header) : Request env header := ⟨io, method.1, method.2, addressed⟩
  have creates : Allowed create ∧ Carries create :=
    ⟨allowed rfl (by decide) (by unfold Addressed Replicated; decide), fun _ _ member => Option.mem_some_iff.mp member ▸ ⟨by decide, by decide⟩⟩
  have writes : Allowed write ∧ Carries write :=
    ⟨allowed rfl (by decide) (fun _ => by decide), fun _ data member => Option.mem_some_iff.mp member ▸ ⟨by decide, by decide⟩⟩
  have commits : Allowed commit ∧ Carries commit :=
    ⟨allowed rfl (by decide) (fun _ => by decide), fun _ _ member => absurd member (Option.not_mem_none _)⟩
  simp only [shipped, List.mem_cons, List.not_mem_nil, or_false, forall_eq_or_imp, forall_eq]
  refine ⟨⟨allowed rfl (by decide) (by unfold Addressed Replicated; decide), fun method => absurd method (by decide)⟩, ⟨trivial, trivial⟩, creates,
    ⟨trivial, trivial⟩, ⟨trivial, trivial⟩, writes, commits⟩

theorem committed_transaction_survives_the_primary :
    ∃ final promoted, (shipped.map Process.Event.event).foldlM (Process.step answers 8)
        (beginning ⟨"ip", "80", "dir"⟩ ⟨"ip", "81", "dir"⟩ ∅ ∅ (fun _ => none) [.lostReply true] []) = .ok final ∧
      (List.replicate 5 named).foldlM (fun standby tick => Process.step Backup.noPeer 8 standby (.event (.tick tick)))
        (final.server.link.peer.orphaned 5) = .ok promoted ∧
      IsPrimary promoted.server.log ∧ readFile promoted.disk.files "aa" = some "xx\n".toList := by
  let start := beginning ⟨"ip", "80", "dir"⟩ ⟨"ip", "81", "dir"⟩ ∅ ∅ (fun _ => none) [.lostReply true] []
  have reached : ((shipped.map Process.Event.event).foldlM (Process.step answers 8) start).map
      (fun final => (final.server.manager.syncQueue, readFile final.disk.files "aa")) = .ok ([], some "xx\n".toList) := by decide +kernel
  obtain ⟨final, ran⟩ : ∃ final, (shipped.map Process.Event.event).foldlM (Process.step answers 8) start = .ok final :=
    returned_of_isOk (by decide +kernel)
  have bare : Bare ∅ := fun _ _ _ => Std.ExtTreeMap.getElem?_empty
  have files : ∀ wire ∈ [Wire.lostReply true], Writes wire := by
    unfold Writes
    decide
  have readable : ∀ tick ∈ List.replicate 5 named, Readable tick := by
    intro tick member
    rw [List.eq_of_mem_replicate member]
    exact ⟨rfl, "other", "81", _, rfl, by decide, by decide⟩
  obtain ⟨promoted, promotes, primary, _, drained⟩ := backup_takes_over_with_the_files bare bare files shipped_allowed ran List.length_replicate readable
  rw [ran] at reached
  simp only [Except.map, Except.ok.injEq, Prod.mk.injEq] at reached
  exact ⟨final, promoted, ran, promotes, primary, ((drained reached.1).2 _ (by decide)).trans reached.2⟩

end

end TransactionalServer.Proofs.Takeover
