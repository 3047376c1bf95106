import TransactionalServer.Standby
import TransactionalServer.Proofs.Addresses
import TransactionalServer.Proofs.Convergence
import TransactionalServer.Proofs.FileContents
import TransactionalServer.Proofs.Framing
import TransactionalServer.Proofs.Shipping

/-! The data files of the two servers. A backup that has handled the queue of its
primary has appended the same lines to the same files, in the same order. -/

namespace TransactionalServer.Proofs.FileAgreement
open ServerTools LogHandler Exec Session ReplicationManager Pending Shipping Outbox Convergence FileContents Ledger Traces

/-- A standby that handles the packets of the queue, and whose disk holds what it has committed. -/
structure Ready (standby : Standby) : Prop where
  receptive : Receptive standby.server
  accounts : Accounts ⟨standby.server.log, false⟩ standby.disk
  own : ∃ own, Addresses.Own own standby.server.log
  idle : standby.server.manager = {}

/-- Data that an echo carries: not too short for it, and with a length that is an `int`. -/
def Sized (data : Text) : Prop := 2 ≤ data.length ∧ data.length < 2147483647

/-- A packet of the queue that arrives as it was queued. -/
structure Carried (packet : Text × Text) : Prop where
  deliverable : Deliverable packet
  sized : needsData packet.1 = true → Sized packet.2

theorem Carried.deliver {packet : Text × Text} (carried : Carried packet) (backup : Backup) :
    Backup.deliver Backup.echoed backup packet = Backup.deliver Backup.unchanged backup packet := by
  obtain ⟨method, tsn, seq, rest, shape⟩ := carried.deliverable.answerable
  have echoed := fields_echo shape packet.2
  have needed : needsData (compose method tsn seq (echoLength packet.2)) = needsData packet.1 :=
    needsData_of_parse ((parse_of_fields echoed).trans (parse_of_fields shape).symm)
  have attached : dataAttached (compose method tsn seq (echoLength packet.2)) = needsData (compose method tsn seq (echoLength packet.2)) := by
    rw [Framing.dataAttached_eq, needed]
    cases announces : needsData packet.1 with
    | false => rfl
    | true =>
      obtain ⟨long, bounded⟩ := carried.sized announces
      have size : IsInt packet.2.length := by constructor <;> omega
      have next : IsInt (packet.2.length + 1) := by constructor <;> omega
      rw [getBytes_of_fields echoed, echoLength, if_neg (by omega), toInt_of_isInt size, toInt_of_isInt next, atoi_iToS next]
      simp only [Bool.true_and, decide_eq_true_eq]
      omega
  have same : Backup.echoed packet.1 packet.2 = Backup.unchanged packet.1 packet.2 := by
    simp only [Backup.echoed, Backup.unchanged, echoHeader_of_fields shape, ok_bind, attached]
  simp only [Backup.deliver, Backup.answer, same]

abbrev answers : Answer Standby := Standby.answer Backup.echoed

section
variable {π : Type} {answer : Answer π} {fuel : Nat}

/-- Only READ looks at the files. -/
theorem executeCommand_files {env : Env} {i : Nat} (other : i ≠ 4) (files : Text → Option Text) (server : Server π) (auth : Bool) (header data : Text) :
    executeCommand { env with files } server auth i header data = executeCommand env server auth i header data := by
  unfold executeCommand
  split
  all_goals first | rfl | exact absurd rfl other

theorem receive_files {env : Env} {header : Text} (other : parse header ≠ 4) (files : Text → Option Text) (server : Server π) (auth : Bool)
    (payload : Option Text) :
    receive answer fuel { env with files } server auth header payload = receive answer fuel env server auth header payload := by
  have same (data : Text) : dispatch answer fuel { env with files } server auth header data = dispatch answer fuel env server auth header data := by
    unfold dispatch
    rw [executeCommand_files other]
  unfold receive
  cases payload with
  | some data => exact same data
  | none => simp only [same]

end

section
variable {standby after : Standby} {packet : Text × Text} {io : Bool} {header data : Text} {reply : Option Text}

/-- A packet of the queue as it arrives at the standby, and what it does there. -/
structure Receives (standby : Standby) (io : Bool) (header data : Text) (after : Standby) (reply : Option Text) (arrived : Text)
    (payload : Option Text) (handled : Handled Unit) : Prop where
  sent : Backup.echoed header data = .ok (arrived, payload)
  received : receive Backup.noPeer 0 { io } standby.server true arrived payload = .ok handled
  server : after.server = handled.server
  disk : after.disk = handled.effects.foldl Disk.apply standby.disk
  replied : reply = Backup.firstPacket handled.effects

theorem answer_receives (replicated : Replicated header) (ran : answers standby io header data = .ok (after, reply)) :
    ∃ arrived payload handled, Receives standby io header data after reply arrived payload handled := by
  obtain ⟨⟨arrived, payload⟩, sent, ran⟩ := bind_eq_ok.mp ran
  obtain ⟨handled, received, same⟩ := bind_eq_ok.mp ran
  have other : parse arrived ≠ 4 := by
    rw [(echoed_honest.same _ _ _ _ sent).1]
    exact not_replicated replicated (by decide)
  cases same
  refine ⟨arrived, payload, handled, sent, ?_, rfl, rfl, rfl⟩
  rw [← received]
  exact (receive_files other _ _ _ _).symm

/-- The server of a standby answers as a backup without a disk does. -/
theorem answer_backup (replicated : Replicated header) (ran : answers standby io header data = .ok (after, reply)) :
    Backup.answer Backup.echoed standby.server io header data = .ok (after.server, reply) := by
  obtain ⟨arrived, payload, handled, receives⟩ := answer_receives replicated ran
  simp only [Backup.answer, receives.sent, ok_bind, receives.received, pure_eq_ok, receives.server, receives.replied]

theorem answer_of_backup {backup : Backup} (replicated : Replicated header)
    (ran : Backup.answer Backup.echoed standby.server io header data = .ok (backup, reply)) :
    ∃ after, answers standby io header data = .ok (after, reply) ∧ after.server = backup := by
  obtain ⟨⟨arrived, payload⟩, sent, ran⟩ := bind_eq_ok.mp ran
  obtain ⟨handled, received, same⟩ := bind_eq_ok.mp ran
  have other : parse arrived ≠ 4 := by
    rw [(echoed_honest.same _ _ _ _ sent).1]
    exact not_replicated replicated (by decide)
  cases same
  refine ⟨⟨handled.server, handled.effects.foldl Disk.apply standby.disk⟩, ?_, rfl⟩
  have again : receive Backup.noPeer 0 { io, files := standby.disk.files } standby.server true arrived payload = .ok handled :=
    (receive_files other _ _ _ _).trans received
  simp only [answers, Standby.answer, sent, ok_bind, again, pure_eq_ok]

theorem Receives.runs {arrived : Text} {payload : Option Text} {handled : Handled Unit} (positive : 1 ≤ getTsn header)
    (receives : Receives standby io header data after reply arrived payload handled) :
    Runs (scope arrived) standby.server.log handled.effects after.server.log := by
  rw [receives.server]
  refine receive_runs ?_ (List.forall_mem_nil _) receives.received
  intro _
  rw [(echoed_honest.same _ _ _ _ receives.sent).2.1]
  exact positive

theorem Ready.answer (ready : Ready standby) (deliverable : Deliverable packet) (ran : answers standby io packet.1 packet.2 = .ok (after, reply)) :
    Ready after := by
  obtain ⟨arrived, payload, handled, receives⟩ := answer_receives deliverable.replicated ran
  have answered := answer_backup deliverable.replicated ran
  have positive := deliverable.positive
  obtain ⟨_, _, log, _, sent, handles, same, _⟩ := answer_handles echoed_honest ready.receptive.notPrimary deliverable.replicated answered
  have tsn := (echoed_honest.same _ _ _ _ sent).2.1
  have kept : after.server.log[(0 : Int)]? = standby.server.log[(0 : Int)]? := by
    rw [same]
    exact handles.frame (by omega)
  refine ⟨receptive_of_answer echoed_honest ready.receptive deliverable answered, ?_, ?_, ?_⟩
  · rw [receives.disk]
    exact (receives.runs positive).preserves (fun _ _ _ _ accounts act => Accounts.act accounts act) ready.accounts
  · obtain ⟨own, holds⟩ := ready.own
    exact ⟨own, holds.of_get kept⟩
  · rw [same]
    exact ready.idle

theorem handled_backup (deliverable : Deliverable packet) (ran : handled answers standby packet = .ok after) :
    Backup.deliver Backup.echoed standby.server packet = .ok after.server := by
  obtain ⟨reply, ran⟩ := handled_eq_ok.mp ran
  exact deliver_eq_ok.mpr ⟨reply, answer_backup deliverable.replicated ran⟩

theorem handled_returns (ready : Ready standby) (deliverable : Deliverable packet) : ∃ after, handled answers standby packet = .ok after := by
  obtain ⟨backup, delivered, _⟩ := deliver_returns echoed_honest ready.receptive deliverable
  obtain ⟨reply, ran⟩ := deliver_eq_ok.mp delivered
  obtain ⟨after, ran, _⟩ := answer_of_backup deliverable.replicated ran
  exact ⟨after, handled_eq_ok.mpr ⟨reply, ran⟩⟩

/-- The second time neither the log nor the disk changes. -/
theorem handled_again (ready : Ready standby) (deliverable : Deliverable packet) (ran : handled answers standby packet = .ok after) :
    handled answers after packet = .ok after := by
  obtain ⟨reply, first⟩ := handled_eq_ok.mp ran
  have still := ready.answer deliverable first
  obtain ⟨final, again⟩ := handled_returns still deliverable
  obtain ⟨second, reran⟩ := handled_eq_ok.mp again
  have same : final.server = after.server := by
    have twice := deliver_twice echoed_honest ready.receptive deliverable (handled_backup deliverable ran)
    exact Except.ok.inj ((handled_backup deliverable again).symm.trans twice)
  obtain ⟨arrived, payload, handled, receives⟩ := answer_receives deliverable.replicated first
  obtain ⟨arrivedAgain, _, rehandled, rereceives⟩ := answer_receives deliverable.replicated reran
  obtain ⟨rfl, rfl⟩ := Prod.mk.inj (Except.ok.inj (receives.sent.symm.trans rereceives.sent))
  obtain ⟨method, tsn, _, answerable, _⟩ := echoed_honest.same _ _ _ _ receives.sent
  have replicated : Replicated arrived := by
    rw [Replicated, method]
    exact deliverable.replicated
  obtain ⟨log, once, operates, changed, answers, _⟩ :=
    Redelivery.receive_operates ready.receptive.notPrimary replicated receives.received
  obtain ⟨last, twice, reoperates, _, reanswers, _⟩ :=
    Redelivery.receive_operates still.receptive.notPrimary replicated rereceives.received
  have settled : after.server.log = log := by rw [receives.server, changed]
  rw [settled] at reoperates
  obtain ⟨_, absorbed⟩ := operates.twice reoperates ready.receptive.notPrimary answerable (by rw [tsn]; exact deliverable.positive)
  have disk : final.disk = after.disk := by
    rw [rereceives.disk, receives.disk, reanswers.apply, answers.apply]
    exact absorbed standby.disk
  obtain rfl : final = after := by
    obtain ⟨server, disk⟩ := final
    cases same
    cases disk
    rfl
  exact again

/-- A standby takes a packet that comes again as one that comes once. -/
theorem standby_idempotent : Idempotent (handled answers) Ready Carried where
  stays := by
    intro standby packet after ready carried ran
    obtain ⟨reply, ran⟩ := handled_eq_ok.mp ran
    exact ready.answer carried.deliverable ran
  again := fun ready carried ran => handled_again ready carried.deliverable ran

/-- What was there before is there after, on the same file system. -/
structure Appends (before after : Disk) : Prop where
  appended : before.appended <+: after.appended
  existing : after.existing = before.existing
  room : after.room = before.room

/-- A packet adds to what the standby has appended, and keeps its other files. -/
theorem handled_appends (deliverable : Deliverable packet) (ran : handled answers standby packet = .ok after) :
    Appends standby.disk after.disk := by
  obtain ⟨reply, ran⟩ := handled_eq_ok.mp ran
  obtain ⟨arrived, payload, handled, receives⟩ := answer_receives deliverable.replicated ran
  rw [receives.disk]
  exact ⟨⟨_, (apply_appended _ _).symm⟩, apply_existing _ _, apply_room _ _⟩

/-- So do all the packets of a queue. -/
theorem pends_appends {packets : List (Text × Text)} (pends : Pends (handled answers) Ready Carried packets standby after) :
    Appends standby.disk after.disk :=
  @Pends.relates _ _ _ _ _ _ _ _ standby_idempotent (fun before after => Appends before.disk after.disk) (fun _ => ⟨List.prefix_rfl, rfl, rfl⟩)
    (fun one two => ⟨one.appended.trans two.appended, two.existing.trans one.existing, two.room.trans one.room⟩)
    (fun _ carried ran => handled_appends carried.deliverable ran) pends

end

/-- The primary with a backup that has no disk. -/
def seen (server : Server Standby) : Server Backup where
  log := server.log
  manager := server.manager
  link := {
    peer := server.link.peer.server, connected := server.link.connected, wires := server.link.wires,
    connects := server.link.connects, outbox := server.link.outbox }

/-- The settled standby has the transactions of the primary. -/
structure Mirrors (server : Server Standby) (settled : Standby) : Prop where
  ships : Ships answers Ready Carried server settled
  twins : Twins server.log settled.server.log

section
variable {fuel : Nat} {server queued : Server Standby} {settled : Standby} {env : Env} {auth : Bool} {header data : Text} {log : Log}

theorem seen_enqueue (enqueued : enqueue { server with log } header data = .ok queued) :
    enqueue { seen server with log } header data = .ok (seen queued) := by
  obtain ⟨role, read, rfl⟩ := enqueue_eq_ok.mp enqueued
  refine enqueue_eq_ok.mpr ⟨role, read, ?_⟩
  split
  · rfl
  · rfl

theorem executes_seen {out : Command Standby} (kept : parse header ≠ 9) (executes : Executes server env auth header data out) :
    Executes (seen server) env auth header data { server := seen out.server, effects := out.effects, auth := out.auth, ret := out.ret, error := out.error } := by
  cases executes with
  | refused cause refusal => exact .refused cause refusal
  | read method answered => exact .read method answered
  | notAborted method aborts kept => exact .notAborted method aborts kept
  | aborted method aborts erased enqueued answered => exact .aborted method aborts erased (seen_enqueue enqueued) answered
  | created method drawn valid enqueued answered => exact .created method drawn valid (seen_enqueue enqueued) answered
  | commits method commits => exact .commits method commits
  | added method adds kept enqueued answered => exact .added method adds kept (seen_enqueue enqueued) answered
  | completed method adds refused code enqueued => exact .completed method adds refused code (seen_enqueue enqueued)
  | notAdded method adds refused code => exact .notAdded method adds refused code
  | made method makes answered => exact .made method makes answered
  | pinged method answered registers => exact .pinged method answered registers
  | authenticated method => exact .authenticated method
  | demoted method => exact absurd method kept

theorem ships_owes (ships : Ships answers Ready Carried server settled) : Owes Backup.unchanged (seen server) settled.server where
  primary := ships.primary
  queue := fun packet member => (ships.pends.fit packet member).deliverable
  peer := ships.pends.ready.receptive
  files := ships.files
  drained := @Pends.view Standby (Text × Text) (handled answers) Ready Carried _ _ _ standby_idempotent Backup Process.server
    (Backup.deliver Backup.unchanged) (fun _ carried ran => (carried.deliver _).symm.trans (handled_backup carried.deliverable ran)) ships.pends

/-- What a queue gets from one command. -/
theorem enqueue_puts (enqueued : enqueue { server with log } header data = .ok queued) (carried : Carried (header, data)) :
    queued.link = server.link ∧ ∃ packets, (∀ packet ∈ packets, Carried packet) ∧
      queued.manager.syncQueue = server.manager.syncQueue ++ packets := by
  obtain ⟨role, _, rfl⟩ := enqueue_eq_ok.mp enqueued
  split
  · exact ⟨rfl, [(header, data)], fun _ member => List.mem_singleton.mp member ▸ carried, rfl⟩
  · exact ⟨rfl, [], List.forall_mem_nil _, (List.append_nil _).symm⟩

theorem created_carried {tsn : Int} (range : IsInt tsn) (positive : 1 ≤ tsn) {data : Text} (sized : Sized data) :
    Carried ("MAKE_TXN " ++ iToS tsn ++ " 0 0 0", data) := by
  have shape := makeTxnHeader_fields tsn
  have method : parse ("MAKE_TXN " ++ iToS tsn ++ " 0 0 0" : Text) = 6 := by
    rw [parse_of_fields shape]
    rfl
  refine ⟨⟨Or.inr (Or.inr (Or.inr method)), ⟨_, _, _, _, shape⟩, ?_⟩, fun _ => sized⟩
  simp only [getTsn_of_fields shape, lexicalCast_iToS range, Option.getD_some]
  exact positive

theorem commit_carried {tsn seq : Int} (commit : Commit tsn seq) : Carried (commitMessage tsn seq, " ") := by
  refine ⟨commit.deliverable, ?_⟩
  intro needed
  simp only [needsData, commitMessage_parse] at needed
  cases needed

/-- A command of a client puts packets into the queue and touches no connection. -/
theorem executes_puts {out : Command Standby} (request : Request env header) (answerable : Answerable header)
    (sized : parse header = 2 ∨ parse header = 5 → Sized data) (drawn : ∀ draw ∈ env.draws, 1 ≤ draw ∧ draw ≤ 100000) (executes : Executes server env auth header data out) :
    out.server.link = server.link ∧ ∃ packets, (∀ packet ∈ packets, Carried packet) ∧
      out.server.manager.syncQueue = server.manager.syncQueue ++ packets := by
  have nothing : ∃ packets, (∀ packet ∈ packets, Carried packet) ∧ server.manager.syncQueue = server.manager.syncQueue ++ packets :=
    ⟨[], List.forall_mem_nil _, (List.append_nil _).symm⟩
  have queues (replicated : Replicated header) (sized : needsData header = true → Sized data) : Carried (header, data) :=
    ⟨⟨replicated, answerable, request.addressed replicated⟩, sized⟩
  cases executes with
  | refused | read | notAborted | commits | notAdded | pinged | authenticated => exact ⟨rfl, nothing⟩
  | aborted method _ _ enqueued =>
    apply enqueue_puts enqueued (queues (Or.inl method) _)
    intro needed
    simp only [needsData, method] at needed
    cases needed
  | created method creates valid enqueued =>
    rcases newTxn_cases creates with ⟨_, _, zero, _⟩ | ⟨_, chosen, _⟩
    · exact absurd zero valid
    · obtain ⟨positive, below⟩ := drawn _ chosen
      exact enqueue_puts enqueued (created_carried ⟨by omega, by omega⟩ positive (sized (Or.inl method)))
  | added method _ _ enqueued | completed method _ _ _ enqueued =>
    exact enqueue_puts enqueued (queues (Or.inr (Or.inr (Or.inl method))) fun _ => sized (Or.inr method))
  | made method => exact absurd method request.notCreated
  | demoted method => exact absurd method request.notDemoted

theorem executes_mirrors {out : Command Standby} (mirrors : Mirrors server settled) (request : Request env header) (answerable : Answerable header)
    (sized : parse header = 2 ∨ parse header = 5 → Sized data) (drawn : ∀ draw ∈ env.draws, 1 ≤ draw ∧ draw ≤ 100000) (executes : Executes server env auth header data out) :
    ∃ next packets, Mirrors out.server next ∧ Pends (handled answers) Ready Carried packets settled next := by
  obtain ⟨after, owes, twins⟩ := executes_converging ⟨settled.server, ships_owes mirrors.ships, mirrors.twins⟩ request answerable drawn
    (executes_seen request.notDemoted executes)
  obtain ⟨link, packets, fit, queue⟩ := executes_puts request answerable sized drawn executes
  have start := mirrors.ships.pends.settled_ready standby_idempotent
  obtain ⟨next, further⟩ := pends_of_fit standby_idempotent (fun ready carried => handled_returns ready carried.deliverable) fit start
  have ships : Ships answers Ready Carried out.server next := by
    refine ⟨owes.primary, ?_, ?_⟩
    · rw [link]
      exact mirrors.ships.files
    · rw [queue, link]
      exact mirrors.ships.pends.append further
  obtain rfl : next.server = after := Except.ok.inj ((ships_owes ships).drained.symm.trans owes.drained)
  exact ⟨next, packets, ⟨ships, twins⟩, further⟩

/-- The settled standby acknowledges a COMMIT that its log takes. -/
theorem takes_acknowledged {tsn seq : Int} {next : Log} (ready : Ready settled) (commit : Commit tsn seq) (takes : Takes settled.server.log tsn seq next) :
    ∃ after, Confirms answers Carried (commitMessage tsn seq) settled after ∧ after.server = { settled.server with log := next } := by
  obtain ⟨after, ran⟩ := handled_returns ready commit.deliverable
  have delivered := takes.delivered echoed_honest ready.receptive commit
  refine ⟨after, ⟨commit_carried commit, ran, ?_⟩, Except.ok.inj ((handled_backup commit.deliverable ran).symm.trans delivered)⟩
  intro other text replied
  exact (takes.answered echoed_honest ready.receptive commit (answer_backup commit.deliverable.replicated replied)).2 text rfl

/-- A COMMIT of what is committed already leaves the disk alone too. -/
theorem committed_untouched {tsn seq : Int} {record : Record} {number : Text} {after : Standby} (ready : Ready settled) (commit : Commit tsn seq)
    (found : Found settled.server.log tsn record "COMMITTED" number) (same : atoi number = seq)
    (ran : handled answers settled (commitMessage tsn seq, " ") = .ok after) : after.disk = settled.disk := by
  obtain ⟨reply, ran⟩ := handled_eq_ok.mp ran
  obtain ⟨arrived, payload, handled, receives⟩ := answer_receives commit.deliverable.replicated ran
  obtain ⟨rfl, rfl⟩ := Prod.mk.inj (Except.ok.inj (receives.sent.symm.trans (echoed_honest.bare tsn seq)))
  obtain ⟨log, effects, operates, _, answers, _⟩ :=
    Redelivery.receive_operates ready.receptive.notPrimary commit.deliverable.replicated receives.received
  rw [receives.disk, answers.apply]
  have method := commitMessage_parse tsn seq
  cases operates with
  | ignored => rfl
  | aborted other => exact absurd (method.symm.trans other) (by decide)
  | @committed _ out _ commits =>
    obtain ⟨code, text⟩ := answerable_genAnswerStr commit.deliverable.answerable "ACK" "0" "Already committed"
    have already : LogHandler.commit settled.server.log (commitMessage tsn seq) true = .ok (.reply settled.server.log code) := by
      have present : Found settled.server.log (getTsn (commitMessage tsn seq)) record "COMMITTED" number := by
        rw [commitMessage_getTsn commit.tsnRange]
        exact found
      have number_same : atoi number = getSeq (commitMessage tsn seq) := by
        rw [commitMessage_getSeq commit.range]
        exact same
      exact commit_of_case (.already present number_same text)
    obtain rfl := Except.ok.inj (already.symm.trans (commit_of_case commits))
    rfl

theorem twins_covered (ready : Ready settled) (primary : IsPrimary log) (twins : Twins log settled.server.log) :
    Covered answers Carried log settled := by
  intro kept holder same gathered header member
  obtain ⟨tsn, record, number, positive, found, rfl⟩ := getCommits_named (primary.kept same) gathered header member
  obtain ⟨range, high, other, digits, already, agrees⟩ := (twins.covers.kept same) tsn record number positive found
  have commit : Commit tsn (atoi number) := ⟨range, positive, atoi_isInt number, high⟩
  obtain ⟨after, acknowledges, server⟩ := takes_acknowledged ready commit (.already already agrees)
  have disk := committed_untouched ready commit already agrees acknowledges.taken
  obtain rfl : after = settled := by
    obtain ⟨_, _⟩ := after
    cases server
    cases disk
    rfl
  exact acknowledges

/-- The end of a commit. -/
theorem doCommit_mirrors {done : Handled Standby} {record : Record} {seq : Int} (mirrors : Mirrors server settled) (positive : 1 ≤ getTsn header)
    (found : Found server.log (getTsn header) record "WRITING" (iToS seq)) (range : IsInt seq) (high : 1 ≤ seq) (complete : missing record seq = [])
    (ran : doCommit answers fuel true server auth header = .ok done) :
    ∃ next packets, Mirrors done.server next ∧ Pends (handled answers) Ready Carried packets settled next := by
  obtain ⟨ships, twins⟩ := mirrors
  have ready := ships.pends.settled_ready standby_idempotent
  obtain ⟨twin, digits, active⟩ := twins.underway positive found (by decide)
  have takes : Takes settled.server.log (getTsn header) seq (mark settled.server.log (getTsn header) twin "COMMITTED" (iToS seq)) :=
    .complete active.found ⟨by decide, by decide, fun waiting => absurd waiting (by decide)⟩
      ((active.entries.missing found.entry active.found.entry seq).trans complete)
  obtain ⟨next, acknowledges, same⟩ := takes_acknowledged ready ⟨active.range, positive, range, high⟩ takes
  have replicates {replicated : Bool} {final : Server Standby}
      (commits : ReplicationManager.commit answers fuel server (commitMessage (getTsn header) seq) = .ok (replicated, final)) :=
    (manager_ships standby_idempotent fuel).2.1 _ _ _ _ _ _ ships (twins_covered ready ships.primary twins) acknowledges commits
  cases CommitDecision.doCommit_writing ships.primary positive range high found ran with
  | refused commits =>
    obtain ⟨replicated, _⟩ := replicates commits
    cases replicated
  | unwritten _ _ file =>
    -- the file is writable
    rcases writeFile_cases file with ⟨written, _⟩ | ⟨_, _, blocked⟩
    · cases written
    · cases blocked
  | committed commits =>
    obtain ⟨_, shipped⟩ := replicates commits
    have kept := (manager_keeps _ fuel).2.1 _ _ _ _ commits
    refine ⟨next, [(commitMessage (getTsn header) seq, " ")], ⟨?_, ?_⟩, ?_⟩
    · exact shipped.of_same (shipped.primary.of_get (mark_other (by omega))) rfl rfl rfl
    · rw [same]
      exact (twins.kept kept).commit active (by rw [atoi_iToS range]; exact high)
    · exact (Pends.nothing ready).put standby_idempotent acknowledges.fit acknowledges.taken

/-- A request whose file name or line arrives at the backup as it is. -/
def Carries : System.Event → Prop
  | .packet _ _ header payload _ _ => parse header = 2 ∨ parse header = 5 → ∀ data ∈ payload, Sized data
  | .sweep | .save | .tick _ => True

theorem receive_without_data {handled : Handled Standby} (needed : needsData header = true)
    (ran : receive answers fuel env server auth header none = .ok handled) : handled.server = server := by
  unfold receive at ran
  simp only [needed, if_true] at ran
  obtain ⟨text, _, same⟩ := bind_eq_ok.mp ran
  cases same
  rfl

theorem receive_mirrors {payload : Option Text} {handled : Handled Standby} (mirrors : Mirrors server settled) (request : Request env header)
    (answerable : Answerable header) (carries : parse header = 2 ∨ parse header = 5 → ∀ data ∈ payload, Sized data)
    (drawn : ∀ draw ∈ env.draws, 1 ≤ draw ∧ draw ≤ 100000)
    (ran : receive answers fuel env server auth header payload = .ok handled) :
    ∃ next packets, Mirrors handled.server next ∧ Pends (Shipping.handled answers) Ready Carried packets settled next := by
  have primary := mirrors.ships.primary
  have unmoved (same : handled.server = server) :
      ∃ next packets, Mirrors handled.server next ∧ Pends (Shipping.handled answers) Ready Carried packets settled next := by
    rw [same]
    exact ⟨settled, [], mirrors, .nothing (mirrors.ships.pends.settled_ready standby_idempotent)⟩
  by_cases missing : payload = none ∧ needsData header = true
  · obtain ⟨rfl, needed⟩ := missing
    exact unmoved (receive_without_data needed ran)
  have sized (method : parse header = 2 ∨ parse header = 5) : Sized (payload.getD " ") := by
    cases payload with
    | some data => exact carries method data rfl
    | none => exact absurd ⟨rfl, by rcases method with method | method <;> simp only [needsData, method]⟩ missing
  rcases receive_server ran with same | ⟨out, executes, same | ⟨refused, code, done, concluded, same⟩⟩
  · exact unmoved same
  · rw [same]
    exact executes_mirrors mirrors request answerable sized drawn executes
  · obtain ⟨middle, packets, still, first⟩ := executes_mirrors mirrors request answerable sized drawn executes
    have positive : 1 ≤ getTsn header := request.addressed (Or.inr ((executes.committed_method refused code).imp id Or.inl))
    obtain ⟨record, seq, high, range, found, complete, _⟩ := CommitDecision.writing_of_committed primary (by omega) executes refused code
    rw [request.io] at concluded
    obtain ⟨next, more, last, second⟩ := doCommit_mirrors still positive found range high complete concluded
    rw [same]
    exact ⟨next, packets ++ more, last, first.append second⟩

/-- A step leaves a settled standby that has taken further packets at most. -/
theorem step_mirrors {next : Server Standby} {event : System.Event} (mirrors : Mirrors server settled) (allowed : Allowed event)
    (carries : Carries event) (stepped : Steps answers fuel server event next) :
    ∃ after packets, Mirrors next after ∧ Pends (handled answers) Ready Carried packets settled after := by
  have ready := mirrors.ships.pends.settled_ready standby_idempotent
  cases stepped with
  | packet valid drawn received => exact receive_mirrors mirrors allowed (answerable_of_valid valid) carries drawn received
  | sweep => exact absurd allowed id
  | save => exact ⟨settled, [], mirrors, .nothing ready⟩
  | tick checked =>
    rcases check_cases checked with ⟨primary, ops⟩ | ⟨backup, _⟩
    · have kept := (manager_keeps _ fuel).1 _ _ ops
      have ships := (manager_ships standby_idempotent fuel).1 _ _ _ mirrors.ships (twins_covered ready primary mirrors.twins) ops
      exact ⟨settled, [], ⟨ships, mirrors.twins.kept kept⟩, .nothing ready⟩
    · exact absurd mirrors.ships.primary backup

end

theorem twins_committed {log copy : Log} {tsn : Int} (twins : Twins log copy) (positive : 1 ≤ tsn) : Committed copy tsn ↔ Committed log tsn := by
  have agree := (twins tsn (by omega) (by omega)).agree
  constructor
  · rintro ⟨record, number, found⟩
    obtain ⟨own, digits, found, _⟩ := (agree.committed (atoi number)).mp ⟨record, number, found, rfl⟩
    exact ⟨own, digits, found⟩
  · rintro ⟨record, number, found⟩
    obtain ⟨own, digits, found, _⟩ := (agree.committed (atoi number)).mpr ⟨record, number, found, rfl⟩
    exact ⟨own, digits, found⟩

/-- The file name and the lines are those of the transaction. -/
theorem written_same {log copy : Log} {append other : Append} (written : Written log append) (copied : Written copy other)
    (same : other.tsn = append.tsn) (agree : Agree log copy append.tsn) : other = append := by
  have file : other.path = append.path := by
    have named := copied.named
    rw [same, agree.file, written.named, Except.ok.injEq] at named
    exact named.symm
  have lines : other.lines = append.lines := by
    obtain ⟨record, _, number, found, _, read⟩ := written
    obtain ⟨twin, _, digits, copiedFound, _, copiedRead⟩ := copied
    rw [same] at copiedFound copiedRead
    obtain ⟨_, again, refound, numbered⟩ := (agree.committed (atoi digits)).mp ⟨twin, digits, copiedFound, rfl⟩
    obtain ⟨_, _, rfl⟩ := found_unique found refound
    have reads : committedLines copy append.tsn (atoi digits) = committedLines log append.tsn (atoi number) := by
      unfold committedLines
      rw [numbered]
      split
      · rfl
      apply mapM_congr
      intro seq member
      exact agree.data seq (Int.mem_range_iff.mp member).1
    rw [reads, read, Except.ok.injEq] at copiedRead
    exact copiedRead.symm
  obtain ⟨_, _, _⟩ := append
  obtain ⟨_, _, _⟩ := other
  cases same
  cases file
  cases lines
  rfl

/-- The two have appended for the same transactions, in the same order. -/
structure Agrees (process : Process Standby) (settled : Standby) : Prop where
  mirrors : Mirrors process.server settled
  accounts : Accounts ⟨process.server.log, false⟩ process.disk
  order : settled.disk.appended.map Append.tsn = process.disk.appended.map Append.tsn
  existing : settled.disk.existing = process.disk.existing
  room : settled.disk.room = process.disk.room

private theorem eq_of_single {one two : List Int} (distinct : one.Nodup) (other : two.Nodup) (members : ∀ tsn, tsn ∈ one ↔ tsn ∈ two)
    (single : ∀ first ∈ two, ∀ second ∈ two, first = second) : one = two := by
  have perm := (List.perm_ext_iff_of_nodup distinct other).mpr members
  match two with
  | [] => exact List.perm_nil.mp perm
  | [tsn] => exact List.perm_singleton.mp perm
  | first :: second :: rest =>
    have same := single first (by simp) second (by simp)
    rw [same] at other
    exact absurd List.mem_cons_self (List.nodup_cons.mp other).1

private theorem eq_of_tsns {one two : List Append} (same : one.map Append.tsn = two.map Append.tsn)
    (each : ∀ first ∈ one, ∀ second ∈ two, first.tsn = second.tsn → first = second) : one = two := by
  induction one generalizing two with
  | nil => exact (List.map_eq_nil_iff.mp same.symm).symm
  | cons first one ih =>
    cases two with
    | nil => cases same
    | cons second two =>
      obtain ⟨head, tail⟩ := List.cons_eq_cons.mp same
      rw [each first List.mem_cons_self second List.mem_cons_self head]
      congr 1
      exact ih tail (fun one member other inside => each one (List.mem_cons_of_mem _ member) other (List.mem_cons_of_mem _ inside))

section
variable {fuel : Nat} {process next : Process Standby} {settled : Standby}

theorem Agrees.settled_accounts (agrees : Agrees process settled) : Accounts ⟨settled.server.log, false⟩ settled.disk :=
  (agrees.mirrors.ships.pends.settled_ready standby_idempotent).accounts

/-- What the standby has appended is, append by append, what the primary has. -/
theorem Agrees.appended (agrees : Agrees process settled) : settled.disk.appended = process.disk.appended := by
  apply eq_of_tsns agrees.order
  intro copied member append inside same
  have positive := agrees.accounts.once.positive append inside
  exact written_same (agrees.accounts.written append inside) (agrees.settled_accounts.written copied member) same
    (agrees.mirrors.twins append.tsn (by omega) (by omega)).agree

theorem Agrees.files (agrees : Agrees process settled) : settled.disk.files = process.disk.files := by
  funext path
  simp only [Disk.files, Disk.written, agrees.appended, agrees.existing, agrees.room]

theorem step_agrees {event : System.Event} (agrees : Agrees process settled) (allowed : Allowed event) (carries : Carries event)
    (stepped : Process.step answers fuel process (.event event) = .ok next) : ∃ after, Agrees next after := by
  have addressed : AddressedEvent event := by
    cases event with
    | packet => exact allowed.addressed
    | sweep | save | tick => trivial
  obtain ⟨effects, performed⟩ := step_performs stepped
  obtain ⟨run, disk⟩ := perform_completes addressed performed
  have accounts := run.preserves (fun _ _ _ _ accounts act => Accounts.act accounts act) agrees.accounts
  rw [← disk] at accounts
  obtain ⟨after, packets, mirrors, further⟩ : ∃ after packets, Mirrors next.server after ∧
      Pends (handled answers) Ready Carried packets settled after := by
    obtain ⟨⟨running, had⟩, ran, rest⟩ := bind_eq_ok.mp performed
    obtain ⟨server, runs, same⟩ := bind_eq_ok.mp rest
    cases same
    obtain rfl := finished_eq_ok.mp runs
    refine step_mirrors agrees.mirrors ?_ ?_ (perform_cases ran)
    · cases event with
      | packet => exact ⟨allowed.io, allowed.notCreated, allowed.notDemoted, allowed.addressed⟩
      | sweep | save | tick => exact allowed
    · cases event with
      | packet => exact carries
      | sweep | save | tick => trivial
  have later := (mirrors.ships.pends.settled_ready standby_idempotent).accounts
  obtain ⟨⟨more, appended⟩, existing, room⟩ := pends_appends further
  have own : next.disk.appended = process.disk.appended ++ appends effects := by rw [disk, apply_appended]
  refine ⟨after, mirrors, accounts, ?_, ?_, ?_⟩
  · obtain ⟨_, distinct, apart⟩ := List.nodup_append.mp (List.map_append ▸ appended.symm ▸ later.once.distinct)
    obtain ⟨_, ownDistinct, ownApart⟩ := List.nodup_append.mp (List.map_append ▸ own ▸ accounts.once.distinct)
    have members (tsn : Int) : tsn ∈ more.map Append.tsn ↔ tsn ∈ (appends effects).map Append.tsn := by
      have there := later.committed_iff tsn
      have here := accounts.committed_iff tsn
      rw [← appended, List.map_append, List.mem_append, agrees.order] at there
      rw [own, List.map_append, List.mem_append] at here
      have both : (1 ≤ tsn ∧ Committed after.server.log tsn) ↔ (1 ≤ tsn ∧ Committed next.server.log tsn) :=
        and_congr_right fun positive => twins_committed mirrors.twins positive
      have same := there.trans (both.trans here.symm)
      constructor
      · intro member
        rcases same.mp (Or.inr member) with earlier | new
        · exact (apart tsn (agrees.order ▸ earlier) tsn member rfl).elim
        · exact new
      · intro member
        rcases same.mpr (Or.inr member) with earlier | new
        · exact (ownApart tsn earlier tsn member rfl).elim
        · exact new
    have single : ∀ first ∈ (appends effects).map Append.tsn, ∀ second ∈ (appends effects).map Append.tsn, first = second := by
      have allowed (tsn : Int) (member : tsn ∈ (appends effects).map Append.tsn) : (eventScope event).commits tsn := by
        obtain ⟨append, inside, rfl⟩ := List.mem_map.mp member
        exact appends_allowed run append inside
      intro first member second inside
      exact scope_commits_one event (allowed first member) (allowed second inside)
    rw [← appended, own, List.map_append, List.map_append, agrees.order, eq_of_single distinct ownDistinct members single]
  · rw [existing, agrees.existing, disk, apply_existing]
  · rw [room, agrees.room, disk, apply_room]

end

section
variable {fuel : Nat} {own other : Identity} {loaded copy : Log} {existing : Text → Option Text} {wires : List Wire} {connects : List Bool}

theorem bare_accounts {log : Log} {disk : Disk} (bare : Bare log) (nothing : disk.appended = []) : Accounts ⟨log, false⟩ disk := by
  have none : ∀ append ∈ disk.appended, False := by
    intro append member
    rw [nothing] at member
    cases member
  refine ⟨⟨?_, fun append member => (none append member).elim, fun append member => (none append member).elim,
    fun _ append member => (none append member).elim⟩, ?_, fun append member => (none append member).elim⟩
  · rw [nothing]
    exact List.nodup_nil
  · intro tsn positive committed
    obtain ⟨record, number, found⟩ := committed
    have inLog := found.inLog
    rw [bare tsn (by omega) (by omega)] at inLog
    cases inLog

theorem started_bare {log : Log} (bare : Bare log) (ip port role dir : Text) : Bare (serverData log ip port role dir) := by
  intro tsn notServer notBackup
  rw [serverData_eq, Store.get_insert_other notServer, Store.get_erase_other notServer]
  exact bare tsn notServer notBackup

/-- Two servers that start without transactions, on the same data files. -/
def beginning (own other : Identity) (loaded copy : Log) (existing : Text → Option Text) (wires : List Wire) (connects : List Bool) :
    Process Standby :=
  Process.replicas own other { saved := loaded, existing } { saved := copy, existing } wires connects

theorem beginning_agrees (bare : Bare loaded) (bareCopy : Bare copy) (files : ∀ wire ∈ wires, Writes wire) :
    ∃ settled, Agrees (beginning own other loaded copy existing wires connects) settled := by
  have role := serverData_role copy other.ip other.port "backup" other.dir
  have receptive : Receptive (System.start other false copy () [] []) := by
    refine ⟨?_, ⟨_, role⟩, ?_⟩
    · intro primary
      exact absurd (Except.ok.inj (role.symm.trans primary)) (by decide)
    · intro tsn positive record inLog
      have none := started_bare bareCopy other.ip other.port "backup" other.dir tsn (by omega) (by omega)
      exact absurd (inLog.symm.trans none) (by simp)
  have copied : Accounts _ { saved := copy, existing } := bare_accounts (started_bare bareCopy other.ip other.port "backup" other.dir) rfl
  refine ⟨_, ⟨⟨serverData_role _ _ _ _ _, files, .nothing ⟨receptive, copied, ⟨other, Addresses.serverData_own _ (Or.inr rfl)⟩, rfl⟩⟩, ?_⟩, bare_accounts (started_bare bare _ _ _ _) rfl, rfl, rfl, rfl⟩
  intro tsn notServer notBackup
  exact .absent (started_bare bare _ _ _ _ tsn notServer notBackup) (started_bare bareCopy _ _ _ _ tsn notServer notBackup)

theorem run_agrees (bare : Bare loaded) (bareCopy : Bare copy) (files : ∀ wire ∈ wires, Writes wire) {events : List System.Event}
    {final : Process Standby} (allowed : ∀ event ∈ events, Allowed event ∧ Carries event)
    (ran : (events.map Process.Event.event).foldlM (Process.step answers fuel) (beginning own other loaded copy existing wires connects) = .ok final) :
    ∃ settled, Agrees final settled := by
  rw [List.foldlM_map] at ran
  refine run_preserves (fun process => ∃ settled, Agrees process settled) ?_ (along_of_forall allowed _)
    (beginning_agrees bare bareCopy files) ran
  rintro process event next ⟨settled, agrees⟩ ⟨allowed, carries⟩ stepped
  exact step_agrees agrees allowed carries stepped

/-- Between any two handlers, whatever the connection has lost: the backup has
appended a part of what its primary has, from the start on; the backup that has
handled the packets still queued has appended the same, so that READ of any file
answers the same on both. -/
theorem drained_backup_has_the_files (bare : Bare loaded) (bareCopy : Bare copy) (files : ∀ wire ∈ wires, Writes wire)
    {events : List System.Event} {final : Process Standby} (allowed : ∀ event ∈ events, Allowed event ∧ Carries event)
    (ran : (events.map Process.Event.event).foldlM (Process.step answers fuel) (beginning own other loaded copy existing wires connects) = .ok final) :
    final.server.link.peer.disk.appended <+: final.disk.appended ∧
      ∃ drained, final.server.manager.syncQueue.foldlM (Standby.deliver Backup.echoed) final.server.link.peer = .ok drained ∧
        drained.disk.appended = final.disk.appended ∧
        ∀ path, Disk.IsDataFile path → readFile drained.disk.files path = readFile final.disk.files path := by
  obtain ⟨settled, agrees⟩ := run_agrees bare bareCopy files allowed ran
  have pends := agrees.mirrors.ships.pends
  refine ⟨?_, settled, pends.settles, agrees.appended, fun path _ => by rw [agrees.files]⟩
  rw [← agrees.appended]
  exact (pends_appends pends).appended

end

private def register : System.Event := .packet {} true "PING -1 0 6" (some "ip|81") (Eq.refl true) System.nothing_drawn

private def create : System.Event := .packet { draws := [5] } true "NEW_TXN -1 0 3" (some "aa") (Eq.refl true) System.five_drawn

private def write : System.Event := .packet {} true "WRITE 5 1 3" (some "xx") (Eq.refl true) System.nothing_drawn

private def commit : System.Event := .packet {} true "COMMIT 5 1 0" none (Eq.refl true) System.nothing_drawn

/-- The reply to the MAKE_TXN and the request of the commit are lost. -/
private def losses : List System.Event := [register, .tick {}, create, .tick {}, write, .tick {}, .tick {}, commit]

private theorem losses_allowed : ∀ event ∈ losses, Allowed event ∧ Carries event := by
  have allowed {env : Env} {header : Text} (io : env.io = true) (method : parse header ≠ 6 ∧ parse header ≠ 9)
      (addressed : Addressed header) : Request env header := ⟨io, method.1, method.2, addressed⟩
  have registers : Allowed register := allowed rfl (by decide) (by unfold Addressed Replicated; decide)
  have creates : Allowed create := allowed rfl (by decide) (by unfold Addressed Replicated; decide)
  have writes : Allowed write := allowed rfl (by decide) (fun _ => by decide)
  have commits : Allowed commit := allowed rfl (by decide) (fun _ => by decide)
  have registered : Carries register := fun method => absurd method (by decide)
  have created : Carries create := fun _ data member => Option.mem_some_iff.mp member ▸ ⟨by decide, by decide⟩
  have written : Carries write := fun _ data member => Option.mem_some_iff.mp member ▸ ⟨by decide, by decide⟩
  have committed : Carries commit := fun _ _ member => absurd member (Option.not_mem_none _)
  simp only [losses, List.mem_cons, List.not_mem_nil, or_false, forall_eq_or_imp, forall_eq]
  exact ⟨⟨registers, registered⟩, ⟨trivial, trivial⟩, ⟨creates, created⟩, ⟨trivial, trivial⟩, ⟨writes, written⟩, ⟨trivial, trivial⟩,
    ⟨trivial, trivial⟩, commits, committed⟩

private def lossy : Process Standby :=
  beginning ⟨"ip", "80", "dir"⟩ ⟨"ip", "81", "dir"⟩ ∅ ∅ (fun _ => none) [.lostReply true, .up true, .up true, .lostRequest] []

theorem files_over_a_lossy_connection_agree :
    ∃ final drained, (losses.map Process.Event.event).foldlM (Process.step answers 8) lossy = .ok final ∧
      final.server.manager.syncQueue.foldlM (Standby.deliver Backup.echoed) final.server.link.peer = .ok drained ∧
      final.server.link.peer.disk.appended = [] ∧ readFile final.disk.files "aa" = some "xx\n".toList ∧
      readFile drained.disk.files "aa" = some "xx\n".toList := by
  have reached : ((losses.map Process.Event.event).foldlM (Process.step answers 8) lossy).map
      (fun final => (final.server.link.peer.disk.appended, readFile final.disk.files "aa")) = .ok ([], some "xx\n".toList) := by decide +kernel
  obtain ⟨final, ran⟩ : ∃ final, (losses.map Process.Event.event).foldlM (Process.step answers 8) lossy = .ok final :=
    returned_of_isOk (by decide +kernel)
  have bare : Bare ∅ := fun _ _ _ => Std.ExtTreeMap.getElem?_empty
  have files : ∀ wire ∈ [Wire.lostReply true, .up true, .up true, .lostRequest], Writes wire := by
    unfold Writes
    decide
  obtain ⟨_, drained, delivered, _, same⟩ := drained_backup_has_the_files bare bare files losses_allowed ran
  rw [ran] at reached
  simp only [Except.map, Except.ok.injEq, Prod.mk.injEq] at reached
  exact ⟨final, drained, ran, delivered, reached.1, reached.2, (same _ (by decide)).trans reached.2⟩

end TransactionalServer.Proofs.FileAgreement
