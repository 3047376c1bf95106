import TransactionalServer.Proofs.Stored
import TransactionalServer.Proofs.BackupProgress
import TransactionalServer.Proofs.Delivery

/-! No handler looks up something that is not there, as long as no packet takes
away or misuses what the lookups rely on. -/

namespace TransactionalServer.Proofs.Lookups
open ServerTools LogHandler Exec Session ReplicationManager Stored Reserved

variable {π : Type} {answer : Answer π} {fuel : Nat}

/-- A peer that stays defined, and whose refusals carry a code. -/
structure Answers (answer : Answer π) : Prop where
  defined : ∀ peer io header data, Answerable header → answer peer io header data ≠ .error .undefined
  coded : ∀ peer io header data after reply, answer peer io header data = .ok (after, some reply) →
    (replyWords (Client.readReply reply))[0]? = some "ERROR".toList → ∃ code, (replyWords (Client.readReply reply))[3]? = some code

/-- A server whose lookups succeed. -/
structure Good (server : Server π) : Prop where
  log : Held server.log
  queue : ∀ packet ∈ server.manager.syncQueue, Answerable packet.1

/-- A transaction whose entries a resend reads. -/
structure Settled (log : Log) (tsn : Int) : Prop where
  ordinary : tsn ≠ 0 ∧ tsn ≠ -1
  found : ∃ record status number, Found log tsn record status number ∧ (status = "WRITING" ∨ status = "COMMITTED")

theorem Settled.kept {log after : Log} {tsn : Int} (settled : Settled log tsn) (kept : LogKept log after) : Settled after tsn := by
  obtain ⟨record, status, number, found, either⟩ := settled.found
  exact ⟨settled.ordinary, record, status, number, ⟨(kept.other settled.ordinary.2).trans found.inLog, found.entry⟩, either⟩

section
variable {server : Server π} {header data : Text}

theorem echo_safe (answerable : Answerable header) (data : Text) : Safe (Client.genEcho header data) fun _ => True := by
  obtain ⟨method, tsn, seq, rest, shape⟩ := answerable
  unfold Client.genEcho
  rw [echoHeader_of_fields shape, ok_bind]
  split
  · exact .ok trivial
  · exact .ok trivial

theorem exchange_safe (answers : Answers answer) (link : Link π) (answerable : Answerable header) (data : Text) :
    Safe (Client.exchange answer link header data) fun result => ∀ text, result.1 = some text →
      (replyWords text)[0]? = some "ERROR".toList → ∃ code, (replyWords text)[3]? = some code := by
  have handled (io : Bool) : Safe (answer link.peer io header data) fun _ => True :=
    ⟨answers.defined _ _ _ _ answerable, fun _ _ => trivial⟩
  unfold Client.exchange
  split
  · exact .ok (fun _ absurd => by cases absurd)
  generalize Client.nextWire link.wires = next
  obtain ⟨wire, wires⟩ := next
  cases wire with
  | lostRequest => exact .ok (fun _ absurd => by cases absurd)
  | lostReply io =>
    apply (handled io).bind
    intro _ _ _
    exact .ok (fun _ absurd => by cases absurd)
  | up io =>
    apply (handled io).bind
    rintro ⟨peer, reply⟩ ran _
    cases reply with
    | none => exact safe_running
    | some reply =>
      apply Safe.ok
      rintro text ⟨⟩
      exact answers.coded _ _ _ _ _ _ ran

theorem sendReceive_safe (answers : Answers answer) (link : Link π) (answerable : Answerable header) (data : Text) :
    Safe (Client.sendReceive answer link header data) fun result => ∀ text, result.1 = some text →
      (replyWords text)[0]? = some "ERROR".toList → ∃ code, (replyWords text)[3]? = some code := by
  apply (echo_safe answerable data).bind
  intro _ _ _
  exact exchange_safe answers link answerable data

theorem enqueue_safe (good : Good server) (answerable : Answerable header) (data : Text) :
    Safe (enqueue server header data) fun queued => Good queued ∧ queued.log = server.log := by
  obtain ⟨role, read⟩ := good.log.roled
  unfold enqueue
  rw [read, ok_bind]
  split
  · refine .ok ⟨⟨good.log, ?_⟩, rfl⟩
    intro packet member
    rcases List.mem_append.mp member with earlier | new
    · exact good.queue packet earlier
    · cases List.mem_singleton.mp new
      exact answerable
  · exact .ok ⟨good, rfl⟩

theorem drain_safe (answers : Answers answer) {queue : List (Text × Text)} (good : Good server)
    (answerable : ∀ packet ∈ queue, Answerable packet.1) : Safe (drain answer queue server) Good := by
  induction queue generalizing server with
  | nil => exact .ok ⟨good.log, fun _ member => absurd member List.not_mem_nil⟩
  | cons packet rest ih =>
    obtain ⟨header, data⟩ := packet
    unfold drain
    apply (sendReceive_safe answers server.link (answerable _ List.mem_cons_self) data).bind
    rintro ⟨reply, link⟩ _ _
    cases reply with
    | none => exact .ok ⟨good.log, answerable⟩
    | some reply => exact @ih { server with link } ⟨good.log, good.queue⟩ (fun packet member => answerable packet (List.mem_cons_of_mem _ member))

theorem resend_safe {tsn : Int} (good : Good server) (settled : Settled server.log tsn) :
    Safe (resend server tsn) fun queued => Good queued ∧ queued.log = server.log := by
  obtain ⟨record, status, number, found, either⟩ := settled.found
  have ready := good.log.found found settled.ordinary.1
  obtain ⟨numbered, entries⟩ := ready.sound.complete status number found.entry either
  unfold resend
  rw [found.getStatusData, ok_bind, if_neg (by omega)]
  refine Safe.foldlM ?_ ⟨good, rfl⟩
  rintro current seq member ⟨good, same⟩
  have range := Int.mem_range_iff.mp member
  obtain ⟨entry, inRecord⟩ := Store.mem_iff_get.mp (entries seq range.1 (by omega))
  have read : pair current.log tsn seq = .ok entry := by
    rw [same]
    exact pair_eq_ok.mpr ⟨record, found.inLog, inRecord⟩
  simp only [getHeader, getData, read, ok_bind, pure_eq_ok]
  apply (enqueue_safe good (ready.headers seq entry range.1 inRecord) entry.2).mono
  rintro queued ⟨still, kept⟩
  exact ⟨still, kept.trans same⟩

theorem refreshTarget_safe (good : Good server) (registered : backupRegistered server.log = true) :
    Safe (refreshTarget server) fun target => Good target ∧ target.log = server.log := by
  unfold refreshTarget
  split
  · rcases good.log.backup with absent | ⟨ip, port, inLog⟩
    · rw [backupRegistered, Store.contains_of_absent absent] at registered
      cases registered
    · have entry : pair server.log (-1) 0 = .ok (ip, port) := by
        refine pair_eq_ok.mpr ⟨_, inLog, ?_⟩
        rw [registration, Store.insertIfNew_of_absent Std.ExtTreeMap.getElem?_empty, Std.ExtTreeMap.getElem?_insert_self]
      simp only [getIpBackup, getPortBackup, entry, ok_bind, pure_eq_ok]
      exact .ok ⟨⟨good.log, good.queue⟩, rfl⟩
  · exact .ok ⟨good, rfl⟩

theorem openCheck_safe (good : Good server) : Safe (openCheck server) fun opened => Good opened ∧ opened.log = server.log := by
  obtain ⟨role, read⟩ := good.log.roled
  unfold openCheck
  rw [read, ok_bind]
  split
  · generalize Client.connectSocket server.link = attempt
    obtain ⟨up, link⟩ := attempt
    cases up with
    | true => exact .ok ⟨⟨good.log, good.queue⟩, rfl⟩
    | false => exact .ok ⟨⟨good.log, good.queue⟩, rfl⟩
  · exact .ok ⟨good, rfl⟩

/-- The headers of the check name transactions that are committed. -/
theorem getCommits_safe {log : Log} (held : Held log) :
    Safe (getCommits log) fun holder => ∀ header ∈ holder, Answerable header ∧ Settled log (getTsn header) := by
  apply (getCommits_names log).mono
  intro holder named header member
  obtain ⟨tsn, record, number, low, found, rfl⟩ := named header member
  rw [commitMessage_getTsn (held.named tsn record found.inLog)]
  refine ⟨⟨_, _, _, _, commitMessage_fields _ _⟩, ⟨?_, by omega⟩, record, "COMMITTED", number, found, Or.inr rfl⟩
  rintro rfl
  obtain ⟨role, dir, ip, port, either, server⟩ := held.server
  obtain ⟨_, rfl, _⟩ := found_unique found ⟨server, twoEntries_status (role, dir) (ip, port)⟩
  exact absurd either (by decide)

theorem checkCommits_safe {commit : Server π → Text → Exec (Bool × Server π)} {log : Log}
    (safe : ∀ server header, Good server → Answerable header → Settled server.log (getTsn header) →
      Safe (commit server header) fun result => Good result.2 ∧ LogKept server.log result.2.log)
    {holder : List Text} (good : Good server) (kept : LogKept log server.log)
    (named : ∀ header ∈ holder, Answerable header ∧ Settled log (getTsn header)) :
    Safe (checkCommits commit holder server) fun result => Good result.2 := by
  induction holder generalizing server with
  | nil => exact .ok good
  | cons header rest ih =>
    obtain ⟨answerable, settled⟩ := named header List.mem_cons_self
    unfold checkCommits
    apply (safe server header good answerable (settled.kept kept)).bind
    rintro ⟨done, next⟩ _ ⟨still, further⟩
    cases done with
    | true => exact ih still (kept.trans further) (fun header member => named header (List.mem_cons_of_mem _ member))
    | false => exact .ok still

end

section
variable {server : Server π} {header data : Text}

/-- After a reply the commit is done, refused, or tried again with more packets. -/
private theorem answered_safe {again : Server π → Exec (Bool × Server π)} {primary : Bool} {result : Text} {kept : Server π → Prop}
    (good : Good server) (answerable : Answerable header) (settled : Settled server.log (getTsn header))
    (coded : (replyWords result)[0]? = some "ERROR".toList → ∃ code, (replyWords result)[3]? = some code)
    (safe : ∀ next, Good next → next.log = server.log → Safe (again next) fun result => kept result.2)
    (keeps : ∀ next, Good next → next.log = server.log → kept next) :
    Safe (do
      let strs := Fields.split [' '] result
      if strs[0]? = some ("ACK" : Text) then
        return (true, server)
      else if !primary then
        let (sent, link) := Client.sendPacket server.link (Client.genRequest "KILL" "-1" "0" " ")
        let server := { server with link }
        if sent then
          let server := changeConnection { server with link := Client.closeSocket server.link } "0.0.0.0" "0"
          return (false, { server with manager := { server.manager with tries := 4, restarted := true } })
        else
          let server ← enqueue server header " "
          return (true, setAlive server false)
      else if strs[0]? = some ("ACK_RESEND" : Text) then
        again (← resend server (getTsn header))
      else if strs[0]? = some ("ERROR" : Text) then
        if (← defined strs[3]?) = ("201" : Text) then
          let server ← enqueue server ("MAKE_TXN " ++ iToS (getTsn header) ++ " -1 0") (← getFileName server.log (getTsn header))
          again server
        else
          return (false, server)
      else
        return (false, server)) fun result => kept result.2 := by
  simp only
  split
  · exact .ok (keeps server good rfl)
  split
  · generalize Client.sendPacket server.link (Client.genRequest "KILL" "-1" "0" " ") = attempt
    obtain ⟨sent, link⟩ := attempt
    cases sent with
    | true => exact .ok (keeps _ ⟨good.log, good.queue⟩ rfl)
    | false =>
      apply (@enqueue_safe _ { server with link } _ ⟨good.log, good.queue⟩ answerable " ").bind
      rintro queued _ ⟨still, same⟩
      exact .ok (keeps _ ⟨still.log, still.queue⟩ same)
  split
  · apply (resend_safe good settled).bind
    rintro queued _ ⟨still, same⟩
    exact safe queued still same
  split
  next word =>
    obtain ⟨code, inReply⟩ := coded word
    rw [inReply, defined_some, ok_bind]
    split
    · obtain ⟨record, status, number, found, _⟩ := settled.found
      obtain ⟨marker, path, file⟩ := (good.log.found found settled.ordinary.1).sound.whole.file
      have named : getFileName server.log (getTsn header) = .ok path := by
        simp only [getFileName, pair_eq_ok.mpr ⟨record, found.inLog, file⟩, ok_bind, pure_eq_ok]
      rw [named, ok_bind]
      apply (enqueue_safe good ⟨_, _, _, _, makeTsnHeader_fields _⟩ path).bind
      rintro queued _ ⟨still, same⟩
      exact safe queued still same
    · exact .ok (keeps server good rfl)
  next => exact .ok (keeps server good rfl)

/-- The calls of the manager look up nothing that is not there. -/
theorem manager_safe (answers : Answers answer) (fuel : Nat) :
    (∀ server : Server π, Good server → Safe (primaryOps answer fuel server) Good) ∧
      (∀ (server : Server π) header, Good server → Answerable header → Settled server.log (getTsn header) →
        Safe (ReplicationManager.commit answer fuel server header) fun result => Good result.2) ∧
      ∀ server : Server π, Good server → Safe (integrityCheck answer fuel server) fun result => Good result.2 := by
  induction fuel with
  | zero =>
    refine ⟨?_, ?_, ?_⟩
    · intro server _
      unfold primaryOps
      exact safe_running
    · intro server header _ _ _
      unfold ReplicationManager.commit
      exact safe_running
    · intro server _
      unfold integrityCheck
      exact safe_running
  | succ fuel ih =>
    obtain ⟨tick, commits, checks⟩ := ih
    refine ⟨?_, ?_, ?_⟩
    · intro server good
      unfold primaryOps
      split
      · exact drain_safe answers good good.queue
      split
      next registered =>
        have registered : backupRegistered server.log = true := (Bool.and_eq_true_iff.mp registered).2
        apply (refreshTarget_safe good registered).bind
        rintro target _ ⟨still, same⟩
        simp only
        split
        · -- the connection failed and the registration goes
          obtain ⟨record, inLog⟩ := Store.mem_iff_get.mp registered
          rw [setAlive, deleteBackup, same, inLog, defined_some, ok_bind]
          exact .ok ⟨good.log.kept (Or.inr rfl), still.queue⟩
        · have connected : Good (setAlive { target with link := (Client.connectSocket target.link).2 } (Client.connectSocket target.link).1) :=
            ⟨still.log, still.queue⟩
          apply (checks _ connected).bind
          rintro ⟨_, checked⟩ _ kept
          exact .ok kept
      next => exact .ok good
    · intro server header good answerable settled
      obtain ⟨role, read⟩ := good.log.roled
      unfold ReplicationManager.commit
      rw [read, ok_bind]
      have synchronises : Safe (if (role == "primary".toList) = true then primaryOps answer fuel server else .ok server) fun synced =>
          Good synced ∧ LogKept server.log synced.log := by
        split
        · refine ⟨(tick server good).defined, ?_⟩
          intro synced ran
          exact ⟨(tick server good).returns synced ran, (manager_keeps answer fuel).1 _ _ ran⟩
        · exact .ok ⟨good, .refl _⟩
      apply synchronises.bind
      rintro synced _ ⟨good, kept⟩
      have settled := settled.kept kept
      simp only
      split
      · apply (sendReceive_safe answers synced.link answerable " ").bind
        rintro ⟨reply, link⟩ _ coded
        cases reply with
        | none =>
          apply (@enqueue_safe _ { synced with link } _ ⟨good.log, good.queue⟩ answerable " ").bind
          rintro queued _ ⟨still, _⟩
          exact .ok ⟨still.log, still.queue⟩
        | some result =>
          apply @answered_safe π { synced with link } header (fun next => ReplicationManager.commit answer fuel next header) _ result Good
            ⟨good.log, good.queue⟩ answerable settled (coded result rfl)
          · intro next still same
            exact commits next header still answerable (settled.kept (Or.inl same))
          · exact fun _ still _ => still
      split
      · exact commits synced header good answerable settled
      · apply (enqueue_safe good answerable " ").bind
        rintro queued _ ⟨still, _⟩
        exact .ok still
    · intro server good
      unfold integrityCheck
      apply (openCheck_safe good).bind
      rintro opened _ ⟨good, _⟩
      apply (getCommits_safe good.log).bind
      intro holder _ named
      apply (@checkCommits_safe π opened _ opened.log ?_ holder.reverse good (.refl _) ?_).bind
      · rintro ⟨done, checked⟩ _ still
        obtain ⟨role, read⟩ := still.log.roled
        simp only at read
        simp only [read, ok_bind]
        split
        · exact .ok ⟨still.log, still.queue⟩
        · exact .ok still
      · intro current header good answerable settled
        have safe := commits current header good answerable settled
        refine ⟨safe.defined, ?_⟩
        rintro ⟨done, next⟩ ran
        exact ⟨safe.returns _ ran, (manager_keeps answer fuel).2.1 _ _ _ _ ran⟩
      · intro header member
        exact named header (List.mem_reverse.mp member)

end

section
variable {server : Server π} {env : Env} {auth : Bool} {header data : Text}

theorem answer_safe (answerable : Answerable header) (method code errString : Text) :
    Safe (genAnswerStr method header code errString) fun _ => True := by
  obtain ⟨text, made⟩ := answerable_genAnswerStr answerable method code errString
  exact .of_eq_ok made trivial

theorem unauthorized_safe (good : Good server) (auth : Bool) (method : Nat) : Safe (unauthorized server auth method) fun _ => True := by
  obtain ⟨role, read⟩ := good.log.roled
  unfold unauthorized
  split
  · rw [read]
    exact .ok trivial
  · exact .ok trivial

theorem register_safe {log : Log} (minds : log[(-1 : Int)]? = none → '|' ∈ data) : Safe (register log data) fun _ => True := by
  unfold register
  split
  next unregistered =>
    have absent : log[(-1 : Int)]? = none := by
      have missing : backupRegistered log = false := by simpa using unregistered
      exact Std.ExtTreeMap.getElem?_eq_none_of_contains_eq_false missing
    obtain ⟨ip, rest, rfl, clean⟩ := List.eq_append_cons_of_mem (minds absent)
    have first : Fields.Clean ['|'] ip := fun char member bar => clean (List.mem_singleton.mp bar ▸ member)
    have fields : Fields.split ['|'] (ip ++ '|' :: rest) = ip :: Fields.split ['|'] rest := Fields.split_field first (by decide) rest
    obtain ⟨port, others, behind⟩ := List.exists_cons_of_ne_nil (List.splitOnP_ne_nil (['|'].contains ·) rest)
    unfold backupServerData
    rw [fields, Fields.split, behind]
    exact .ok trivial
  next => exact .ok trivial

theorem switchToBackup_safe (good : Good server) : Safe (switchToBackup server) fun switched => Good switched := by
  obtain ⟨role, dir, ip, port, either, inLog⟩ := good.log.server
  have status : pair server.log 0 (-1) = .ok (role, dir) := pair_eq_ok.mpr ⟨_, inLog, twoEntries_status _ _⟩
  have file : pair server.log 0 0 = .ok (ip, port) := pair_eq_ok.mpr ⟨_, inLog, twoEntries_file _ _⟩
  unfold switchToBackup
  simp only [getServerStatus, status, ok_bind, pure_eq_ok]
  split
  · exact .ok good
  · simp only [changeConnection, getIpThis, getPortThis, getNetDir, status, file, ok_bind, pure_eq_ok]
    exact .ok ⟨good.log.toSaved.serverData (Or.inr rfl) ip port dir, good.queue⟩

/-- What a command leaves is as good as what it found. -/
theorem Good.executes {out : Command π} (good : Good server) (answerable : Answerable header) {asked : Text}
    (minds : Minds server.log header asked) (drawn : ∀ draw ∈ env.draws, 1 ≤ draw ∧ draw ≤ 100000)
    (executes : Executes server env auth header data out) : Good out.server ∧ Saves out.effects := by
  have queued {log : Log} {next : Server π} {header : Text} (held : Held log) (answerable : Answerable header)
      (enqueued : enqueue { server with log } header data = .ok next) : Good next :=
    ((@enqueue_safe π { server with log } _ ⟨held, good.queue⟩ answerable data).returns next enqueued).1
  cases executes with
  | refused | authenticated => exact ⟨good, saves_nil⟩
  | read => exact ⟨good, saves_send _⟩
  | notAborted method aborts =>
    obtain ⟨held, saves⟩ := good.log.aborts aborts (minds.abort method).1
    exact ⟨⟨held, good.queue⟩, saves⟩
  | aborted method aborts _ enqueued =>
    obtain ⟨held, _⟩ := good.log.aborts aborts (minds.abort method).1
    exact ⟨queued held answerable enqueued, saves_send _⟩
  | created _ creates _ enqueued =>
    obtain ⟨held, saves⟩ := good.log.newTxn drawn creates
    exact ⟨queued held ⟨_, _, _, _, makeTxnHeader_fields _⟩ enqueued, saves.append (saves_send _)⟩
  | commits method commits =>
    obtain ⟨held, saves⟩ := good.log.commits commits (fun high server => absurd ((minds.commit method).1 server) (by omega))
    exact ⟨⟨held, good.queue⟩, saves⟩
  | added method adds _ enqueued =>
    obtain ⟨held, saves⟩ := good.log.adds adds answerable (fun high => (minds.write method high).1)
    exact ⟨queued held answerable enqueued, saves.append (saves_send _)⟩
  | completed method adds _ _ enqueued =>
    obtain ⟨held, saves⟩ := good.log.adds adds answerable (fun high => (minds.write method high).1)
    exact ⟨queued held answerable enqueued, saves⟩
  | notAdded method adds =>
    obtain ⟨held, saves⟩ := good.log.adds adds answerable (fun high => (minds.write method high).1)
    exact ⟨⟨held, good.queue⟩, saves⟩
  | made method makes =>
    obtain ⟨held, saves⟩ := good.log.makeTxn (getTsn_isInt header) (minds.make method) data makes
    exact ⟨⟨held, good.queue⟩, saves.append (saves_send _)⟩
  | pinged _ _ registers => exact ⟨⟨good.log.register registers, good.queue⟩, saves_send _⟩
  | demoted _ switches => exact ⟨(switchToBackup_safe good).returns _ switches, saves_nil⟩

theorem executeCommand_safe (good : Good server) (answerable : Answerable header) (minds : Minds server.log header data)
    (drawn : ∀ draw ∈ env.draws, 1 ≤ draw ∧ draw ≤ 100000) :
    Safe (executeCommand env server auth (parse header) header data) fun _ => True := by
  have answers := answer_safe answerable
  have queues {log : Log} {header : Text} (held : Held log) (answerable : Answerable header) :
      Safe (enqueue { server with log } header data) fun _ => True :=
    (@enqueue_safe π { server with log } _ ⟨held, good.queue⟩ answerable data).mono (fun _ _ => trivial)
  have refuses (method code errString : Text) : Safe (do
      let error ← genAnswerStr method header code errString
      return ({ server, auth, ret := false, error } : Command π)) fun _ => True := by
    apply (answers method code errString).bind
    intro _ _ _
    exact .ok trivial
  unfold executeCommand
  apply (unauthorized_safe good auth _).bind
  intro refused _ _
  split
  · exact refuses _ _ _
  split
  next method =>
    obtain ⟨notServer, notBackup⟩ := minds.abort method
    obtain ⟨outcome, ran⟩ := abort_returns (good.log.formed notBackup) answerable
    have held := (good.log.aborts (abort_cases ran) notServer).1
    rw [ran, ok_bind]
    simp only
    split
    · apply (answers _ _ _).bind
      intro _ _ _
      apply (queues held answerable).bind
      intro _ _ _
      exact .ok trivial
    · exact .ok trivial
  next method =>
    have draws : Safe (newTxn server.log data env.draws) fun _ => True := by
      unfold newTxn
      split
      · exact .ok trivial
      · apply (Safe.finished (fun _ _ => trivial)).bind
        intro _ _ _
        exact .ok trivial
    apply draws.bind
    rintro ⟨log, effects, tsn⟩ creates _
    simp only
    split
    · exact refuses _ _ _
    · apply (queues (good.log.newTxn drawn creates).1 ⟨_, _, _, _, makeTxnHeader_fields tsn⟩).bind
      intro _ _ _
      exact .ok trivial
  next method =>
    obtain ⟨outcome, ran⟩ := commit_returns (good.log.formed (minds.commit method).2) answerable good.log.roled env.io
    rw [ran, ok_bind]
    simp only [ofOutcome, (commit_cases ran).ret, Bool.false_eq_true, if_false]
    exact .ok trivial
  next =>
    split
    · apply (answers _ _ _).bind
      intro _ _ _
      exact .ok trivial
    · exact refuses _ _ _
  next method =>
    have adds : ∃ outcome, addLogEntry server.log header data env.io = .ok outcome := by
      by_cases low : getSeq header < 1
      · obtain ⟨code, text⟩ := answerable_genAnswerStr answerable "ERROR" "204" "Sequence number invalid: must be 1 or larger"
        exact ⟨_, addLogEntry_of_case (.low low text)⟩
      · exact addLogEntry_returns (good.log.formed (minds.write method (by omega)).2) answerable good.log.roled data env.io
    obtain ⟨outcome, ran⟩ := adds
    have held := (good.log.adds (addLogEntry_cases ran) answerable (fun high => (minds.write method high).1)).1
    rw [ran, ok_bind]
    simp only
    split
    · apply (answers _ _ _).bind
      intro _ _ _
      apply (queues held answerable).bind
      intro _ _ _
      exact .ok trivial
    split
    · apply (queues held answerable).bind
      intro _ _ _
      exact .ok trivial
    · exact .ok trivial
  next =>
    apply (answers _ _ _).bind
    intro _ _ _
    exact .ok trivial
  next method =>
    apply (answers _ _ _).bind
    intro _ _ _
    apply (register_safe (minds.ping method)).bind
    intro _ _ _
    exact .ok trivial
  next => exact .ok trivial
  next =>
    apply (switchToBackup_safe good).bind
    intro _ _ _
    exact .ok trivial
  next => exact refuses _ _ _

end

section
variable {server : Server π} {env : Env} {auth io : Bool} {header data : Text}

/-- Writing the file and the status of a transaction that its backup has. -/
theorem conclude_safe (good : Good server) {tsn : Int} {record : Record} {number : Text} (ordinary : tsn ≠ 0)
    (found : Found server.log tsn record "WRITING" number) (io : Bool) (ack : Text) : Safe (do
      let (written, appended) ← writeFile server.log tsn io
      if written then
        let log ← changeStatus server.log tsn "COMMITTED"
        return ({ server := { server with log }, effects := appended ++ [.save log, .send ack], auth } : Handled π)
      else
        return { server, effects := [], auth, exited := true }) fun done => Good done.server ∧ Saves done.effects := by
  have ready := good.log.found found ordinary
  obtain ⟨numbered, entries⟩ := ready.sound.complete _ _ found.entry (Or.inl rfl)
  rcases @writeFile_ok _ _ _ io _ _ found ready.sound.whole.formed (by omega) entries with ⟨_, path, lines, written⟩ | ⟨_, written⟩
  · have committed : Held (mark server.log tsn record "COMMITTED" number) :=
      good.log.insert (good.log.named _ _ found.inLog) ordinary (fun backup => good.log.not_found (backup ▸ found))
        (ready.mark (fun _ => ⟨numbered, entries⟩))
    simp only [written, ok_bind, if_true, found.changeStatus, pure_eq_ok]
    refine .ok ⟨⟨committed, good.queue⟩, (saves_append _ _ _).append ?_⟩
    exact (saves_save committed.toSaved).append (saves_send ack)
  · simp only [written, ok_bind, Bool.false_eq_true, if_false, pure_eq_ok]
    exact .ok ⟨good, saves_nil⟩

theorem doCommit_safe (answers : Answers answer) (good : Good server) (answerable : Answerable header) (ordinary : getTsn header ≠ 0)
    (writing : getServerStatus server.log = .ok "primary" → ∃ record number, Found server.log (getTsn header) record "WRITING" number)
    (io : Bool) : Safe (doCommit answer fuel io server auth header) fun done => Good done.server ∧ Saves done.effects := by
  obtain ⟨role, read⟩ := good.log.roled
  unfold doCommit
  apply (answer_safe answerable _ _ _).bind
  intro ack _ _
  rw [read, ok_bind]
  split
  next primary =>
    subst primary
    obtain ⟨record, number, found⟩ := writing read
    have settled : Settled server.log (getTsn header) :=
      ⟨⟨ordinary, fun backup => good.log.not_found (backup ▸ found)⟩, record, _, number, found, Or.inl rfl⟩
    rw [found.getStatusData, ok_bind]
    generalize (if atoi number = 0 then getSeq header else atoi number) = seq
    have sameTsn : getTsn (commitMessage (getTsn header) seq) = getTsn header := commitMessage_getTsn (getTsn_isInt header) seq
    apply ((manager_safe answers fuel).2.1 server _ good ⟨_, _, _, _, commitMessage_fields _ _⟩ (by rwa [sameTsn])).bind
    rintro ⟨replicated, final⟩ ran still
    have kept := (manager_keeps answer fuel).2.1 _ _ _ _ ran
    cases replicated with
    | true => exact conclude_safe still ordinary ⟨(kept.other settled.ordinary.2).trans found.inLog, found.entry⟩ io ack
    | false =>
      apply (answer_safe answerable _ _ _).bind
      intro error _ _
      exact .ok ⟨still, saves_send error⟩
  next => exact .ok ⟨good, saves_send ack⟩

theorem dispatch_safe (answers : Answers answer) (good : Good server) (answerable : Answerable header) (minds : Minds server.log header data)
    (drawn : ∀ draw ∈ env.draws, 1 ≤ draw ∧ draw ≤ 100000) :
    Safe (dispatch answer fuel env server auth header data) fun handled => Good handled.server ∧ Saves handled.effects := by
  unfold dispatch
  apply (executeCommand_safe good answerable minds drawn).bind
  intro out executed _
  have executes := executeCommand_cases executed
  obtain ⟨after, saves⟩ := good.executes answerable minds drawn executes
  split
  · exact .ok ⟨after, saves⟩
  next refused =>
  have refused : out.ret = false := by simpa using refused
  split
  next code =>
    obtain ⟨packet, rest, sent⟩ := resend_sends executes refused code
    rw [sent, ok_bind]
    exact .ok ⟨after, saves.append (saves_packets (sendAckResend_effects sent))⟩
  split
  next code =>
    have method := executes.committed_method refused code
    have high := executes.high refused code
    have ordinary : getTsn header ≠ 0 := by
      rcases method with commit | write
      · exact fun server => absurd ((minds.commit commit).1 server) (by omega)
      · exact (minds.write write high).1
    have writing : getServerStatus out.server.log = .ok "primary" →
        ∃ record number, Found out.server.log (getTsn header) record "WRITING" number := by
      intro primary
      have before : IsPrimary server.log := by
        unfold IsPrimary
        rw [← getServerStatus_of_get (executes.frame (Or.inr (method.imp id Or.inl)) (Ne.symm ordinary))]
        exact primary
      obtain ⟨record, seq, _, _, found, _⟩ := CommitDecision.writing_of_committed before ordinary executes refused code
      exact ⟨record, _, found⟩
    apply (doCommit_safe answers after answerable ordinary writing env.io).bind
    rintro done _ ⟨still, concluded⟩
    exact .ok ⟨still, saves.append concluded⟩
  next => exact .ok ⟨after, saves.append (saves_send _)⟩

/-- A packet that minds the lookups if it is executed at all. -/
def Mindful (server : Server π) (auth : Bool) (header : Text) (payload : Option Text) : Prop :=
  Executed server auth header payload → Minds server.log header (payload.getD " ")

private theorem refused_safe (good : Good server) (answerable : Answerable header) (refused : unauthorized server auth (parse header) = .ok true) :
    Safe (dispatch answer fuel env server auth header data) fun handled => Good handled.server ∧ Saves handled.effects := by
  obtain ⟨error, text⟩ := answerable_genAnswerStr answerable "AUTH_FAIL" "321" "Not authorized"
  have executed : executeCommand env server auth (parse header) header data = .ok { server, auth, ret := false, error } := by
    unfold executeCommand
    rw [refused, ok_bind, if_pos rfl, text]
    rfl
  obtain ⟨notIncomplete, notCommitted⟩ := Answered.ne_codes ⟨_, _, _, text⟩
  unfold dispatch
  rw [executed, ok_bind]
  simp only [Bool.false_eq_true, if_false]
  rw [if_neg notIncomplete, if_neg notCommitted]
  exact .ok ⟨good, saves_send error⟩

theorem receive_safe (answers : Answers answer) (good : Good server) (valid : validHeader header = true) {payload : Option Text}
    (mindful : Mindful server auth header payload) (drawn : ∀ draw ∈ env.draws, 1 ≤ draw ∧ draw ≤ 100000) :
    Safe (receive answer fuel env server auth header payload) fun handled => Good handled.server ∧ Saves handled.effects := by
  have answerable := answerable_of_valid valid
  have dispatches (complete : needsData header = true → payload ≠ none) :
      Safe (dispatch answer fuel env server auth header (payload.getD " ")) fun handled => Good handled.server ∧ Saves handled.effects := by
    have checks := unauthorized_safe good auth (parse header)
    cases checked : unauthorized server auth (parse header) with
    | error halt =>
      rw [checked] at checks
      obtain ⟨role, read⟩ := good.log.roled
      unfold unauthorized at checked
      rw [read] at checked
      split at checked
      · cases checked
      · cases checked
    | ok refused =>
      cases refused with
      | true => exact refused_safe good answerable checked
      | false => exact dispatch_safe answers good answerable (mindful ⟨checked, complete⟩) drawn
  unfold receive
  cases payload with
  | some data => exact dispatches (fun _ => Option.some_ne_none data)
  | none =>
    simp only
    split
    · apply (answer_safe answerable _ _ _).bind
      intro text _ _
      exact .ok ⟨good, saves_send text⟩
    next unneeded => exact dispatches (fun needed => absurd needed unneeded)

end

section
variable {server : Server π}

/-- The manager's timer. -/
theorem Good.check (answers : Answers answer) (good : Good server) {tick : Tick} {next : Server π}
    (ran : ReplicationManager.check answer fuel tick server = .ok (some next)) : Good next := by
  rcases check_cases ran with ⟨_, ops⟩ | ⟨backup, ops⟩
  · exact ((manager_safe answers fuel).1 server good).returns next ops
  have queue := BackupProgress.backupOps_queue backup ops
  refine ⟨?_, fun packet member => good.queue packet (queue ▸ member)⟩
  rcases check_log ran with kept | ⟨ip, port, dir, _, _, _, same⟩
  · exact good.log.kept kept
  · rw [same]
    exact good.log.toSaved.serverData (Or.inl rfl) ip port dir

/-- A packet of the event, if any, minds the lookups. -/
def MindfulEvent (server : Server π) : System.Event → Prop
  | .packet _ auth header payload _ _ => Mindful server auth header payload
  | _ => True

theorem Good.perform (answers : Answers answer) (good : Good server) {event : System.Event} (mindful : MindfulEvent server event)
    {next : Option (Server π)} {effects : List Effect} (ran : System.perform answer fuel server event = .ok (next, effects)) :
    (∀ running, next = some running → Good running) ∧ Saves effects := by
  cases event with
  | packet env auth header payload valid drawn =>
    obtain ⟨handled, received, same⟩ := bind_eq_ok.mp ran
    obtain ⟨after, saves⟩ := (receive_safe answers good valid mindful drawn).returns handled received
    cases same
    refine ⟨?_, saves⟩
    intro running same
    split at same
    · cases same
    · cases same
      exact after
  | sweep =>
    obtain ⟨⟨log, dangling⟩, swept, same⟩ := bind_eq_ok.mp ran
    cases same
    have held : Held log := timeouts_preserves (fun _ _ _ _ holds sweeps => holds.sweeps sweeps) good.log swept
    refine ⟨?_, saves_save held.toSaved⟩
    rintro _ ⟨⟩
    exact ⟨held, good.queue⟩
  | save =>
    cases ran
    refine ⟨?_, saves_save good.log.toSaved⟩
    rintro _ ⟨⟩
    exact good
  | tick tick =>
    obtain ⟨ticked, checked, same⟩ := bind_eq_ok.mp ran
    cases same
    refine ⟨?_, saves_nil⟩
    rintro running rfl
    exact good.check answers checked

/-- A command that has returned in a call that has not. -/
private theorem saves_command (good : Good server) {env : Env} {auth : Bool} {header : Text} {payload : Option Text}
    (valid : validHeader header = true) (drawn : ∀ draw ∈ env.draws, 1 ≤ draw ∧ draw ≤ 100000) (mindful : Mindful server auth header payload)
    {halt : Halt} (halted : receive answer fuel env server auth header payload = .error halt) {out : Command π}
    (executed : executeCommand env server auth (parse header) header (payload.getD " ") = .ok out) : Saves out.effects := by
  have answerable := answerable_of_valid valid
  have complete : needsData header = true → payload ≠ none := by
    rintro needed rfl
    obtain ⟨text, made⟩ := answerable_genAnswerStr answerable "ERROR" "204" "Method requires data."
    simp only [receive, needed, if_true, made, ok_bind, pure_eq_ok, reduceCtorEq] at halted
  cases checked : unauthorized server auth (parse header) with
  | error => simp only [executeCommand, checked, error_bind, reduceCtorEq] at executed
  | ok refused =>
    cases refused with
    | true =>
      simp only [executeCommand, checked, ok_bind, if_true] at executed
      obtain ⟨error, text, same⟩ := bind_eq_ok.mp executed
      cases same
      exact saves_nil
    | false => exact (good.executes answerable (mindful ⟨checked, complete⟩) drawn (executeCommand_cases executed)).2

theorem saves_reached (answers : Answers answer) (good : Good server) {event : System.Event} (mindful : MindfulEvent server event) :
    Saves (Process.reached answer fuel server event) := by
  unfold Process.reached
  split
  next performed => exact (good.perform answers mindful performed).2
  next halt performed =>
    cases event with
    | packet env auth header payload valid drawn =>
      simp only
      split
      next out executed =>
        cases received : receive answer fuel env server auth header payload with
        | error halt => exact saves_command good valid drawn mindful received executed
        | ok handled => simp only [System.perform, received, ok_bind, pure_eq_ok, reduceCtorEq] at performed
      next => exact saves_nil
    | sweep | save | tick => exact saves_nil

end

/-- The invariant of a process and its disk. -/
structure Fine (process : Process π) : Prop where
  server : Good process.server
  saved : Saved process.disk.saved

/-- The packet of an event minds the lookups, also when a crash cuts it short. -/
def Allowed (process : Process π) (event : Process.Event π) : Prop := MindfulEvent process.server (about event)

theorem saved_apply {disk : Disk} {effects : List Effect} (saves : Saves effects) (saved : Saved disk.saved) :
    Saved (effects.foldl Disk.apply disk).saved := by
  induction effects generalizing disk with
  | nil => exact saved
  | cons effect effects ih =>
    apply ih (fun log member => saves log (List.mem_cons_of_mem _ member))
    cases effect with
    | save log => exact saves log List.mem_cons_self
    | append => exact saved
    | send => exact saved

theorem start_good (restart : Restart π) {disk : Disk} (saved : Saved disk.saved) : Fine (Process.start restart disk) := by
  refine ⟨⟨?_, fun _ member => absurd member List.not_mem_nil⟩, saved⟩
  apply saved.serverData
  split
  · exact Or.inl rfl
  · exact Or.inr rfl

theorem onDisk_mindful {server : Server π} {event : System.Event} (disk : Disk) (mindful : MindfulEvent server event) :
    MindfulEvent server (Process.onDisk disk event) := by
  cases event <;> exact mindful

theorem step_fine (answers : Answers answer) {process next : Process π} {event : Process.Event π} (fine : Fine process)
    (allowed : Allowed process event) (stepped : Process.step answer fuel process event = .ok next) : Fine next := by
  obtain ⟨effects, performed⟩ := step_performs stepped
  cases event with
  | event event =>
    have mindful : MindfulEvent process.server event := allowed
    obtain ⟨⟨running, had⟩, happened, ran⟩ := bind_eq_ok.mp performed
    obtain ⟨server, runs, same⟩ := bind_eq_ok.mp ran
    cases same
    obtain ⟨after, saves⟩ := fine.server.perform answers (onDisk_mindful process.disk mindful) happened
    exact ⟨after server (finished_eq_ok.mp runs), saved_apply saves fine.saved⟩
  | crash during done restart =>
    cases performed
    apply start_good restart
    have saves := @saves_reached π answer fuel _ answers fine.server _ (onDisk_mindful process.disk allowed)
    exact saved_apply (fun log member => saves log (List.mem_of_mem_take member)) fine.saved

/-- From a first start on, whatever packets, sweeps, saves, ticks, crashes and
restarts have happened: no packet makes its handler look up what is not there,
as long as every executed packet, this one included, leaves alone the server's
record and the registration, and a PING that registers names an ip and a port. -/
theorem lookups_find_their_entries (answers : Answers answer) {restart : Restart π} {existing : Text → Option Text} {room : List Bool}
    {events : List (Process.Event π)} {final : Process π}
    (along : Along (Process.step answer fuel) Allowed (Completeness.fresh restart existing room) events)
    (ran : events.foldlM (Process.step answer fuel) (Completeness.fresh restart existing room) = .ok final) {env : Env} {auth : Bool} {header : Text}
    {payload : Option Text} (valid : validHeader header = true) (drawn : ∀ draw ∈ env.draws, 1 ≤ draw ∧ draw ≤ 100000)
    (mindful : Mindful final.server auth header payload) (more : Nat) :
    receive answer more env final.server auth header payload ≠ .error .undefined := by
  have fine : Fine final :=
    run_preserves Fine (fun _ _ _ fine allowed stepped => step_fine answers fine allowed stepped) along (start_good restart saved_empty) ran
  exact (receive_safe answers fine.server valid mindful drawn).defined

/-- Nobody answers a server without a backup. -/
private theorem noPeer_answers : Answers Backup.noPeer := by
  refine ⟨?_, ?_⟩
  · intro _ _ _ _ _ same
    cases same
  · intro _ _ _ _ _ _ same
    cases same

private def restarted : List (Process.Event Unit) := [.event Completeness.createFive, .crash .save 1 Completeness.alone]

theorem write_after_a_restart_finds_its_entries :
    ∃ final, restarted.foldlM (Process.step Backup.noPeer 0) (Completeness.fresh Completeness.alone fun _ => none) = .ok final ∧
      receive Backup.noPeer 0 {} final.server false "WRITE 5 1 3" (some "xx") ≠ .error .undefined := by
  obtain ⟨final, ran⟩ : ∃ final, restarted.foldlM (Process.step Backup.noPeer 0) (Completeness.fresh Completeness.alone fun _ => none) =
      .ok final := returned_of_isOk (by decide +kernel)
  have create (process : Process Unit) : Allowed process (.event Completeness.createFive) := fun _ =>
    ⟨fun method => absurd method (by decide), fun method => absurd method (by decide), fun method => absurd method (by decide),
      fun method => absurd method (by decide), fun method => absurd method (by decide)⟩
  have write : Mindful final.server false "WRITE 5 1 3" (some "xx") := fun _ =>
    ⟨fun method => absurd method (by decide), fun method => absurd method (by decide),
      fun _ _ => ⟨by decide, fun backup => absurd backup (by decide)⟩, fun method => absurd method (by decide),
      fun method => absurd method (by decide)⟩
  have along : Along (Process.step Backup.noPeer 0) Allowed (Completeness.fresh Completeness.alone fun _ => none) restarted :=
    ⟨create _, fun _ _ => ⟨trivial, fun _ _ => trivial⟩⟩
  exact ⟨final, ran, lookups_find_their_entries noPeer_answers along ran (by decide) (by simp) write 0⟩

/-- A client may abort the server's own record, and the queue asks for the role. -/
theorem abort_of_the_own_record_is_undefined :
    receive Backup.noPeer 0 {} (Completeness.fresh Completeness.alone fun _ => none).server false "ABORT 0 0 0" none = .error .undefined := by
  have halted : (receive Backup.noPeer 0 {} (Completeness.fresh Completeness.alone fun _ => none).server false "ABORT 0 0 0" none).map
      (fun _ => ()) = .error .undefined := by decide +kernel
  cases received : receive Backup.noPeer 0 {} (Completeness.fresh Completeness.alone fun _ => none).server false "ABORT 0 0 0" none with
  | ok handled =>
    rw [received] at halted
    cases halted
  | error halt =>
    rw [received] at halted
    cases halted
    rfl

end TransactionalServer.Proofs.Lookups
