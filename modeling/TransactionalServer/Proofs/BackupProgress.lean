import TransactionalServer.Proofs.Completeness

/-! Commit in the backup role. It looks at a queue that only a primary fills and
only a primary drains, so it goes on for ever when a primary has left one behind. -/

namespace TransactionalServer.Proofs.BackupProgress
open ServerTools LogHandler Exec Session ReplicationManager Completeness

variable {π : Type} {answer : Answer π} {fuel : Nat}

/-- A packet that takes the primary role away: KILL, and an update of the
record of the server itself. -/
def Demotes (header : Text) (payload : Option Text) : Prop :=
  parse header = 9 ∨ (getTsn header = 0 ∧ 1 ≤ getSeq header ∧ (parse header = 3 ∨ (parse header = 5 ∧ payload ≠ none)))

/-- A primary is demoted only with nothing left in its queue. -/
def LeavesNothing (server : Server π) : System.Event → Prop
  | .packet _ _ header payload _ _ => IsPrimary server.log → Demotes header payload → server.manager.syncQueue = []
  | _ => True

/-- The calls of `commit` that the loop of `integrityCheck` makes. -/
inductive LoopCalls (answer : Answer π) (fuel : Nat) : List Text → Server π → Server π → Text → Prop where
  | first {header : Text} {rest : List Text} {server : Server π} : LoopCalls answer fuel (header :: rest) server server header
  | later {header message : Text} {rest : List Text} {server after called : Server π}
      (returned : ReplicationManager.commit answer fuel server header = .ok (true, after))
      (calls : LoopCalls answer fuel rest after called message) : LoopCalls answer fuel (header :: rest) server called message

/-- The calls of `commit` on a server in this state: a direct one, and those of
an `integrityCheck` over any connection. -/
inductive Calls (answer : Answer π) (fuel : Nat) (server : Server π) : Server π → Text → Prop where
  | direct {header : Text} : Calls answer fuel server server header
  | checked {link : Link π} {synced : Bool} {opened called : Server π} {holder : List Text} {header : Text}
      (opens : openCheck { server with link, manager := { server.manager with backupDidSync := synced } } = .ok opened)
      (committed : getCommits opened.log = .ok holder) (calls : LoopCalls answer fuel holder.reverse opened called header) :
      Calls answer fuel server called header

/-- Neither the log nor the queue has changed. -/
structure Quiet (before after : Server π) : Prop where
  log : after.log = before.log
  queue : after.manager.syncQueue = before.manager.syncQueue

theorem Quiet.refl (server : Server π) : Quiet server server := ⟨rfl, rfl⟩

theorem Quiet.trans {first second third : Server π} (one : Quiet first second) (two : Quiet second third) : Quiet first third :=
  ⟨two.log.trans one.log, two.queue.trans one.queue⟩

section
variable {server final : Server π} {header : Text} {done : Bool}

theorem enqueue_quiet {data : Text} (backup : NotPrimary server.log) (enqueued : enqueue server header data = .ok final) :
    Quiet server final := by
  rw [enqueue_backup backup enqueued]
  exact .refl _

/-- A server that is not the primary commits without touching its queue. -/
theorem commit_quiet (backup : NotPrimary server.log) (ran : ReplicationManager.commit answer fuel server header = .ok (done, final)) :
    Quiet server final := by
  induction fuel with
  | zero => cases ran
  | succ fuel ih =>
    cases backup_round backup ran with
    | unsynced _ _ again => exact ih again
    | away | lost | acked | kills | unheard => exact ⟨rfl, rfl⟩

theorem checkCommits_quiet {holder : List Text} (backup : NotPrimary server.log)
    (ran : checkCommits (ReplicationManager.commit answer fuel) holder server = .ok (done, final)) : Quiet server final := by
  induction holder generalizing server with
  | nil =>
    cases ran
    exact .refl _
  | cons header rest ih =>
    unfold checkCommits at ran
    obtain ⟨⟨committed, next⟩, returned, ran⟩ := bind_eq_ok.mp ran
    have here := commit_quiet backup returned
    cases committed with
    | true => exact here.trans (ih (here.log ▸ backup) ran)
    | false =>
      cases ran
      exact here

theorem openCheck_quiet {opened : Server π} (ran : openCheck server = .ok opened) : Quiet server opened := by
  rcases openCheck_cases ran with ⟨_, rfl⟩ | ⟨_, up, link, _, rfl⟩
  · exact .refl _
  split
  · exact ⟨rfl, rfl⟩
  · exact ⟨rfl, rfl⟩

theorem integrityCheck_quiet (backup : NotPrimary server.log) (ran : integrityCheck answer fuel server = .ok (done, final)) :
    Quiet server final := by
  cases fuel with
  | zero => cases ran
  | succ fuel =>
    obtain ⟨opened, holder, checked, opens, _, checks, ends⟩ := integrityCheck_cases ran
    have first := openCheck_quiet opens
    have both := first.trans (checkCommits_quiet (first.log ▸ backup) checks)
    rcases ends with rfl | ⟨_, rfl⟩
    · exact both
    · exact ⟨both.log, both.queue⟩

end

/-- Without a queue a call on a server that is not the primary makes one
exchange at most. -/
theorem commit_returns_of_empty {server : Server π} {header role : Text} (read : getServerStatus server.log = .ok role)
    (backup : role ≠ "primary") (empty : server.manager.syncQueue = [])
    (exchanged : ∃ result link, Client.sendReceive answer server.link header " " = .ok (result, link)) :
    ∃ done final, ReplicationManager.commit answer 1 server header = .ok (done, final) := by
  have enqueues (server' : Server π) (same : server'.log = server.log) (data : Text) : ∃ queued, enqueue server' header data = .ok queued :=
    enqueue_returns server' ⟨role, same ▸ read⟩ header data
  have notPrimary : (role == ("primary" : Text)) = false := beq_eq_false_iff_ne.mpr backup
  unfold ReplicationManager.commit
  simp only [read, ok_bind, notPrimary, Bool.false_eq_true, if_false, empty, List.isEmpty_nil, Bool.and_true, Bool.not_true, Bool.and_false]
  cases server.manager.alive with
  | false =>
    obtain ⟨queued, enqueued⟩ := enqueues server rfl " "
    exact ⟨true, queued, by simp only [Bool.false_eq_true, if_false, enqueued, ok_bind, pure_eq_ok]⟩
  | true =>
    obtain ⟨result, link, sent⟩ := exchanged
    simp only [if_true, sent, ok_bind]
    cases result with
    | none =>
      obtain ⟨queued, enqueued⟩ := enqueues { server with link } rfl " "
      exact ⟨true, setAlive queued false, by simp only [enqueued, ok_bind, pure_eq_ok]⟩
    | some result =>
      simp only [Bool.not_false, if_true]
      split
      · exact ⟨_, _, rfl⟩
      split
      · exact ⟨_, _, rfl⟩
      · obtain ⟨queued, enqueued⟩ := enqueues
          { server with link := (Client.sendPacket link (Client.genRequest "KILL" "-1" "0" " ")).2 } rfl " "
        exact ⟨true, setAlive queued false, by simp only [enqueued, ok_bind, pure_eq_ok]⟩

/-- With a queue it re-enters itself and nothing has changed. -/
theorem commit_never_returns {server : Server π} {role : Text} (read : getServerStatus server.log = .ok role) (backup : role ≠ "primary")
    (alive : server.manager.alive = true) (pending : server.manager.syncQueue ≠ []) (header : Text) (fuel : Nat) :
    ReplicationManager.commit answer fuel server header = .error .running := by
  have notPrimary : (role == ("primary" : Text)) = false := beq_eq_false_iff_ne.mpr backup
  have nonempty : server.manager.syncQueue.isEmpty = false := by simpa using pending
  induction fuel with
  | zero => rfl
  | succ fuel ih =>
    unfold ReplicationManager.commit
    simp only [read, ok_bind, notPrimary, Bool.false_eq_true, if_false, alive, nonempty, Bool.and_false, Bool.not_false, Bool.and_true, if_true]
    exact ih

section
variable {server : Server π} {env : Env} {auth : Bool} {header data : Text} {payload : Option Text}

/-- A command after which the server is not the primary has queued nothing. -/
theorem Executes.queue {out : Command π} (executes : Executes server env auth header data out) (backup : NotPrimary out.server.log) :
    out.server.manager.syncQueue = server.manager.syncQueue := by
  have enqueues {log : Log} {queued : Server π} {header data : Text} (backup : NotPrimary queued.log)
      (enqueued : enqueue { server with log } header data = .ok queued) : queued.manager.syncQueue = server.manager.syncQueue := by
    have still : NotPrimary log := by rwa [enqueue_log enqueued] at backup
    have quiet : Quiet { server with log } queued := enqueue_quiet still enqueued
    exact quiet.queue
  cases executes with
  | refused | read | notAborted | commits | notAdded | made | pinged | authenticated => rfl
  | aborted _ _ _ enqueued => exact enqueues backup enqueued
  | created _ _ _ enqueued => exact enqueues backup enqueued
  | added _ _ _ enqueued => exact enqueues backup enqueued
  | completed _ _ _ _ enqueued => exact enqueues backup enqueued
  | demoted _ switches =>
    rcases switchToBackup_cases switches with ⟨_, rfl⟩ | ⟨_, _, _, _, _, _, rfl⟩
    · rfl
    · rfl

theorem Commits.of_low {log : Log} {io : Bool} {out : Outcome} (commits : Commits log header io out) (low : getSeq header < 1) :
    out.log = log := by
  cases commits with
  | absent | already | expired | otherNumber | nothing => rfl
  | incomplete _ _ high | primary _ _ high | written _ _ high | failed _ _ high => omega

theorem Adds.of_low {log : Log} {io : Bool} {out : Outcome} (adds : Adds log header data io out) (low : getSeq header < 1) :
    out.log = log := by
  cases adds with
  | low | absent | committed | expired | duplicate | above => rfl
  | kept high | completes high | added high => omega

/-- A transaction whose commit goes on has no server role as its status. -/
theorem Commits.status {log : Log} {io : Bool} {out : Outcome} (commits : Commits log header io out) (code : out.code = "committed") :
    ∃ record status number, Found out.log (getTsn header) record status number ∧ status ≠ "primary" := by
  cases commits with
  | absent _ text | already _ _ text | expired _ text | otherNumber _ _ _ text | nothing _ _ _ text | failed _ _ _ _ _ _ _ _ text =>
    exact absurd code (Answered.ne_codes ⟨_, _, _, text⟩).2
  | incomplete => exact absurd code (by decide : ("incomplete".toList : Text) ≠ "committed".toList)
  | primary _ _ _ _ marked =>
    subst marked
    exact ⟨_, _, _, mark_found _ _ _ _ _, by decide⟩
  | written _ _ _ _ _ _ _ _ finished =>
    subst finished
    exact ⟨_, _, _, mark_found _ _ _ _ _, by decide⟩

/-- A commit of the record of the server itself goes on as that of a backup. -/
theorem Executes.own_commit {out : Command π} (executes : Executes server env auth header data out) (refused : out.ret = false)
    (code : out.error = "committed") (own : getTsn header = 0) : NotPrimary out.server.log := by
  have lost {log : Log} {record : Record} {status number : Text} (found : Found log (getTsn header) record status number)
      (other : status ≠ "primary") : NotPrimary log := by
    intro primary
    rw [own] at found
    have same : getServerStatus log = .ok status := found.getStatus
    exact other (Except.ok.inj (same.symm.trans primary))
  cases executes with
  | refused _ refusal => exact absurd code refusal.answered.ne_codes.2
  | notAborted _ aborts => exact absurd code (aborts.refused refused).answered.ne_codes.2
  | notAdded _ _ _ notCommitted => exact absurd code notCommitted
  | commits _ commits =>
    obtain ⟨record, status, number, found, other⟩ := Commits.status commits code
    exact lost found other
  | completed _ adds _ _ enqueued =>
    rw [enqueue_log enqueued]
    cases adds with
    | low _ text | absent _ _ text | committed _ _ text | expired _ _ text | duplicate _ _ _ _ _ text | above _ _ _ _ text =>
      exact absurd code (Answered.ne_codes ⟨_, _, _, text⟩).2
    | kept | added => cases code
    | completes _ _ _ _ _ _ commits =>
      obtain ⟨record, status, number, found, other⟩ := Commits.status commits code
      rw [pendingCommit_getTsn (getTsn_isInt header)] at found
      exact lost found other
  | read | aborted | created | added | made | pinged | authenticated | demoted => cases refused

/-- Only a packet that demotes takes the primary role away. -/
theorem Executes.keeps_role {out : Command π} (executes : Executes server env auth header data out) (primary : IsPrimary server.log)
    (attached : parse header = 5 → payload ≠ none) (drawn : ∀ draw ∈ env.draws, 1 ≤ draw) (stays : ¬ Demotes header payload) :
    IsPrimary out.server.log := by
  obtain ⟨record, number, own⟩ := found_of_getStatus primary
  have low (own : getTsn header = 0) (method : parse header = 3 ∨ parse header = 5) : getSeq header < 1 := by
    by_contra high
    exact stays (Or.inr ⟨own, Int.not_lt.mp high, method.imp id (fun method => ⟨method, attached method⟩)⟩)
  -- an update of another record leaves the role alone
  have settle (replicated : Replicated header) (here : getTsn header = 0 → IsPrimary out.server.log) : IsPrimary out.server.log := by
    by_cases same : getTsn header = 0
    · exact here same
    · exact primary.of_get (executes.frame replicated (Ne.symm same))
  cases executes with
  | refused | read | authenticated => exact primary
  | notAborted method aborts kept =>
    apply settle (Or.inl method)
    intro same
    cases aborts with
    | absent | committed | expired => exact primary
    | erased => cases kept
  | aborted method aborts erased enqueued =>
    apply settle (Or.inl method)
    intro same
    obtain ⟨role, read, _⟩ := enqueue_eq_ok.mp enqueued
    obtain ⟨record, number, found⟩ := found_of_getStatus read
    cases aborts with
    | absent | committed | expired => cases erased
    | erased =>
      have gone : (server.log.erase (getTsn header))[(0 : Int)]? = some record := found.inLog
      rw [same, Std.ExtTreeMap.getElem?_erase_self] at gone
      cases gone
  | commits method commits =>
    apply settle (Or.inr (Or.inl method))
    intro same
    have unchanged : (ofOutcome server auth _ : Command π).server.log = server.log := Commits.of_low commits (low same (Or.inl method))
    rwa [unchanged]
  | added method adds _ enqueued =>
    apply settle (Or.inr (Or.inr (Or.inl method)))
    intro same
    rw [enqueue_log enqueued, Adds.of_low adds (low same (Or.inr method))]
    exact primary
  | completed method adds _ _ enqueued =>
    apply settle (Or.inr (Or.inr (Or.inl method)))
    intro same
    rw [enqueue_log enqueued, Adds.of_low adds (low same (Or.inr method))]
    exact primary
  | notAdded method adds =>
    apply settle (Or.inr (Or.inr (Or.inl method)))
    intro same
    have unchanged : (ofOutcome server auth _ : Command π).server.log = server.log := Adds.of_low adds (low same (Or.inr method))
    rwa [unchanged]
  | made method makes =>
    apply settle (Or.inr (Or.inr (Or.inr method)))
    intro same
    rw [same, makeTxn, own.contains] at makes
    cases makes
    exact primary
  | created _ creates _ enqueued =>
    rw [enqueue_log enqueued]
    rcases newTxn_cases creates with ⟨rfl, _⟩ | ⟨_, chosen, _, rfl, _⟩
    · exact primary
    · have positive := drawn _ chosen
      exact primary.of_get (Store.get_insert_other (by omega))
  | pinged _ _ registers => exact primary.of_get (register_frame (by decide) registers)
  | demoted method => exact absurd (Or.inl method) stays

/-- After the command the session keeps the role, and the queue if it is none. -/
theorem Follows.keeps {out : Command π} {handled : Handled π} (executes : Executes server env auth header data out)
    (follows : Follows answer fuel env.io header out handled) :
    (IsPrimary out.server.log → IsPrimary handled.server.log) ∧
      (NotPrimary handled.server.log → handled.server.manager.syncQueue = out.server.manager.syncQueue) := by
  cases follows with
  | returned | asks | answers => exact ⟨id, fun _ => rfl⟩
  | @concludes done refused code concludes =>
    have still (primary : IsPrimary out.server.log) : IsPrimary done.server.log := by
      have differs : getTsn header ≠ 0 := fun own => Executes.own_commit executes refused code own primary
      exact primary.of_get (concludes.frame (Ne.symm differs) (by decide))
    refine ⟨still, fun backup => ?_⟩
    cases concludes with
    | acknowledged => rfl
    | refused primary | exits primary | finishes primary => exact absurd (still primary) backup

/-- A packet leaves a server that is not the primary with the queue it had, and
only a demoted primary was another server before. -/
theorem receive_queue {handled : Handled π} (drawn : ∀ draw ∈ env.draws, 1 ≤ draw)
    (ran : receive answer fuel env server auth header payload = .ok handled) (backup : NotPrimary handled.server.log) :
    handled.server.manager.syncQueue = server.manager.syncQueue ∧ (IsPrimary server.log → Demotes header payload) := by
  rcases receive_cases ran with ⟨same, _⟩ | ⟨executed, out, executes, follows⟩
  · rw [same] at backup ⊢
    exact ⟨rfl, fun primary => absurd primary backup⟩
  · obtain ⟨role, queue⟩ := Follows.keeps executes follows
    have lost : NotPrimary out.server.log := fun primary => backup (role primary)
    refine ⟨(queue backup).trans (Executes.queue executes lost), ?_⟩
    intro primary
    by_contra stays
    have attached : parse header = 5 → payload ≠ none := fun method => executed.complete (by simp [needsData, method])
    exact lost (Executes.keeps_role executes primary attached drawn stays)

end

section
variable {tick : Tick} {server next : Server π}

/-- The tick of a backup leaves the queue as it was. -/
theorem backupOps_queue (backup : NotPrimary server.log) (ran : backupOps answer fuel tick server = .ok (some next)) :
    next.manager.syncQueue = server.manager.syncQueue := by
  cases backupOps_steps ran with
  | @checks link _ _ _ _ check =>
    have syncing : NotPrimary ({ server with link, manager := { server.manager with backupDidSync := true } } : Server π).log := backup
    have quiet := integrityCheck_quiet syncing check
    exact quiet.queue
  | pings => rfl
  | searches _ searches =>
    have found := (searchPrimary_writes searches).2.1
    exact found

/-- A server that is not the primary has nothing in its queue. -/
def Idle (server : Server π) : Prop := NotPrimary server.log → server.manager.syncQueue = []

theorem step_idle {event : System.Event} (idle : Idle server) (leaves : LeavesNothing server event)
    (stepped : System.step answer fuel server event = .ok next) : Idle next := by
  intro backup
  have of_same (queue : next.manager.syncQueue = server.manager.syncQueue) (role : ¬ IsPrimary server.log) : next.manager.syncQueue = [] :=
    queue.trans (idle role)
  cases step_cases stepped with
  | packet valid drawn received =>
    obtain ⟨queue, demoted⟩ := receive_queue (fun draw member => (drawn draw member).1) received backup
    by_cases primary : IsPrimary server.log
    · exact queue.trans (leaves primary (demoted primary))
    · exact of_same queue primary
  | sweep swept =>
    apply of_same rfl
    intro primary
    exact backup (timeouts_preserves (fun _ _ _ _ holds sweeps => Sweeps.primary sweeps holds) primary swept)
  | save => exact idle backup
  | tick checked =>
    rcases check_cases checked with ⟨was, ops⟩ | ⟨was, ops⟩
    · exact absurd (was.of_get (((manager_keeps answer fuel).1 _ _ ops).other (by decide))) backup
    · exact of_same (backupOps_queue was ops) was

theorem LoopCalls.quiet {holder : List Text} {called : Server π} {header : Text} (backup : NotPrimary server.log)
    (calls : LoopCalls answer fuel holder server called header) : Quiet server called := by
  induction calls with
  | first => exact .refl _
  | later returned _ ih =>
    have here := commit_quiet backup returned
    exact here.trans (ih (here.log ▸ backup))

/-- The calls of `commit` on a server that is not the primary see its queue. -/
theorem Calls.quiet {called : Server π} {header : Text} (backup : NotPrimary server.log) (calls : Calls answer fuel server called header) :
    Quiet server called := by
  cases calls with
  | direct => exact .refl _
  | checked opens _ calls =>
    have opened := openCheck_quiet opens
    have first : Quiet server _ := ⟨opened.log, opened.queue⟩
    exact first.trans (LoopCalls.quiet (first.log ▸ backup) calls)

end

/-- In every run whose primaries are demoted with an empty queue, each call of
`commit` in the backup role returns after one exchange at most. -/
theorem backup_commit_returns {self : Identity} {primary : Bool} {loaded : Log} {peer : π} {wires : List Wire} {connects : List Bool}
    {events : List System.Event} {server called : Server π} {role header : Text}
    (along : Along (System.step answer fuel) LeavesNothing (System.start self primary loaded peer wires connects) events)
    (ran : events.foldlM (System.step answer fuel) (System.start self primary loaded peer wires connects) = .ok server)
    (read : getServerStatus server.log = .ok role) (backup : role ≠ "primary") (calls : Calls answer fuel server called header)
    (answered : ∃ result link, Client.sendReceive answer called.link header " " = .ok (result, link)) :
    ∃ done final, ReplicationManager.commit answer 1 called header = .ok (done, final) := by
  have start : Idle (System.start self primary loaded peer wires connects) := fun _ => rfl
  have idle := run_preserves Idle (fun _ _ _ idle leaves stepped => step_idle idle leaves stepped) along start ran
  have notPrimary : NotPrimary server.log := fun primary => backup (Except.ok.inj (read.symm.trans primary))
  have quiet := Calls.quiet notPrimary calls
  exact commit_returns_of_empty (quiet.log ▸ read) backup (quiet.queue.trans (idle notPrimary)) answered

/-- A primary and its backup, both without transactions. -/
def pair : Server Backup :=
  System.start ⟨"ip", "80", "dir"⟩ true ∅ { log := serverData ∅ "ip" "81" "backup" "dir", link := { peer := () } } [] []

def pingBackup : System.Event := .packet {} true "PING -1 0 6" (some "ip|81") (Eq.refl true) System.nothing_drawn

def kill : System.Event := .packet {} true "KILL -1 0 0" none (Eq.refl true) System.nothing_drawn

abbrev overNetwork : Answer Backup := Backup.answer Backup.echoed

theorem openCheck_connects {server : Server π} {role : Text} (read : getServerStatus server.log = .ok role) (backup : role ≠ "primary")
    (reachable : server.link.connects = []) :
    openCheck server = .ok (setAlive { server with link := { server.link with connected := true } } true) := by
  unfold openCheck
  rw [read, ok_bind, if_pos backup]
  simp only [Client.connectSocket, reachable, if_true, pure_eq_ok]

/-- The server with its connection open, as `integrityCheck` then sees it. -/
def opened (server : Server Backup) : Server Backup :=
  setAlive { server with link := { server.link with connected := true } } true

/-- The check of a server that is not the primary calls `commit` for transaction 5. -/
theorem checks_five {server : Server Backup} {role : Text} (read : getServerStatus server.log = .ok role) (backup : role ≠ "primary")
    (reachable : server.link.connects = []) (commits : getCommits server.log = .ok ["COMMIT 5 1 0"]) :
    Calls overNetwork 5 server (opened server) "COMMIT 5 1 0" := by
  have opens := @openCheck_connects Backup { server with manager := { server.manager with backupDidSync := server.manager.backupDidSync } }
    role read backup reachable
  exact .checked opens commits .first

/-- What a run has left when it ends in the backup role. -/
def left (server : Server Backup) : Exec Text × List Bool × Exec (List Text) × Bool :=
  (getServerStatus server.log, server.link.connects, getCommits server.log,
    (Client.sendReceive overNetwork (opened server).link "COMMIT 5 1 0" " ").isOk)

/-- The queue is sent before the KILL: the commit afterwards returns. -/
theorem commit_after_synchronised_kill_returns : ∃ server done final,
    [createFive, writeFive, commitFive, pingBackup, .tick {}, kill].foldlM (System.step overNetwork 5) pair = .ok server ∧
      Calls overNetwork 5 server (opened server) "COMMIT 5 1 0" ∧
      ReplicationManager.commit overNetwork 1 (opened server) "COMMIT 5 1 0" = .ok (done, final) := by
  obtain ⟨server, ran⟩ : ∃ server,
      [createFive, writeFive, commitFive, pingBackup, .tick {}, kill].foldlM (System.step overNetwork 5) pair = .ok server :=
    returned_of_isOk (by decide +kernel)
  have seen : ([createFive, writeFive, commitFive, pingBackup, .tick {}, kill].foldlM (System.step overNetwork 5) pair).map left =
      .ok (.ok "backup", [], .ok ["COMMIT 5 1 0"], true) := by decide +kernel
  have before : ([createFive, writeFive, commitFive, pingBackup, .tick {}].foldlM (System.step overNetwork 5) pair).map
      (fun server => server.manager.syncQueue) = .ok [] := by decide +kernel
  rw [ran] at seen
  obtain ⟨read, reachable, commits, answered⟩ : getServerStatus server.log = .ok "backup" ∧ server.link.connects = [] ∧
      getCommits server.log = .ok ["COMMIT 5 1 0"] ∧
      (Client.sendReceive overNetwork (opened server).link "COMMIT 5 1 0" " ").isOk = true := by
    simpa only [left, Except.map, Except.ok.injEq, Prod.mk.injEq] using seen
  have calls := checks_five read (by decide) reachable commits
  have along : Along (System.step overNetwork 5) LeavesNothing pair [createFive, writeFive, commitFive, pingBackup, .tick {}, kill] := by
    have stays {server : Server Backup} {header : Text} {payload : Option Text} (stays : ¬ Demotes header payload) :
        IsPrimary server.log → Demotes header payload → server.manager.syncQueue = [] := fun _ demotes => absurd demotes stays
    refine ⟨stays (by unfold Demotes; decide), fun one first => ⟨stays (by unfold Demotes; decide), fun two second =>
      ⟨stays (by unfold Demotes; decide), fun three third => ⟨stays (by unfold Demotes; decide), fun four fourth =>
        ⟨trivial, fun five fifth => ⟨?_, fun _ _ => trivial⟩⟩⟩⟩⟩⟩
    intro _ _
    rw [List.foldlM_cons, first, ok_bind, List.foldlM_cons, second, ok_bind, List.foldlM_cons, third, ok_bind, List.foldlM_cons, fourth,
      ok_bind, List.foldlM_cons, fifth, ok_bind, List.foldlM_nil] at before
    exact Except.ok.inj before
  obtain ⟨⟨result, link⟩, sent⟩ := returned_of_isOk answered
  obtain ⟨done, final, returned⟩ := backup_commit_returns along ran read (by decide) calls ⟨result, link, sent⟩
  exact ⟨server, done, final, ran, calls, returned⟩

/-- The KILL leaves a queue behind: the commit that the next tick makes is
answered by nothing but itself. -/
theorem commit_after_kill_never_returns : ∃ server,
    [createFive, writeFive, commitFive, kill].foldlM (System.step overNetwork 5) pair = .ok server ∧
      getServerStatus server.log = .ok "backup" ∧ Calls overNetwork 5 server (opened server) "COMMIT 5 1 0" ∧
      (Client.sendReceive overNetwork (opened server).link "COMMIT 5 1 0" " ").isOk = true ∧
      ∀ fuel, ReplicationManager.commit overNetwork fuel (opened server) "COMMIT 5 1 0" = .error .running := by
  obtain ⟨server, ran⟩ : ∃ server, [createFive, writeFive, commitFive, kill].foldlM (System.step overNetwork 5) pair = .ok server :=
    returned_of_isOk (by decide +kernel)
  have seen : ([createFive, writeFive, commitFive, kill].foldlM (System.step overNetwork 5) pair).map left =
      .ok (.ok "backup", [], .ok ["COMMIT 5 1 0"], true) := by decide +kernel
  have pending : ([createFive, writeFive, commitFive, kill].foldlM (System.step overNetwork 5) pair).map
      (fun server => server.manager.syncQueue.length) = .ok 3 := by decide +kernel
  rw [ran] at seen pending
  obtain ⟨read, reachable, commits, answered⟩ : getServerStatus server.log = .ok "backup" ∧ server.link.connects = [] ∧
      getCommits server.log = .ok ["COMMIT 5 1 0"] ∧
      (Client.sendReceive overNetwork (opened server).link "COMMIT 5 1 0" " ").isOk = true := by
    simpa only [left, Except.map, Except.ok.injEq, Prod.mk.injEq] using seen
  have length : server.manager.syncQueue.length = 3 := Except.ok.inj pending
  have nonempty : (opened server).manager.syncQueue ≠ [] := by
    intro empty
    have none : server.manager.syncQueue = [] := empty
    rw [none] at length
    cases length
  have still : getServerStatus (opened server).log = .ok "backup" := read
  exact ⟨server, ran, read, checks_five read (by decide) reachable commits, answered,
    commit_never_returns still (by decide) rfl nonempty "COMMIT 5 1 0"⟩

end TransactionalServer.Proofs.BackupProgress
