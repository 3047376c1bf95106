import TransactionalServer.Process
import TransactionalServer.Proofs.Delivery
import TransactionalServer.Proofs.SessionSteps

/-! A packet of the replication queue that reaches the backup twice leaves it as
one that reaches it once. -/

namespace TransactionalServer.Proofs.Redelivery
open ServerTools LogHandler Exec Session

/-- Nothing outside changes when these effects come after those. -/
def Absorbed (once twice : List Effect) : Prop :=
  ∀ disk : Disk, twice.foldl Disk.apply (once.foldl Disk.apply disk) = once.foldl Disk.apply disk

theorem absorbed_nothing (once : List Effect) : Absorbed once [] := fun _ => rfl

section
variable {log : Log} {header data : Text} {io : Bool} {out : Outcome} {record : Record} {status number : Text}

/-- An operation that is repeated finds its own result. -/
structure Repeats (run : Exec Outcome) (out : Outcome) : Prop where
  settled : ∃ again, run = .ok again ∧ again.log = out.log ∧ Absorbed out.effects again.effects

theorem Repeats.same {run : Exec Outcome} (ran : run = .ok out) (nothing : out.effects = []) : Repeats run out :=
  ⟨⟨out, ran, rfl, nothing ▸ absorbed_nothing out.effects⟩⟩

/-- A COMMIT finds the transaction committed, or waiting for the same number. -/
theorem Commits.repeats (commits : Commits log header io out) (backup : NotPrimary log) (answerable : Answerable header) (positive : 1 ≤ getTsn header) :
    Repeats (LogHandler.commit out.log header io) out := by
  have range := getSeq_isInt header
  have open_ (record : Record) : Open "WAITING" (iToS (getSeq header)) (getSeq header) :=
    ⟨by decide, by decide, fun _ => atoi_iToS range⟩
  cases commits with
  | absent absent text => exact .same (commit_of_case (.absent absent text)) rfl
  | already found same text => exact .same (commit_of_case (.already found same text)) rfl
  | expired found text => exact .same (commit_of_case (.expired found text)) rfl
  | otherNumber found pending differs text => exact .same (commit_of_case (.otherNumber found pending differs text)) rfl
  | nothing found allowed low text => exact .same (commit_of_case (.nothing found allowed low text)) rfl
  | @incomplete record status number found allowed high gaps waiting marked =>
    subst marked
    have still : missing (record.insert (-1) ("WAITING", iToS (getSeq header))) (getSeq header) ≠ [] := by
      rw [missing_insert_present found.entry]
      exact gaps
    refine ⟨_, commit_of_case (.incomplete (mark_found _ _ _ _ _) (open_ record) high still (mark_mark _ _ _ _ _ _ _).symm), rfl, ?_⟩
    intro disk
    rfl
  | primary found allowed high complete marked role =>
    subst marked
    rw [getServerStatus_of_get (mark_other (by omega))] at role
    exact absurd role backup
  | written found allowed high complete marked serverRole role appended finished =>
    subst finished
    obtain ⟨code, text⟩ := answerable_genAnswerStr answerable "ACK" "0" "Already committed"
    exact ⟨_, commit_of_case (.already (mark_found _ _ _ _ _) (atoi_iToS range) text), rfl, absorbed_nothing _⟩
  | @failed record _ _ _ _ found allowed high complete writing final marked serverRole role refused text finished =>
    subst finished
    have still : missing (record.insert (-1) ("WAITING", iToS (getSeq header))) (getSeq header) = [] := by
      rw [missing_insert_present found.entry, complete]
    refine ⟨_, commit_of_case (.failed (mark_found _ _ _ _ _) (open_ record) high still (marked.trans (mark_mark _ _ _ _ _ _ _).symm) serverRole
      role refused text (mark_mark _ _ _ _ _ _ _).symm), rfl, ?_⟩
    intro disk
    rfl

/-- After a commit the transaction has a status and the entries it had. -/
theorem Commits.found_after (commits : Commits log header io out) (found : Found log (getTsn header) record status number) :
    ∃ changed next digits, Found out.log (getTsn header) changed next digits ∧ ∀ seq : Int, 1 ≤ seq → changed[seq]? = record[seq]? := by
  have marks {open_ : Record} {before digits : Text} (opened : Found log (getTsn header) open_ before digits) (status number : Text) :
      ∃ changed next digits, Found (mark log (getTsn header) open_ status number) (getTsn header) changed next digits ∧
        ∀ seq : Int, 1 ≤ seq → changed[seq]? = record[seq]? := by
    obtain rfl := (found_unique opened found).1
    refine ⟨_, _, _, mark_found _ _ _ status number, ?_⟩
    intro seq high
    exact Store.get_insert_other (by omega)
  cases commits with
  | absent | already | expired | otherNumber | nothing => exact ⟨record, status, number, found, fun _ _ => rfl⟩
  | incomplete opened _ _ _ marked | primary opened _ _ _ marked =>
    subst marked
    exact marks opened _ _
  | written opened _ _ _ _ _ _ _ finished | failed opened _ _ _ _ _ _ _ _ finished =>
    subst finished
    exact marks opened _ _

/-- A WRITE whose entry is recorded only answers. -/
theorem recorded_answers {entry : LogPair} (answerable : Answerable header) (high : 1 ≤ getSeq header)
    (found : Found log (getTsn header) record status number) (recorded : record[getSeq header]? = some entry) :
    ∃ code, addLogEntry log header data io = .ok (.reply log code) := by
  have texts := answerable_genAnswerStr answerable
  by_cases committed : status = "COMMITTED"
  · obtain ⟨code, text⟩ := texts "ERROR" "202" "Transaction was previously committed"
    exact ⟨code, addLogEntry_of_case (.committed high (committed ▸ found) text)⟩
  by_cases expired : status = "EXPIRED"
  · obtain ⟨code, text⟩ := texts "ERROR" "220" "Transaction expired, please start a new one."
    exact ⟨code, addLogEntry_of_case (.expired high (expired ▸ found) text)⟩
  · obtain ⟨code, text⟩ := texts "WARNING" "301" "SeqNum for current tsnID already received, ignored"
    exact ⟨code, addLogEntry_of_case (.duplicate high found committed expired recorded text)⟩

theorem Adds.repeats (adds : Adds log header data io out) (answerable : Answerable header) :
    Repeats (addLogEntry out.log header data io) out := by
  have answers {entry : LogPair} {record : Record} {status number : Text} (high : 1 ≤ getSeq header)
      (found : Found out.log (getTsn header) record status number) (recorded : record[getSeq header]? = some entry) :
      Repeats (addLogEntry out.log header data io) out := by
    obtain ⟨code, ran⟩ := @recorded_answers out.log header data io record status number entry answerable high found recorded
    exact ⟨_, ran, rfl, absorbed_nothing _⟩
  cases adds with
  | low low text => exact .same (addLogEntry_of_case (.low low text)) rfl
  | absent high absent text => exact .same (addLogEntry_of_case (.absent high absent text)) rfl
  | committed high found text => exact .same (addLogEntry_of_case (.committed high found text)) rfl
  | expired high found text => exact .same (addLogEntry_of_case (.expired high found text)) rfl
  | duplicate high found committed expired present text =>
    exact .same (addLogEntry_of_case (.duplicate high found committed expired present text)) rfl
  | above high found fresh above text => exact .same (addLogEntry_of_case (.above high found fresh above text)) rfl
  | kept high found _ _ grows =>
    subst grows
    exact answers high (found.grow high _) Std.ExtTreeMap.getElem?_insert_self
  | completes high found _ _ grows _ commits =>
    subst grows
    have sameTsn := pendingCommit_getTsn (getTsn_isInt header)
    obtain ⟨changed, next, digits, after, entries⟩ := Commits.found_after commits (by rw [sameTsn]; exact found.grow high (header, data))
    rw [sameTsn] at after
    exact answers high after ((entries _ high).trans Std.ExtTreeMap.getElem?_insert_self)
  | @added record grown status number high found _ _ _ _ grows =>
    subst grows
    have recorded : ((record.insert (getSeq header) (header, data)).insert (-1) ("ACTIVE", number))[getSeq header]? = some (header, data) := by
      rw [Store.get_insert_other (by omega)]
      exact Std.ExtTreeMap.getElem?_insert_self
    exact answers high (mark_found _ _ _ _ _) recorded

theorem Aborts.repeats (aborts : Aborts log header out) (answerable : Answerable header) : Repeats (abort out.log header) out := by
  cases aborts with
  | absent absent text => exact .same (abort_of_case (.absent absent text)) rfl
  | committed found text => exact .same (abort_of_case (.committed found text)) rfl
  | expired found text => exact .same (abort_of_case (.expired found text)) rfl
  | erased =>
    obtain ⟨code, text⟩ := answerable_genAnswerStr answerable "ERROR" "201" "Transaction ID not found"
    exact ⟨_, abort_of_case (.absent Std.ExtTreeMap.getElem?_erase_self text), rfl, absorbed_nothing _⟩

end

theorem makeTxn_repeats {log after : Log} {data : Text} {tsn : Int} {effects : List Effect} {fresh : Bool}
    (makes : makeTxn log data tsn = (after, effects, fresh)) : makeTxn after data tsn = (after, [], false) := by
  have inside : after.contains tsn = true := by
    rcases makeTxn_cases makes with ⟨_, rfl, _⟩ | ⟨present, rfl, _⟩
    · exact Store.contains_of_get Std.ExtTreeMap.getElem?_insert_self
    · exact present
  simp only [makeTxn, inside, Bool.not_true, Bool.false_eq_true, if_false]

/-- What one packet of the replication queue does to the log and outside it. -/
inductive Operates (log : Log) (io : Bool) (header : Text) : Option Text → Log → List Effect → Prop where
  | ignored (needed : needsData header = true) : Operates log io header none log []
  | made {data : Text} {after : Log} {effects : List Effect} {fresh : Bool} (method : parse header = 6)
      (makes : makeTxn log data (getTsn header) = (after, effects, fresh)) : Operates log io header (some data) after effects
  | added {data : Text} {out : Outcome} (method : parse header = 5) (adds : Adds log header data io out) :
      Operates log io header (some data) out.log out.effects
  | committed {payload : Option Text} {out : Outcome} (method : parse header = 3) (commits : Commits log header io out) :
      Operates log io header payload out.log out.effects
  | aborted {payload : Option Text} {out : Outcome} (method : parse header = 1) (aborts : Aborts log header out) :
      Operates log io header payload out.log out.effects

section
variable {log after : Log} {io : Bool} {header : Text} {payload : Option Text} {effects : List Effect}

theorem Operates.frame {other : Int} (operates : Operates log io header payload after effects) (differs : other ≠ getTsn header) :
    after[other]? = log[other]? := by
  cases operates with
  | ignored => rfl
  | @made data _ _ _ _ makes =>
    have same : (makeTxn log data (getTsn header)).1[other]? = log[other]? := makeTxn_frame differs
    rw [← same, makes]
  | added _ adds => exact adds.frame differs
  | committed _ commits => exact commits.frame differs
  | aborted _ aborts => exact aborts.frame differs

theorem Operates.formed {tsn : Int} (operates : Operates log io header payload after effects) (formed : Formed log tsn) : Formed after tsn := by
  cases operates with
  | ignored => exact formed
  | @made data _ _ _ _ makes =>
    have made := makeTxn_robust formed_robust formed data (getTsn header)
    rw [makes] at made
    exact made
  | added _ adds => exact adds.robust formed_robust formed
  | committed _ commits => exact commits.robust formed_robust formed
  | aborted _ aborts => exact aborts.robust formed

end

/-- The second time finds the log of the first and leaves it and the disk alone. -/
theorem Operates.twice {log after final : Log} {io : Bool} {header : Text} {payload : Option Text} {once twice : List Effect}
    (first : Operates log io header payload after once) (second : Operates after io header payload final twice)
    (backup : NotPrimary log) (answerable : Answerable header) (positive : 1 ≤ getTsn header) : final = after ∧ Absorbed once twice := by
  have again {run : Exec Outcome} {out next : Outcome} (repeats : Repeats run out) (ran : run = .ok next) :
      next.log = out.log ∧ Absorbed out.effects next.effects := by
    obtain ⟨settled, found, same, absorbed⟩ := repeats.settled
    obtain rfl := Except.ok.inj (found.symm.trans ran)
    exact ⟨same, absorbed⟩
  have other {one two : Nat} (first : parse header = one) (second : parse header = two) (differs : one ≠ two) : False :=
    differs (first.symm.trans second)
  cases first with
  | ignored needed =>
    cases second with
    | ignored => exact ⟨rfl, absorbed_nothing _⟩
    | committed method =>
      rw [needsData, method] at needed
      cases needed
    | aborted method =>
      rw [needsData, method] at needed
      cases needed
  | made method makes =>
    cases second with
    | made _ remakes =>
      rw [makeTxn_repeats makes] at remakes
      cases remakes
      exact ⟨rfl, absorbed_nothing _⟩
    | added same | committed same | aborted same => exact (other method same (by decide)).elim
  | added method adds =>
    cases second with
    | added _ readds => exact again (Adds.repeats adds answerable) (addLogEntry_of_case readds)
    | made same | committed same | aborted same => exact (other method same (by decide)).elim
  | committed method commits =>
    cases second with
    | committed _ recommits => exact again (Commits.repeats commits backup answerable positive) (commit_of_case recommits)
    | made same | added same | aborted same => exact (other method same (by decide)).elim
    | ignored needed =>
      rw [needsData, method] at needed
      cases needed
  | aborted method aborts =>
    cases second with
    | aborted _ reaborts => exact again (Aborts.repeats aborts answerable) (abort_of_case reaborts)
    | made same | added same | committed same => exact (other method same (by decide)).elim
    | ignored needed =>
      rw [needsData, method] at needed
      cases needed

theorem apply_sends {sends : List Effect} (only : ∀ effect ∈ sends, ∃ packet, effect = .send packet) (disk : Disk) :
    sends.foldl Disk.apply disk = disk := by
  induction sends with
  | nil => rfl
  | cons effect sends ih =>
    obtain ⟨packet, rfl⟩ := only effect List.mem_cons_self
    exact ih (fun other member => only other (List.mem_cons_of_mem _ member))

/-- These effects are those of an operation, and answers. -/
def Answers (operation effects : List Effect) : Prop :=
  ∃ sends, effects = operation ++ sends ∧ ∀ effect ∈ sends, ∃ packet, effect = .send packet

theorem Answers.apply {operation effects : List Effect} (answers : Answers operation effects) (disk : Disk) :
    effects.foldl Disk.apply disk = operation.foldl Disk.apply disk := by
  obtain ⟨sends, rfl, only⟩ := answers
  rw [List.foldl_append, apply_sends only]

theorem Answers.send {operation effects : List Effect} (answers : Answers operation effects) {sends : List Effect}
    (only : ∀ effect ∈ sends, ∃ packet, effect = .send packet) : Answers operation (effects ++ sends) := by
  obtain ⟨earlier, rfl, before⟩ := answers
  refine ⟨earlier ++ sends, List.append_assoc _ _ _, ?_⟩
  intro effect member
  rcases List.mem_append.mp member with early | late
  · exact before effect early
  · exact only effect late

theorem one_send (packet : Text) : ∀ effect ∈ [Effect.send packet], ∃ packet, effect = .send packet :=
  fun _ member => ⟨packet, List.mem_singleton.mp member⟩

section
variable {π : Type} {answer : Answer π} {fuel : Nat} {server : Server π} {env : Env} {header data : Text} {payload : Option Text}
  {handled : Handled π}

theorem executes_operates {out : Command π} (backup : NotPrimary server.log) (replicated : Replicated header)
    (given : needsData header = true → payload = some data) (executes : Executes server env true header data out) :
    ∃ log effects, Operates server.log env.io header payload log effects ∧ out.server = { server with log } ∧ out.auth = true ∧ Answers effects out.effects := by
  have exactly (effects : List Effect) : Answers effects effects := ⟨[], (List.append_nil effects).symm, fun _ absurd => by cases absurd⟩
  cases executes with
  | refused cause =>
    rcases cause with refused | other
    · rw [authorized_command] at refused
      cases refused
    · exact absurd replicated other
  | read method | created method | pinged method | authenticated method | demoted method =>
    exact absurd method (not_replicated replicated (by decide))
  | notAborted method aborts => exact ⟨_, _, .aborted method aborts, rfl, rfl, exactly _⟩
  | @aborted outcome queued ack method aborts erased enqueued =>
    refine ⟨_, _, .aborted method aborts, enqueue_backup (aborts.notPrimary backup) enqueued, rfl, ?_⟩
    rw [aborts.effects]
    exact (exactly []).send (one_send ack)
  | commits method commits => exact ⟨_, _, .committed method commits, rfl, rfl, exactly _⟩
  | @added outcome queued ack method adds kept enqueued =>
    rw [given (by simp [needsData, method])]
    exact ⟨_, _, .added method adds, enqueue_backup (adds.notPrimary backup) enqueued, rfl, (exactly _).send (one_send ack)⟩
  | @completed outcome queued method adds refused code enqueued =>
    rw [given (by simp [needsData, method])]
    exact ⟨_, _, .added method adds, enqueue_backup (adds.notPrimary backup) enqueued, rfl, exactly _⟩
  | notAdded method adds =>
    rw [given (by simp [needsData, method])]
    exact ⟨_, _, .added method adds, rfl, rfl, exactly _⟩
  | @made log effects fresh ack method makes =>
    rw [given (by simp [needsData, method])]
    exact ⟨_, _, .made method makes, rfl, rfl, (exactly effects).send (one_send ack)⟩

/-- On a backup a queued packet is one operation and its answers. -/
theorem receive_operates (backup : NotPrimary server.log) (replicated : Replicated header)
    (ran : receive answer fuel env server true header payload = .ok handled) :
    ∃ log effects, Operates server.log env.io header payload log effects ∧ handled.server = { server with log } ∧
      Answers effects handled.effects ∧ handled.auth = true ∧ handled.exited = false := by
  have dispatched {data : Text} (given : needsData header = true → payload = some data)
      (ran : dispatch answer fuel env server true header data = .ok handled) :
      ∃ log effects, Operates server.log env.io header payload log effects ∧ handled.server = { server with log } ∧
        Answers effects handled.effects ∧ handled.auth = true ∧ handled.exited = false := by
    obtain ⟨out, executed, follows⟩ := dispatch_cases ran
    have executes := executeCommand_cases executed
    obtain ⟨log, effects, operates, same, auth, answers⟩ := executes_operates backup replicated given executes
    have still : NotPrimary out.server.log := executes.notPrimary backup
    cases follows with
    | returned => exact ⟨log, effects, operates, same, answers, auth, rfl⟩
    | asks _ _ missing => exact ⟨log, effects, operates, same, answers.send (sendAckResend_effects missing), auth, rfl⟩
    | answers => exact ⟨log, effects, operates, same, answers.send (one_send _), auth, rfl⟩
    | concludes _ _ concludes =>
      cases concludes with
      | acknowledged => exact ⟨log, effects, operates, same, answers.send (one_send _), auth, rfl⟩
      | refused primary | exits primary | finishes primary => exact absurd primary still
  unfold receive at ran
  cases payload with
  | some data => exact dispatched (fun _ => rfl) ran
  | none =>
    simp only at ran
    split at ran
    next needed =>
      obtain ⟨text, _, same⟩ := bind_eq_ok.mp ran
      cases same
      exact ⟨server.log, [], .ignored needed, rfl, ⟨_, rfl, one_send text⟩, rfl, rfl⟩
    next unneeded => exact dispatched (fun needed => absurd needed unneeded) ran

end

/-- Every record of the server and of a transaction has its status and file entries. -/
def WellFormed (log : Log) : Prop := (0 : Int) ∈ log ∧ ∀ (tsn : Int) (record : Record), 0 ≤ tsn → log[tsn]? = some record → (-1 : Int) ∈ record ∧ (0 : Int) ∈ record

/-- On any backup and any disk, a packet of the replication queue that is handled
twice in a row leaves the log and the disk as after the first time. -/
theorem redelivery_is_idempotent {π : Type} {answer : Answer π} {fuel : Nat} {server : Server π} {env : Env} {header : Text}
    (wellFormed : WellFormed server.log) (backup : getServerStatus server.log ≠ .ok "primary") (valid : validHeader header = true)
    (method : parse header = 1 ∨ parse header = 3 ∨ parse header = 5 ∨ parse header = 6) (positive : 1 ≤ getTsn header)
    (payload : Option Text) (disk : Disk) :
    ∃ first second, receive answer fuel env server true header payload = .ok first ∧ first.exited = false ∧
      receive answer fuel env first.server first.auth header payload = .ok second ∧ second.exited = false ∧
      second.server.log = first.server.log ∧
      second.effects.foldl Disk.apply (first.effects.foldl Disk.apply disk) = first.effects.foldl Disk.apply disk := by
  have answerable := answerable_of_valid valid
  have formed (tsn : Int) (low : 0 ≤ tsn) : Formed server.log tsn := by
    intro record inLog
    obtain ⟨status, file⟩ := wellFormed.2 tsn record low inLog
    obtain ⟨statusEntry, status⟩ := Store.mem_iff_get.mp status
    obtain ⟨fileEntry, file⟩ := Store.mem_iff_get.mp file
    exact ⟨⟨_, _, status⟩, ⟨_, _, file⟩⟩
  obtain ⟨server0, inLog0⟩ := Store.mem_iff_get.mp wellFormed.1
  obtain ⟨role, _, found⟩ := (formed 0 (by decide)).found inLog0
  have role : ∃ role, getServerStatus server.log = .ok role := ⟨role, found.getStatus⟩
  have notZero : getTsn header ≠ 0 := by omega
  have replicated : Replicated header := method
  obtain ⟨first, received⟩ := @receive_returns π answer fuel server env true header backup role (formed _ (by omega)) answerable notZero replicated payload
  obtain ⟨log, once, operates, same, answers, auth, runs⟩ := receive_operates backup replicated received
  have still : NotPrimary first.server.log := receive_notPrimary backup received
  have again : ∃ second, receive answer fuel env first.server true header payload = .ok second := by
    obtain ⟨role, read⟩ := role
    have stillRole : getServerStatus first.server.log = .ok role := by
      rw [same, getServerStatus_of_get (operates.frame (Ne.symm notZero)), read]
    have stillFormed : Formed first.server.log (getTsn header) := by
      rw [same]
      exact operates.formed (formed _ (by omega))
    exact receive_returns still ⟨role, stillRole⟩ stillFormed answerable notZero replicated payload
  obtain ⟨second, received'⟩ := again
  obtain ⟨final, twice, reoperates, same', answers', auth', runs'⟩ := receive_operates still replicated received'
  rw [same] at reoperates same'
  obtain ⟨settled, absorbed⟩ := operates.twice reoperates backup answerable positive
  refine ⟨first, second, received, runs, auth.symm ▸ received', runs', ?_, ?_⟩
  · rw [same', same, settled]
  · rw [answers.apply, answers'.apply]
    exact absorbed disk

/-- A backup whose transaction 5 waits for its first line. -/
def waitingFive : Server Unit :=
  { log := (serverData ∅ "ip" "80" "backup" "dir").insert 5 (twoEntries ("WAITING", "1") ("NEW_TXN", "aa")),
    link := { peer := (), wires := [], connects := [] } }

theorem waitingFive_wellFormed : WellFormed waitingFive.log := by
  have entries (status file : LogPair) : (-1 : Int) ∈ twoEntries status file ∧ (0 : Int) ∈ twoEntries status file :=
    ⟨Store.mem_iff_get.mpr ⟨_, twoEntries_status status file⟩, Store.mem_iff_get.mpr ⟨_, twoEntries_file status file⟩⟩
  have log : waitingFive.log = ((∅ : Log).erase 0 |>.insert 0 (twoEntries ("backup", "dir") ("ip", "80"))).insert 5
      (twoEntries ("WAITING", "1") ("NEW_TXN", "aa")) := rfl
  rw [WellFormed, log]
  constructor
  · refine Store.mem_iff_get.mpr ⟨_, (Store.get_insert_other (by decide)).trans Std.ExtTreeMap.getElem?_insert_self⟩
  · intro tsn record _ inLog
    by_cases five : tsn = 5
    · rw [five, Std.ExtTreeMap.getElem?_insert_self, Option.some.injEq] at inLog
      exact inLog ▸ entries _ _
    by_cases zero : tsn = 0
    · rw [zero, Store.get_insert_other (by decide), Std.ExtTreeMap.getElem?_insert_self, Option.some.injEq] at inLog
      exact inLog ▸ entries _ _
    · rw [Store.get_insert_other five, Store.get_insert_other zero, Store.get_erase_other zero, Std.ExtTreeMap.getElem?_empty] at inLog
      cases inLog

/-- The WRITE that completes the commit comes twice, and is appended once. -/
theorem completing_write_is_appended_once : ∃ first second,
    receive Backup.noPeer 0 {} waitingFive true "WRITE 5 1 3" (some "xx") = .ok first ∧
      receive Backup.noPeer 0 {} first.server first.auth "WRITE 5 1 3" (some "xx") = .ok second ∧ second.server.log = first.server.log ∧
      (second.effects.foldl Disk.apply (first.effects.foldl Disk.apply { saved := ∅ })).appended = [⟨5, "aa", ["xx"]⟩] := by
  obtain ⟨first, second, received, _, again, _, same, absorbed⟩ := @redelivery_is_idempotent Unit Backup.noPeer 0 waitingFive {} "WRITE 5 1 3"
    waitingFive_wellFormed (by decide +kernel) (by decide) (by decide) (by decide) (some "xx") { saved := ∅ }
  have appended : (receive Backup.noPeer 0 {} waitingFive true "WRITE 5 1 3" (some "xx")).map
      (fun first => (first.effects.foldl Disk.apply { saved := ∅ }).appended) = .ok [⟨5, "aa", ["xx"]⟩] := by decide +kernel
  rw [received] at appended
  refine ⟨first, second, received, again, same, ?_⟩
  rw [absorbed]
  exact Except.ok.inj appended

end TransactionalServer.Proofs.Redelivery
