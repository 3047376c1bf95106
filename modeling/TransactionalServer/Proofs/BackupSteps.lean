import TransactionalServer.Backup
import TransactionalServer.Proofs.Totality

/-! What the backup does with one echoed packet, and what it answers. -/

namespace TransactionalServer.Proofs
open ServerTools LogHandler Exec Session

variable {π : Type} {answer : Answer π} {fuel : Nat}

/-- A server that is not the primary only answers. -/
theorem doCommit_backup {server : Server π} {io auth : Bool} {header : Text} {handled : Handled π}
    (backup : NotPrimary server.log) (ran : doCommit answer fuel io server auth header = .ok handled) :
    ∃ ack, genAnswerStr "ACK" header "0" "Committed successfully." = .ok ack ∧
      handled = { server, effects := [.send ack], auth } := by
  unfold doCommit at ran
  obtain ⟨ack, text, ran⟩ := bind_eq_ok.mp ran
  obtain ⟨role, read, ran⟩ := bind_eq_ok.mp ran
  have other : role ≠ "primary" := fun primary => backup (primary ▸ read)
  rw [if_neg other] at ran
  cases ran
  exact ⟨ack, text, rfl⟩

/-- A server that is not the primary acknowledges what it has committed. -/
theorem doCommit_acknowledges {server : Server π} (auth io : Bool) {header : Text} (notPrimary : NotPrimary server.log)
    (role : ∃ role, getServerStatus server.log = .ok role) (answerable : Answerable header) :
    ∃ ack, doCommit answer fuel io server auth header = .ok { server, effects := [.send ack], auth } := by
  obtain ⟨role, read⟩ := role
  obtain ⟨ack, text⟩ := answerable_genAnswerStr answerable "ACK" "0" "Committed successfully."
  have other : role ≠ "primary" := fun primary => notPrimary (primary ▸ read)
  refine ⟨ack, ?_⟩
  unfold doCommit
  rw [text, ok_bind, read, ok_bind, if_neg other]
  rfl

/-- The log changes while a command is executed and not afterwards. -/
theorem dispatch_backup {server : Server π} {env : Env} {auth : Bool} {header data : Text} {handled : Handled π}
    (backup : NotPrimary server.log) (ran : dispatch answer fuel env server auth header data = .ok handled) :
    ∃ out, Executes server env auth header data out ∧ handled.server = out.server := by
  unfold dispatch at ran
  obtain ⟨out, executed, ran⟩ := bind_eq_ok.mp ran
  have executes := executeCommand_cases executed
  refine ⟨out, executes, ?_⟩
  split at ran
  · cases ran
    rfl
  split at ran
  · obtain ⟨packets, _, same⟩ := bind_eq_ok.mp ran
    cases same
    rfl
  split at ran
  · obtain ⟨done, committed, same⟩ := bind_eq_ok.mp ran
    obtain ⟨_, _, rfl⟩ := doCommit_backup (executes.notPrimary backup) committed
    cases same
    rfl
  · cases ran
    rfl

/-- What one packet of the replication queue does to the backup's log. -/
inductive Handles (log : Log) (io : Bool) (header : Text) : Option Text → Log → Prop where
  | ignored (needed : needsData header = true) : Handles log io header none log
  | made {data : Text} (method : parse header = 6) : Handles log io header (some data) (makeTxn log data (getTsn header)).1
  | added {data : Text} {out : Outcome} (method : parse header = 5) (adds : Adds log header data io out) :
      Handles log io header (some data) out.log
  | committed {payload : Option Text} {out : Outcome} (method : parse header = 3) (commits : Commits log header io out) :
      Handles log io header payload out.log
  | aborted {payload : Option Text} {out : Outcome} (method : parse header = 1) (aborts : Aborts log header out) :
      Handles log io header payload out.log

theorem Handles.frame {log after : Log} {io : Bool} {header : Text} {payload : Option Text} {other : Int}
    (handles : Handles log io header payload after) (differs : other ≠ getTsn header) : after[other]? = log[other]? := by
  cases handles with
  | ignored => rfl
  | made => exact makeTxn_frame differs
  | added _ adds => exact adds.frame differs
  | committed _ commits => exact commits.frame differs
  | aborted _ aborts => exact aborts.frame differs

theorem Handles.whole {log after : Log} {io : Bool} {header : Text} {payload : Option Text} {tsn : Int}
    (handles : Handles log io header payload after) (whole : Whole log tsn) : Whole after tsn := by
  cases handles with
  | ignored => exact whole
  | made => exact makeTxn_whole whole _ _
  | added _ adds => exact adds.whole whole
  | committed _ commits => exact commits.whole whole
  | aborted _ aborts => exact aborts.whole whole

theorem receive_backup {server : Server π} {env : Env} {header : Text} {payload : Option Text} {handled : Handled π}
    (backup : NotPrimary server.log) (ran : receive answer fuel env server true header payload = .ok handled) :
    (handled.server = server ∧ payload = none ∧ needsData header = true) ∨
      ∃ data out, (payload = some data ∨ (payload = none ∧ needsData header = false)) ∧
        Executes server env true header data out ∧ handled.server = out.server := by
  unfold receive at ran
  cases payload with
  | some data =>
    obtain ⟨out, executes, same⟩ := dispatch_backup backup ran
    exact Or.inr ⟨data, out, Or.inl rfl, executes, same⟩
  | none =>
    simp only at ran
    split at ran
    next needed =>
      obtain ⟨text, _, same⟩ := bind_eq_ok.mp ran
      cases same
      exact Or.inl ⟨rfl, rfl, needed⟩
    next unneeded =>
      obtain ⟨out, executes, same⟩ := dispatch_backup backup ran
      exact Or.inr ⟨_, out, Or.inr ⟨rfl, by simpa using unneeded⟩, executes, same⟩

theorem receive_notPrimary {server : Server π} {env : Env} {header : Text} {payload : Option Text} {handled : Handled π}
    (backup : NotPrimary server.log) (ran : receive answer fuel env server true header payload = .ok handled) :
    NotPrimary handled.server.log := by
  rcases receive_backup backup ran with ⟨same, _⟩ | ⟨_, _, _, executes, same⟩
  · rw [same]
    exact backup
  · rw [same]
    exact executes.notPrimary backup

theorem answer_notPrimary {arrival : Backup.Arrival} {backup after : Backup} {io : Bool} {header data : Text}
    {reply : Option Text} (notPrimary : NotPrimary backup.log) (ran : Backup.answer arrival backup io header data = .ok (after, reply)) :
    NotPrimary after.log := by
  simp only [Backup.answer, bind_eq_ok, pure_eq_ok, Except.ok.injEq, Prod.mk.injEq] at ran
  obtain ⟨_, _, _, received, rfl, _⟩ := ran
  exact receive_notPrimary notPrimary received

@[simp] theorem authorized_command (server : Server π) (method : Nat) : unauthorized server true method = .ok false := by
  simp [unauthorized]

/-- A queued method changes the backup's log in one of these ways and nothing
else of the backup. -/
theorem receive_handles {server : Server π} {env : Env} {header : Text} {payload : Option Text} {handled : Handled π}
    (backup : NotPrimary server.log) (replicated : Replicated header)
    (ran : receive answer fuel env server true header payload = .ok handled) :
    ∃ log, Handles server.log env.io header payload log ∧ handled.server = { server with log } := by
  rcases receive_backup backup ran with ⟨same, rfl, needed⟩ | ⟨data, out, arrived, executes, same⟩
  · exact ⟨server.log, .ignored needed, same⟩
  · rw [same]
    have given (needed : needsData header = true) : payload = some data := by
      rcases arrived with given | ⟨_, unneeded⟩
      · exact given
      · rw [needed] at unneeded
        cases unneeded
    cases executes with
    | refused cause =>
      rcases cause with refused | other
      · rw [authorized_command] at refused
        cases refused
      · exact absurd replicated other
    | read method => exact absurd method (not_replicated replicated (by decide))
    | notAborted method aborts => exact ⟨_, .aborted method aborts, rfl⟩
    | @aborted outcome queued ack method aborts erased enqueued =>
      have same : queued = { server with log := outcome.log } := enqueue_backup (aborts.notPrimary backup) enqueued
      exact ⟨_, .aborted method aborts, same⟩
    | created method => exact absurd method (not_replicated replicated (by decide))
    | commits method commits => exact ⟨_, .committed method commits, rfl⟩
    | @added outcome queued ack method adds kept enqueued =>
      have same : queued = { server with log := outcome.log } := enqueue_backup (adds.notPrimary backup) enqueued
      rw [given (by simp [needsData, method])]
      exact ⟨_, .added method adds, same⟩
    | @completed outcome queued method adds refused code enqueued =>
      have same : queued = { server with log := outcome.log } := enqueue_backup (adds.notPrimary backup) enqueued
      rw [given (by simp [needsData, method])]
      exact ⟨_, .added method adds, same⟩
    | notAdded method adds =>
      rw [given (by simp [needsData, method])]
      exact ⟨_, .added method adds, rfl⟩
    | made method makes =>
      rw [given (by simp [needsData, method])]
      have log := congrArg Prod.fst makes
      simp only at log
      exact ⟨_, .made method, by rw [log]⟩
    | pinged method => exact absurd method (not_replicated replicated (by decide))
    | authenticated method => exact absurd method (not_replicated replicated (by decide))
    | demoted method => exact absurd method (not_replicated replicated (by decide))

theorem enqueue_returns (server : Server π) (role : ∃ role, getServerStatus server.log = .ok role) (header data : Text) :
    ∃ queued, ReplicationManager.enqueue server header data = .ok queued := by
  obtain ⟨role, read⟩ := role
  exact ⟨_, enqueue_eq_ok.mpr ⟨role, read, rfl⟩⟩

theorem executeCommand_returns {server : Server π} {env : Env} {auth : Bool} {header data : Text}
    (role : ∃ role, getServerStatus server.log = .ok role) (formed : Formed server.log (getTsn header))
    (answerable : Answerable header) (other : getTsn header ≠ 0) (replicated : Replicated header) :
    ∃ out, executeCommand env server auth (parse header) header data = .ok out := by
  have texts := answerable_genAnswerStr answerable
  have kept {log : Log} (same : log[(0 : Int)]? = server.log[(0 : Int)]?) : ∃ role, getServerStatus log = .ok role := by
    obtain ⟨role, read⟩ := role
    exact ⟨role, by rw [getServerStatus_of_get same, read]⟩
  have checked : ∃ refused, unauthorized server auth (parse header) = .ok refused := by
    obtain ⟨role, read⟩ := role
    unfold unauthorized
    split
    · exact ⟨_, by rw [read]; rfl⟩
    · exact ⟨_, rfl⟩
  obtain ⟨refused, checked⟩ := checked
  unfold executeCommand
  rw [checked, ok_bind]
  cases refused with
  | true =>
    obtain ⟨error, text⟩ := texts "AUTH_FAIL" "321" "Not authorized"
    exact ⟨_, by rw [if_pos rfl, text]; rfl⟩
  | false =>
  rw [if_neg (by decide)]
  rcases replicated with method | method | method | method
  · obtain ⟨outcome, ran⟩ := abort_returns formed answerable
    have same := (abort_cases ran).frame (Ne.symm other)
    obtain ⟨ack, text⟩ := texts "ACK" "0" "Aborted"
    obtain ⟨queued, enqueued⟩ := enqueue_returns { server with log := outcome.log } (kept same) header data
    cases erased : outcome.ret with
    | true => exact ⟨_, by simp only [method, ran, ok_bind, ofOutcome, erased, if_true, text, enqueued, pure_eq_ok]; rfl⟩
    | false => exact ⟨_, by simp only [method, ran, ok_bind, ofOutcome, erased, Bool.false_eq_true, if_false, pure_eq_ok]; rfl⟩
  · obtain ⟨outcome, ran⟩ := commit_returns formed answerable role env.io
    have refused := (commit_cases ran).ret
    exact ⟨_, by simp only [method, ran, ok_bind, ofOutcome, refused, Bool.false_eq_true, if_false, pure_eq_ok]; rfl⟩
  · obtain ⟨outcome, ran⟩ := addLogEntry_returns formed answerable role data env.io
    have same := (addLogEntry_cases ran).frame (Ne.symm other)
    obtain ⟨ack, text⟩ := texts "ACK" "0" " "
    obtain ⟨queued, enqueued⟩ := enqueue_returns { server with log := outcome.log } (kept same) header data
    cases added : outcome.ret with
    | true => exact ⟨_, by simp only [method, ran, ok_bind, ofOutcome, added, if_true, text, enqueued, pure_eq_ok]; rfl⟩
    | false =>
      by_cases code : outcome.code = "committed"
      · exact ⟨_, by
          simp only [method, ran, ok_bind, ofOutcome, added, Bool.false_eq_true, if_false, code, if_true, enqueued, pure_eq_ok]; rfl⟩
      · exact ⟨_, by simp only [method, ran, ok_bind, ofOutcome, added, Bool.false_eq_true, if_false, code, pure_eq_ok]; rfl⟩
  · obtain ⟨ack, text⟩ := texts "ACK" "0" "Created"
    exact ⟨_, by simp only [method, text, ok_bind, pure_eq_ok]; rfl⟩

theorem Adds.code {log : Log} {header data : Text} {io : Bool} {out : Outcome} (adds : Adds log header data io out) :
    out.ret = true ∨ out.code = "committed" ∨ ∃ answered, Answered answered out.code := by
  cases adds with
  | low _ text => exact Or.inr (Or.inr ⟨_, _, _, _, text⟩)
  | absent _ _ text => exact Or.inr (Or.inr ⟨_, _, _, _, text⟩)
  | committed _ _ text => exact Or.inr (Or.inr ⟨_, _, _, _, text⟩)
  | expired _ _ text => exact Or.inr (Or.inr ⟨_, _, _, _, text⟩)
  | duplicate _ _ _ _ _ text => exact Or.inr (Or.inr ⟨_, _, _, _, text⟩)
  | above _ _ _ _ text => exact Or.inr (Or.inr ⟨_, _, _, _, text⟩)
  | kept => exact Or.inl rfl
  | completes high found fresh below grows complete commits =>
    rcases commits.code with ⟨_, record, status, number, again, gaps, _⟩ | committed | answered
    · rw [pendingCommit_getSeq (atoi_isInt _)] at gaps
      have sameLog := again.inLog
      rw [pendingCommit_getTsn (getTsn_isInt header), Std.ExtTreeMap.getElem?_insert_self, Option.some.injEq] at sameLog
      exact absurd (sameLog ▸ complete) gaps
    · exact Or.inr (Or.inl committed)
    · exact Or.inr (Or.inr ⟨_, answered⟩)
  | added => exact Or.inl rfl

theorem Aborts.code {log : Log} {header : Text} {out : Outcome} (aborts : Aborts log header out) :
    out.ret = true ∨ Answered header out.code := by
  cases aborts with
  | absent _ text => exact Or.inr ⟨_, _, _, text⟩
  | committed _ text => exact Or.inr ⟨_, _, _, text⟩
  | expired _ text => exact Or.inr ⟨_, _, _, text⟩
  | erased => exact Or.inl rfl

/-- An answer is told from the codes by its spaces. -/
theorem Answered.ne_codes {header text : Text} (answered : Answered header text) : text ≠ "incomplete" ∧ text ≠ "committed" := by
  have space := answered_has_space answered
  constructor
  all_goals
    rintro rfl
    revert space
    decide

theorem firstPacket_sent (effects rest : List Effect) (packet : Text) :
    ∃ first, Backup.firstPacket (effects ++ .send packet :: rest) = some first := by
  unfold Backup.firstPacket
  rw [List.findSome?_append]
  cases List.findSome? _ effects with
  | none => exact ⟨packet, rfl⟩
  | some first => exact ⟨first, rfl⟩

/-- The header under which a missing number is asked for. -/
def resendHeader (tsn seq : Int) : Text := "empty\t" ++ iToS tsn ++ "\t" ++ iToS seq ++ "\t"

private theorem resendHeader_pieces (tsn seq : Int) :
    resendHeader tsn seq = "empty\t".toList ++ iToS tsn ++ "\t".toList ++ iToS seq ++ "\t".toList := rfl

theorem resendHeader_fields (tsn seq : Int) : fields (resendHeader tsn seq) = "empty".toList :: iToS tsn :: iToS seq :: fields [] := by
  have start : "empty\t".toList = "empty".toList ++ ['\t'] := by decide
  have tab : "\t".toList = ['\t'] := by decide
  have shape : resendHeader tsn seq = "empty".toList ++ '\t' :: (iToS tsn ++ '\t' :: (iToS seq ++ '\t' :: [])) := by
    rw [resendHeader_pieces, start, tab]
    simp only [List.append_assoc]
    rfl
  rw [shape, fields_cons_tab (by decide), fields_cons_tab (iToS_field tsn), fields_cons_tab (iToS_field seq)]

private theorem mapM_first {α β : Type} {next : α → Exec β} {values : List α} {results : List β} {value : α} {rest : List α}
    (shape : values = value :: rest) (ran : values.mapM next = .ok results) :
    ∃ first others, next value = .ok first ∧ results = first :: others := by
  subst shape
  rw [List.mapM_cons] at ran
  obtain ⟨first, here, ran⟩ := bind_eq_ok.mp ran
  obtain ⟨others, _, same⟩ := bind_eq_ok.mp ran
  cases same
  exact ⟨first, others, here, rfl⟩

/-- Every number that a waiting record lacks is asked for. -/
theorem sendAckResend_sends {log : Log} {tsn : Int} {record : Record} {status number : Text}
    (found : Found log tsn record status number) (gaps : missing record (atoi number) ≠ []) :
    ∃ seq tail rest, sendAckResend log tsn =
      .ok (.send (compose "ACK_RESEND" (iToS tsn) (iToS seq) ("0" ++ ' ' :: tail)) :: rest) := by
  have each (seq : Int) : ∃ tail, genAnswerStr "ACK_RESEND" (resendHeader tsn seq) "0" " " =
      .ok (compose "ACK_RESEND" (iToS tsn) (iToS seq) ("0" ++ ' ' :: tail)) :=
    genAnswerStr_of_fields (resendHeader_fields tsn seq) _ _ _
  have reversed : (missing record (atoi number)).reverse ≠ [] := fun empty => gaps (List.reverse_eq_nil_iff.mp empty)
  obtain ⟨last, stack, shape⟩ := List.exists_cons_of_ne_nil reversed
  have returns : ∀ seq ∈ (missing record (atoi number)).reverse, ∃ result,
      (do return Effect.send (← genAnswerStr "ACK_RESEND" (resendHeader tsn seq) "0" " ") : Exec Effect) = .ok result := by
    intro seq _
    obtain ⟨tail, made⟩ := each seq
    exact ⟨_, by rw [made]; rfl⟩
  obtain ⟨packets, sent⟩ := mapM_ok returns
  obtain ⟨first, rest, here, rfl⟩ := mapM_first shape sent
  obtain ⟨tail, made⟩ := each last
  rw [made] at here
  cases here
  refine ⟨last, tail, rest, ?_⟩
  simp only [sendAckResend, found.getStatusData, canCommit_of_get found.inLog, ok_bind]
  exact sent

end TransactionalServer.Proofs
