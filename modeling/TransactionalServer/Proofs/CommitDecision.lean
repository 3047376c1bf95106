import TransactionalServer.Proofs.ManagerFrames
import TransactionalServer.Proofs.Settling

/-! The primary's commit decision over a working connection. Whatever the two
logs hold, it follows the backup's record of the transaction. -/

namespace TransactionalServer.Proofs.CommitDecision
open ServerTools LogHandler Exec Session

variable {arrival : Backup.Arrival} {fuel : Nat}

/-- A server whose connection to the backup works and stays up. -/
structure Connected (server : Server Backup) : Prop where
  primary : IsPrimary server.log
  alive : server.manager.alive = true
  up : Up server.link
  backup : NotPrimary server.link.peer.log

/-- A call that returns has the backup's answer to its last request. -/
theorem commit_decides (honest : Honest arrival) {server final : Server Backup} {tsn seq : Int} {done : Bool}
    (connected : Connected server) (tsnRange : IsInt tsn) (positive : 1 ≤ tsn) (range : IsInt seq) (high : 1 ≤ seq)
    (ran : ReplicationManager.commit (Backup.answer arrival) fuel server (commitMessage tsn seq) = .ok (done, final)) :
    final.log = server.log ∧ (done = true ↔ CommittedWith final.link.peer.log tsn seq) := by
  induction fuel generalizing server with
  | zero => simp [ReplicationManager.commit] at ran
  | succ fuel ih =>
    obtain ⟨synced, synchronised, round⟩ := commit_round connected.primary ran
    obtain ⟨log, manager, up, backup⟩ := primaryOps_up connected.alive connected.up
      (fun packet _ peer io after reply holds answered => answer_notPrimary holds answered) connected.backup synchronised
    have alive : synced.manager.alive = true := by
      rw [manager]
      exact connected.alive
    have decided {link : Link Backup} {result : Text}
        (sent : Client.sendReceive (Backup.answer arrival) synced.link (commitMessage tsn seq) " " = .ok (some result, link)) :
        Up link ∧ NotPrimary link.peer.log ∧
          ((replyWords result)[0]? = some "ACK".toList ↔ CommittedWith link.peer.log tsn seq) := by
      obtain ⟨io, text, handled, same, after⟩ := up.sendReceive sent
      cases same
      obtain ⟨settled, word, code, reply, settles, peer, given, reads⟩ :=
        answer_commit_cases honest backup tsnRange range high positive handled
      cases given
      obtain ⟨third, rest, words⟩ := reads.words
      refine ⟨after, answer_notPrimary backup handled, ?_⟩
      have first : (replyWords (Client.readReply text))[0]? = some word := by rw [replyWords, words]; rfl
      rw [first, Option.some.injEq, peer]
      constructor
      · exact settles.committed range
      · intro committed
        by_contra notAck
        exact settles.notCommitted notAck committed
    have reconnect {link : Link Backup} (after : Up link) (backup : NotPrimary link.peer.log) (packets : List (Text × Text)) :
        Connected (Server.queued { synced with link } packets) := by
      refine ⟨?_, alive, after, backup⟩
      rw [IsPrimary, Server.queued, log]
      exact connected.primary
    cases round with
    | away down =>
      rw [alive] at down
      cases down
    | unsynced _ pending =>
      rw [manager] at pending
      exact absurd rfl pending
    | lost _ _ sent =>
      obtain ⟨_, _, _, same, _⟩ := up.sendReceive sent
      cases same
    | acked _ _ sent word =>
      obtain ⟨_, _, follows⟩ := decided sent
      exact ⟨log, iff_of_true rfl (follows.mp word)⟩
    | resent _ _ sent word resends again =>
      obtain ⟨after, backup, _⟩ := decided sent
      obtain ⟨_, packets, _, _, _, rfl⟩ := resend_queued (by rw [IsPrimary, log]; exact connected.primary) resends
      obtain ⟨same, follows⟩ := ih (reconnect after backup packets) again
      exact ⟨same.trans log, follows⟩
    | created _ _ sent word code named enqueued again =>
      obtain ⟨after, backup, _⟩ := decided sent
      rw [enqueue_queued (by rw [IsPrimary, log]; exact connected.primary), Except.ok.injEq] at enqueued
      subst enqueued
      obtain ⟨same, follows⟩ := ih (reconnect after backup _) again
      exact ⟨same.trans log, follows⟩
    | refused _ _ sent notAck =>
      obtain ⟨_, _, follows⟩ := decided sent
      exact ⟨log, iff_of_false (by decide) (fun committed => notAck (follows.mpr committed))⟩

def Appends (effects : List Effect) : Prop := ∃ tsn path lines, Effect.append tsn path lines ∈ effects

/-- The packets that the client is sent. -/
def sent (effects : List Effect) : List Text :=
  effects.filterMap fun
    | .send packet => some packet
    | _ => none

/-- On a primary the code "committed" means that the transaction is being
written and that nothing but the log was saved. -/
theorem writing_of_committed {π : Type} {server : Server π} {env : Env} {auth : Bool} {header data : Text} {out : Command π}
    (primary : IsPrimary server.log) (ordinary : getTsn header ≠ 0) (executes : Executes server env auth header data out)
    (asked : out.ret = false) (code : out.error = "committed") :
    ∃ record seq, 1 ≤ seq ∧ IsInt seq ∧ Found out.server.log (getTsn header) record "WRITING" (iToS seq) ∧ missing record seq = [] ∧
      IsPrimary out.server.log ∧ out.server.link = server.link ∧ out.server.manager.alive = server.manager.alive ∧
      out.effects = [.save out.server.log] := by
  have writes {log : Log} {commitHeader : Text} {io : Bool} {outcome : Outcome} (commits : Commits log commitHeader io outcome)
      (primary : IsPrimary log) (other : getTsn commitHeader ≠ 0) (code : outcome.code = "committed") :
      ∃ record, 1 ≤ getSeq commitHeader ∧
        Found outcome.log (getTsn commitHeader) record "WRITING" (iToS (getSeq commitHeader)) ∧
        missing record (getSeq commitHeader) = [] ∧ IsPrimary outcome.log ∧ outcome.effects = [.save outcome.log] := by
    have answered {text : Text} {header : Text} (made : Answered header text) : text ≠ "committed" := made.ne_codes.2
    cases commits with
    | absent _ text => exact absurd code (answered ⟨_, _, _, text⟩)
    | already _ _ text => exact absurd code (answered ⟨_, _, _, text⟩)
    | expired _ text => exact absurd code (answered ⟨_, _, _, text⟩)
    | otherNumber _ _ _ text => exact absurd code (answered ⟨_, _, _, text⟩)
    | nothing _ _ _ text => exact absurd code (answered ⟨_, _, _, text⟩)
    | failed _ _ _ _ _ _ _ _ text => exact absurd code (answered ⟨_, _, _, text⟩)
    | incomplete =>
      have other : ("incomplete".toList : Text) ≠ "committed".toList := by decide
      exact absurd code other
    | primary found _ high complete marked role =>
      subst marked
      exact ⟨_, high, mark_found _ _ _ _ _, (missing_insert_present found.entry _ _).trans complete, role, rfl⟩
    | written _ _ _ _ marked serverRole notRole =>
      subst marked
      rw [getServerStatus_of_get (mark_other (Ne.symm other)), primary, Except.ok.injEq] at serverRole
      exact absurd serverRole.symm notRole
  cases executes with
  | refused _ refusal => exact absurd code refusal.answered.ne_codes.2
  | read => cases asked
  | notAborted _ aborts kept =>
    rcases aborts.code with erased | answered
    · rw [kept] at erased
      cases erased
    · exact absurd code answered.ne_codes.2
  | aborted => cases asked
  | created => cases asked
  | commits _ commits =>
    obtain ⟨record, high, found, complete, role, effects⟩ := writes commits primary (by omega) code
    exact ⟨record, _, high, getSeq_isInt header, found, complete, role, rfl, rfl, effects⟩
  | added => cases asked
  | @completed outcome queued _ adds refused _ enqueued =>
    cases adds with
    | low _ text => exact absurd code (Answered.ne_codes ⟨_, _, _, text⟩).2
    | absent _ _ text => exact absurd code (Answered.ne_codes ⟨_, _, _, text⟩).2
    | committed _ _ text => exact absurd code (Answered.ne_codes ⟨_, _, _, text⟩).2
    | expired _ _ text => exact absurd code (Answered.ne_codes ⟨_, _, _, text⟩).2
    | duplicate _ _ _ _ _ text => exact absurd code (Answered.ne_codes ⟨_, _, _, text⟩).2
    | above _ _ _ _ text => exact absurd code (Answered.ne_codes ⟨_, _, _, text⟩).2
    | kept => cases refused
    | added => cases refused
    | @completes record grown number _ _ _ _ _ _ _ commits =>
      have sameTsn := pendingCommit_getTsn (getTsn_isInt header) (atoi number)
      have sameSeq := pendingCommit_getSeq (atoi_isInt number) (getTsn header)
      have grownPrimary : IsPrimary (server.log.insert (getTsn header) grown) :=
        primary.of_get (Store.get_insert_other (by omega))
      obtain ⟨record, high, found, complete, role, effects⟩ := writes commits grownPrimary (by omega) code
      rw [sameTsn, sameSeq] at found
      rw [sameSeq] at high complete
      rw [enqueue_queued role, Except.ok.injEq] at enqueued
      subst enqueued
      exact ⟨record, _, high, atoi_isInt number, found, complete, role, rfl, rfl, effects⟩
  | notAdded _ _ _ other => exact absurd code other
  | made => cases asked
  | pinged => cases asked
  | authenticated => cases asked
  | demoted => cases asked

section
variable {π : Type} {answer : Answer π} {server : Server π} {io auth : Bool} {header : Text} {record : Record} {seq : Int}

/-- What becomes of a commit in writing on a primary: the backup does not
follow, the file is not written, or the transaction is committed. -/
inductive Decides (answer : Answer π) (fuel : Nat) (io : Bool) (server : Server π) (auth : Bool) (header : Text) (record : Record)
    (seq : Int) : Handled π → Prop where
  | refused {final : Server π} {error : Text}
      (commits : ReplicationManager.commit answer fuel server (commitMessage (getTsn header) seq) = .ok (false, final))
      (still : Found final.log (getTsn header) record "WRITING" (iToS seq))
      (text : genAnswerStr "ERROR" header "205" "commit fail, i/o error" = .ok error) :
      Decides answer fuel io server auth header record seq { server := final, effects := [.send error], auth }
  | unwritten {final : Server π} {effects : List Effect}
      (commits : ReplicationManager.commit answer fuel server (commitMessage (getTsn header) seq) = .ok (true, final))
      (still : Found final.log (getTsn header) record "WRITING" (iToS seq))
      (file : writeFile final.log (getTsn header) io = .ok (false, effects)) :
      Decides answer fuel io server auth header record seq { server := final, effects := [], auth, exited := true }
  | committed {final : Server π} {effects : List Effect} {ack : Text}
      (commits : ReplicationManager.commit answer fuel server (commitMessage (getTsn header) seq) = .ok (true, final))
      (still : Found final.log (getTsn header) record "WRITING" (iToS seq))
      (file : writeFile final.log (getTsn header) io = .ok (true, effects)) :
      Decides answer fuel io server auth header record seq
        { server := { final with log := mark final.log (getTsn header) record "COMMITTED" (iToS seq) },
          effects := effects ++ [.save (mark final.log (getTsn header) record "COMMITTED" (iToS seq)), .send ack], auth }

theorem doCommit_writing {done : Handled π} (primary : IsPrimary server.log) (positive : 1 ≤ getTsn header) (range : IsInt seq) (high : 1 ≤ seq)
    (found : Found server.log (getTsn header) record "WRITING" (iToS seq)) (ran : doCommit answer fuel io server auth header = .ok done) :
    Decides answer fuel io server auth header record seq done := by
  have nonzero : seq ≠ 0 := by omega
  unfold doCommit at ran
  obtain ⟨ack, _, ran⟩ := bind_eq_ok.mp ran
  rw [primary, ok_bind, if_pos rfl] at ran
  simp only [found.getStatusData, ok_bind, atoi_iToS range, nonzero, if_false] at ran
  obtain ⟨⟨replicated, final⟩, commits, ran⟩ := bind_eq_ok.mp ran
  have kept := (manager_keeps answer fuel).2.1 _ _ _ _ commits
  have still : Found final.log (getTsn header) record "WRITING" (iToS seq) := ⟨(kept.other (by omega)).trans found.inLog, found.entry⟩
  cases replicated with
  | false =>
    obtain ⟨error, text, same⟩ := bind_eq_ok.mp ran
    cases same
    exact .refused commits still text
  | true =>
    obtain ⟨⟨written, effects⟩, file, ran⟩ := bind_eq_ok.mp ran
    cases written with
    | false =>
      cases ran
      exact .unwritten commits still file
    | true =>
      simp only [if_true, still.changeStatus, ok_bind, pure_eq_ok, Except.ok.injEq] at ran
      subst ran
      exact .committed commits still file

end

/-- What `doCommit` does on a connected primary with a transaction in writing. -/
theorem doCommit_decides (honest : Honest arrival) {server : Server Backup} {io auth : Bool} {header : Text} {record : Record}
    {seq : Int} {done : Handled Backup} (connected : Connected server) (positive : 1 ≤ getTsn header) (high : 1 ≤ seq)
    (range : IsInt seq) (found : Found server.log (getTsn header) record "WRITING" (iToS seq))
    (ran : doCommit (Backup.answer arrival) fuel io server auth header = .ok done) :
    CommittedWith done.server.link.peer.log (getTsn header) seq ∨
      getStatus done.server.log (getTsn header) = .ok "WRITING" ∧
      ∃ error, genAnswerStr "ERROR" header "205" "commit fail, i/o error" = .ok error ∧ done.effects = [.send error] := by
  cases doCommit_writing connected.primary positive range high found ran with
  | refused _ still text => exact Or.inr ⟨still.getStatus, _, text, rfl⟩
  | unwritten commits | committed commits =>
    have follows := (commit_decides honest connected (getTsn_isInt header) positive range high commits).2
    exact Or.inl (follows.mp rfl)

/-- Whenever a connected primary has handled a packet that asks for a commit,
it has appended and committed only what the backup has committed with the same
number. Without that the file is untouched and the client is answered 205. -/
theorem primary_commits_what_the_backup_committed {server : Server Backup} {env : Env} {auth : Bool} {header data : Text}
    {out : Command Backup} {handled : Handled Backup} (connected : Connected server) (positive : 1 ≤ getTsn header)
    (executed : executeCommand env server auth (parse header) header data = .ok out) (asked : out.ret = false)
    (code : out.error = "committed")
    (handling : dispatch (Backup.answer Backup.echoed) fuel env server auth header data = .ok handled) :
    ∃ seq, 1 ≤ seq ∧ getStatusData out.server.log (getTsn header) = .ok seq ∧
      (Appends handled.effects ∨ getStatus handled.server.log (getTsn header) = .ok "COMMITTED" →
        CommittedWith handled.server.link.peer.log (getTsn header) seq) ∧
      (¬ CommittedWith handled.server.link.peer.log (getTsn header) seq →
        ¬ Appends handled.effects ∧ getStatus handled.server.log (getTsn header) ≠ .ok "COMMITTED" ∧
        ∃ error, genAnswerStr "ERROR" header "205" "commit fail, i/o error" = .ok error ∧ sent handled.effects = [error]) := by
  obtain ⟨record, seq, high, range, found, _, primary, link, alive, effects⟩ :=
    writing_of_committed connected.primary (by omega) (executeCommand_cases executed) asked code
  have next : Connected out.server := by
    refine ⟨primary, alive.trans connected.alive, ?_, ?_⟩
    · rw [link]
      exact connected.up
    · rw [link]
      exact connected.backup
  have notIncomplete : out.error ≠ "incomplete" := by
    rw [code]
    decide
  rw [dispatch, executed, ok_bind, asked, if_neg (by decide), if_neg notIncomplete, if_pos code] at handling
  obtain ⟨done, committed, same⟩ := bind_eq_ok.mp handling
  cases same
  have decided := doCommit_decides echoed_honest next positive high range found committed
  refine ⟨seq, high, by rw [found.getStatusData, atoi_iToS range], ?_, ?_⟩
  · intro written
    rcases decided with backup | ⟨status, error, _, only⟩
    · exact backup
    · exfalso
      rcases written with ⟨tsn, path, lines, member⟩ | status'
      · rw [effects, only] at member
        simp at member
      · rw [status] at status'
        cases status'
  · intro notBackup
    rcases decided with backup | ⟨status, error, text, only⟩
    · exact absurd backup notBackup
    · refine ⟨?_, ?_, error, text, ?_⟩
      · rintro ⟨tsn, path, lines, member⟩
        rw [effects, only] at member
        simp at member
      · rw [status]
        decide
      · rw [effects, only]
        rfl

/-- A primary with one write of transaction 5, and a backup without it. -/
def behindBackup : Server Backup :=
  { log := (serverData ∅ "127.0.0.1" "8080" "primary" "net").insert 5 ((freshRecord "file").insert 1 ("WRITE 5 1 3", "ab")),
    manager := { alive := true },
    link := { connected := true, peer := { log := serverData ∅ "127.0.0.1" "8081" "backup" "net", link := { peer := () } } } }

private theorem behindBackup_connected : Connected behindBackup := by
  refine ⟨?_, rfl, ⟨rfl, ?_⟩, ?_⟩
  · show getServerStatus behindBackup.log = .ok "primary"
    decide +kernel
  · intro wire member
    cases member
  · intro primary
    have role : getServerStatus behindBackup.link.peer.log = .ok "backup" := serverData_role _ _ _ _ _
    rw [role] at primary
    exact absurd primary (by decide)

theorem missing_transaction_is_created_and_resent :
    ∃ out handled, executeCommand {} behindBackup true 3 "COMMIT 5 1 0" " " = .ok out ∧
      dispatch (Backup.answer Backup.echoed) 6 {} behindBackup true "COMMIT 5 1 0" " " = .ok handled ∧
      ∃ seq, 1 ≤ seq ∧ getStatusData out.server.log 5 = .ok seq ∧
        (Appends handled.effects ∨ getStatus handled.server.log 5 = .ok "COMMITTED" →
          CommittedWith handled.server.link.peer.log 5 seq) := by
  obtain ⟨out, executed⟩ := returned_of_isOk (show (executeCommand {} behindBackup true 3 "COMMIT 5 1 0" " ").isOk by decide +kernel)
  have asked : (executeCommand {} behindBackup true 3 "COMMIT 5 1 0" " ").map (·.ret) = .ok false := by decide +kernel
  have code : (executeCommand {} behindBackup true 3 "COMMIT 5 1 0" " ").map (·.error) = .ok "committed" := by decide +kernel
  obtain ⟨handled, handling⟩ := returned_of_isOk
    (show (dispatch (Backup.answer Backup.echoed) 6 {} behindBackup true "COMMIT 5 1 0" " ").isOk by decide +kernel)
  rw [executed] at asked code
  obtain ⟨seq, high, number, follows, _⟩ := primary_commits_what_the_backup_committed behindBackup_connected
    (show 1 ≤ getTsn "COMMIT 5 1 0" by decide +kernel) executed (Except.ok.inj asked) (Except.ok.inj code) handling
  exact ⟨out, handled, executed, handling, seq, high, number, follows⟩

end TransactionalServer.Proofs.CommitDecision
