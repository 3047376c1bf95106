import TransactionalServer.Proofs.Replication
import TransactionalServer.Proofs.Settling

/-! Queued packets at a backup that answers each of them. Draining a queue over
a working connection is delivering its packets in order. -/

namespace TransactionalServer.Proofs
open ServerTools LogHandler Exec Session ReplicationManager

section
variable {π : Type} {server : Server π} {env : Env} {auth : Bool} {header data : Text}

private theorem replies_of_ret {out : Command π} (executes : Executes server env auth header data out)
    (replicated : Replicated header) (done : out.ret = true) : ∃ rest packet, out.effects = rest ++ [.send packet] := by
  cases executes with
  | refused => cases done
  | read method => exact absurd method (not_replicated replicated (by decide))
  | notAborted _ _ kept =>
    have refused : false = true := kept.symm.trans done
    cases refused
  | aborted => exact ⟨[], _, rfl⟩
  | created => exact ⟨_, _, rfl⟩
  | commits _ commits =>
    have refused : false = true := commits.ret.symm.trans done
    cases refused
  | added => exact ⟨_, _, rfl⟩
  | completed => cases done
  | notAdded _ _ refused =>
    have refused : false = true := refused.symm.trans done
    cases refused
  | made => exact ⟨_, _, rfl⟩
  | pinged => exact ⟨[], _, rfl⟩
  | authenticated method => exact absurd method (not_replicated replicated (by decide))
  | demoted method => exact absurd method (not_replicated replicated (by decide))

/-- Only a COMMIT is answered with requests for missing writes. -/
theorem Executes.incomplete {out : Command π} (executes : Executes server env auth header data out)
    (asked : out.ret = false) (code : out.error = "incomplete") :
    parse header = 3 ∧ ∃ record, Found out.server.log (getTsn header) record "WAITING" (iToS (getSeq header)) ∧
      missing record (getSeq header) ≠ [] := by
  cases executes with
  | refused _ refusal => exact absurd code refusal.answered.ne_codes.1
  | notAborted _ aborts kept =>
    rcases aborts.code with erased | answered
    · rw [kept] at erased
      cases erased
    · exact absurd code answered.ne_codes.1
  | commits method commits =>
    rcases commits.code with ⟨_, record, status, number, found, gaps, marked⟩ | committed | answered
    · refine ⟨method, record.insert (-1) ("WAITING", iToS (getSeq header)), ?_, ?_⟩
      · simp only [ofOutcome, marked]
        exact mark_found _ _ _ _ _
      · rw [missing_insert_present found.entry]
        exact gaps
    · have same : ("committed".toList : Text) = "incomplete".toList := committed.symm.trans code
      exact absurd same (by decide)
    · exact absurd code answered.ne_codes.1
  | completed _ _ _ committed =>
    have same : ("committed".toList : Text) = "incomplete".toList := committed.symm.trans code
    exact absurd same (by decide)
  | notAdded _ adds refused notCommitted =>
    rcases adds.code with kept | committed | ⟨_, answered⟩
    · rw [refused] at kept
      cases kept
    · exact absurd committed notCommitted
    · exact absurd code answered.ne_codes.1
  | read => cases asked
  | aborted => cases asked
  | created => cases asked
  | added => cases asked
  | made => cases asked
  | pinged => cases asked
  | authenticated => cases asked
  | demoted => cases asked

end

section
variable {π : Type} {answer : Answer π} {fuel : Nat} {server : Server π} {env : Env} {auth : Bool} {header data : Text}

/-- The requests for missing writes are made. -/
theorem resend_sends {out : Command π} (executes : Executes server env auth header data out)
    (asked : out.ret = false) (code : out.error = "incomplete") :
    ∃ packet rest, sendAckResend out.server.log (getTsn header) = .ok (.send packet :: rest) := by
  obtain ⟨_, record, found, gaps⟩ := executes.incomplete asked code
  rw [← atoi_iToS (getSeq_isInt header)] at gaps
  obtain ⟨seq, tail, rest, sent⟩ := sendAckResend_sends found gaps
  exact ⟨_, rest, sent⟩

/-- On a server that is not the primary a queued method returns. -/
theorem dispatch_returns (notPrimary : NotPrimary server.log) (role : ∃ role, getServerStatus server.log = .ok role)
    (formed : Formed server.log (getTsn header)) (answerable : Answerable header) (other : getTsn header ≠ 0)
    (replicated : Replicated header) : ∃ handled, dispatch answer fuel env server auth header data = .ok handled := by
  obtain ⟨out, executed⟩ := @executeCommand_returns π server env auth header data role formed answerable other replicated
  have executes := executeCommand_cases executed
  unfold dispatch
  rw [executed, ok_bind]
  cases asked : out.ret with
  | true => exact ⟨_, rfl⟩
  | false =>
    rw [if_neg (by decide)]
    by_cases incomplete : out.error = "incomplete"
    · obtain ⟨packet, rest, sent⟩ := resend_sends executes asked incomplete
      exact ⟨_, by rw [if_pos incomplete, sent]; rfl⟩
    rw [if_neg incomplete]
    by_cases committed : out.error = "committed"
    · have still : ∃ role, getServerStatus out.server.log = .ok role := by
        obtain ⟨role, read⟩ := role
        exact ⟨role, by rw [getServerStatus_of_get (executes.frame replicated (Ne.symm other)), read]⟩
      obtain ⟨ack, done⟩ := doCommit_acknowledges out.auth env.io (executes.notPrimary notPrimary) still answerable
      exact ⟨_, by rw [if_pos committed, done]; rfl⟩
    · exact ⟨_, by rw [if_neg committed]; rfl⟩

theorem receive_returns (notPrimary : NotPrimary server.log) (role : ∃ role, getServerStatus server.log = .ok role)
    (formed : Formed server.log (getTsn header)) (answerable : Answerable header) (other : getTsn header ≠ 0)
    (replicated : Replicated header) (payload : Option Text) : ∃ handled, receive answer fuel env server auth header payload = .ok handled := by
  unfold receive
  cases payload with
  | some data => exact dispatch_returns notPrimary role formed answerable other replicated
  | none =>
    simp only
    split
    · obtain ⟨text, made⟩ := answerable_genAnswerStr answerable "ERROR" "204" "Method requires data."
      exact ⟨_, by rw [made]; rfl⟩
    · exact dispatch_returns notPrimary role formed answerable other replicated

end

variable {arrival : Backup.Arrival} {backup : Backup} {io : Bool} {header data : Text}

/-- A queued method never leaves the primary waiting for an answer. -/
theorem dispatch_replies (notPrimary : NotPrimary backup.log) (replicated : Replicated header) {handled : Handled Unit}
    (ran : dispatch Backup.noPeer 0 { io } backup true header data = .ok handled) :
    ∃ packet, Backup.firstPacket handled.effects = some packet := by
  unfold dispatch at ran
  obtain ⟨out, executed, ran⟩ := bind_eq_ok.mp ran
  have executes := executeCommand_cases executed
  cases asked : out.ret with
  | true =>
    rw [if_pos asked] at ran
    cases ran
    obtain ⟨rest, packet, effects⟩ := replies_of_ret executes replicated asked
    simp only [effects]
    exact firstPacket_sent rest [] packet
  | false =>
    rw [if_neg (by rw [asked]; decide)] at ran
    split at ran
    next code =>
      obtain ⟨packet, rest, sent⟩ := resend_sends executes asked code
      rw [sent] at ran
      cases ran
      exact firstPacket_sent _ _ _
    next =>
    split at ran
    next =>
      obtain ⟨done, committed, same⟩ := bind_eq_ok.mp ran
      obtain ⟨ack, _, rfl⟩ := doCommit_backup (executes.notPrimary notPrimary) committed
      cases same
      exact firstPacket_sent _ _ _
    next =>
      cases ran
      exact firstPacket_sent _ _ _

/-- What a packet that reached the backup has done there. -/
theorem answer_handles (honest : Honest arrival) (notPrimary : NotPrimary backup.log) (replicated : Replicated header)
    {after : Backup} {reply : Option Text} (ran : Backup.answer arrival backup io header data = .ok (after, reply)) :
    ∃ arrived payload log text, arrival header data = .ok (arrived, payload) ∧ Handles backup.log io arrived payload log ∧
      after = { backup with log } ∧ reply = some text := by
  simp only [Backup.answer, bind_eq_ok, pure_eq_ok, Except.ok.injEq, Prod.mk.injEq] at ran
  obtain ⟨⟨arrived, payload⟩, sent, handled, received, rfl, rfl⟩ := ran
  obtain ⟨method, _, _, _, _⟩ := honest.same _ _ _ _ sent
  have arrivedReplicated : Replicated arrived := by rwa [Replicated, method]
  obtain ⟨log, handles, same⟩ := receive_handles notPrimary arrivedReplicated received
  have replies : ∃ text, Backup.firstPacket handled.effects = some text := by
    unfold receive at received
    cases payload with
    | some data => exact dispatch_replies notPrimary arrivedReplicated received
    | none =>
      simp only at received
      split at received
      · obtain ⟨_, _, same⟩ := bind_eq_ok.mp received
        cases same
        exact ⟨_, rfl⟩
      · exact dispatch_replies notPrimary arrivedReplicated received
  obtain ⟨text, replied⟩ := replies
  exact ⟨arrived, payload, log, text, sent, handles, same, replied⟩

theorem answer_returns (honest : Honest arrival) (notPrimary : NotPrimary backup.log)
    (role : ∃ role, getServerStatus backup.log = .ok role) (whole : Whole backup.log (getTsn header))
    (answerable : Answerable header) (other : getTsn header ≠ 0) (replicated : Replicated header) (data : Text) (io : Bool) :
    ∃ after reply, Backup.answer arrival backup io header data = .ok (after, reply) := by
  obtain ⟨arrived, payload, sent⟩ := honest.returns header data answerable
  obtain ⟨method, tsn, _, arrivedAnswerable, _⟩ := honest.same _ _ _ _ sent
  have arrivedReplicated : Replicated arrived := by rwa [Replicated, method]
  obtain ⟨handled, received⟩ := @receive_returns Unit Backup.noPeer 0 backup { io } true arrived notPrimary role (tsn ▸ whole.formed)
    arrivedAnswerable (by rwa [tsn]) arrivedReplicated payload
  refine ⟨handled.server, Backup.firstPacket handled.effects, ?_⟩
  simp only [Backup.answer, sent, received, ok_bind, pure_eq_ok]

/-- A connection over which every request is answered and every append of the
backup succeeds. -/
structure Works {π : Type} (link : Link π) : Prop where
  connected : link.connected = true
  answered : ∀ wire ∈ link.wires, wire = .up true

private theorem Works.next {π : Type} {link : Link π} (works : Works link) :
    ∃ wires, Client.nextWire link.wires = (.up true, wires) ∧ ∀ wire ∈ wires, wire = .up true := by
  cases shape : link.wires with
  | nil => exact ⟨[], rfl, fun _ member => absurd member List.not_mem_nil⟩
  | cons wire wires =>
    have first : wire = .up true := works.answered wire (by rw [shape]; exact List.mem_cons_self)
    refine ⟨wires, by rw [first]; rfl, ?_⟩
    intro other member
    exact works.answered other (by rw [shape]; exact List.mem_cons_of_mem _ member)

theorem Works.sendReceive {π : Type} {answer : Answer π} {link : Link π} (works : Works link) {peer : π} {text : Text}
    (echoes : ∃ packet, Client.genEcho header data = .ok packet) (handled : answer link.peer true header data = .ok (peer, some text)) :
    ∃ after, Client.sendReceive answer link header data = .ok (some (Client.readReply text), after) ∧ after.peer = peer ∧
      Works after := by
  obtain ⟨wires, next, rest⟩ := works.next
  obtain ⟨packet, echoed⟩ := echoes
  refine ⟨{ link with peer, wires }, ?_, rfl, works.connected, rest⟩
  simp only [Client.sendReceive, echoed, Client.exchange, works.connected, Bool.not_true, Bool.false_eq_true, if_false, next, handled, ok_bind,
    finished_some, pure_eq_ok]

end TransactionalServer.Proofs
