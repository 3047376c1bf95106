import TransactionalServer.Proofs.Acknowledgments

/-! What an answer says about what the server did: nothing at all, something it
acknowledges or asks writes for, or a commit that failed on the way. -/

namespace TransactionalServer.Proofs
open ServerTools LogHandler Exec Session

/-- The answer to a commit that could not be carried out. -/
def CommitFailed (packet : Text) : Prop := ∃ header : Text, genAnswerStr "ERROR" header "205" "commit fail, i/o error" = .ok packet

/-- The answer begins with this word. -/
def Begins (packet word : Text) : Prop := (fields packet).head? = some word

instance (packet word : Text) : Decidable (Begins packet word) := inferInstanceAs (Decidable (_ = _))

/-- The commit that a packet of a client makes of its transaction: its own, or
the pending one that its write completes. -/
inductive Attempt (log : Log) (header data : Text) : Log → Text → Prop where
  | own (method : parse header = 3) : Attempt log header data log header
  | pending {record : Record} {number : Text} (method : parse header = 5) (high : 1 ≤ getSeq header)
      (found : Found log (getTsn header) record "WAITING" number) (fresh : record[getSeq header]? = none) (below : getSeq header ≤ atoi number) :
      Attempt log header data (log.insert (getTsn header) (record.insert (getSeq header) (header, data)))
        (pendingCommit (getTsn header) (atoi number))

/-- How a commit failed: its own append on a backup, or its replication on a primary. -/
inductive Fails {π : Type} (answer : Answer π) (fuel : Nat) (server : Server π) (out : LogHandler.Outcome) (packet : Text) : Handled π → Prop where
  | append {auth : Bool} (code : out.code = packet) :
      Fails answer fuel server out packet
        { server := { server with log := out.log }, effects := out.effects ++ [.send packet], auth }
  | replication {asked final : Server π} {message : Text} {auth : Bool} (code : out.code = "committed") (log : asked.log = out.log)
      (primary : getServerStatus out.log = .ok "primary")
      (refuses : ReplicationManager.commit answer fuel asked message = .ok (false, final)) :
      Fails answer fuel server out packet { server := final, effects := out.effects ++ [.send packet], auth }

theorem genAnswerStr_code {method header code errString packet : Text} (word : FieldText method) (clean : FieldText code)
    (made : genAnswerStr method header code errString = .ok packet) : (fields packet)[3]? = some code := by
  obtain ⟨first, tsn, seq, rest, tail, shape, rfl⟩ := genAnswerStr_shape made
  have members : tsn ∈ fields header ∧ seq ∈ fields header := by simp [shape]
  have second : FieldText tsn := field_of_fields members.1
  have third : FieldText seq := field_of_fields members.2
  rw [fields_compose word second third, fields_cons clean]
  rfl

/-- The code tells a failed commit from the other answers. -/
theorem not_commitFailed {packet code : Text} (sent : (fields packet)[3]? = some code) (other : code ≠ "205") : ¬ CommitFailed packet := by
  rintro ⟨header, made⟩
  rw [genAnswerStr_code (by decide) (by decide) made, Option.some.injEq] at sent
  exact other sent.symm

section
variable {log base : Log} {header data commit : Text}

theorem Attempt.tsn (attempt : Attempt log header data base commit) : getTsn commit = getTsn header := by
  cases attempt with
  | own => rfl
  | pending => exact pendingCommit_getTsn (getTsn_isInt header) _

/-- The pending commit of a complete record is not refused. -/
theorem pending_tries {grown : Record} {number : Text} {io : Bool} {out : Outcome} (found : Found log (getTsn header) grown "WAITING" number)
    (high : 1 ≤ atoi number) (complete : missing grown (atoi number) = [])
    (commits : Commits log (pendingCommit (getTsn header) (atoi number)) io out) :
    out.code = "committed" ∨ CommitFailed out.code := by
  have sameTsn := pendingCommit_getTsn (getTsn_isInt header) (atoi number)
  have sameSeq := pendingCommit_getSeq (atoi_isInt number) (getTsn header)
  have only {record : Record} {status digits : Text} (again : Found log (getTsn (pendingCommit (getTsn header) (atoi number))) record status digits) :
      grown = record ∧ "WAITING".toList = status ∧ number = digits := by
    rw [sameTsn] at again
    exact found_unique found again
  cases commits with
  | absent absent =>
    rw [sameTsn, found.inLog] at absent
    cases absent
  | already again => exact absurd (only again).2.1 (by decide)
  | expired again => exact absurd (only again).2.1 (by decide)
  | otherNumber again _ differs =>
    obtain ⟨_, _, rfl⟩ := only again
    exact absurd sameSeq.symm differs
  | nothing _ _ low =>
    rw [sameSeq] at low
    omega
  | incomplete again _ _ gaps =>
    obtain ⟨rfl, _, _⟩ := only again
    rw [sameSeq] at gaps
    exact absurd complete gaps
  | primary => exact Or.inl rfl
  | written => exact Or.inl rfl
  | failed _ _ _ _ _ _ _ _ text => exact Or.inr ⟨_, text⟩

end

section
variable {π : Type} {answer : Answer π} {fuel : Nat} {server : Server π} {env : Env} {auth : Bool} {header data packet : Text}
  {payload : Option Text} {handled : Handled π}

/-- What is left to say of an answer that is neither an ACK nor a request. -/
inductive Settled (answer : Answer π) (fuel : Nat) (server : Server π) (io : Bool) (header data packet : Text) : Handled π → Prop where
  | answered {handled : Handled π} (same : handled.server = server) (only : handled.effects = [.send packet])
      (notFailed : parse header = 3 ∨ parse header = 5 → ¬ CommitFailed packet) : Settled answer fuel server io header data packet handled
  | failed {base : Log} {commit : Text} {out : Outcome} {handled : Handled π} (text : CommitFailed packet)
      (attempt : Attempt server.log header data base commit) (commits : Commits base commit io out)
      (fails : Fails answer fuel server out packet handled) : Settled answer fuel server io header data packet handled

/-- A packet that is not executed is answered and nothing else. -/
theorem receive_idle (idle : ¬ Executed server auth header payload) (ran : receive answer fuel env server auth header payload = .ok handled) :
    handled.server = server ∧ ∃ text, (genAnswerStr "AUTH_FAIL" header "321" "Not authorized" = .ok text ∨
      genAnswerStr "ERROR" header "204" "Method requires data." = .ok text) ∧ handled.effects = [.send text] := by
  have refused {data : Text} (complete : needsData header = true → payload ≠ none)
      (ran : dispatch answer fuel env server auth header data = .ok handled) :
      handled.server = server ∧ ∃ text, (genAnswerStr "AUTH_FAIL" header "321" "Not authorized" = .ok text ∨
        genAnswerStr "ERROR" header "204" "Method requires data." = .ok text) ∧ handled.effects = [.send text] := by
    obtain ⟨out, executed, follows⟩ := dispatch_cases ran
    obtain ⟨refused, checked, executed⟩ := bind_eq_ok.mp executed
    cases refused with
    | false => exact absurd ⟨checked, complete⟩ idle
    | true =>
      obtain ⟨error, text, same⟩ := bind_eq_ok.mp executed
      cases same
      have answered : Answered header error := ⟨_, _, _, text⟩
      obtain rfl := follows.of_refused rfl answered.ne_codes
      exact ⟨rfl, error, Or.inl text, rfl⟩
  cases payload with
  | some data => exact refused (fun _ => Option.some_ne_none data) ran
  | none =>
    simp only [receive] at ran
    split at ran
    next =>
      obtain ⟨error, text, same⟩ := bind_eq_ok.mp ran
      cases same
      exact ⟨rfl, error, Or.inr text, rfl⟩
    next unneeded => exact refused (fun needed => absurd needed unneeded) ran

theorem receive_executed (executed : Executed server auth header payload) (ran : receive answer fuel env server auth header payload = .ok handled) :
    ∃ out, Executes server env auth header (payload.getD " ") out ∧ Follows answer fuel env.io header out handled := by
  have dispatched : dispatch answer fuel env server auth header (payload.getD " ") = .ok handled := by
    cases payload with
    | some data => exact ran
    | none =>
      have unneeded : needsData header = false := by
        by_contra needed
        exact executed.complete (by simpa using needed) rfl
      simp only [receive, unneeded, Bool.false_eq_true, if_false] at ran
      exact ran
  obtain ⟨out, ran, follows⟩ := dispatch_cases dispatched
  exact ⟨out, executeCommand_cases ran, follows⟩

theorem asked_begins {log : Log} {tsn : Int} {packets : List Effect} (ran : sendAckResend log tsn = .ok packets)
    (sent : .send packet ∈ packets) : Begins packet "ACK_RESEND" := by
  unfold sendAckResend at ran
  obtain ⟨number, _, ran⟩ := bind_eq_ok.mp ran
  obtain ⟨⟨ready, stack⟩, _, ran⟩ := bind_eq_ok.mp ran
  obtain ⟨seq, _, made⟩ := mem_of_mapM ran sent
  obtain ⟨text, made, same⟩ := bind_eq_ok.mp made
  cases same
  exact genAnswerStr_head (by decide) made

theorem ack_begins {code errString : Text} (made : genAnswerStr "ACK" header code errString = .ok packet) : Begins packet "ACK" :=
  genAnswerStr_head (by decide) made

/-- A commit in the log that is not carried out answers and does nothing else,
or its append has failed. -/
theorem Commits.refused {log : Log} {io : Bool} {out : Outcome} (commits : Commits log header io out) (notAsked : out.code ≠ "incomplete")
    (notDone : out.code ≠ "committed") : (out = .reply log out.code ∧ ¬ CommitFailed out.code) ∨ CommitFailed out.code := by
  cases commits with
  | absent _ text | already _ _ text | expired _ text | otherNumber _ _ _ text | nothing _ _ _ text =>
    exact Or.inl ⟨rfl, not_commitFailed (genAnswerStr_code (by decide) (by decide) text) (by decide)⟩
  | incomplete => exact absurd rfl notAsked
  | primary | written => exact absurd rfl notDone
  | failed _ _ _ _ _ _ _ _ text => exact Or.inr ⟨_, text⟩

/-- A WRITE that is not accepted answers and does nothing else, or it completes
the record of a pending commit. -/
theorem Adds.refused {log : Log} {io : Bool} {out : Outcome} (adds : Adds log header data io out) (method : parse header = 5)
    (kept : out.ret = false) :
    (out = .reply log out.code ∧ Answered header out.code ∧ ¬ CommitFailed out.code) ∨
      ∃ base commit, Attempt log header data base commit ∧ Commits base commit io out ∧ (out.code = "committed" ∨ CommitFailed out.code) := by
  cases adds with
  | low _ text | absent _ _ text | committed _ _ text | expired _ _ text | duplicate _ _ _ _ _ text | above _ _ _ _ text =>
    exact Or.inl ⟨rfl, ⟨_, _, _, text⟩, not_commitFailed (genAnswerStr_code (by decide) (by decide) text) (by decide)⟩
  | kept | added => cases kept
  | completes high found fresh below grows complete commits =>
    subst grows
    exact Or.inr ⟨_, _, .pending method high found fresh below, commits,
      pending_tries (found.grow high _) (Int.le_trans high below) complete commits⟩

/-- The end of a commit that goes on. -/
theorem Concludes.settled {io : Bool} {asked : Server π} {base : Log} {commit data : Text} {out : Outcome} {done : Handled π}
    (concludes : Concludes answer fuel io asked auth header done) (log : asked.log = out.log) (code : out.code = "committed")
    (attempt : Attempt server.log header data base commit) (commits : Commits base commit io out)
    (sent : .send packet ∈ out.effects ++ done.effects) :
    Begins packet "ACK" ∨ Settled answer fuel server io header data packet { done with effects := out.effects ++ done.effects } := by
  have inside : Effect.send packet ∈ done.effects := by
    rcases List.mem_append.mp sent with early | late
    · exact absurd early (commits.no_send packet)
    · exact late
  cases concludes with
  | acknowledged _ _ text =>
    cases List.mem_singleton.mp inside
    exact Or.inl (ack_begins text)
  | refused primary refuses text =>
    cases List.mem_singleton.mp inside
    exact Or.inr (.failed ⟨_, text⟩ attempt commits (.replication code log (log ▸ primary) refuses))
  | exits => cases inside
  | @finishes message ack final effects log primary replicates written marks text =>
    have only : packet = ack := by
      rcases writeFile_cases written with ⟨_, _, path, lines, rfl, _⟩ | ⟨absurd, _⟩
      · simpa using inside
      · cases absurd
    exact Or.inl (only ▸ ack_begins text)

/-- A packet that is not executed. -/
theorem idle_settled (idle : ¬ Executed server auth header payload) (ran : receive answer fuel env server auth header payload = .ok handled)
    (sent : .send packet ∈ handled.effects) : Settled answer fuel server env.io header (payload.getD " ") packet handled := by
  obtain ⟨same, text, made, only⟩ := receive_idle idle ran
  rw [only, List.mem_singleton, Effect.send.injEq] at sent
  subst sent
  refine .answered same only (fun _ => ?_)
  rcases made with made | made
  · exact not_commitFailed (genAnswerStr_code (by decide) (by decide) made) (by decide)
  · exact not_commitFailed (genAnswerStr_code (by decide) (by decide) made) (by decide)

section
variable {io : Bool} (sent : .send packet ∈ handled.effects)
include sent

/-- A handler that returns false leaves the answer to the session. -/
theorem refused_settled {text : Text} (follows : Follows answer fuel io header { server, auth, ret := false, error := text } handled)
    (ne_codes : text ≠ "incomplete" ∧ text ≠ "committed") (notFailed : parse header = 3 ∨ parse header = 5 → ¬ CommitFailed text) :
    Settled answer fuel server io header data packet handled := by
  obtain rfl := follows.of_refused rfl ne_codes
  cases List.mem_singleton.mp sent
  exact .answered rfl rfl notFailed

/-- A handler that succeeds, and the only packet it sends. -/
theorem done_sends {out : Command π} {ack : Text} {effects : List Effect} (follows : Follows answer fuel io header out handled)
    (done : out.ret = true) (shape : out.effects = effects ++ [.send ack]) (quiet : Effect.send packet ∉ effects) : packet = ack := by
  obtain rfl := follows.of_done done
  rw [shape] at sent
  rcases List.mem_append.mp sent with early | here
  · exact absurd early quiet
  · cases List.mem_singleton.mp here
    rfl

/-- The answer to a COMMIT. -/
theorem commit_answered {out : Outcome} (follows : Follows answer fuel io header (ofOutcome server auth out) handled) (method : parse header = 3)
    (commits : Commits server.log header io out) :
    Begins packet "ACK" ∨ Begins packet "ACK_RESEND" ∨ Settled answer fuel server io header data packet handled := by
  by_cases asked : out.code = "incomplete"
  · obtain ⟨packets, missing, rfl⟩ := follows.of_incomplete commits.ret asked
    rcases List.mem_append.mp sent with early | late
    · exact absurd early (commits.no_send packet)
    · exact Or.inr (Or.inl (asked_begins missing late))
  by_cases code : out.code = "committed"
  · obtain ⟨done, concludes, rfl⟩ := follows.of_committed commits.ret code
    exact (concludes.settled rfl code (.own method) commits sent).imp id Or.inr
  obtain rfl := follows.of_refused commits.ret ⟨asked, code⟩
  rcases List.mem_append.mp sent with early | here
  · exact absurd early (commits.no_send packet)
  cases List.mem_singleton.mp here
  refine Or.inr (Or.inr ?_)
  rcases commits.refused asked code with ⟨same, notFailed⟩ | failed
  · refine .answered ?_ ?_ (fun _ => notFailed)
    · rw [same]
      rfl
    · rw [same]
      rfl
  · exact .failed failed (.own method) commits (.append rfl)

/-- The answer to a WRITE that is not accepted and completes no commit. -/
theorem write_settled {out : Outcome} (follows : Follows answer fuel io header (ofOutcome server auth out) handled) (method : parse header = 5)
    (adds : Adds server.log header data io out) (refused : out.ret = false) (notDone : out.code ≠ "committed") :
    Settled answer fuel server io header data packet handled := by
  rcases adds.refused method refused with ⟨same, answered, notFailed⟩ | ⟨base, commit, attempt, commits, code⟩
  · have shape : ofOutcome server auth out = { server, auth, ret := false, error := out.code } := by
      rw [same]
      rfl
    rw [shape] at follows
    exact refused_settled sent follows answered.ne_codes (fun _ => notFailed)
  obtain ⟨tail, text⟩ := code.resolve_left notDone
  obtain rfl := follows.of_refused refused (Answered.ne_codes ⟨_, _, _, text⟩)
  rcases List.mem_append.mp sent with early | here
  · exact absurd early (adds.no_send packet)
  cases List.mem_singleton.mp here
  exact .failed ⟨tail, text⟩ attempt commits (.append rfl)

end

/-- Every answer of a session is an ACK, a request for a write, or settles the
packet without carrying it out. -/
theorem answered_cases (ran : receive answer fuel env server auth header payload = .ok handled) (sent : .send packet ∈ handled.effects) :
    Begins packet "ACK" ∨ Begins packet "ACK_RESEND" ∨ Settled answer fuel server env.io header (payload.getD " ") packet handled := by
  by_cases executed : Executed server auth header payload
  case neg => exact Or.inr (Or.inr (idle_settled executed ran sent))
  obtain ⟨out, executes, follows⟩ := receive_executed executed ran
  have other {number : Nat} (method : parse header = number) (differs : number ≠ 3 ∧ number ≠ 5) {text : Text} :
      parse header = 3 ∨ parse header = 5 → ¬ CommitFailed text := by
    rintro (commit | write)
    · exact absurd (method.symm.trans commit) differs.1
    · exact absurd (method.symm.trans write) differs.2
  cases executes with
  | refused cause refusal =>
    refine Or.inr (Or.inr (refused_settled sent follows refusal.answered.ne_codes ?_))
    intro method
    rcases cause with unauthorized | unknown
    · rw [executed.authorized] at unauthorized
      cases unauthorized
    · exact absurd (method.elim (fun commit => Or.inr (Or.inl commit)) (fun write => Or.inr (Or.inr (Or.inl write)))) unknown
  | read method =>
    obtain rfl := follows.of_done rfl
    cases List.mem_singleton.mp sent
    exact Or.inr (Or.inr (.answered rfl rfl (other method (by decide))))
  | notAborted method aborts kept =>
    have refusal := aborts.refused kept
    cases aborts with
    | erased => cases kept
    | absent | committed | expired =>
      exact Or.inr (Or.inr (refused_settled sent follows refusal.answered.ne_codes (other method (by decide))))
  | aborted _ _ _ _ text => exact Or.inl (done_sends sent follows rfl (List.nil_append _).symm List.not_mem_nil ▸ ack_begins text)
  | @created _ effects tsn _ ack _ creates valid _ text =>
    rcases newTxn_cases creates with ⟨_, _, zero, _⟩ | ⟨_, _, _, _, saves⟩
    · exact absurd zero valid
    · have only : packet = ack := done_sends sent follows rfl rfl (by simp [saves])
      refine Or.inl ?_
      rw [Begins, only, text, created_fields]
      rfl
  | commits method commits => exact commit_answered sent follows method commits
  | added _ adds _ _ text => exact Or.inl (done_sends sent follows rfl rfl (adds.no_send packet) ▸ ack_begins text)
  | completed method adds refused code enqueued =>
    obtain ⟨done, concludes, rfl⟩ := follows.of_committed rfl code
    rcases adds.refused method refused with ⟨_, answered, _⟩ | ⟨base, commit, attempt, commits, _⟩
    · exact absurd code answered.ne_codes.2
    · exact (concludes.settled (enqueue_log enqueued) code attempt commits sent).imp id Or.inr
  | notAdded method adds refused notDone => exact Or.inr (Or.inr (write_settled sent follows method adds refused notDone))
  | made _ makes text => exact Or.inl (done_sends sent follows rfl rfl (makeTxn_no_send makes packet) ▸ ack_begins text)
  | pinged _ text => exact Or.inl (done_sends sent follows rfl (List.nil_append _).symm List.not_mem_nil ▸ ack_begins text)
  | authenticated | demoted =>
    obtain rfl := follows.of_done rfl
    cases sent

end

end TransactionalServer.Proofs
