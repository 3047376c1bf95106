import TransactionalServer.System
import TransactionalServer.Proofs.BackupSteps
import TransactionalServer.Proofs.ManagerFrames

/-! What a session does with one packet, on any server and with any peer, and
what a server does in one step. Later results about runs read these cases. -/

namespace TransactionalServer.Proofs
open ServerTools LogHandler Exec Session

variable {π : Type} {answer : Answer π} {fuel : Nat} {server : Server π} {env : Env} {auth : Bool} {header data : Text}

/-- A packet that is executed: its session may, and its method has what it needs. -/
structure Executed (server : Server π) (auth : Bool) (header : Text) (payload : Option Text) : Prop where
  authorized : unauthorized server auth (parse header) = .ok false
  complete : needsData header = true → payload ≠ none

/-- A commit that goes on has a number. -/
theorem Commits.high {log : Log} {io : Bool} {out : Outcome} (commits : Commits log header io out) (code : out.code = "committed") :
    1 ≤ getSeq header := by
  cases commits with
  | absent _ text | already _ _ text | expired _ text | otherNumber _ _ _ text | nothing _ _ _ text =>
    exact absurd code (Answered.ne_codes ⟨_, _, _, text⟩).2
  | incomplete _ _ high | primary _ _ high | written _ _ high | failed _ _ high => exact high

theorem Adds.high {log : Log} {io : Bool} {out : Outcome} (adds : Adds log header data io out) (code : out.code = "committed") :
    1 ≤ getSeq header := by
  cases adds with
  | low _ text => exact absurd code (Answered.ne_codes ⟨_, _, _, text⟩).2
  | absent high | committed high | expired high | duplicate high | above high | kept high | completes high | added high => exact high

theorem Aborts.refused {log : Log} {out : Outcome} (aborts : Aborts log header out) (kept : out.ret = false) : Refusal header out.code := by
  cases aborts with
  | absent _ text | committed _ text | expired _ text => exact ⟨_, _, _, Or.inl rfl, text⟩
  | erased => cases kept

/-- Only a COMMIT or a WRITE asks for a commit. -/
theorem Executes.committed_method {out : Command π} (executes : Executes server env auth header data out) (refused : out.ret = false)
    (code : out.error = "committed") : parse header = 3 ∨ parse header = 5 := by
  cases executes with
  | refused _ refusal => exact absurd code refusal.answered.ne_codes.2
  | notAborted _ aborts kept => exact absurd code (aborts.refused kept).answered.ne_codes.2
  | commits method => exact Or.inl method
  | completed method => exact Or.inr method
  | notAdded _ _ _ other => exact absurd code other
  | read | aborted | created | added | made | pinged | authenticated | demoted => cases refused

/-- A commit that is asked for has a number. -/
theorem Executes.high {out : Command π} (executes : Executes server env auth header data out) (refused : out.ret = false)
    (code : out.error = "committed") : 1 ≤ getSeq header := by
  cases executes with
  | refused _ refusal => exact absurd code refusal.answered.ne_codes.2
  | notAborted _ aborts kept => exact absurd code (aborts.refused kept).answered.ne_codes.2
  | commits _ commits => exact commits.high code
  | completed _ adds => exact adds.high code
  | notAdded _ _ _ other => exact absurd code other
  | read | aborted | created | added | made | pinged | authenticated | demoted => cases refused

theorem Aborts.effects {log : Log} {out : Outcome} (aborts : Aborts log header out) : out.effects = [] := by
  cases aborts <;> rfl

/-- The requests for missing writes are all packets. -/
theorem sendAckResend_effects {log : Log} {tsn : Int} {packets : List Effect} (ran : sendAckResend log tsn = .ok packets) :
    ∀ effect ∈ packets, ∃ packet, effect = .send packet := by
  unfold sendAckResend at ran
  obtain ⟨number, _, ran⟩ := bind_eq_ok.mp ran
  obtain ⟨⟨ready, stack⟩, _, ran⟩ := bind_eq_ok.mp ran
  intro effect member
  obtain ⟨seq, _, made⟩ := mem_of_mapM ran member
  obtain ⟨packet, _, same⟩ := bind_eq_ok.mp made
  cases same
  exact ⟨packet, rfl⟩

/-- The ends of `doCommit`. -/
inductive Concludes (answer : Answer π) (fuel : Nat) (io : Bool) (server : Server π) (auth : Bool) (header : Text) : Handled π → Prop where
  | acknowledged {role ack : Text} (read : getServerStatus server.log = .ok role) (backup : role ≠ "primary")
      (text : genAnswerStr "ACK" header "0" "Committed successfully." = .ok ack) :
      Concludes answer fuel io server auth header { server, effects := [.send ack], auth }
  | refused {message error : Text} {final : Server π} (primary : getServerStatus server.log = .ok "primary")
      (refuses : ReplicationManager.commit answer fuel server message = .ok (false, final))
      (text : genAnswerStr "ERROR" header "205" "commit fail, i/o error" = .ok error) :
      Concludes answer fuel io server auth header { server := final, effects := [.send error], auth }
  | exits {message : Text} {final : Server π} {effects : List Effect} (primary : getServerStatus server.log = .ok "primary")
      (replicates : ReplicationManager.commit answer fuel server message = .ok (true, final))
      (written : writeFile final.log (getTsn header) io = .ok (false, effects)) :
      Concludes answer fuel io server auth header { server := final, effects := [], auth, exited := true }
  | finishes {message ack : Text} {final : Server π} {effects : List Effect} {log : Log}
      (primary : getServerStatus server.log = .ok "primary")
      (replicates : ReplicationManager.commit answer fuel server message = .ok (true, final))
      (written : writeFile final.log (getTsn header) io = .ok (true, effects))
      (marks : changeStatus final.log (getTsn header) "COMMITTED" = .ok log)
      (text : genAnswerStr "ACK" header "0" "Committed successfully." = .ok ack) :
      Concludes answer fuel io server auth header
        { server := { final with log }, effects := effects ++ [.save log, .send ack], auth }

/-- A commit that goes on may forget the backup, and marks its transaction at most. -/
theorem Concludes.forgets {io : Bool} {done : Handled π} (concludes : Concludes answer fuel io server auth header done) :
    ∃ final, Forgets server final ∧ done.server.link = final.link ∧ (done.server.log = final.log ∨ ∃ record status number,
      Found final.log (getTsn header) record status number ∧ done.server.log = mark final.log (getTsn header) record "COMMITTED" number) := by
  cases concludes with
  | acknowledged => exact ⟨server, ⟨[], rfl, Or.inl rfl⟩, rfl, Or.inl rfl⟩
  | refused _ commits | exits _ commits => exact ⟨_, (manager_forgets answer fuel).2.1 _ _ _ _ commits, rfl, Or.inl rfl⟩
  | finishes _ commits _ marks =>
    obtain ⟨record, status, number, found, same⟩ := changeStatus_cases marks
    exact ⟨_, (manager_forgets answer fuel).2.1 _ _ _ _ commits, rfl, Or.inr ⟨record, status, number, found, same⟩⟩

theorem Concludes.log {io : Bool} {done : Handled π} (concludes : Concludes answer fuel io server auth header done) :
    ∃ kept, LogKept server.log kept ∧ (done.server.log = kept ∨ ∃ record status number,
      Found kept (getTsn header) record status number ∧ done.server.log = mark kept (getTsn header) record "COMMITTED" number) := by
  obtain ⟨final, forgets, _, marked⟩ := concludes.forgets
  exact ⟨final.log, forgets.kept, marked⟩

theorem Concludes.frame {io : Bool} {done : Handled π} (concludes : Concludes answer fuel io server auth header done) {other : Int}
    (differs : other ≠ getTsn header) (notBackup : other ≠ -1) : done.server.log[other]? = server.log[other]? := by
  obtain ⟨kept, unchanged, same | ⟨record, status, number, _, same⟩⟩ := concludes.log
  · rw [same]
    exact unchanged.other notBackup
  · rw [same, mark_other differs]
    exact unchanged.other notBackup

theorem doCommit_cases {io : Bool} {handled : Handled π} (ran : doCommit answer fuel io server auth header = .ok handled) :
    Concludes answer fuel io server auth header handled := by
  unfold doCommit at ran
  obtain ⟨ack, text, ran⟩ := bind_eq_ok.mp ran
  obtain ⟨role, read, ran⟩ := bind_eq_ok.mp ran
  split at ran
  next primary =>
    subst primary
    obtain ⟨seq, _, ran⟩ := bind_eq_ok.mp ran
    obtain ⟨⟨replicated, final⟩, commits, ran⟩ := bind_eq_ok.mp ran
    cases replicated with
    | true =>
      obtain ⟨⟨written, effects⟩, file, ran⟩ := bind_eq_ok.mp ran
      cases written with
      | true =>
        obtain ⟨log, marks, same⟩ := bind_eq_ok.mp ran
        cases same
        exact .finishes read commits file marks text
      | false =>
        cases ran
        exact .exits read commits file
    | false =>
      obtain ⟨error, text, same⟩ := bind_eq_ok.mp ran
      cases same
      exact .refused read commits text
  next backup =>
    cases ran
    exact .acknowledged read backup text

/-- What `handle_read` makes of a command's result. -/
inductive Follows (answer : Answer π) (fuel : Nat) (io : Bool) (header : Text) (out : Command π) : Handled π → Prop where
  | returned (done : out.ret = true) :
      Follows answer fuel io header out { server := out.server, effects := out.effects, auth := out.auth }
  | asks {packets : List Effect} (refused : out.ret = false) (code : out.error = "incomplete")
      (missing : sendAckResend out.server.log (getTsn header) = .ok packets) :
      Follows answer fuel io header out { server := out.server, effects := out.effects ++ packets, auth := out.auth }
  | concludes {done : Handled π} (refused : out.ret = false) (code : out.error = "committed")
      (concludes : Concludes answer fuel io out.server out.auth header done) :
      Follows answer fuel io header out { done with effects := out.effects ++ done.effects }
  | answers (refused : out.ret = false) (other : out.error ≠ "committed") (notAsked : out.error ≠ "incomplete") :
      Follows answer fuel io header out { server := out.server, effects := out.effects ++ [.send out.error], auth := out.auth }

section
variable {io : Bool} {out : Command π} {handled : Handled π} (follows : Follows answer fuel io header out handled)
include follows

/-- A command that succeeds has sent its answer itself. -/
theorem Follows.of_done (done : out.ret = true) : handled = { server := out.server, effects := out.effects, auth := out.auth } := by
  cases follows with
  | returned => rfl
  | asks refused | concludes refused | answers refused => cases refused.symm.trans done

theorem Follows.of_incomplete (refused : out.ret = false) (code : out.error = "incomplete") :
    ∃ packets, sendAckResend out.server.log (getTsn header) = .ok packets ∧
      handled = { server := out.server, effects := out.effects ++ packets, auth := out.auth } := by
  cases follows with
  | returned done => cases refused.symm.trans done
  | asks _ _ missing => exact ⟨_, missing, rfl⟩
  | concludes _ other => exact absurd (code.symm.trans other) (by decide)
  | answers _ _ notAsked => exact absurd code notAsked

theorem Follows.of_committed (refused : out.ret = false) (code : out.error = "committed") :
    ∃ done, Concludes answer fuel io out.server out.auth header done ∧ handled = { done with effects := out.effects ++ done.effects } := by
  cases follows with
  | returned done => cases refused.symm.trans done
  | asks _ other => exact absurd (code.symm.trans other) (by decide)
  | concludes _ _ concludes => exact ⟨_, concludes, rfl⟩
  | answers _ other => exact absurd code other

/-- Any other text is the answer. -/
theorem Follows.of_refused (refused : out.ret = false) (ne_codes : out.error ≠ "incomplete" ∧ out.error ≠ "committed") :
    handled = { server := out.server, effects := out.effects ++ [.send out.error], auth := out.auth } := by
  cases follows with
  | returned done => cases refused.symm.trans done
  | asks _ code => exact absurd code ne_codes.1
  | concludes _ code => exact absurd code ne_codes.2
  | answers => rfl

end

theorem dispatch_cases {handled : Handled π} (ran : dispatch answer fuel env server auth header data = .ok handled) :
    ∃ out, executeCommand env server auth (parse header) header data = .ok out ∧ Follows answer fuel env.io header out handled := by
  unfold dispatch at ran
  obtain ⟨out, executed, ran⟩ := bind_eq_ok.mp ran
  refine ⟨out, executed, ?_⟩
  split at ran
  next done =>
    cases ran
    exact .returned done
  next refused =>
  have refused : out.ret = false := by simpa using refused
  split at ran
  next code =>
    obtain ⟨packets, missing, same⟩ := bind_eq_ok.mp ran
    cases same
    exact .asks refused code missing
  next notAsked =>
  split at ran
  next code =>
    obtain ⟨done, committed, same⟩ := bind_eq_ok.mp ran
    cases same
    exact .concludes refused code (doCommit_cases committed)
  next other =>
    cases ran
    exact .answers refused other notAsked

/-- A packet is executed, or answered and nothing else. -/
theorem receive_cases {payload : Option Text} {handled : Handled π}
    (ran : receive answer fuel env server auth header payload = .ok handled) :
    (handled.server = server ∧ handled.exited = false ∧ handled.auth = auth ∧
        ∃ packet, Refusal header packet ∧ handled.effects = [.send packet]) ∨
      (Executed server auth header payload ∧ ∃ out, Executes server env auth header (payload.getD " ") out ∧
        Follows answer fuel env.io header out handled) := by
  have executes (complete : needsData header = true → payload ≠ none)
      (ran : dispatch answer fuel env server auth header (payload.getD " ") = .ok handled) :
      (handled.server = server ∧ handled.exited = false ∧ handled.auth = auth ∧
          ∃ packet, Refusal header packet ∧ handled.effects = [.send packet]) ∨
        (Executed server auth header payload ∧ ∃ out, Executes server env auth header (payload.getD " ") out ∧
          Follows answer fuel env.io header out handled) := by
    obtain ⟨out, executed, follows⟩ := dispatch_cases ran
    cases checked : unauthorized server auth (parse header) with
    | error halt =>
      simp only [executeCommand, checked, error_bind, reduceCtorEq] at executed
    | ok refused =>
      cases refused with
      | false => exact Or.inr ⟨⟨checked, complete⟩, out, executeCommand_cases executed, follows⟩
      | true =>
        simp only [executeCommand, checked, ok_bind, if_true] at executed
        obtain ⟨error, text, same⟩ := bind_eq_ok.mp executed
        cases same
        have spaced : Answered header error := ⟨_, _, _, text⟩
        obtain rfl := follows.of_refused rfl spaced.ne_codes
        exact Or.inl ⟨rfl, rfl, rfl, error, ⟨_, _, _, Or.inr (Or.inr rfl), text⟩, rfl⟩
  unfold receive at ran
  cases payload with
  | some data => exact executes (fun _ => Option.some_ne_none data) ran
  | none =>
    simp only at ran
    split at ran
    next =>
      obtain ⟨error, text, same⟩ := bind_eq_ok.mp ran
      cases same
      exact Or.inl ⟨rfl, rfl, rfl, error, ⟨_, _, _, Or.inl rfl, text⟩, rfl⟩
    next unneeded =>
      refine executes (fun needed => ?_) ran
      exact absurd needed unneeded

/-- A packet changes the server by its command and by the commit that this asks for. -/
theorem receive_server {payload : Option Text} {handled : Handled π}
    (ran : receive answer fuel env server auth header payload = .ok handled) :
    handled.server = server ∨ ∃ out, Executes server env auth header (payload.getD " ") out ∧
      (handled.server = out.server ∨ (out.ret = false ∧ out.error = "committed" ∧
        ∃ done, doCommit answer fuel env.io out.server out.auth header = .ok done ∧ handled.server = done.server)) := by
  have dispatched (ran : dispatch answer fuel env server auth header (payload.getD " ") = .ok handled) :
      ∃ out, Executes server env auth header (payload.getD " ") out ∧
        (handled.server = out.server ∨ (out.ret = false ∧ out.error = "committed" ∧
          ∃ done, doCommit answer fuel env.io out.server out.auth header = .ok done ∧ handled.server = done.server)) := by
    unfold dispatch at ran
    obtain ⟨out, executed, ran⟩ := bind_eq_ok.mp ran
    refine ⟨out, executeCommand_cases executed, ?_⟩
    split at ran
    · cases ran
      exact Or.inl rfl
    next asked =>
    split at ran
    · obtain ⟨packets, _, same⟩ := bind_eq_ok.mp ran
      cases same
      exact Or.inl rfl
    split at ran
    next code =>
      obtain ⟨done, committed, same⟩ := bind_eq_ok.mp ran
      cases same
      exact Or.inr ⟨by simpa using asked, code, done, committed, rfl⟩
    next =>
      cases ran
      exact Or.inl rfl
  unfold receive at ran
  cases payload with
  | some data => exact Or.inr (dispatched ran)
  | none =>
    simp only at ran
    split at ran
    · obtain ⟨text, _, same⟩ := bind_eq_ok.mp ran
      cases same
      exact Or.inl rfl
    · exact Or.inr (dispatched ran)

/-- What happened to a server that still runs. -/
inductive Steps (answer : Answer π) (fuel : Nat) (server : Server π) : System.Event → Server π → Prop where
  | packet {env : Env} {auth : Bool} {header : Text} {payload : Option Text} {handled : Handled π}
      (valid : validHeader header = true) (drawn : ∀ draw ∈ env.draws, 1 ≤ draw ∧ draw ≤ 100000)
      (received : receive answer fuel env server auth header payload = .ok handled) :
      Steps answer fuel server (.packet env auth header payload valid drawn) handled.server
  | sweep {log : Log} {dangling : Bool} (swept : timeouts server.log = .ok (log, dangling)) :
      Steps answer fuel server .sweep { server with log }
  | save : Steps answer fuel server .save server
  | tick {tick : ReplicationManager.Tick} {next : Server π}
      (checked : ReplicationManager.check answer fuel tick server = .ok (some next)) : Steps answer fuel server (.tick tick) next

theorem perform_cases {event : System.Event} {next : Server π} {effects : List Effect}
    (performed : System.perform answer fuel server event = .ok (some next, effects)) : Steps answer fuel server event next := by
  cases event with
  | packet env auth header payload valid drawn =>
    obtain ⟨handled, received, same⟩ := bind_eq_ok.mp performed
    obtain ⟨running, _⟩ := Prod.mk.inj (Except.ok.inj same)
    split at running
    · cases running
    obtain rfl := Option.some.inj running
    exact .packet valid drawn received
  | sweep =>
    obtain ⟨⟨log, dangling⟩, swept, same⟩ := bind_eq_ok.mp performed
    cases same
    exact .sweep swept
  | save =>
    cases performed
    exact .save
  | tick tick =>
    obtain ⟨ticked, checked, same⟩ := bind_eq_ok.mp performed
    cases same
    exact .tick checked

theorem step_cases {event : System.Event} {next : Server π} (stepped : System.step answer fuel server event = .ok next) :
    Steps answer fuel server event next := by
  obtain ⟨⟨running, effects⟩, performed, runs⟩ := bind_eq_ok.mp stepped
  obtain rfl := finished_eq_ok.mp runs
  exact perform_cases performed

end TransactionalServer.Proofs
