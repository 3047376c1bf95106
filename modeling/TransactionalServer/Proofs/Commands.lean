import TransactionalServer.Proofs.LogSteps
import TransactionalServer.Proofs.Replies
import TransactionalServer.Session

/-! What one command can do, method by method. -/

namespace TransactionalServer.Proofs
open ServerTools LogHandler Exec Session

variable {π : Type}

/-- A text that `genAnswerStr` made for this header. -/
def Answered (header text : Text) : Prop := ∃ method code errString, genAnswerStr method header code errString = .ok text

/-- An answer that says that the packet was not carried out. -/
def Refusal (header text : Text) : Prop :=
  ∃ method code errString : Text, (method = "ERROR" ∨ method = "WARNING" ∨ method = "AUTH_FAIL") ∧
    genAnswerStr method header code errString = .ok text

theorem Refusal.answered {header text : Text} (refusal : Refusal header text) : Answered header text := by
  obtain ⟨method, code, errString, _, made⟩ := refusal
  exact ⟨method, code, errString, made⟩

theorem answered_has_space {header text : Text} (answered : Answered header text) : ' ' ∈ text := by
  obtain ⟨method, code, errString, made⟩ := answered
  obtain ⟨_, _, _, _, _, _, rfl⟩ := genAnswerStr_shape made
  simp [compose]

theorem Commits.ret {log : Log} {header : Text} {io : Bool} {out : Outcome} (commits : Commits log header io out) :
    out.ret = false := by
  cases commits <;> rfl

/-- The code says what the session does next. -/
theorem Commits.code {log : Log} {header : Text} {io : Bool} {out : Outcome} (commits : Commits log header io out) :
    (out.code = "incomplete" ∧ ∃ record status number, Found log (getTsn header) record status number ∧
      missing record (getSeq header) ≠ [] ∧ out.log = mark log (getTsn header) record "WAITING" (iToS (getSeq header))) ∨
      out.code = "committed" ∨ Answered header out.code := by
  cases commits with
  | absent _ text => exact Or.inr (Or.inr ⟨_, _, _, text⟩)
  | already _ _ text => exact Or.inr (Or.inr ⟨_, _, _, text⟩)
  | expired _ text => exact Or.inr (Or.inr ⟨_, _, _, text⟩)
  | otherNumber _ _ _ text => exact Or.inr (Or.inr ⟨_, _, _, text⟩)
  | nothing _ _ _ text => exact Or.inr (Or.inr ⟨_, _, _, text⟩)
  | incomplete found _ _ gaps marked => exact Or.inl ⟨rfl, _, _, _, found, gaps, marked⟩
  | primary => exact Or.inr (Or.inl rfl)
  | written => exact Or.inr (Or.inl rfl)
  | failed _ _ _ _ _ _ _ _ text => exact Or.inr (Or.inr ⟨_, _, _, text⟩)

/-- A packet joins the queue of a primary only. -/
theorem enqueue_eq_ok {server queued : Server π} {header data : Text} :
    ReplicationManager.enqueue server header data = .ok queued ↔
      ∃ role, getServerStatus server.log = .ok role ∧
        queued = if role = "primary" then
          { server with manager := { server.manager with syncQueue := server.manager.syncQueue ++ [(header, data)] } }
        else server := by
  unfold ReplicationManager.enqueue
  rw [bind_eq_ok]
  constructor
  · rintro ⟨role, read, rest⟩
    refine ⟨role, read, ?_⟩
    split at rest <;> cases rest
    · next primary => rw [if_pos primary]
    · next other => rw [if_neg other]
  · rintro ⟨role, read, rfl⟩
    refine ⟨role, read, ?_⟩
    split <;> rfl

theorem enqueue_primary {server : Server π} (role : getServerStatus server.log = .ok "primary") (header data : Text) :
    ReplicationManager.enqueue server header data =
      .ok { server with manager := { server.manager with syncQueue := server.manager.syncQueue ++ [(header, data)] } } := by
  rw [enqueue_eq_ok]
  exact ⟨_, role, by rw [if_pos rfl]⟩

/-- The methods that a primary queues for its backup. -/
def Replicated (header : Text) : Prop := parse header = 1 ∨ parse header = 3 ∨ parse header = 5 ∨ parse header = 6

theorem not_replicated {header : Text} (replicated : Replicated header) {method : Nat} (other : method ≠ 1 ∧ method ≠ 3 ∧
    method ≠ 5 ∧ method ≠ 6) : parse header ≠ method := by
  rintro rfl
  rcases replicated with same | same | same | same
  · exact other.1 same
  · exact other.2.1 same
  · exact other.2.2.1 same
  · exact other.2.2.2 same

inductive Executes (server : Server π) (env : Env) (auth : Bool) (header data : Text) : Command π → Prop where
  | refused {error : Text} (cause : unauthorized server auth (parse header) = .ok true ∨ ¬ Replicated header)
      (refusal : Refusal header error) :
      Executes server env auth header data { server, auth, ret := false, error }
  | read {text : Text} (method : parse header = 4) (answered : Answered header text) :
      Executes server env auth header data { server, effects := [.send text], auth, ret := true }
  | notAborted {out : Outcome} (method : parse header = 1) (aborts : Aborts server.log header out) (kept : out.ret = false) :
      Executes server env auth header data (ofOutcome server auth out)
  | aborted {out : Outcome} {queued : Server π} {ack : Text} (method : parse header = 1) (aborts : Aborts server.log header out)
      (erased : out.ret = true) (enqueued : ReplicationManager.enqueue { server with log := out.log } header data = .ok queued)
      (answered : genAnswerStr "ACK" header "0" "Aborted" = .ok ack) :
      Executes server env auth header data { server := queued, effects := [.send ack], auth, ret := true, error := out.code }
  | created {log : Log} {effects : List Effect} {tsn : Int} {queued : Server π} {ack : Text} (method : parse header = 2)
      (drawn : newTxn server.log data env.draws = .ok (log, effects, tsn)) (valid : tsn ≠ 0)
      (enqueued : ReplicationManager.enqueue { server with log } ("MAKE_TXN " ++ iToS tsn ++ " 0 0 0") data = .ok queued)
      (answered : ack = "ACK\t" ++ iToS tsn ++ "\t0" ++ "\t0" ++ "\t0" ++ "\r\n\r\n\r\n") :
      Executes server env auth header data { server := queued, effects := effects ++ [.send ack], auth, ret := true }
  | commits {out : Outcome} (method : parse header = 3) (commits : Commits server.log header env.io out) :
      Executes server env auth header data (ofOutcome server auth out)
  | added {out : Outcome} {queued : Server π} {ack : Text} (method : parse header = 5)
      (adds : Adds server.log header data env.io out) (kept : out.ret = true)
      (enqueued : ReplicationManager.enqueue { server with log := out.log } header data = .ok queued)
      (answered : genAnswerStr "ACK" header "0" " " = .ok ack) :
      Executes server env auth header data
        { server := queued, effects := out.effects ++ [.send ack], auth, ret := true, error := out.code }
  | completed {out : Outcome} {queued : Server π} (method : parse header = 5)
      (adds : Adds server.log header data env.io out) (refused : out.ret = false) (code : out.code = "committed")
      (enqueued : ReplicationManager.enqueue { server with log := out.log } header data = .ok queued) :
      Executes server env auth header data
        { server := queued, effects := out.effects, auth, ret := false, error := out.code }
  | notAdded {out : Outcome} (method : parse header = 5) (adds : Adds server.log header data env.io out)
      (refused : out.ret = false) (code : out.code ≠ "committed") :
      Executes server env auth header data (ofOutcome server auth out)
  | made {log : Log} {effects : List Effect} {fresh : Bool} {ack : Text} (method : parse header = 6)
      (makes : makeTxn server.log data (getTsn header) = (log, effects, fresh))
      (answered : genAnswerStr "ACK" header "0" "Created" = .ok ack) :
      Executes server env auth header data
        { server := { server with log }, effects := effects ++ [.send ack], auth, ret := true }
  | pinged {log : Log} {ack : Text} (method : parse header = 7) (answered : genAnswerStr "ACK" header "200" " " = .ok ack)
      (registers : register server.log data = .ok log) :
      Executes server env auth header data { server := { server with log }, effects := [.send ack], auth, ret := true }
  | authenticated (method : parse header = 8) : Executes server env auth header data { server, auth := true, ret := true }
  | demoted {switched : Server π} (method : parse header = 9)
      (switches : ReplicationManager.switchToBackup server = .ok switched) :
      Executes server env auth header data { server := switched, auth, ret := true }

private theorem refused_ok {server : Server π} {env : Env} {auth : Bool} {header data : Text} {out : Command π}
    {method code errString : Text} (refuses : method = "ERROR" ∨ method = "WARNING" ∨ method = "AUTH_FAIL")
    (cause : unauthorized server auth (parse header) = .ok true ∨ ¬ Replicated header)
    (ran : (do let error ← genAnswerStr method header code errString
               pure ({ server, auth, ret := false, error } : Command π)) = Except.ok out) :
    Executes server env auth header data out := by
  obtain ⟨error, text, same⟩ := bind_eq_ok.mp ran
  cases same
  exact .refused cause ⟨_, _, _, refuses, text⟩

theorem executeCommand_cases {server : Server π} {env : Env} {auth : Bool} {header data : Text} {out : Command π}
    (ran : executeCommand env server auth (parse header) header data = .ok out) :
    Executes server env auth header data out := by
  unfold executeCommand at ran
  obtain ⟨refused, checked, ran⟩ := bind_eq_ok.mp ran
  cases refused with
  | true => exact refused_ok (Or.inr (Or.inr rfl)) (Or.inl checked) ran
  | false =>
  simp only [Bool.false_eq_true, if_false] at ran
  split at ran
  next method =>
    obtain ⟨outcome, aborted, ran⟩ := bind_eq_ok.mp ran
    have aborts := abort_cases aborted
    cases erased : outcome.ret with
    | true =>
      simp only [ofOutcome, erased, if_true, bind_eq_ok, pure_eq_ok, Except.ok.injEq] at ran
      obtain ⟨ack, text, queued, enqueued, rfl⟩ := ran
      exact .aborted method aborts erased enqueued text
    | false =>
      simp only [ofOutcome, erased, Bool.false_eq_true, if_false, pure_eq_ok, Except.ok.injEq] at ran
      subst ran
      exact erased ▸ .notAborted method aborts erased
  next method =>
    obtain ⟨⟨log, effects, tsn⟩, drawn, ran⟩ := bind_eq_ok.mp ran
    split at ran
    next => exact refused_ok (Or.inl rfl) (Or.inr (by simp [Replicated, method])) ran
    next valid =>
      obtain ⟨queued, enqueued, same⟩ := bind_eq_ok.mp ran
      cases same
      exact .created method drawn valid enqueued rfl
  next method =>
    obtain ⟨outcome, committed, ran⟩ := bind_eq_ok.mp ran
    have commits := commit_cases committed
    simp only [ofOutcome, commits.ret, Bool.false_eq_true, if_false] at ran
    cases ran
    exact commits.ret ▸ .commits method commits
  next method =>
    split at ran
    next =>
      obtain ⟨text, answered, same⟩ := bind_eq_ok.mp ran
      cases same
      exact .read method ⟨_, _, _, answered⟩
    next => exact refused_ok (Or.inl rfl) (Or.inr (by simp [Replicated, method])) ran
  next method =>
    obtain ⟨outcome, added, ran⟩ := bind_eq_ok.mp ran
    have adds := addLogEntry_cases added
    cases kept : outcome.ret with
    | true =>
      simp only [ofOutcome, kept, if_true, bind_eq_ok, pure_eq_ok, Except.ok.injEq] at ran
      obtain ⟨ack, text, queued, enqueued, rfl⟩ := ran
      exact .added method adds kept enqueued text
    | false =>
      simp only [ofOutcome, kept, Bool.false_eq_true, if_false] at ran
      by_cases code : outcome.code = "committed"
      · simp only [code, if_true, bind_eq_ok, pure_eq_ok, Except.ok.injEq] at ran
        obtain ⟨queued, enqueued, rfl⟩ := ran
        exact code ▸ .completed method adds kept code enqueued
      · simp only [code, if_false, pure_eq_ok, Except.ok.injEq] at ran
        subst ran
        exact kept ▸ .notAdded method adds kept code
  next method =>
    obtain ⟨ack, text, same⟩ := bind_eq_ok.mp ran
    cases same
    exact .made method rfl text
  next method =>
    obtain ⟨ack, text, ran⟩ := bind_eq_ok.mp ran
    obtain ⟨log, registered, same⟩ := bind_eq_ok.mp ran
    cases same
    exact .pinged method text registered
  next method =>
    cases ran
    exact .authenticated method
  next method =>
    obtain ⟨switched, switches, same⟩ := bind_eq_ok.mp ran
    cases same
    exact .demoted method switches
  next notAbort _ notCommit _ notWrite notMake _ _ _ =>
    refine refused_ok (Or.inl rfl) (Or.inr ?_) ran
    rintro (method | method | method | method)
    · exact notAbort method
    · exact notCommit method
    · exact notWrite method
    · exact notMake method

end TransactionalServer.Proofs
