import TransactionalServer.Proofs.ProcessSteps

/-! Which packets are acknowledged, and what the server has done by then. -/

namespace TransactionalServer.Proofs
open ServerTools LogHandler Exec Session Ledger Traces

/-- The client reads the answer as an ACK. -/
def Acknowledges (packet : Text) : Prop := (fields packet).head? = some ("ACK" : Text)

instance (packet : Text) : Decidable (Acknowledges packet) := inferInstanceAs (Decidable (_ = _))

section
variable {method header code errString text : Text}

theorem genAnswerStr_head (word : FieldText method) (made : genAnswerStr method header code errString = .ok text) :
    (fields text).head? = some method := by
  obtain ⟨_, tsn, seq, _, tail, _, rfl⟩ := genAnswerStr_shape made
  rw [compose, fields_cons word]
  rfl

theorem not_acknowledges (word : FieldText method) (other : method ≠ "ACK") (made : genAnswerStr method header code errString = .ok text) :
    ¬ Acknowledges text := by
  intro acknowledges
  rw [Acknowledges, genAnswerStr_head word made, Option.some.injEq] at acknowledges
  exact other acknowledges

theorem Refusal.not_acknowledges (refusal : Refusal header text) : ¬ Acknowledges text := by
  obtain ⟨method, code, errString, word, made⟩ := refusal
  rcases word with rfl | rfl | rfl
  · exact Proofs.not_acknowledges (by decide) (by decide) made
  · exact Proofs.not_acknowledges (by decide) (by decide) made
  · exact Proofs.not_acknowledges (by decide) (by decide) made

/-- The requests for missing writes acknowledge nothing. -/
theorem sendAckResend_not_acknowledges {log : Log} {tsn : Int} {packets : List Effect} (ran : sendAckResend log tsn = .ok packets) :
    ∀ packet, .send packet ∈ packets → ¬ Acknowledges packet := by
  unfold sendAckResend at ran
  obtain ⟨number, _, ran⟩ := bind_eq_ok.mp ran
  obtain ⟨⟨ready, stack⟩, _, ran⟩ := bind_eq_ok.mp ran
  intro packet member
  obtain ⟨seq, _, made⟩ := mem_of_mapM ran member
  obtain ⟨text, made, same⟩ := bind_eq_ok.mp made
  cases same
  exact not_acknowledges (by decide) (by decide) made

end

def sentPacket : Effect → Option Text
  | .send packet => some packet
  | _ => none

theorem mem_of_sentPacket {effects : List Effect} {packet : Text} (sent : effects.filterMap sentPacket = [packet]) : .send packet ∈ effects := by
  obtain ⟨effect, member, here⟩ := List.mem_filterMap.mp (sent ▸ List.mem_cons_self)
  cases effect with
  | send text => exact Option.some.inj here ▸ member
  | save => cases here
  | append => cases here

/-- The answer is the last effect, and the first one that is an ACK. -/
def LastIsAck (effects : List Effect) (packet : Text) : Prop :=
  ∃ earlier, effects = earlier ++ [.send packet] ∧ ∀ other, .send other ∈ earlier → ¬ Acknowledges other

/-- What is cut before its ACK has not sent it. -/
theorem LastIsAck.cut {effects : List Effect} {packet : Text} {count : Nat} (last : LastIsAck effects packet) (ack : Acknowledges packet)
    (sent : .send packet ∈ effects.take count) : effects.take count = effects := by
  obtain ⟨earlier, rfl, others⟩ := last
  by_cases short : count ≤ earlier.length
  · rw [List.take_append_of_le_length short] at sent
    exact absurd ack (others packet (List.mem_of_mem_take sent))
  · apply List.take_of_length_le
    rw [List.length_append, List.length_singleton]
    omega

section
variable {π : Type} {answer : Answer π} {fuel : Nat} {server : Server π} {env : Env} {auth : Bool} {header data : Text}
  {payload : Option Text} {handled : Handled π} {packet : Text}

/-- The transaction is committed with this number. -/
theorem mark_committedWith (log : Log) (tsn : Int) (record : Record) {seq : Int} (range : IsInt seq) :
    CommittedWith (mark log tsn record "COMMITTED" (iToS seq)) tsn seq :=
  ⟨_, _, mark_found log tsn record "COMMITTED" (iToS seq), atoi_iToS range⟩

/-- A commit in the log sends nothing. -/
theorem Commits.no_send {log : Log} {io : Bool} {out : Outcome} (commits : Commits log header io out) (packet : Text) :
    .send packet ∉ out.effects := by
  cases commits <;> simp [Outcome.reply]

theorem Adds.no_send {log : Log} {io : Bool} {out : Outcome} (adds : Adds log header data io out) (packet : Text) :
    .send packet ∉ out.effects := by
  cases adds with
  | completes _ _ _ _ _ _ commits => exact commits.no_send packet
  | low | absent | committed | expired | duplicate | above | kept | added => exact List.not_mem_nil

theorem makeTxn_no_send {log made : Log} {tsn : Int} {effects : List Effect} {fresh : Bool}
    (makes : makeTxn log data tsn = (made, effects, fresh)) (packet : Text) : .send packet ∉ effects := by
  rcases makeTxn_cases makes with ⟨_, _, rfl⟩ | ⟨_, _, rfl⟩
  · simp
  · exact List.not_mem_nil

/-- A commit answers with an ACK only what it finds committed. -/
theorem Commits.acknowledges {log : Log} {io : Bool} {out : Outcome} (commits : Commits log header io out) (ack : Acknowledges out.code) :
    out.effects = [] ∧ out.log = log ∧ CommittedWith log (getTsn header) (getSeq header) := by
  have error {code errString : Text} (made : genAnswerStr "ERROR" header code errString = .ok out.code) : False :=
    not_acknowledges (by decide) (by decide) made ack
  cases commits with
  | absent _ text | expired _ text | otherNumber _ _ _ text => exact (error text).elim
  | failed _ _ _ _ _ _ _ _ text => exact (error text).elim
  | nothing _ _ _ text => exact (not_acknowledges (by decide) (by decide) text ack).elim
  | already found same => exact ⟨rfl, rfl, _, _, found, same⟩
  | incomplete =>
    have word : ¬ Acknowledges "incomplete" := by decide
    exact absurd ack word
  | primary | written =>
    have word : ¬ Acknowledges "committed" := by decide
    exact absurd ack word

/-- A commit that goes on is in writing on a primary and committed on a backup. -/
theorem Commits.goes_on {log : Log} {io : Bool} {out : Outcome} (commits : Commits log header io out) (positive : 1 ≤ getTsn header)
    (code : out.code = "committed") :
    (getServerStatus out.log = .ok "primary" ∧ ∃ record, Found out.log (getTsn header) record "WRITING" (iToS (getSeq header))) ∨
      (CommittedWith out.log (getTsn header) (getSeq header) ∧ ∃ role, getServerStatus out.log = .ok role ∧ role ≠ "primary") := by
  cases commits with
  | absent _ text | already _ _ text | expired _ text | otherNumber _ _ _ text | nothing _ _ _ text | failed _ _ _ _ _ _ _ _ text =>
    exact absurd code (Answered.ne_codes ⟨_, _, _, text⟩).2
  | incomplete =>
    have other : ("incomplete".toList : Text) ≠ "committed".toList := by decide
    exact absurd code other
  | primary _ _ _ _ marked role =>
    subst marked
    exact Or.inl ⟨role, _, mark_found _ _ _ _ _⟩
  | @written record status number role path lines found allowed high complete writing final marked serverRole backup appended finished =>
    subst marked finished
    refine Or.inr ⟨mark_committedWith log (getTsn header) record (getSeq_isInt header), role, ?_, backup⟩
    rw [← serverRole]
    apply getServerStatus_of_get
    rw [mark_other (by omega), mark_other (by omega)]

/-- `doCommit` sends one packet at most, at its end. Its ACK says that a backup
has committed before, or that the primary has now. -/
theorem Concludes.acknowledges {io : Bool} {done : Handled π} (concludes : Concludes answer fuel io server auth header done)
    (positive : 1 ≤ getTsn header) (sent : .send packet ∈ done.effects) (ack : Acknowledges packet) :
    ∃ front, done.effects = front ++ [.send packet] ∧ (∀ other, .send other ∉ front) ∧
      ((getServerStatus server.log ≠ .ok "primary" ∧ done.server = server) ∨
        (getServerStatus server.log = .ok "primary" ∧ ∀ record number, Found server.log (getTsn header) record "WRITING" number →
          done.server.log[getTsn header]? = some (record.insert (-1) ("COMMITTED", number)))) := by
  cases concludes with
  | acknowledged read backup =>
    cases List.mem_singleton.mp sent
    refine ⟨[], rfl, (fun _ absurd => by cases absurd), Or.inl ⟨?_, rfl⟩⟩
    rw [read, ne_eq, Except.ok.injEq]
    exact backup
  | refused _ _ text =>
    cases List.mem_singleton.mp sent
    exact absurd ack (not_acknowledges (by decide) (by decide) text)
  | exits => cases sent
  | @finishes message text final effects log primary replicates written marks =>
    rcases writeFile_cases written with ⟨_, _, path, lines, rfl, _⟩ | ⟨absurd, _⟩
    · simp only [List.cons_append, List.nil_append, List.mem_cons, reduceCtorEq, Effect.send.injEq, List.not_mem_nil, or_false, false_or] at sent
      subst sent
      refine ⟨[.append (getTsn header) path lines, .save log], rfl, (by simp), Or.inr ⟨primary, ?_⟩⟩
      intro record number found
      have kept := ((manager_keeps answer fuel).2.1 _ _ _ _ replicates).other (show getTsn header ≠ -1 by omega)
      have still : Found final.log (getTsn header) record "WRITING" number := ⟨kept.trans found.inLog, found.entry⟩
      rw [still.changeStatus, Except.ok.injEq] at marks
      subst marks
      exact (mark_found _ _ _ _ _).inLog
    · cases absurd

/-- Who answers a COMMIT with an ACK has committed the transaction. -/
theorem commit_acknowledged (addressed : Addressed header) (method : parse header = 3)
    (ran : receive answer fuel env server auth header payload = .ok handled) (sent : .send packet ∈ handled.effects)
    (ack : Acknowledges packet) : LastIsAck handled.effects packet ∧ CommittedWith handled.server.log (getTsn header) (getSeq header) := by
  have positive : 1 ≤ getTsn header := addressed (Or.inr (Or.inl method))
  rcases receive_cases ran with ⟨_, _, _, text, refusal, effects⟩ | ⟨executed, out, executes, follows⟩
  · rw [effects, List.mem_singleton, Effect.send.injEq] at sent
    exact absurd ack (sent ▸ refusal.not_acknowledges)
  have other {number : Nat} (same : parse header = number) (differs : 3 ≠ number) : False := differs (method.symm.trans same)
  cases executes with
  | refused cause =>
    rcases cause with unauthorized | unknown
    · rw [executed.authorized] at unauthorized
      cases unauthorized
    · exact absurd (Or.inr (Or.inl method)) unknown
  | read same | notAborted same | aborted same | created same | added same | completed same | notAdded same | made same | pinged same
    | authenticated same | demoted same => exact (other same (by decide)).elim
  | @commits out _ commits =>
    have silent := commits.no_send
    cases follows with
    | returned done =>
      rw [ofOutcome, commits.ret] at done
      cases done
    | asks _ _ missing =>
      rcases List.mem_append.mp sent with inside | asked
      · exact absurd inside (silent packet)
      · exact absurd ack (sendAckResend_not_acknowledges missing packet asked)
    | answers =>
      rcases List.mem_append.mp sent with inside | here
      · exact absurd inside (silent packet)
      · cases List.mem_singleton.mp here
        obtain ⟨nothing, same, committed⟩ := commits.acknowledges ack
        refine ⟨⟨out.effects, rfl, fun other inside => absurd inside (silent other)⟩, ?_⟩
        rw [ofOutcome, same]
        exact committed
    | @concludes done _ code concludes =>
      rcases List.mem_append.mp sent with inside | inside
      · exact absurd inside (silent packet)
      obtain ⟨front, shape, silentFront, ends⟩ := concludes.acknowledges positive inside ack
      constructor
      · refine ⟨out.effects ++ front, ?_, ?_⟩
        · rw [shape, List.append_assoc]
          rfl
        · intro other inside
          rcases List.mem_append.mp inside with early | late
          · exact absurd early (silent other)
          · exact absurd late (silentFront other)
      · rcases commits.goes_on positive code with ⟨primary, record, found⟩ | ⟨committed, role, read, backup⟩
        · rcases ends with ⟨notPrimary, _⟩ | ⟨_, finishes⟩
          · exact absurd primary notPrimary
          · exact ⟨_, _, ⟨finishes record _ found, Std.ExtTreeMap.getElem?_insert_self⟩, atoi_iToS (getSeq_isInt header)⟩
        · rcases ends with ⟨_, same⟩ | ⟨primary, _⟩
          · exact same ▸ committed
          · exact absurd (Except.ok.inj (read.symm.trans primary)) backup

theorem created_fields (tsn : Int) :
    fields ("ACK\t" ++ iToS tsn ++ "\t0" ++ "\t0" ++ "\t0" ++ "\r\n\r\n\r\n" : Text) =
      "ACK".toList :: iToS tsn :: fields ("0\t0\t0\r\n\r\n\r\n" : Text) := by
  have tabs : ("ACK\t" ++ iToS tsn ++ "\t0" ++ "\t0" ++ "\t0" ++ "\r\n\r\n\r\n" : Text) =
      "ACK".toList ++ '\t' :: (iToS tsn ++ '\t' :: "0\t0\t0\r\n\r\n\r\n".toList) := by
    have start : "ACK\t".toList = "ACK".toList ++ ['\t'] := by decide
    have finish : "\t0".toList ++ "\t0".toList ++ "\t0".toList ++ "\r\n\r\n\r\n".toList = '\t' :: "0\t0\t0\r\n\r\n\r\n".toList := by decide
    rw [start]
    simp only [List.append_assoc] at finish ⊢
    rw [finish]
    rfl
  rw [tabs, fields_cons_tab (by decide), fields_cons_tab (iToS_field tsn)]

/-- Who answers a NEW_TXN with an ACK has saved the transaction that it names. -/
theorem newTxn_acknowledged (method : parse header = 2) (drawn : ∀ draw ∈ env.draws, 1 ≤ draw ∧ draw ≤ 100000)
    (ran : receive answer fuel env server auth header payload = .ok handled) (sent : .send packet ∈ handled.effects)
    (ack : Acknowledges packet) :
    handled.effects = [.save handled.server.log, .send packet] ∧ 1 ≤ getTsn packet ∧ getTsn packet ∈ handled.server.log := by
  rcases receive_cases ran with ⟨_, _, _, text, refusal, effects⟩ | ⟨executed, out, executes, follows⟩
  · rw [effects, List.mem_singleton, Effect.send.injEq] at sent
    exact absurd ack (sent ▸ refusal.not_acknowledges)
  have other {number : Nat} (same : parse header = number) (differs : 2 ≠ number) : False := differs (method.symm.trans same)
  cases executes with
  | refused _ refusal =>
    obtain rfl := follows.of_refused rfl refusal.answered.ne_codes
    cases List.mem_singleton.mp sent
    exact absurd ack refusal.not_acknowledges
  | read same | notAborted same | aborted same | commits same | added same | completed same | notAdded same | made same | pinged same
    | authenticated same | demoted same => exact (other same (by decide)).elim
  | @created log effects tsn queued text _ creates valid enqueued answered =>
    obtain rfl := follows.of_done rfl
    rcases newTxn_cases creates with ⟨_, _, zero, _⟩ | ⟨_, chosen, _, created, saves⟩
    · exact absurd zero valid
    · obtain ⟨from1, below⟩ := drawn tsn chosen
      have range : IsInt tsn := ⟨by omega, by omega⟩
      rw [saves] at sent ⊢
      simp only [List.cons_append, List.nil_append, List.mem_cons, reduceCtorEq, Effect.send.injEq, List.not_mem_nil, or_false, false_or] at sent
      have names : getTsn packet = tsn := by
        rw [sent, answered, getTsn_of_fields (created_fields tsn), lexicalCast_iToS range, Option.getD_some]
      refine ⟨?_, names ▸ from1, ?_⟩
      · rw [sent, enqueue_log enqueued]
        rfl
      · rw [names, enqueue_log enqueued, created]
        exact Store.mem_iff_get.mpr ⟨_, Std.ExtTreeMap.getElem?_insert_self⟩

/-- Who answers an ABORT with an ACK has removed the transaction from memory. -/
theorem abort_acknowledged (method : parse header = 1) (ran : receive answer fuel env server auth header payload = .ok handled)
    (sent : .send packet ∈ handled.effects) (ack : Acknowledges packet) :
    handled.effects = [.send packet] ∧ handled.server.log = server.log.erase (getTsn header) := by
  rcases receive_cases ran with ⟨_, _, _, text, refusal, effects⟩ | ⟨executed, out, executes, follows⟩
  · rw [effects, List.mem_singleton, Effect.send.injEq] at sent
    exact absurd ack (sent ▸ refusal.not_acknowledges)
  have other {number : Nat} (same : parse header = number) (differs : 1 ≠ number) : False := differs (method.symm.trans same)
  cases executes with
  | refused cause =>
    rcases cause with unauthorized | unknown
    · rw [executed.authorized] at unauthorized
      cases unauthorized
    · exact absurd (Or.inl method) unknown
  | read same | created same | commits same | added same | completed same | notAdded same | made same | pinged same
    | authenticated same | demoted same => exact (other same (by decide)).elim
  | @notAborted out _ aborts kept =>
    have refusal := aborts.refused kept
    obtain rfl := follows.of_refused kept refusal.answered.ne_codes
    rw [ofOutcome, aborts.effects, List.nil_append, List.mem_singleton, Effect.send.injEq] at sent
    rw [sent] at ack
    exact absurd ack refusal.not_acknowledges
  | @aborted out queued text _ aborts erased enqueued =>
    obtain rfl := follows.of_done rfl
    cases List.mem_singleton.mp sent
    refine ⟨rfl, ?_⟩
    rw [enqueue_log enqueued]
    cases aborts with
    | absent => cases erased
    | committed => cases erased
    | expired => cases erased
    | erased => rfl

/-- A command that has sent an answer itself has returned true. -/
theorem Executes.sent_returns {out : Command π} (executes : Executes server env auth header data out)
    (method : parse header = 1 ∨ parse header = 2 ∨ parse header = 3) (sent : .send packet ∈ out.effects) : out.ret = true := by
  cases executes with
  | refused => cases sent
  | notAborted _ aborts =>
    rw [ofOutcome, aborts.effects] at sent
    cases sent
  | commits _ commits => exact absurd sent (commits.no_send packet)
  | read | aborted | created | added | made | pinged | authenticated | demoted => rfl
  | completed same | notAdded same =>
    rw [same] at method
    exact absurd method (by decide)

/-- An answer has left only a handler that returns. -/
theorem reached_returns {valid : validHeader header = true} {drawn : ∀ draw ∈ env.draws, 1 ≤ draw ∧ draw ≤ 100000}
    (method : parse header = 1 ∨ parse header = 2 ∨ parse header = 3)
    (sent : .send packet ∈ Process.reached answer fuel server (.packet env auth header payload valid drawn)) :
    ∃ handled, receive answer fuel env server auth header payload = .ok handled ∧
      Process.reached answer fuel server (.packet env auth header payload valid drawn) = handled.effects := by
  unfold Process.reached at sent ⊢
  cases received : receive answer fuel env server auth header payload with
  | ok handled =>
    refine ⟨handled, rfl, ?_⟩
    simp only [System.perform, received, ok_bind, pure_eq_ok]
  | error halt =>
    exfalso
    simp only [System.perform, received, error_bind] at sent
    split at sent
    next out executed =>
      have returned := (executeCommand_cases executed).sent_returns method sent
      have dispatched : dispatch answer fuel env server auth header (payload.getD " ") =
          .ok { server := out.server, effects := out.effects, auth := out.auth } := by
        simp only [dispatch, executed, ok_bind, returned, if_true, pure_eq_ok]
      cases payload with
      | some data =>
        rw [receive, ← Option.getD_some (a := data) (b := " "), dispatched] at received
        cases received
      | none =>
        obtain ⟨text, made⟩ := answerable_genAnswerStr (answerable_of_valid valid) "ERROR" "204" "Method requires data."
        simp only [receive, made, ok_bind, pure_eq_ok] at received
        split at received
        · cases received
        · rw [Option.getD_none] at dispatched
          rw [dispatched] at received
          cases received
    next => cases sent

end

/-- The memory after an event: the handler's, or what is loaded after a crash. -/
def Remembers {π : Type} (handled : Handled π) (next : Process π) : Process.Event π → Prop
  | .event _ => next.server = handled.server
  | .crash _ _ _ => ∀ tsn : Int, 1 ≤ tsn → next.server.log[tsn]? = next.disk.saved[tsn]?

/-- A cut whose ACK has left is whole. -/
theorem acknowledged_step {π : Type} {answer : Answer π} {fuel : Nat} {process next : Process π} {effects : List Effect}
    {event : Process.Event π} {env : Env} {auth : Bool} {header packet : Text} {payload : Option Text} {valid : validHeader header = true}
    {drawn : ∀ draw ∈ env.draws, 1 ≤ draw ∧ draw ≤ 100000} (named : about event = .packet env auth header payload valid drawn)
    (addressed : AddressedProcess event) (method : parse header = 1 ∨ parse header = 2 ∨ parse header = 3)
    (performed : Process.perform answer fuel process event = .ok (next, effects)) (sent : .send packet ∈ effects) (ack : Acknowledges packet) :
    ∃ handled, receive answer fuel { env with files := process.disk.files } process.server auth header payload = .ok handled ∧
      effects = handled.effects ∧ next.disk = effects.foldl Disk.apply process.disk ∧ Remembers handled next event := by
  have last (env : Env) {handled : Handled π} (drawn : ∀ draw ∈ env.draws, 1 ≤ draw ∧ draw ≤ 100000)
      (addressed : Addressed header) (received : receive answer fuel env process.server auth header payload = .ok handled)
      (sent : .send packet ∈ handled.effects) : LastIsAck handled.effects packet := by
    rcases method with abort | create | commit
    · rw [(abort_acknowledged abort received sent ack).1]
      exact ⟨[], rfl, fun _ absurd => by cases absurd⟩
    · rw [(newTxn_acknowledged create drawn received sent ack).1]
      exact ⟨[.save handled.server.log], rfl, fun _ inside => by cases List.mem_singleton.mp inside⟩
    · exact (commit_acknowledged addressed commit received sent ack).1
  cases event with
  | event event =>
    cases named
    obtain ⟨⟨running, had⟩, ran, rest⟩ := bind_eq_ok.mp performed
    obtain ⟨server, runs, same⟩ := bind_eq_ok.mp rest
    cases same
    obtain ⟨handled, received, same⟩ := bind_eq_ok.mp ran
    cases same
    refine ⟨handled, received, rfl, rfl, ?_⟩
    rw [finished_eq_ok] at runs
    split at runs
    · cases runs
    · exact (Option.some.inj runs).symm
  | crash during done restart =>
    cases named
    cases performed
    have inside := List.mem_of_mem_take sent
    obtain ⟨handled, received, same⟩ := @reached_returns π answer fuel process.server { env with files := process.disk.files } auth header payload
      packet valid drawn method inside
    refine ⟨handled, received, ?_, rfl, start_transactions restart _⟩
    have whole : LastIsAck (Process.reached answer fuel process.server
        (Process.onDisk process.disk (.packet env auth header payload valid drawn))) packet := by
      have inside : Effect.send packet ∈ handled.effects := same ▸ inside
      exact same ▸ last { env with files := process.disk.files } drawn addressed received inside
    rw [whole.cut ack sent]
    exact same

end TransactionalServer.Proofs
