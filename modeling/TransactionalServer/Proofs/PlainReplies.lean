import TransactionalServer.Proofs.Decoding
import TransactionalServer.Proofs.OneReply
import TransactionalServer.Proofs.Answers

/-! The replies to the packets of a replication connection. Each is one line of
words and one line of text, so that its client can read it off the socket. Only a
COMMIT that lacks writes is answered with requests for them, and only a packet
about a transaction that is not there with a request for the transaction. -/

namespace TransactionalServer.Proofs.PlainReplies
open ServerTools LogHandler Exec Session Decoding OneReply

def Plain (text : Text) : Prop := ∃ reply : Reply, reply.bytes = text

/-- A request for a write. -/
def AsksWrite (text : Text) : Prop := ∃ reply : Reply, reply.bytes = text ∧ reply.method = "ACK_RESEND"

/-- A reply that asks for no write, and for the transaction only when it is missing. -/
def Verdict (log : Log) (tsn : Int) (text : Text) : Prop :=
  ∃ reply : Reply, reply.bytes = text ∧ reply.method ≠ "ACK_RESEND" ∧ (reply.method = "ERROR" → reply.code = "201" → log[tsn]? = none)

/-- A text without a line end. -/
def OneLine (text : Text) : Prop := '\r' ∉ text ∧ '\n' ∉ text

instance (text : Text) : Decidable (OneLine text) := inferInstanceAs (Decidable (_ ∧ _))

/-- The parts of an answer that the code writes there itself. -/
def Written (method code message : Text) : Prop := (Word method ∧ '\r' ∉ method) ∧ (Word code ∧ '\r' ∉ code) ∧ OneLine message

instance (method code message : Text) : Decidable (Written method code message) := inferInstanceAs (Decidable (_ ∧ _))

section
variable {header method code message text : Text} {log : Log} {tsn : Int}

/-- The reply that an answer on one line is. -/
theorem reply_of_made (line : OneLine header) (made : genAnswerStr method header code message = .ok text) (written : Written method code message) :
    ∃ reply : Reply, reply.bytes = text ∧ reply.method = method ∧ reply.code = code := by
  obtain ⟨⟨method', noCR⟩, ⟨code', noCR'⟩, message'⟩ := written
  exact ⟨⟨method, header, code, message, text, made, ⟨method', noCR⟩, ⟨code', noCR'⟩, line, message'⟩, rfl, rfl, rfl⟩

theorem asksWrite_of_made (line : OneLine header) (made : genAnswerStr "ACK_RESEND" header code message = .ok text)
    (written : Written "ACK_RESEND" code message) : AsksWrite text := by
  obtain ⟨reply, same, method, _⟩ := reply_of_made line made written
  exact ⟨reply, same, method⟩

theorem verdict_of_made (line : OneLine header) (made : genAnswerStr method header code message = .ok text) (written : Written method code message)
    (other : method ≠ "ACK_RESEND" ∧ (method ≠ "ERROR" ∨ code ≠ "201")) : Verdict log tsn text := by
  obtain ⟨reply, same, rfl, rfl⟩ := reply_of_made line made written
  refine ⟨reply, same, other.1, fun error missing => ?_⟩
  rcases other.2 with notError | notMissing
  · exact absurd error notError
  · exact absurd missing notMissing

theorem verdict_of_absent (line : OneLine header) (absent : log[tsn]? = none) (made : genAnswerStr "ERROR" header "201" message = .ok text)
    (written : Written "ERROR" "201" message) : Verdict log tsn text := by
  obtain ⟨reply, same, method, _⟩ := reply_of_made line made written
  refine ⟨reply, same, ?_, fun _ _ => absent⟩
  rw [method]
  decide

theorem Verdict.plain (verdict : Verdict log tsn text) : Plain text := verdict.imp fun _ both => both.1

theorem AsksWrite.plain (asks : AsksWrite text) : Plain text := asks.imp fun _ both => both.1

end

section
variable {π : Type} {answer : Answer π} {fuel : Nat} {server : Server π} {env : Env} {auth : Bool} {header data text : Text} {log : Log}
  {io : Bool} {out : Outcome} {command : Command π} {handled : Handled π} {payload : Option Text}

theorem oneLine_append {first second : Text} (one : OneLine first) (two : OneLine second) : OneLine (first ++ second) :=
  ⟨fun member => (List.mem_append.mp member).elim one.1 two.1, fun member => (List.mem_append.mp member).elim one.2 two.2⟩

theorem oneLine_iToS (value : Int) : OneLine (iToS value) := by
  refine ⟨?_, (iToS_word value).oneLine⟩
  intro member
  rcases Decimal.render_char member with digit | same
  · revert digit
    decide
  · revert same
    decide

theorem oneLine_of_lexicalCast {field : Text} {value : Int} (read : lexicalCast field = some value) : OneLine field := by
  obtain ⟨parsed, _⟩ := Option.filter_eq_some_iff.mp read
  have char (wanted : Char) (other : ¬ (wanted.isDigit = true ∨ wanted = '-' ∨ wanted = '+')) : wanted ∉ field :=
    fun member => other (Decimal.parse_char parsed member)
  exact ⟨char _ (by decide), char _ (by decide)⟩

/-- The method of a header that is one of the protocol's. -/
theorem oneLine_of_method {method : Text} {rest : List Text} (shape : fields header = method :: rest) (known : parse header ≠ 0) :
    OneLine method := by
  have each : ∀ entry ∈ methodMap, OneLine entry.1 := by decide
  rw [parse_of_fields shape] at known
  cases found : methodMap.lookup method with
  | none =>
    rw [found] at known
    exact absurd rfl known
  | some number =>
    obtain ⟨before, after, whole, _⟩ := List.lookup_eq_some_iff.mp found
    exact each (method, number) (by simp [whole])

/-- An echo of words on one line is on one line. -/
theorem oneLine_echo {line : Text} (words : ∀ field ∈ (fields header).take 3, OneLine field) (sent : Client.echoHeader header data = .ok line) :
    OneLine line := by
  match shape : fields header with
  | method :: tsn :: seq :: rest =>
    rw [echoHeader_of_fields shape, Except.ok.injEq] at sent
    subst sent
    rw [shape] at words
    have space : OneLine [' '] := by decide
    have length : OneLine (echoLength data) := by
      unfold echoLength
      split
      · decide
      · exact oneLine_iToS _
    have joined := oneLine_append (oneLine_append (oneLine_append (words method (by simp)) space) (oneLine_append (words tsn (by simp)) space))
      (oneLine_append (oneLine_append (words seq (by simp)) space) length)
    simpa only [compose, List.append_assoc, List.cons_append, List.nil_append] using joined
  | [] => simp [Client.echoHeader, shape] at sent
  | [_] => simp [Client.echoHeader, shape] at sent
  | [_, _] => simp [Client.echoHeader, shape] at sent

/-- The headers that the code makes up for its own log operations. -/
theorem oneLine_tabs (tsn seq : Int) {last : Text} (ends : OneLine last) : OneLine ("empty\t" ++ iToS tsn ++ "\t" ++ iToS seq ++ last) := by
  have word : OneLine "empty\t" := by decide
  have tab : OneLine "\t" := by decide
  exact oneLine_append (oneLine_append (oneLine_append (oneLine_append word (oneLine_iToS tsn)) tab) (oneLine_iToS seq)) ends

theorem commit_oneLine (tsn seq : Int) : OneLine (commitMessage tsn seq) := by
  have word : OneLine "COMMIT" := by decide
  have space : OneLine [' '] := by decide
  have last : OneLine (' ' :: "0".toList) := by decide
  rw [commitMessage_eq, compose]
  have joined := oneLine_append (oneLine_append (oneLine_append word space) (oneLine_append (oneLine_iToS tsn) space))
    (oneLine_append (oneLine_iToS seq) last)
  simpa only [List.append_assoc, List.cons_append, List.nil_append] using joined

theorem Commits.verdict (line : OneLine header) (commits : Commits log header io out) :
    out.code = "incomplete" ∨ out.code = "committed" ∨ Verdict log (getTsn header) out.code := by
  cases commits with
  | incomplete => exact Or.inl rfl
  | primary | written => exact Or.inr (Or.inl rfl)
  | absent absent text => exact Or.inr (Or.inr (verdict_of_absent line absent text (by decide)))
  | expired _ text | nothing _ _ _ text | otherNumber _ _ _ text | already _ _ text | failed _ _ _ _ _ _ _ _ text =>
    exact Or.inr (Or.inr (verdict_of_made line text (by decide) (by decide)))

theorem Adds.verdict (line : OneLine header) (adds : Adds log header data io out) (refused : out.ret = false) :
    out.code = "committed" ∨ Verdict log (getTsn header) out.code := by
  cases adds with
  | kept | added => cases refused
  | absent _ absent text => exact Or.inr (verdict_of_absent line absent text (by decide))
  | low _ text | committed _ _ text | expired _ _ text | duplicate _ _ _ _ _ text | above _ _ _ _ text =>
    exact Or.inr (verdict_of_made line text (by decide) (by decide))
  | @completes record grown number _ _ found _ _ grows complete commits =>
    -- the pending commit finds the record that the write has completed
    have own : (log.insert (getTsn header) grown)[getTsn (pendingCommit (getTsn header) (atoi number))]? = some grown := by
      rw [pendingCommit_getTsn (getTsn_isInt header)]
      exact Std.ExtTreeMap.getElem?_insert_self
    have pendingLine : OneLine (pendingCommit (getTsn header) (atoi number)) := oneLine_tabs _ _ (by decide)
    rcases Commits.verdict pendingLine commits with incomplete | committed | verdict
    · obtain ⟨_, again, _, _, found, gaps, _⟩ := commits.code.resolve_right (by
        rintro (committed | answered)
        · have same : ("committed".toList : Text) = "incomplete".toList := committed.symm.trans incomplete
          exact absurd same (by decide)
        · exact absurd incomplete answered.ne_codes.1)
      obtain rfl := Option.some.inj (own.symm.trans found.inLog)
      rw [pendingCommit_getSeq (atoi_isInt number)] at gaps
      exact absurd complete gaps
    · exact Or.inl committed
    · obtain ⟨reply, same, other, absent⟩ := verdict
      refine Or.inr ⟨reply, same, other, fun error missing => ?_⟩
      have gone := absent error missing
      rw [own] at gone
      cases gone

theorem Aborts.verdict (line : OneLine header) (aborts : Aborts log header out) (refused : out.ret = false) :
    Verdict log (getTsn header) out.code := by
  cases aborts with
  | erased => cases refused
  | absent absent text => exact verdict_of_absent line absent text (by decide)
  | committed _ text | expired _ text => exact verdict_of_made line text (by decide) (by decide)

/-- What a command sends is a verdict, and so is the answer that it leaves to its session. -/
structure Decided (log : Log) (tsn : Int) (command : Command π) : Prop where
  sent : ∀ text, .send text ∈ command.effects → Verdict log tsn text
  left : command.ret = false → command.error = "incomplete" ∨ command.error = "committed" ∨ Verdict log tsn command.error

theorem Decided.acknowledged {effects : List Effect} {ack error : Text} {tsn : Int} (quiet : ∀ text, .send text ∉ effects)
    (verdict : Verdict log tsn ack) : Decided log tsn ({ server, effects := effects ++ [.send ack], auth, ret := true, error } : Command π) := by
  refine ⟨?_, fun refused => by cases refused⟩
  intro text sent
  rcases List.mem_append.mp sent with early | last
  · exact absurd early (quiet text)
  · cases List.mem_singleton.mp last
    exact verdict

theorem Executes.decided (line : OneLine header) (replicated : Replicated header) (executes : Executes server env true header data command) :
    Decided server.log (getTsn header) command := by
  have other {method : Nat} (same : parse header = method) (outside : method ≠ 1 ∧ method ≠ 3 ∧ method ≠ 5 ∧ method ≠ 6) : False :=
    not_replicated replicated outside same
  cases executes with
  | refused cause =>
    rcases cause with unauthorized | unknown
    · rw [authorized_command] at unauthorized
      cases unauthorized
    · exact absurd replicated unknown
  | read method | created method | pinged method | authenticated method | demoted method => exact (other method (by decide)).elim
  | notAborted _ aborts =>
    refine ⟨?_, fun refused => Or.inr (Or.inr (Aborts.verdict line aborts refused))⟩
    intro text sent
    rw [ofOutcome, aborts.effects] at sent
    cases sent
  | aborted _ _ _ _ made =>
    exact Decided.acknowledged (fun _ => List.not_mem_nil) (verdict_of_made line made (by decide) (by decide))
  | commits _ commits => exact ⟨fun text sent => absurd sent (commits.no_send text), fun _ => Commits.verdict line commits⟩
  | added _ adds _ _ made => exact Decided.acknowledged adds.no_send (verdict_of_made line made (by decide) (by decide))
  | completed _ adds refused code => exact ⟨fun text sent => absurd sent (adds.no_send text), fun _ => Or.inr (Or.inl code)⟩
  | notAdded _ adds refused =>
    exact ⟨fun text sent => absurd sent (adds.no_send text), fun _ => Or.inr (Adds.verdict line adds refused)⟩
  | made _ makes made => exact Decided.acknowledged (makeTxn_no_send makes) (verdict_of_made line made (by decide) (by decide))

theorem sendAckResend_asks {tsn : Int} {packets : List Effect} (ran : sendAckResend log tsn = .ok packets) (sent : .send text ∈ packets) :
    AsksWrite text := by
  unfold sendAckResend at ran
  obtain ⟨number, _, ran⟩ := bind_eq_ok.mp ran
  obtain ⟨⟨ready, stack⟩, _, ran⟩ := bind_eq_ok.mp ran
  obtain ⟨seq, _, made⟩ := mem_of_mapM ran sent
  obtain ⟨packet, made, same⟩ := bind_eq_ok.mp made
  cases same
  exact asksWrite_of_made (oneLine_tabs tsn seq (by decide)) made (by decide)

theorem Concludes.verdict {tsn : Int} (line : OneLine header) (concludes : Concludes answer fuel io server auth header handled)
    (sent : .send text ∈ handled.effects) : Verdict log tsn text := by
  cases concludes with
  | acknowledged _ _ made =>
    cases List.mem_singleton.mp sent
    exact verdict_of_made line made (by decide) (by decide)
  | refused _ _ made =>
    cases List.mem_singleton.mp sent
    exact verdict_of_made line made (by decide) (by decide)
  | exits => cases sent
  | @finishes _ ack _ _ _ _ _ written _ made =>
    rcases writeFile_cases written with ⟨_, _, path, lines, rfl, _⟩ | ⟨other, _⟩
    · have last : text = ack := by simpa using sent
      rw [last]
      exact verdict_of_made line made (by decide) (by decide)
    · cases other

/-- The packets that answer a queued one are verdicts, or all ask for writes. -/
theorem receive_verdicts (line : OneLine header) (replicated : Replicated header)
    (ran : receive answer fuel env server true header payload = .ok handled) :
    (∀ text, .send text ∈ handled.effects → Verdict server.log (getTsn header) text) ∨
      parse header = 3 ∧ ∀ text, .send text ∈ handled.effects → AsksWrite text := by
  by_cases executed : Executed server true header payload
  · obtain ⟨command, executes, follows⟩ := receive_executed executed ran
    obtain ⟨own, left⟩ := Executes.decided line replicated executes
    cases follows with
    | returned => exact Or.inl own
    | asks refused code missing =>
      obtain ⟨method, _⟩ := executes.incomplete refused code
      refine Or.inr ⟨method, fun text sent => ?_⟩
      rcases List.mem_append.mp sent with early | asked
      · cases executes with
        | commits _ commits => exact absurd early (commits.no_send text)
        | refused _ refusal => cases early
        | read other | notAborted other | aborted other | created other | added other | completed other | notAdded other | made other
        | pinged other | authenticated other | demoted other =>
          rw [method] at other
          cases other
      · exact sendAckResend_asks missing asked
    | concludes _ _ concludes =>
      exact Or.inl fun text sent => (List.mem_append.mp sent).elim (own text) (Concludes.verdict line concludes)
    | answers refused notCommitted notAsked =>
      refine Or.inl fun text sent => ?_
      rcases List.mem_append.mp sent with early | last
      · exact own text early
      · cases List.mem_singleton.mp last
        exact ((left refused).resolve_left notAsked).resolve_left notCommitted
  · obtain ⟨_, packet, made, only⟩ := receive_idle executed ran
    refine Or.inl fun text sent => ?_
    rw [only] at sent
    cases List.mem_singleton.mp sent
    rcases made with made | made
    · exact verdict_of_made line made (by decide) (by decide)
    · exact verdict_of_made line made (by decide) (by decide)

/-- A COMMIT is answered with requests for writes or with one packet. -/
theorem commit_alone (method : parse header = 3) (ran : receive answer fuel env server true header payload = .ok handled)
    (sent : .send text ∈ handled.effects) : AsksWrite text ∨ replies handled.effects = [text] := by
  by_cases executed : Executed server true header payload
  · obtain ⟨command, executes, follows⟩ := receive_executed executed ran
    have quiet : (∀ text, .send text ∉ command.effects) ∧ command.ret = false := by
      cases executes with
      | commits _ commits => exact ⟨commits.no_send, commits.ret⟩
      | refused => exact ⟨fun _ => List.not_mem_nil, rfl⟩
      | read other | notAborted other | aborted other | created other | added other | completed other | notAdded other | made other | pinged other
      | authenticated other | demoted other =>
        rw [method] at other
        cases other
    have silent : replies command.effects = [] := replies_silent quiet.1
    cases follows with
    | returned done =>
      rw [quiet.2] at done
      cases done
    | asks _ _ missing =>
      left
      rcases List.mem_append.mp sent with early | asked
      · exact absurd early (quiet.1 text)
      · exact sendAckResend_asks missing asked
    | concludes _ _ concludes =>
      right
      rw [replies_append, silent, List.nil_append]
      rcases List.mem_append.mp sent with early | told
      · exact absurd early (quiet.1 text)
      cases concludes with
      | acknowledged | refused =>
        cases List.mem_singleton.mp told
        rfl
      | exits => cases told
      | finishes _ _ written =>
        rcases writeFile_cases written with ⟨_, _, path, lines, rfl, _⟩ | ⟨absurd, _⟩
        · obtain rfl : text = _ := by simpa using told
          rfl
        · cases absurd
    | answers =>
      right
      rw [replies_append, silent, List.nil_append]
      rcases List.mem_append.mp sent with early | last
      · exact absurd early (quiet.1 text)
      · cases List.mem_singleton.mp last
        rfl
  · obtain ⟨_, packet, _, only⟩ := receive_idle executed ran
    right
    rw [only] at sent ⊢
    cases List.mem_singleton.mp sent
    rfl

/-- Every packet that answers a queued one is plain. -/
theorem receive_plain (line : OneLine header) (replicated : Replicated header)
    (ran : receive answer fuel env server true header payload = .ok handled) (sent : .send text ∈ handled.effects) : Plain text := by
  rcases receive_verdicts line replicated ran with verdicts | ⟨_, asks⟩
  · exact (verdicts text sent).plain
  · exact (asks text sent).plain

end

end TransactionalServer.Proofs.PlainReplies
