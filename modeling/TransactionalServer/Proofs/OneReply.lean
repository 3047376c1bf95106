import TransactionalServer.Proofs.Acknowledgments
import TransactionalServer.Proofs.Delivery

/-! The replies on a connection of the other server. Its client reads one packet
for each request, so the replies stay in step with the requests only when each
request is answered with one packet. -/

namespace TransactionalServer.Proofs.OneReply
open ServerTools LogHandler Exec Session

/-- What has been written on the connection. -/
def replies (effects : List Effect) : List Text := effects.filterMap sentPacket

/-- One packet for each request, and the packets in the order of the requests. -/
structure OneEach (answers : List (List Text)) : Prop where
  one : ∀ own ∈ answers, own.length = 1
  inStep : ∀ (k : Nat) (own : List Text), answers[k]? = some own → answers.flatten[k]? = own.head?

theorem oneEach_iff {answers : List (List Text)} : OneEach answers ↔ ∀ own ∈ answers, own.length = 1 := by
  constructor
  · exact OneEach.one
  · intro one
    refine ⟨one, ?_⟩
    induction answers with
    | nil =>
      intro k own absent
      cases absent
    | cons first rest ih =>
      obtain ⟨packet, rfl⟩ := List.length_eq_one_iff.mp (one first List.mem_cons_self)
      have later := ih (fun own member => one own (List.mem_cons_of_mem _ member))
      intro k own at_k
      cases k with
      | zero =>
        cases at_k
        rfl
      | succ k => exact later k own at_k

/-- A COMMIT of an open transaction that lacks several writes. -/
def LacksSeveral (log : Log) (header : Text) : Prop :=
  parse header = 3 ∧ 1 ≤ getSeq header ∧ ∃ record status number, Found log (getTsn header) record status number ∧
    Open status number (getSeq header) ∧ 2 ≤ (missing record (getSeq header)).length

section
variable {π : Type} {answer : Answer π} {fuel : Nat} {server : Server π} {env : Env} {auth : Bool} {header data : Text} {log : Log}
  {io : Bool} {out : Outcome}

theorem replies_append (first second : List Effect) : replies (first ++ second) = replies first ++ replies second := List.filterMap_append

theorem replies_silent {effects : List Effect} (silent : ∀ packet, .send packet ∉ effects) : replies effects = [] := by
  unfold replies
  rw [List.filterMap_eq_nil_iff]
  intro effect member
  cases effect with
  | send packet => exact absurd member (silent packet)
  | save | append => rfl

theorem replies_sends {effects : List Effect} (only : ∀ effect ∈ effects, ∃ packet, effect = .send packet) :
    (replies effects).length = effects.length := by
  induction effects with
  | nil => rfl
  | cons effect rest ih =>
    obtain ⟨packet, rfl⟩ := only effect List.mem_cons_self
    have later := ih (fun other member => only other (List.mem_cons_of_mem _ member))
    exact congrArg (· + 1) later

/-- COMMIT asks for missing writes when the transaction is open and lacks some. -/
theorem Commits.asks (commits : Commits log header io out) (method : parse header = 3) :
    LacksSeveral log header ↔
      out.code = "incomplete" ∧ ∃ record status number, Found log (getTsn header) record status number ∧ 2 ≤ (missing record (getSeq header)).length := by
  have closed (code : out.code ≠ "incomplete") (finds : ∀ {record status number}, Found log (getTsn header) record status number →
      Open status number (getSeq header) → 1 ≤ getSeq header → missing record (getSeq header) = []) :
      LacksSeveral log header ↔ out.code = "incomplete" ∧
        ∃ record status number, Found log (getTsn header) record status number ∧ 2 ≤ (missing record (getSeq header)).length := by
    constructor
    · rintro ⟨_, high, record, status, number, found, allowed, several⟩
      rw [finds found allowed high] at several
      cases several
    · rintro ⟨incomplete, _⟩
      exact absurd incomplete code
  have committed : ("committed".toList : Text) ≠ "incomplete".toList := by decide
  cases commits with
  | absent absent text =>
    apply closed (Answered.ne_codes ⟨_, _, _, text⟩).1
    intro record status number found
    rw [found.inLog] at absent
    cases absent
  | already here _ text =>
    apply closed (Answered.ne_codes ⟨_, _, _, text⟩).1
    intro record status number found allowed
    exact absurd (found_unique found here).2.1 allowed.committed
  | expired here text =>
    apply closed (Answered.ne_codes ⟨_, _, _, text⟩).1
    intro record status number found allowed
    exact absurd (found_unique found here).2.1 allowed.expired
  | otherNumber here pending differs text =>
    apply closed (Answered.ne_codes ⟨_, _, _, text⟩).1
    intro record status number found allowed
    obtain ⟨rfl, rfl, rfl⟩ := found_unique found here
    rcases pending with waiting | committed
    · exact absurd (allowed.waiting waiting) differs
    · exact absurd committed allowed.committed
  | nothing _ _ low text =>
    apply closed (Answered.ne_codes ⟨_, _, _, text⟩).1
    intro record status number found allowed high
    omega
  | incomplete here allowed high =>
    constructor
    · rintro ⟨_, _, record, status, number, found, _, several⟩
      exact ⟨rfl, record, status, number, found, several⟩
    · rintro ⟨_, record, status, number, found, several⟩
      obtain ⟨rfl, rfl, rfl⟩ := found_unique found here
      exact ⟨method, high, _, _, _, found, allowed, several⟩
  | primary here _ _ complete =>
    apply closed committed
    intro record status number found
    obtain ⟨rfl, _⟩ := found_unique found here
    exact fun _ _ => complete
  | written here _ _ complete =>
    apply closed committed
    intro record status number found
    obtain ⟨rfl, _⟩ := found_unique found here
    exact fun _ _ => complete
  | failed here _ _ complete _ _ _ _ text =>
    apply closed (Answered.ne_codes ⟨_, _, _, text⟩).1
    intro record status number found
    obtain ⟨rfl, _⟩ := found_unique found here
    exact fun _ _ => complete

/-- A command that returns true has answered, the others have not. -/
theorem executes_replies {out : Command π} (executes : Executes server env auth header data out)
    (requested : Replicated header ∨ parse header = 7) : (replies out.effects).length = if out.ret then 1 else 0 := by
  have other {method : Nat} (same : parse header = method) (outside : method = 2 ∨ method = 4 ∨ method = 8 ∨ method = 9) : False := by
    unfold Replicated at requested
    omega
  cases executes with
  | refused => rfl
  | read method | created method | authenticated method | demoted method => exact (other method (by decide)).elim
  | notAborted _ aborts kept =>
    simp only [ofOutcome, aborts.effects, kept]
    rfl
  | aborted => rfl
  | commits _ commits =>
    simp only [ofOutcome, replies_silent commits.no_send, commits.ret]
    rfl
  | added _ adds =>
    simp only [replies_append, replies_silent (Adds.no_send adds)]
    rfl
  | completed _ adds =>
    simp only [replies_silent (Adds.no_send adds)]
    rfl
  | notAdded _ adds refused =>
    simp only [ofOutcome, replies_silent (Adds.no_send adds), refused]
    rfl
  | made _ makes =>
    simp only [replies_append, replies_silent (makeTxn_no_send makes)]
    rfl
  | pinged => rfl

/-- One request for each write that is missing. -/
theorem sendAckResend_length {tsn : Int} {record : Record} {status number : Text} {packets : List Effect}
    (found : Found log tsn record status number) (ran : sendAckResend log tsn = .ok packets) :
    packets.length = (missing record (atoi number)).length := by
  simp only [sendAckResend, found.getStatusData, canCommit_of_get found.inLog, ok_bind] at ran
  have same := (forall₂_of_mapM ran).length_eq
  rw [List.length_reverse] at same
  exact same.symm

/-- At its end a commit is answered once. -/
theorem concludes_replies {done : Handled π} (concludes : Concludes answer fuel io server auth header done) (runs : done.exited = false) :
    (replies done.effects).length = 1 := by
  cases concludes with
  | acknowledged => rfl
  | refused => rfl
  | exits => cases runs
  | finishes _ _ written =>
    rcases writeFile_cases written with ⟨_, _, path, lines, rfl, _⟩ | ⟨absurd, _⟩
    · rfl
    · cases absurd

/-- A COMMIT that lacks several writes is told so. -/
theorem lacks_asks {out : Command π} (executes : Executes server env true header data out) (lacks : LacksSeveral server.log header) :
    out.ret = false ∧ out.error = "incomplete" := by
  have method := lacks.1
  cases executes with
  | commits _ commits => exact ⟨commits.ret, ((Commits.asks commits method).mp lacks).1⟩
  | refused cause =>
    rcases cause with refused | other
    · rw [authorized_command] at refused
      cases refused
    · exact absurd (Or.inr (Or.inl method)) other
  | read other | notAborted other | aborted other | created other | added other | completed other | notAdded other | made other
  | pinged other | authenticated other | demoted other =>
    rw [method] at other
    cases other

theorem incomplete_count {out : Command π} {packets : List Effect} (executes : Executes server env true header data out)
    (refused : out.ret = false) (code : out.error = "incomplete") (ran : sendAckResend out.server.log (getTsn header) = .ok packets) :
    1 ≤ packets.length ∧ (LacksSeveral server.log header ↔ 2 ≤ packets.length) := by
  obtain ⟨method, record, found, gaps⟩ := executes.incomplete refused code
  have length := sendAckResend_length found ran
  rw [atoi_iToS (getSeq_isInt header)] at length
  have some : 1 ≤ packets.length := by
    rw [length]
    exact List.length_pos_iff.mpr gaps
  refine ⟨some, ?_⟩
  cases executes with
  | commits _ commits =>
    rw [Commits.asks commits method, length]
    have asked := commits.code
    rcases asked with ⟨_, before, status, number, here, _, marked⟩ | committed | answered
    · have same : missing record (getSeq header) = missing before (getSeq header) := by
        have inLog := found.inLog
        simp only [ofOutcome, marked] at inLog
        rw [(mark_found _ _ _ _ _).inLog, Option.some.injEq] at inLog
        rw [← inLog, missing_insert_present here.entry]
      rw [same]
      constructor
      · rintro ⟨_, other, _, _, there, several⟩
        obtain ⟨rfl, _⟩ := found_unique here there
        exact several
      · intro several
        exact ⟨code, before, status, number, here, several⟩
    · have same : ("committed".toList : Text) = "incomplete".toList := committed.symm.trans code
      exact absurd same (by decide)
    · exact absurd code answered.ne_codes.1
  | refused _ refusal => exact absurd code refusal.answered.ne_codes.1
  | read other | notAborted other | aborted other | created other | added other | completed other | notAdded other | made other
  | pinged other | authenticated other | demoted other =>
    rw [method] at other
    cases other

/-- How many packets answer a request. -/
theorem dispatch_count {handled : Handled π} (requested : Replicated header ∨ parse header = 7)
    (ran : dispatch answer fuel env server true header data = .ok handled) (runs : handled.exited = false) :
    (replies handled.effects).length = 1 ↔ ¬ LacksSeveral server.log header := by
  unfold dispatch at ran
  obtain ⟨out, executed, ran⟩ := bind_eq_ok.mp ran
  have executes := executeCommand_cases executed
  have own := executes_replies executes requested
  have once (answered : (replies handled.effects).length = 1) (goesOn : out.ret = true ∨ out.error ≠ "incomplete") :
      (replies handled.effects).length = 1 ↔ ¬ LacksSeveral server.log header := by
    refine ⟨fun _ lacks => ?_, fun _ => answered⟩
    obtain ⟨refused, code⟩ := lacks_asks executes lacks
    rcases goesOn with returned | other
    · rw [refused] at returned
      cases returned
    · exact other code
  cases refused : out.ret with
  | true =>
    rw [refused] at own ran
    cases ran
    exact once own (Or.inl refused)
  | false =>
    rw [refused, if_neg Bool.false_ne_true] at own ran
    split at ran
    next code =>
      obtain ⟨packets, missing, same⟩ := bind_eq_ok.mp ran
      cases same
      obtain ⟨some, several⟩ := incomplete_count executes refused code missing
      rw [replies_append, List.length_append, own, replies_sends (sendAckResend_effects missing), several]
      omega
    next notIncomplete =>
    apply once _ (Or.inr notIncomplete)
    split at ran
    next code =>
      obtain ⟨done, committed, same⟩ := bind_eq_ok.mp ran
      cases same
      rw [replies_append, List.length_append, own, concludes_replies (doCommit_cases committed) runs]
    next =>
      cases ran
      rw [replies_append, List.length_append, own]
      rfl

end

section
variable {π : Type} {answer : Answer π} {fuel : Nat} {server : Server π} {env : Env} {header : Text} {payload : Option Text} {handled : Handled π}

/-- A session of a backup goes on. -/
theorem receive_stays (backup : NotPrimary server.log) (ran : receive answer fuel env server true header payload = .ok handled) :
    handled.exited = false := by
  rcases receive_cases ran with ⟨_, runs, _⟩ | ⟨_, out, executes, follows⟩
  · exact runs
  cases follows with
  | returned | asks | answers => rfl
  | concludes _ _ concludes =>
    cases concludes with
    | acknowledged | refused | finishes => rfl
    | exits primary => exact absurd primary (executes.notPrimary backup)

/-- Anything but such a COMMIT is answered with one packet. -/
theorem receive_once (replicated : Replicated header) (once : ¬ LacksSeveral server.log header)
    (ran : receive answer fuel env server true header payload = .ok handled) (runs : handled.exited = false) :
    (replies handled.effects).length = 1 := by
  have dispatched {data : Text} (ran : dispatch answer fuel env server true header data = .ok handled) :
      (replies handled.effects).length = 1 := (dispatch_count (Or.inl replicated) ran runs).mpr once
  unfold receive at ran
  cases payload with
  | some data => exact dispatched ran
  | none =>
    simp only at ran
    split at ran
    · obtain ⟨text, _, same⟩ := bind_eq_ok.mp ran
      cases same
      rfl
    · exact dispatched ran

end

section
variable {π : Type} (answer : Answer π) (fuel : Nat)

/-- A request on a connection, and the server that it finds. -/
structure Turn (π : Type) where
  server : Server π
  env : Env
  header : Text
  payload : Option Text

/-- What the other server sends: an update that its log has a record for, or PING
with an address. A commit that it starts on a primary comes to its end there. -/
structure Requests (turn : Turn π) : Prop where
  role : ∃ role, getServerStatus turn.server.log = .ok role
  answerable : Answerable turn.header
  request : (Replicated turn.header ∧ getTsn turn.header ≠ 0 ∧ Formed turn.server.log (getTsn turn.header)) ∨
    (parse turn.header = 7 ∧ ∃ data ip port rest, turn.payload = some data ∧ Fields.split ['|'] data = ip :: port :: rest)
  concludes : IsPrimary turn.server.log → ∀ out,
    executeCommand turn.env turn.server true (parse turn.header) turn.header (turn.payload.getD " ") = .ok out →
      out.ret = false → out.error = "committed" →
        ∃ done, doCommit answer fuel turn.env.io out.server out.auth turn.header = .ok done ∧ done.exited = false

end

section
variable {π : Type} {answer : Answer π} {fuel : Nat} {turn : Turn π}

theorem Requests.executed (requests : Requests answer fuel turn) :
    ∃ out, executeCommand turn.env turn.server true (parse turn.header) turn.header (turn.payload.getD " ") = .ok out := by
  rcases requests.request with ⟨replicated, other, formed⟩ | ⟨method, data, ip, port, rest, given, pieces⟩
  · exact executeCommand_returns requests.role formed requests.answerable other replicated
  · obtain ⟨ack, text⟩ := answerable_genAnswerStr requests.answerable "ACK" "200" " "
    have registers : ∃ log, register turn.server.log data = .ok log := by
      unfold register
      split
      · exact ⟨_, by rw [backupServerData, pieces]⟩
      · exact ⟨_, rfl⟩
    obtain ⟨log, registers⟩ := registers
    refine ⟨{ server := { turn.server with log }, effects := [.send ack], auth := true, ret := true }, ?_⟩
    rw [given, Option.getD_some, method]
    unfold executeCommand
    simp only [authorized_command, ok_bind, Bool.false_eq_true, if_false, text, registers, pure_eq_ok]

theorem Requests.dispatched (requests : Requests answer fuel turn) :
    ∃ handled, dispatch answer fuel turn.env turn.server true turn.header (turn.payload.getD " ") = .ok handled ∧ handled.exited = false := by
  obtain ⟨out, executed⟩ := requests.executed
  have executes := executeCommand_cases executed
  unfold dispatch
  rw [executed, ok_bind]
  cases refused : out.ret with
  | true => exact ⟨_, rfl, rfl⟩
  | false =>
    rw [if_neg Bool.false_ne_true]
    by_cases incomplete : out.error = "incomplete"
    · obtain ⟨packet, rest, sent⟩ := resend_sends executes refused incomplete
      rw [if_pos incomplete, sent]
      exact ⟨_, rfl, rfl⟩
    rw [if_neg incomplete]
    by_cases committed : out.error = "committed"
    · have done : ∃ done, doCommit answer fuel turn.env.io out.server out.auth turn.header = .ok done ∧ done.exited = false := by
        by_cases primary : IsPrimary turn.server.log
        · exact requests.concludes primary out executed refused committed
        · have method := executes.committed_method refused committed
          rcases requests.request with ⟨replicated, other, _⟩ | ⟨ping, _⟩
          · have still : ∃ role, getServerStatus out.server.log = .ok role := by
              obtain ⟨role, read⟩ := requests.role
              exact ⟨role, by rw [getServerStatus_of_get (executes.frame replicated (Ne.symm other)), read]⟩
            obtain ⟨ack, done⟩ := doCommit_acknowledges out.auth turn.env.io (executes.notPrimary primary) still requests.answerable
            exact ⟨_, done, rfl⟩
          · rw [ping] at method
            exact absurd method (by decide)
      obtain ⟨done, concluded, runs⟩ := done
      rw [if_pos committed, concluded]
      exact ⟨_, rfl, runs⟩
    · rw [if_neg committed]
      exact ⟨_, rfl, rfl⟩

/-- One request: it is handled, and answered once unless it lacks several writes. -/
theorem Requests.answered (requests : Requests answer fuel turn) :
    ∃ handled, receive answer fuel turn.env turn.server true turn.header turn.payload = .ok handled ∧ handled.exited = false ∧
      ((replies handled.effects).length = 1 ↔ ¬ LacksSeveral turn.server.log turn.header) := by
  have requested : Replicated turn.header ∨ parse turn.header = 7 := requests.request.imp And.left And.left
  obtain ⟨handled, ran, runs⟩ := requests.dispatched
  have counted := dispatch_count requested ran runs
  unfold receive
  cases given : turn.payload with
  | some data =>
    rw [given] at ran
    exact ⟨handled, ran, runs, counted⟩
  | none =>
    rw [given] at ran
    by_cases needed : needsData turn.header = true
    · obtain ⟨text, made⟩ := answerable_genAnswerStr requests.answerable "ERROR" "204" "Method requires data."
      simp only [needed, if_true, made, ok_bind, pure_eq_ok]
      refine ⟨_, rfl, rfl, fun _ lacks => ?_, fun _ => rfl⟩
      rw [needsData, lacks.1] at needed
      cases needed
    · simp only [needed, Bool.false_eq_true, if_false]
      exact ⟨handled, ran, runs, counted⟩

/-- The session handles every request of a conversation. Each request is answered
with one packet, and the packets come in the order of the requests, exactly when
no COMMIT finds several writes missing. -/
theorem replies_are_in_step_exactly_without_several_gaps {turns : List (Turn π)} (requests : ∀ turn ∈ turns, Requests answer fuel turn) :
    ∃ answers, List.Forall₂ (fun turn own => ∃ handled,
        receive answer fuel turn.env turn.server true turn.header turn.payload = .ok handled ∧ handled.exited = false ∧
          own = replies handled.effects) turns answers ∧
      (OneEach answers ↔ ∀ turn ∈ turns, ¬ LacksSeveral turn.server.log turn.header) := by
  simp only [oneEach_iff]
  induction turns with
  | nil => exact ⟨[], .nil, by simp⟩
  | cons turn rest ih =>
    obtain ⟨handled, received, runs, counted⟩ := (requests turn List.mem_cons_self).answered
    obtain ⟨answers, later, inStep⟩ := ih (fun other member => requests other (List.mem_cons_of_mem _ member))
    refine ⟨replies handled.effects :: answers, .cons ⟨handled, received, runs, rfl⟩ later, ?_⟩
    rw [List.forall_mem_cons, List.forall_mem_cons, counted, inStep]

end

/-- A backup that has been told of transaction 5 and of nothing else. -/
def toldOfFive : Server Unit :=
  { log := (serverData ∅ "ip" "80" "backup" "dir").insert 5 (freshRecord "aa"), link := { peer := (), wires := [], connects := [] } }

/-- It is sent a write and, as that leaves it, PING. -/
def writeThenPing (written : Server Unit) : List (Turn Unit) :=
  [{ server := toldOfFive, env := {}, header := "WRITE 5 1 3", payload := some "xx" },
    { server := written, env := {}, header := "PING -1 0 6", payload := some "ip|81" }]

theorem write_then_ping_are_in_step : ∃ (write : Handled Unit) (answers : List (List Text)),
    receive Backup.noPeer 0 {} toldOfFive true "WRITE 5 1 3" (some "xx") = .ok write ∧ answers.length = 2 ∧ OneEach answers ∧
    List.Forall₂ (fun turn own => ∃ handled, receive Backup.noPeer 0 turn.env turn.server true turn.header turn.payload = .ok handled ∧
      handled.exited = false ∧ own = replies handled.effects) (writeThenPing write.server) answers := by
  obtain ⟨write, written⟩ := returned_of_isOk (show (receive Backup.noPeer 0 {} toldOfFive true "WRITE 5 1 3" (some "xx")).isOk by decide +kernel)
  have kept : (receive Backup.noPeer 0 {} toldOfFive true "WRITE 5 1 3" (some "xx")).map (fun write => getServerStatus write.server.log) =
      .ok (.ok "backup") := by decide +kernel
  rw [written] at kept
  have backup : getServerStatus toldOfFive.log = .ok "backup" := by decide +kernel
  have notPrimary {log : Log} (backup : getServerStatus log = .ok "backup") : ¬ IsPrimary log := by
    intro primary
    exact absurd (backup.symm.trans primary) (by decide)
  have formed : Formed toldOfFive.log 5 := by
    intro record inLog
    rw [toldOfFive, Std.ExtTreeMap.getElem?_insert_self, Option.some.injEq] at inLog
    exact inLog ▸ (twoEntries_whole _ _).formed
  have requests : ∀ turn ∈ writeThenPing write.server, Requests Backup.noPeer 0 turn := by
    intro turn member
    simp only [writeThenPing, List.mem_cons, List.not_mem_nil, or_false] at member
    rcases member with rfl | rfl
    · exact ⟨⟨_, backup⟩, answerable_of_valid (by decide), Or.inl ⟨Or.inr (Or.inr (Or.inl (by decide))), by decide, formed⟩,
        fun primary => absurd primary (notPrimary backup)⟩
    · have still : getServerStatus write.server.log = .ok "backup" := Except.ok.inj kept
      have valid : validHeader "PING -1 0 6" = true := by decide
      have pings : parse "PING -1 0 6" = 7 := by decide
      exact ⟨⟨_, still⟩, answerable_of_valid valid, Or.inr ⟨pings, _, "ip", "81", [], rfl, by decide⟩,
        fun primary => absurd primary (notPrimary still)⟩
  obtain ⟨answers, handled, inStep⟩ := replies_are_in_step_exactly_without_several_gaps requests
  refine ⟨write, answers, written, handled.length_eq.symm, inStep.mpr ?_, handled⟩
  intro turn member lacks
  simp only [writeThenPing, List.mem_cons, List.not_mem_nil, or_false] at member
  rcases member with rfl | rfl
  · exact absurd lacks.1 (by decide)
  · exact absurd lacks.1 (show parse "PING -1 0 6" ≠ 3 by decide)

/-- The packets of a COMMIT, of the writes that it asks for, and of the COMMIT again. -/
def resentFive : Exec (List (List Text)) := do
  let first ← receive Backup.noPeer 0 {} toldOfFive true "COMMIT 5 2 0" none
  let second ← receive Backup.noPeer 0 {} first.server true "WRITE 5 1 3" (some "xx")
  let third ← receive Backup.noPeer 0 {} second.server true "WRITE 5 2 3" (some "yy")
  let fourth ← receive Backup.noPeer 0 {} third.server true "COMMIT 5 2 0" none
  return [replies first.effects, replies second.effects, replies third.effects, replies fourth.effects]

/-- The answers to the second write and to the second COMMIT. -/
def writeAck : Text := "ACK 5 2 0 23\r\n\r\nCommitted successfully.\r\n"

def commitAck : Text := "ACK 5 2 0 17\r\n\r\nAlready committed\r\n"

/-- The COMMIT is answered with two packets. The fourth packet, which the client
reads after the second COMMIT, is the ACK of the second write. -/
theorem commit_reads_the_ack_of_a_write : ∃ answers, resentFive = .ok answers ∧ ¬ OneEach answers ∧
    answers.map List.length = [2, 1, 1, 1] ∧ answers[2]? = some [writeAck] ∧ answers[3]? = some [commitAck] ∧
      answers.flatten[3]? = some writeAck ∧ Acknowledges writeAck := by
  have counts : resentFive.map (fun answers => answers.map List.length) = .ok [2, 1, 1, 1] := by decide +kernel
  have owns : resentFive.map (fun answers => answers.drop 2) = .ok [[writeAck], [commitAck]] := by decide +kernel
  have reads : resentFive.map (fun answers => answers.flatten[3]?) = .ok (some writeAck) := by decide +kernel
  obtain ⟨answers, ran⟩ := returned_of_isOk (show resentFive.isOk by decide +kernel)
  rw [ran] at counts owns reads
  have lengths : answers.map List.length = [2, 1, 1, 1] := Except.ok.inj counts
  have last : answers.drop 2 = [[writeAck], [commitAck]] := Except.ok.inj owns
  have entry (k : Nat) : answers[2 + k]? = [[writeAck], [commitAck]][k]? := by rw [← List.getElem?_drop, last]
  refine ⟨answers, ran, ?_, lengths, entry 0, entry 1, Except.ok.inj reads, by decide⟩
  intro each
  have two : 2 ∈ answers.map List.length := by rw [lengths]; exact List.mem_cons_self
  obtain ⟨own, member, length⟩ := List.mem_map.mp two
  rw [each.one own member] at length
  cases length

end TransactionalServer.Proofs.OneReply
