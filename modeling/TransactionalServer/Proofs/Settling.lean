import TransactionalServer.Library.Safety
import TransactionalServer.Proofs.BackupSteps

/-! How queued packets arrive at the backup, and how it settles the COMMIT that
the primary sends it. -/

namespace TransactionalServer.Proofs
open ServerTools LogHandler Exec Session

private theorem commitMessage_pieces (tsn seq : Int) :
    commitMessage tsn seq = "COMMIT ".toList ++ iToS tsn ++ " ".toList ++ iToS seq ++ " 0".toList := rfl

theorem commitMessage_eq (tsn seq : Int) : commitMessage tsn seq = compose "COMMIT" (iToS tsn) (iToS seq) "0" := by
  have start : "COMMIT ".toList = "COMMIT".toList ++ [' '] := by decide
  have space : " ".toList = [' '] := by decide
  have finish : " 0".toList = ' ' :: "0".toList := by decide
  rw [commitMessage_pieces, start, space, finish, compose]
  simp only [List.append_assoc]
  rfl

theorem commitMessage_fields (tsn seq : Int) :
    fields (commitMessage tsn seq) = "COMMIT".toList :: iToS tsn :: iToS seq :: ["0".toList] := by
  rw [commitMessage_eq, fields_compose (by decide) (iToS_field tsn) (iToS_field seq)]
  rfl

theorem commitMessage_parse (tsn seq : Int) : parse (commitMessage tsn seq) = 3 := by
  rw [parse_of_fields (commitMessage_fields tsn seq)]
  rfl

theorem commitMessage_getTsn {tsn : Int} (range : IsInt tsn) (seq : Int) : getTsn (commitMessage tsn seq) = tsn := by
  rw [getTsn_of_fields (commitMessage_fields tsn seq), lexicalCast_iToS range, Option.getD_some]

theorem commitMessage_getSeq {seq : Int} (range : IsInt seq) (tsn : Int) : getSeq (commitMessage tsn seq) = seq := by
  rw [getSeq_of_fields (commitMessage_fields tsn seq), lexicalCast_iToS range, Option.getD_some]

theorem commitMessage_injective {one two first second : Int} (same : commitMessage one first = commitMessage two second) : one = two := by
  have texts := congrArg fields same
  rw [commitMessage_fields, commitMessage_fields, List.cons.injEq, List.cons.injEq] at texts
  have parsed := congrArg Decimal.parse? texts.2.1
  unfold iToS at parsed
  rwa [Decimal.parse_render, Decimal.parse_render, Option.some.injEq] at parsed

/-- What the check asks of the peer about a record. -/
def committedMessage (log : Log) (key : Int) : Option Text :=
  match log[key]?.bind (·[(-1 : Int)]?) with
  | none => none
  | some (status, number) => if status = "COMMITTED" then some (commitMessage key (atoi number)) else none

theorem committedMessage_of_found {log : Log} {key : Int} {record : Record} {status number : Text} (found : Found log key record status number) :
    committedMessage log key = if status = "COMMITTED" then some (commitMessage key (atoi number)) else none := by
  unfold committedMessage
  rw [found.inLog, Option.bind_some, found.entry]

theorem committedMessage_eq_some {log : Log} {key : Int} {header : Text} :
    committedMessage log key = some header ↔ ∃ record number, Found log key record "COMMITTED" number ∧ header = commitMessage key (atoi number) := by
  constructor
  · intro asked
    unfold committedMessage at asked
    split at asked
    · cases asked
    next status number entry =>
    split at asked
    next committed =>
      obtain ⟨record, inLog, entry⟩ := Option.bind_eq_some_iff.mp entry
      exact ⟨record, number, ⟨inLog, committed ▸ entry⟩, (Option.some.inj asked).symm⟩
    next => cases asked
  · rintro ⟨record, number, found, rfl⟩
    rw [committedMessage_of_found found, if_pos rfl]

/-- The headers that a check goes through are those of the committed transactions. -/
theorem getCommits_eq (log : Log) : getCommits log = .ok ((log.keys.filter (0 ≤ ·)).filterMap (committedMessage log)) := by
  unfold getCommits
  refine foldlM_collects ?_ []
  intro key member holder
  obtain ⟨inKeys, low⟩ := List.mem_filter.mp member
  obtain ⟨record, inLog⟩ := Store.mem_iff_get.mp (Std.ExtTreeMap.mem_keys.mp inKeys)
  rw [inLog, defined_some, ok_bind]
  split
  next bare =>
    have silent : committedMessage log key = none := by
      unfold committedMessage
      rw [inLog, Option.bind_some, bare]
    rw [silent, Option.toList_none, List.append_nil]
    rfl
  next status number entry =>
    have found : Found log key record status number := ⟨inLog, entry⟩
    rw [committedMessage_of_found found]
    split
    next committed =>
      rw [found.getStatusData]
      rfl
    next =>
      rw [Option.toList_none, List.append_nil]
      rfl

theorem mem_getCommits {log : Log} {holder : List Text} (gathered : getCommits log = .ok holder) {header : Text} :
    header ∈ holder ↔ ∃ tsn record number, 0 ≤ tsn ∧ Found log tsn record "COMMITTED" number ∧ header = commitMessage tsn (atoi number) := by
  rw [getCommits_eq, Except.ok.injEq] at gathered
  subst gathered
  simp only [List.mem_filterMap, List.mem_filter, Std.ExtTreeMap.mem_keys, committedMessage_eq_some, decide_eq_true_iff]
  constructor
  · rintro ⟨tsn, ⟨_, low⟩, record, number, found, rfl⟩
    exact ⟨tsn, record, number, low, found, rfl⟩
  · rintro ⟨tsn, record, number, low, found, rfl⟩
    exact ⟨tsn, ⟨Store.mem_iff_get.mpr ⟨record, found.inLog⟩, low⟩, record, number, found, rfl⟩

/-- The check asks once about each transaction. -/
theorem getCommits_nodup {log : Log} {holder : List Text} (gathered : getCommits log = .ok holder) : holder.Nodup := by
  rw [getCommits_eq, Except.ok.injEq] at gathered
  subst gathered
  refine List.Nodup.filterMap ?_ (List.Nodup.filter _ log.nodup_keys)
  intro one two header first second
  obtain ⟨_, _, _, same⟩ := committedMessage_eq_some.mp first
  obtain ⟨_, _, _, rfl⟩ := committedMessage_eq_some.mp second
  exact (commitMessage_injective same).symm

theorem getCommits_names (log : Log) :
    Safe (getCommits log) fun holder => ∀ header ∈ holder,
      ∃ tsn record number, 0 ≤ tsn ∧ Found log tsn record "COMMITTED" number ∧ header = commitMessage tsn (atoi number) :=
  .of_eq_ok (getCommits_eq log) fun _ member => (mem_getCommits (getCommits_eq log)).mp member

/-- The header under which NEW_TXN reaches the backup. -/
theorem makeTxnHeader_fields (tsn : Int) :
    fields ("MAKE_TXN " ++ iToS tsn ++ " 0 0 0" : Text) = "MAKE_TXN".toList :: iToS tsn :: "0".toList :: ["0".toList, "0".toList] := by
  have same : ("MAKE_TXN " ++ iToS tsn ++ " 0 0 0" : Text) = compose "MAKE_TXN" (iToS tsn) "0" "0 0" := by simp [compose]
  rw [same, fields_compose (by decide) (iToS_field tsn) (by decide)]
  rfl

/-- The header under which a resend creates the missing transaction. -/
theorem makeTsnHeader_fields (tsn : Int) :
    fields ("MAKE_TXN " ++ iToS tsn ++ " -1 0" : Text) = "MAKE_TXN".toList :: iToS tsn :: "-1".toList :: ["0".toList] := by
  have same : ("MAKE_TXN " ++ iToS tsn ++ " -1 0" : Text) = compose "MAKE_TXN" (iToS tsn) "-1" "0" := by simp [compose]
  rw [same, fields_compose (by decide) (iToS_field tsn) (by decide)]
  rfl

/-- A header of single spaces that was sent without data arrives as it is. -/
theorem echoHeader_bare {method tsn seq : Text} (first : FieldText method) (second : FieldText tsn) (third : FieldText seq) :
    Client.echoHeader (compose method tsn seq "0") " " = .ok (compose method tsn seq "0") := by
  rw [echoHeader_of_fields (fields_compose first second third "0")]
  rfl

/-- An encoding that keeps method, transaction, number and data, or loses the
packet's data as a whole. -/
structure Honest (arrival : Backup.Arrival) : Prop where
  bare : ∀ tsn seq, arrival (commitMessage tsn seq) " " = .ok (commitMessage tsn seq, none)
  same : ∀ header data arrived payload, arrival header data = .ok (arrived, payload) →
    parse arrived = parse header ∧ getTsn arrived = getTsn header ∧ getSeq arrived = getSeq header ∧ Answerable arrived ∧
      (payload = none ∨ payload = some data)
  returns : ∀ header data, Answerable header → ∃ arrived payload, arrival header data = .ok (arrived, payload)
  echoes : ∀ header data arrived payload, arrival header data = .ok (arrived, payload) →
    ∃ packet, Client.genEcho header data = .ok packet

private theorem genEcho_of_echoHeader {header data line : Text} (sent : Client.echoHeader header data = .ok line) :
    ∃ packet, Client.genEcho header data = .ok packet := by
  unfold Client.genEcho
  rw [sent, ok_bind]
  split
  · exact ⟨_, rfl⟩
  · exact ⟨_, rfl⟩

private theorem honest_of_echoHeader {attached : Text → Bool}
    (bare : ∀ tsn seq, attached (commitMessage tsn seq) = false) :
    Honest (fun header data => do
      let echoed ← Client.echoHeader header data
      return (echoed, if attached echoed then some data else none)) := by
  refine ⟨?_, ?_, ?_, ?_⟩
  · intro tsn seq
    have same : Client.echoHeader (commitMessage tsn seq) " " = .ok (commitMessage tsn seq) := by
      rw [commitMessage_eq]
      exact echoHeader_bare (by decide) (iToS_field tsn) (iToS_field seq)
    simp only [same, ok_bind, bare, Bool.false_eq_true, if_false, pure_eq_ok]
  · intro header data arrived payload ran
    obtain ⟨echoed, sent, same⟩ := bind_eq_ok.mp ran
    cases same
    match shape : fields header with
    | method :: tsn :: seq :: rest =>
      rw [echoHeader_of_fields shape, Except.ok.injEq] at sent
      subst sent
      have echoed := fields_echo shape data
      refine ⟨?_, ?_, ?_, ⟨_, _, _, _, echoed⟩, ?_⟩
      · rw [parse_of_fields echoed, parse_of_fields shape]
      · rw [getTsn_of_fields echoed, getTsn_of_fields shape]
      · rw [getSeq_of_fields echoed, getSeq_of_fields shape]
      · split
        · exact Or.inr rfl
        · exact Or.inl rfl
    | [] => simp [Client.echoHeader, shape] at sent
    | [_] => simp [Client.echoHeader, shape] at sent
    | [_, _] => simp [Client.echoHeader, shape] at sent
  · intro header data answerable
    obtain ⟨_, _, _, _, shape⟩ := answerable
    exact ⟨_, _, by rw [echoHeader_of_fields shape]; rfl⟩
  · intro header data arrived payload ran
    obtain ⟨line, sent, _⟩ := bind_eq_ok.mp ran
    exact genEcho_of_echoHeader sent

theorem echoed_honest : Honest Backup.echoed := by
  apply honest_of_echoHeader
  intro tsn seq
  simp only [dataAttached, commitMessage_parse]

theorem unchanged_honest : Honest Backup.unchanged := by
  apply honest_of_echoHeader
  intro tsn seq
  simp only [needsData, commitMessage_parse]

theorem unchanged_payload {header data arrived : Text} {payload : Option Text}
    (sent : Backup.unchanged header data = .ok (arrived, payload)) (needed : needsData header = true) : payload = some data := by
  have same := (unchanged_honest.same _ _ _ _ sent).1
  unfold Backup.unchanged at sent
  obtain ⟨echoed, _, rest⟩ := bind_eq_ok.mp sent
  cases rest
  rw [needsData_of_parse same, needed, if_pos rfl]

/-- What a backup does with COMMIT `seq` of `tsn`: its log afterwards, and the
method and the code of its answer. -/
inductive Settles (log : Log) (tsn seq : Int) (io : Bool) : Log → Text → Text → Prop where
  | absent (absent : log[tsn]? = none) : Settles log tsn seq io log "ERROR" "201"
  | already {record : Record} {number : Text} (found : Found log tsn record "COMMITTED" number) (same : atoi number = seq) :
      Settles log tsn seq io log "ACK" "0"
  | expired {record : Record} {number : Text} (found : Found log tsn record "EXPIRED" number) :
      Settles log tsn seq io log "ERROR" "220"
  | otherNumber {record : Record} {status number : Text} (found : Found log tsn record status number)
      (pending : status = "WAITING" ∨ status = "COMMITTED") (differs : atoi number ≠ seq) :
      Settles log tsn seq io log "ERROR" "202"
  | incomplete {record : Record} {status number : Text} (found : Found log tsn record status number)
      (allowed : Open status number seq) (gaps : missing record seq ≠ []) :
      Settles log tsn seq io (mark log tsn record "WAITING" (iToS seq)) "ACK_RESEND" "0"
  | written {record : Record} {status number : Text} (found : Found log tsn record status number)
      (allowed : Open status number seq) (complete : missing record seq = []) (opened : io = true) :
      Settles log tsn seq io (mark log tsn record "COMMITTED" (iToS seq)) "ACK" "0"
  | failed {record : Record} {status number : Text} (found : Found log tsn record status number)
      (allowed : Open status number seq) (complete : missing record seq = []) (refused : io = false) :
      Settles log tsn seq io (mark log tsn record "WAITING" (iToS seq)) "ERROR" "205"

section
variable {arrival : Backup.Arrival} {backup : Backup} {tsn seq : Int} {io : Bool}

private theorem answer_words {method code errString text : Text} (first : Word method) (fourth : Word code)
    (answered : genAnswerStr method (commitMessage tsn seq) code errString = .ok text) :
    ∃ third rest, Fields.split [' '] (Client.readReply text) = method :: iToS tsn :: third :: code :: rest := by
  obtain ⟨tail, made⟩ := genAnswerStr_of_fields (commitMessage_fields tsn seq) method code errString
  rw [made, Except.ok.injEq] at answered
  subst answered
  obtain ⟨rest, words⟩ := readReply_words first (iToS_word tsn) (iToS_word seq) fourth
  exact ⟨_, rest, words⟩

private theorem answer_receives (honest : Honest arrival) (io : Bool) {handled : Handled Unit}
    (ran : dispatch Backup.noPeer 0 { io } backup true (commitMessage tsn seq) " " = .ok handled) :
    Backup.answer arrival backup io (commitMessage tsn seq) " " = .ok (handled.server, Backup.firstPacket handled.effects) := by
  have unneeded : needsData (commitMessage tsn seq) = false := by simp only [needsData, commitMessage_parse]
  simp only [Backup.answer, honest.bare, ok_bind, receive, unneeded, Bool.false_eq_true, if_false, ran, pure_eq_ok]

private theorem executeCommand_commit {outcome : Outcome} (ran : LogHandler.commit backup.log (commitMessage tsn seq) io = .ok outcome) :
    executeCommand { io } backup true (parse (commitMessage tsn seq)) (commitMessage tsn seq) " " =
      .ok (ofOutcome backup true outcome) := by
  have refused := (commit_cases ran).ret
  simp only [executeCommand, authorized_command, ok_bind, Bool.false_eq_true, if_false, commitMessage_parse, ran, ofOutcome,
    refused, pure_eq_ok]

private theorem dispatch_answered {outcome : Outcome} {code errString method : Text}
    (ran : LogHandler.commit backup.log (commitMessage tsn seq) io = .ok outcome)
    (answered : genAnswerStr method (commitMessage tsn seq) code errString = .ok outcome.code) :
    dispatch Backup.noPeer 0 { io } backup true (commitMessage tsn seq) " " =
      .ok { server := { backup with log := outcome.log }, effects := outcome.effects ++ [.send outcome.code], auth := true } := by
  obtain ⟨notIncomplete, notCommitted⟩ := Answered.ne_codes ⟨_, _, _, answered⟩
  have refused := (commit_cases ran).ret
  simp only [dispatch, executeCommand_commit ran, ok_bind, ofOutcome, refused, Bool.false_eq_true, if_false, notIncomplete,
    notCommitted, pure_eq_ok]

private theorem dispatch_incomplete {outcome : Outcome} {packets : List Effect} (tsnRange : IsInt tsn)
    (ran : LogHandler.commit backup.log (commitMessage tsn seq) io = .ok outcome) (code : outcome.code = "incomplete")
    (sent : sendAckResend outcome.log tsn = .ok packets) :
    dispatch Backup.noPeer 0 { io } backup true (commitMessage tsn seq) " " =
      .ok { server := { backup with log := outcome.log }, effects := outcome.effects ++ packets, auth := true } := by
  have refused := (commit_cases ran).ret
  rw [dispatch, executeCommand_commit ran, ok_bind]
  simp only [ofOutcome, refused, Bool.false_eq_true, if_false]
  rw [if_pos code, commitMessage_getTsn tsnRange, sent]
  rfl

private theorem dispatch_committed {outcome : Outcome} {role : Text}
    (ran : LogHandler.commit backup.log (commitMessage tsn seq) io = .ok outcome) (code : outcome.code = "committed")
    (read : getServerStatus outcome.log = .ok role) (notRole : role ≠ "primary") {ack : Text}
    (text : genAnswerStr "ACK" (commitMessage tsn seq) "0" "Committed successfully." = .ok ack) :
    dispatch Backup.noPeer 0 { io } backup true (commitMessage tsn seq) " " =
      .ok { server := { backup with log := outcome.log }, effects := outcome.effects ++ [.send ack], auth := true } := by
  have refused := (commit_cases ran).ret
  have notIncomplete : outcome.code ≠ "incomplete" := by
    rw [code]
    decide
  rw [dispatch, executeCommand_commit ran, ok_bind]
  simp only [ofOutcome, refused, Bool.false_eq_true, if_false]
  rw [if_neg notIncomplete, if_pos code, doCommit, text, ok_bind, read, ok_bind, if_neg notRole]
  rfl

/-- What the client reads of the answer to a COMMIT. -/
structure Reads (reply word code tsn : Text) : Prop where
  words : ∃ third rest, Fields.split [' '] (Client.readReply reply) = word :: tsn :: third :: code :: rest

theorem answer_commit_of_ran (honest : Honest arrival) (notPrimary : NotPrimary backup.log) (tsnRange : IsInt tsn)
    (range : IsInt seq) (high : 1 ≤ seq) (positive : 1 ≤ tsn) {outcome : Outcome}
    (ran : LogHandler.commit backup.log (commitMessage tsn seq) io = .ok outcome) :
    ∃ log word code reply, Settles backup.log tsn seq io log word code ∧
      Backup.answer arrival backup io (commitMessage tsn seq) " " = .ok ({ backup with log }, some reply) ∧
      Reads reply word code (iToS tsn) := by
  have getTsn := commitMessage_getTsn tsnRange seq
  have getSeq := commitMessage_getSeq range tsn
  have answered {method code errString text : Text} (settles : Settles backup.log tsn seq io outcome.log method code)
      (first : Word method) (fourth : Word code)
      (effects : Backup.firstPacket (outcome.effects ++ [.send outcome.code]) = some outcome.code)
      (same : outcome.code = text)
      (made : genAnswerStr method (commitMessage tsn seq) code errString = .ok text) :
      ∃ log word code reply, Settles backup.log tsn seq io log word code ∧
        Backup.answer arrival backup io (commitMessage tsn seq) " " = .ok ({ backup with log }, some reply) ∧
        Reads reply word code (iToS tsn) := by
    subst same
    refine ⟨_, _, _, _, settles, ?_, ⟨answer_words first fourth made⟩⟩
    rw [answer_receives honest io (dispatch_answered ran made), effects]
  have commits := commit_cases ran
  cases commits with
  | absent absent text =>
    rw [getTsn] at absent
    exact answered (.absent absent) (by decide) (by decide) rfl rfl text
  | already found same text =>
    rw [getTsn] at found
    rw [getSeq] at same
    exact answered (.already found same) (by decide) (by decide) rfl rfl text
  | expired found text =>
    rw [getTsn] at found
    exact answered (.expired found) (by decide) (by decide) rfl rfl text
  | otherNumber found pending differs text =>
    rw [getTsn] at found
    rw [getSeq] at differs
    exact answered (.otherNumber found pending differs) (by decide) (by decide) rfl rfl text
  | nothing _ _ low => omega
  | @incomplete record status number found allowed _ gaps waiting marked =>
    rw [getTsn] at found
    rw [getSeq] at allowed gaps
    rw [getTsn, getSeq] at marked
    subst marked
    have still : missing (record.insert (-1) ("WAITING".toList, iToS seq)) (atoi (iToS seq)) ≠ [] := by
      rw [atoi_iToS range, missing_insert_present found.entry]
      exact gaps
    obtain ⟨third, tail, rest, sent⟩ := sendAckResend_sends (mark_found _ _ _ _ _) still
    obtain ⟨others, words⟩ : ∃ rest, Fields.split [' '] (Client.readReply
        (compose "ACK_RESEND" (iToS tsn) (iToS third) ("0" ++ ' ' :: tail))) =
          "ACK_RESEND".toList :: iToS tsn :: iToS third :: "0".toList :: rest :=
      readReply_words (by decide) (iToS_word tsn) (iToS_word third) (by decide)
    refine ⟨_, _, _, _, .incomplete found allowed gaps, ?_, ⟨_, others, words⟩⟩
    rw [answer_receives honest io (dispatch_incomplete tsnRange ran rfl sent)]
    rfl
  | primary _ _ _ _ marked role =>
    subst marked
    exact absurd role (notPrimary.mark (by decide))
  | @written record status number role path lines found allowed _ complete writing final marked serverRole notRole appended finished =>
    rw [getTsn] at found finished marked appended
    rw [getSeq] at allowed complete finished marked
    subst finished marked
    have opened : io = true := by
      rcases writeFile_cases appended with ⟨_, opened, _⟩ | ⟨absurd, _⟩
      · exact opened
      · cases absurd
    have read : getServerStatus (mark backup.log tsn record "COMMITTED" (iToS seq)) = .ok role := by
      rw [← serverRole, getServerStatus_of_get (mark_other (by omega)), getServerStatus_of_get (mark_other (by omega))]
    obtain ⟨ack, text⟩ := answerable_genAnswerStr ⟨_, _, _, _, commitMessage_fields tsn seq⟩ "ACK" "0" "Committed successfully."
    refine ⟨_, _, _, _, .written found allowed complete opened, ?_, ⟨answer_words (by decide) (by decide) text⟩⟩
    rw [answer_receives honest io (dispatch_committed ran rfl read notRole text)]
    rfl
  | @failed record status number role code found allowed _ complete writing final marked serverRole notRole refused text finished =>
    rw [getTsn] at found finished marked refused
    rw [getSeq] at allowed complete finished marked
    subst finished marked
    have closed : io = false := by
      rcases writeFile_cases refused with ⟨absurd, _⟩ | ⟨_, _, closed⟩
      · cases absurd
      · exact closed
    exact answered (.failed found allowed complete closed) (by decide) (by decide) rfl rfl text

private theorem commit_of_answer (honest : Honest arrival) {settled : Backup} {reply : Option Text}
    (ran : Backup.answer arrival backup io (commitMessage tsn seq) " " = .ok (settled, reply)) :
    ∃ outcome, LogHandler.commit backup.log (commitMessage tsn seq) io = .ok outcome := by
  have unneeded : needsData (commitMessage tsn seq) = false := by simp only [needsData, commitMessage_parse]
  simp only [Backup.answer, honest.bare, ok_bind, receive, unneeded, Bool.false_eq_true, if_false, bind_eq_ok, dispatch,
    executeCommand, authorized_command, commitMessage_parse] at ran
  obtain ⟨_, ⟨_, ⟨outcome, committed, _⟩, _⟩, _⟩ := ran
  exact ⟨outcome, committed⟩

/-- Every answer to a COMMIT is one of the cases. -/
theorem answer_commit_cases (honest : Honest arrival) (notPrimary : NotPrimary backup.log) (tsnRange : IsInt tsn)
    (range : IsInt seq) (high : 1 ≤ seq) (positive : 1 ≤ tsn) {settled : Backup} {reply : Option Text}
    (ran : Backup.answer arrival backup io (commitMessage tsn seq) " " = .ok (settled, reply)) :
    ∃ log word code text, Settles backup.log tsn seq io log word code ∧ settled = { backup with log } ∧ reply = some text ∧
      Reads text word code (iToS tsn) := by
  obtain ⟨outcome, committed⟩ := commit_of_answer honest ran
  obtain ⟨log, word, code, text, settles, answered, reads⟩ :=
    answer_commit_of_ran honest notPrimary tsnRange range high positive committed
  rw [ran, Except.ok.injEq, Prod.mk.injEq] at answered
  exact ⟨log, word, code, text, settles, answered.1, answered.2, reads⟩

/-- An ACK is sent for a committed transaction only. -/
theorem Settles.committed {log settled : Log} {word code : Text} (settles : Settles log tsn seq io settled word code)
    (range : IsInt seq) (ack : word = "ACK") : CommittedWith settled tsn seq := by
  cases settles with
  | already found same => exact ⟨_, _, found, same⟩
  | written found => exact ⟨_, _, mark_found _ _ _ _ _, atoi_iToS range⟩
  | absent => exact absurd ack (by decide)
  | expired => exact absurd ack (by decide)
  | otherNumber => exact absurd ack (by decide)
  | incomplete => exact absurd ack (by decide)
  | failed => exact absurd ack (by decide)

/-- Every other answer leaves it otherwise. -/
theorem Settles.notCommitted {log settled : Log} {word code : Text} (settles : Settles log tsn seq io settled word code)
    (notAck : word ≠ "ACK") : ¬ CommittedWith settled tsn seq := by
  rintro ⟨record, number, found, same⟩
  cases settles with
  | already => exact notAck rfl
  | written => exact notAck rfl
  | absent absent =>
    rw [found.inLog] at absent
    cases absent
  | expired other => exact absurd (found_unique found other).2.1 (by decide)
  | otherNumber other _ differs =>
    obtain ⟨_, _, rfl⟩ := found_unique found other
    exact differs same
  | incomplete => exact absurd (found_unique found (mark_found _ _ _ _ _)).2.1 (by decide)
  | failed => exact absurd (found_unique found (mark_found _ _ _ _ _)).2.1 (by decide)

end

end TransactionalServer.Proofs
