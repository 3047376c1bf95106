import TransactionalServer.Proofs.Answers
import TransactionalServer.Proofs.FileContents
import TransactionalServer.Proofs.Portrayal

/-! What an operation of the log leaves to its session, as a turn of the transaction:
a verdict, a line that was taken, a commit that waits, one that is done, or one that
a primary has still to ask its backup about. -/

namespace TransactionalServer.Proofs.Turns
open ServerTools LogHandler Exec Session Transaction Portrayal FileContents SweepIndependence

/-- How a reply reads on the wire. Missing numbers are asked for one by one, the
highest first. -/
inductive Carries (tsn : Int) (header : Text) : Reply → List Text → Prop where
  | verdict {verdict : Verdict} {packet : Text} (made : genAnswerStr verdict.method header verdict.code verdict.message = .ok packet) :
      Carries tsn header (.verdict verdict) [packet]
  | verdictOn {number : Number} {verdict : Verdict} {packet : Text}
      (made : genAnswerStr verdict.method (pendingCommit tsn number) verdict.code verdict.message = .ok packet) :
      Carries tsn header (.verdictOn number verdict) [packet]
  | asksFor {numbers : Set Number} {asked : List Int} {packets : List Text} (falling : asked.Pairwise (· > ·))
      (same : ∀ seq, seq ∈ asked ↔ ∃ high : 1 ≤ seq, ⟨seq, high⟩ ∈ numbers)
      (each : asked.mapM (fun seq => genAnswerStr "ACK_RESEND" (resendHeader tsn seq) "0" " ") = .ok packets) :
      Carries tsn header (.asksFor numbers) packets
  | names : Carries tsn header .names ["ACK\t" ++ iToS tsn ++ "\t0" ++ "\t0" ++ "\t0" ++ "\r\n\r\n\r\n"]

/-- How a commit may end here: a backup writes its own file, a primary asks its backup first. -/
def Ends (log : Log) (io : Bool) (ending : Ending) : Prop :=
  if getServerStatus log = .ok "primary" then ending = .refused ∨ (ending = .appended ∧ io = true)
  else ending = if io then .appended else .failed

/-- What an operation on the log leaves to its session, where `turn` says how the
turn goes on for each ending. -/
inductive Leaves (log : Log) (tsn : Int) (header : Text) (io : Bool) (turn : Ending → Turn) (out : Outcome) : Prop where
  | answers {next : Option Transaction} {reply : Reply} (turns : ∀ ending, Ends log io ending → turn ending = { next, reply := some reply })
      (ret : out.ret = false) (text : Carries tsn header reply [out.code]) (answered : ∃ header, Answered header out.code)
      (holds : Holds out.log tsn next) (quiet : appends out.effects = [] ∧ out.effects.filterMap sentPacket = [])
  | accepts {next : Option Transaction} (turns : ∀ ending, turn ending = tell next "ACK" "0" " ") (ret : out.ret = true)
      (holds : Holds out.log tsn next) (quiet : out.effects = [])
  | waits {transaction : Transaction} {number : Number}
      (turns : ∀ ending, turn ending = { next := some (transaction.waitFor number), reply := some (.asksFor (transaction.missing number)) })
      (ret : out.ret = false) (code : out.code = "incomplete") (holds : Holds out.log tsn (some (transaction.waitFor number)))
      (quiet : out.effects = [.save out.log])
  | writes {done : Transaction} {block : Text × List Text} (backup : NotPrimary log) (written : io = true)
      (turns : turn .appended = { tell (some done) "ACK" "0" "Committed successfully." with appended := some block })
      (ret : out.ret = false) (code : out.code = "committed") (holds : Holds out.log tsn (some done))
      (appended : appends out.effects = [⟨tsn, block.1, block.2⟩]) (unsent : out.effects.filterMap sentPacket = [])
  | defers {writing : Transaction} {number : Number} (primary : getServerStatus log = .ok "primary") (phase : writing.phase = .writing number)
      (refuses : turn .refused = tell (some writing) "ERROR" "205" "commit fail, i/o error")
      (finishes : turn .appended = { tell (some writing.finish) "ACK" "0" "Committed successfully." with
        appended := some (writing.path, writing.block number) })
      (ret : out.ret = false) (code : out.code = "committed") (holds : Holds out.log tsn (some writing))
      (quiet : out.effects = [.save out.log])

section
variable {log : Log} {tsn : Int} {header : Text} {io : Bool} {out : Outcome} {slot : Option Transaction} {transaction : Transaction}
  {record : Record} {number : Number}

theorem ends_some (log : Log) (io : Bool) : ∃ ending, Ends log io ending := by
  unfold Ends
  split
  · exact ⟨.refused, Or.inl rfl⟩
  · exact ⟨_, rfl⟩

/-- A transaction that COMMIT of this number may go on with. -/
def Attempts (phase : Phase) (seq : Int) : Prop :=
  match phase with
  | .committed _ | .collecting .expired => False
  | .waiting number => number = seq
  | .collecting _ | .writing _ => True

theorem attempts_of_open {status text : Text} {phase : Phase} {seq : Int} (allowed : Open status text seq) (same : status = word phase)
    (kept : ∀ kept, commitNumber phase = some kept → atoi text = kept) : Attempts phase seq := by
  subst same
  cases phase with
  | collecting age =>
    cases age with
    | young | flagged => trivial
    | expired => exact allowed.expired rfl
  | waiting bound => exact (kept bound rfl).symm.trans (allowed.waiting rfl)
  | writing => trivial
  | committed => exact allowed.committed rfl

/-- The lines of a transaction that writes are what its file gets. -/
theorem writes_block {effects : List Effect} (holds : Holds log tsn (some transaction)) (phase : transaction.phase = .writing number)
    (ran : writeFile log tsn io = .ok (true, effects)) : io = true ∧ effects = [.append tsn transaction.path (transaction.block number)] := by
  obtain ⟨record, inLog, keeps⟩ := holds
  obtain ⟨text, entry, kept⟩ := keeps.status
  obtain ⟨marker, file, _⟩ := keeps.file
  have found : Found log tsn record (word transaction.phase) text := ⟨inLog, entry⟩
  rcases writeFile_cases ran with ⟨_, written, path, lines, rfl, named, bound, read, collected⟩ | ⟨written, _⟩
  · refine ⟨written, ?_⟩
    rw [found.getStatusData, kept number (by rw [phase]; rfl), Except.ok.injEq] at read
    rw [← read, keeps.reads inLog (transaction.whole number (by rw [phase]; rfl)), Except.ok.injEq] at collected
    rw [getFileName, pair_eq_ok.mpr ⟨record, inLog, file⟩, ok_bind, pure_eq_ok, Except.ok.injEq] at named
    rw [collected, ← named]
  · cases written

theorem transaction_of_found {status text : Text} (holds : Holds log tsn (some transaction)) (found : Found log tsn record status text) :
    Keeps record transaction ∧ status = word transaction.phase ∧ ∀ kept, commitNumber transaction.phase = some kept → atoi text = kept := by
  obtain ⟨_, same, keeps, status, kept⟩ := holds.found found
  obtain rfl := Option.some.inj same
  exact ⟨keeps, status, kept⟩

theorem role_of_mark {status text role : Text} (positive : 1 ≤ tsn) (read : getServerStatus (mark log tsn record status text) = .ok role) :
    getServerStatus log = .ok role := by
  rw [← read]
  exact (getServerStatus_of_get (mark_other (by omega))).symm

/-- A commit that goes on is an attempt of the transaction. `failure` is how the
caller tells that the file could not be written. -/
theorem commits_attempt {outer : Text} {failure : Reply} (commits : Commits log header io out) (positive : 1 ≤ getTsn header)
    (numbered : getSeq header = number) (holds : Holds log (getTsn header) (some transaction)) (open' : Attempts transaction.phase number)
    (told : ∀ code, genAnswerStr "ERROR" header "205" "commit fail, i/o error" = .ok code → Carries (getTsn header) outer failure [code]) :
    Leaves log (getTsn header) outer io (fun ending => transaction.attempt number failure ending) out := by
  have high := number.property
  have range : IsInt (number : Int) := numbered ▸ getSeq_isInt header
  have kept (bound : Number) (same : some number = some bound) : atoi (iToS number) = bound := by
    rw [atoi_iToS range, Option.some.inj same]
  rw [← numbered] at open'
  cases commits with
  | absent absent => cases holds.absent absent
  | already found =>
    obtain ⟨keeps, status, _⟩ := transaction_of_found holds found
    obtain ⟨bound, phase⟩ := word_committed status
    rw [phase] at open'
    exact open'.elim
  | expired found =>
    obtain ⟨keeps, status, _⟩ := transaction_of_found holds found
    rw [word_expired status] at open'
    exact open'.elim
  | otherNumber found pending differs =>
    obtain ⟨keeps, status, same⟩ := transaction_of_found holds found
    rcases pending with rfl | rfl
    · obtain ⟨bound, phase⟩ := word_waiting status
      rw [phase] at open' same
      exact absurd ((same bound rfl).trans open') differs
    · obtain ⟨bound, phase⟩ := word_committed status
      rw [phase] at open'
      exact open'.elim
  | nothing _ _ low => omega
  | incomplete found allowed _ gaps marked =>
    obtain ⟨keeps, _⟩ := transaction_of_found holds found
    rw [numbered] at gaps marked
    have lacking : transaction.missing number ≠ ∅ := fun complete => gaps ((keeps.complete number).mpr complete)
    refine .waits (fun ending => dif_neg lacking) rfl rfl ?_ rfl
    rw [marked]
    exact keeps.toBody.marked (transaction.waitFor number) ⟨rfl, rfl, rfl⟩ rfl kept
  | primary found allowed _ complete marked role =>
    obtain ⟨keeps, _⟩ := transaction_of_found holds found
    rw [numbered] at complete marked
    have nothing := (keeps.complete number).mp complete
    rw [marked] at role
    have refuses : transaction.attempt number failure .refused =
        tell (some (transaction.enter number nothing)) "ERROR" "205" "commit fail, i/o error" := dif_pos nothing
    have finishes : transaction.attempt number failure .appended =
        { tell (some (transaction.enter number nothing).finish) "ACK" "0" "Committed successfully." with
          appended := some (transaction.path, transaction.block number) } := dif_pos nothing
    refine .defers (role_of_mark positive role) rfl refuses finishes rfl rfl ?_ rfl
    rw [marked]
    exact keeps.toBody.marked (transaction.enter number nothing) ⟨rfl, rfl, rfl⟩ rfl kept
  | written found allowed _ complete marked serverRole backup appended finished =>
    obtain ⟨keeps, _⟩ := transaction_of_found holds found
    rw [numbered] at complete marked finished
    have nothing := (keeps.complete number).mp complete
    rw [marked] at serverRole appended
    have entered : Holds (mark log (getTsn header) _ "WRITING" (iToS number)) (getTsn header) (some (transaction.enter number nothing)) :=
      keeps.toBody.marked (transaction.enter number nothing) ⟨rfl, rfl, rfl⟩ rfl kept
    obtain ⟨written, same⟩ := writes_block entered rfl appended
    obtain ⟨rfl, rfl⟩ := Effect.append.inj (List.head_eq_of_cons_eq same) |>.2
    have notPrimary : NotPrimary log := fun primary => backup (Except.ok.inj ((role_of_mark positive serverRole).symm.trans primary))
    have finishes : transaction.attempt number failure .appended =
        { tell (some (transaction.enter number nothing).finish) "ACK" "0" "Committed successfully." with
          appended := some (transaction.path, transaction.block number) } := dif_pos nothing
    refine .writes notPrimary written finishes rfl rfl ?_ rfl rfl
    rw [finished]
    exact keeps.toBody.marked (transaction.enter number nothing).finish ⟨rfl, rfl, rfl⟩ rfl kept
  | failed found allowed _ complete marked serverRole backup refused text finished =>
    obtain ⟨keeps, _⟩ := transaction_of_found holds found
    rw [numbered] at complete marked finished
    have nothing := (keeps.complete number).mp complete
    rw [marked] at serverRole
    have unwritten : io = false := by
      rcases writeFile_cases refused with ⟨impossible, _⟩ | ⟨_, _, unwritten⟩
      · cases impossible
      · exact unwritten
    have notPrimary : NotPrimary log := fun primary => backup (Except.ok.inj ((role_of_mark positive serverRole).symm.trans primary))
    have fails (ending : Ending) (ends : Ends log io ending) :
        transaction.attempt number failure ending = { next := some (transaction.waitFor number), reply := some failure } := by
      rw [Ends, if_neg notPrimary, unwritten] at ends
      rw [ends]
      exact dif_pos nothing
    refine .answers fails rfl (told _ text) ⟨_, _, _, _, text⟩ ?_ ⟨rfl, rfl⟩
    rw [finished]
    exact keeps.toBody.marked (transaction.waitFor number) ⟨rfl, rfl, rfl⟩ rfl kept

theorem commit_attempts {seq : Int} (open' : Attempts transaction.phase seq) (ending : Ending) :
    transaction.commit seq ending =
      if high : 1 ≤ seq then transaction.attempt ⟨seq, high⟩ (.verdict ⟨"ERROR", "205", "commit fail, i/o error"⟩) ending
      else tell (some transaction) "WARNING" "404" "Nothing to commit, request ignored" := by
  unfold Transaction.commit
  cases phase : transaction.phase with
  | collecting age =>
    rw [phase] at open'
    cases age with
    | young | flagged => rfl
    | expired => exact open'.elim
  | waiting bound =>
    rw [phase] at open'
    exact if_pos open'
  | writing => rfl
  | committed =>
    rw [phase] at open'
    exact open'.elim

/-- A verdict that no ending changes. -/
theorem leaves_verdict {turn : Ending → Turn} {method code message text : Text} (turns : ∀ ending, turn ending = tell slot method code message)
    (made : genAnswerStr method header code message = .ok text) (holds : Holds log tsn slot) :
    Leaves log tsn header io turn (.reply log text) :=
  .answers (fun ending _ => turns ending) rfl (.verdict made) ⟨_, _, _, _, made⟩ holds ⟨rfl, rfl⟩

theorem commits_leave (commits : Commits log header io out) (positive : 1 ≤ getTsn header) (holds : Holds log (getTsn header) slot) :
    Leaves log (getTsn header) header io (fun ending => handle slot ending (.commit (getSeq header))) out := by
  have attempts {record : Record} {status text : Text} (found : Found log (getTsn header) record status text) (allowed : Open status text (getSeq header))
      (high : 1 ≤ getSeq header) : Leaves log (getTsn header) header io (fun ending => handle slot ending (.commit (getSeq header))) out := by
    obtain ⟨transaction, rfl, _, status, kept⟩ := holds.found found
    have open' := attempts_of_open allowed status kept
    have turns : (fun ending => handle (some transaction) ending (.commit (getSeq header))) =
        fun ending => transaction.attempt ⟨getSeq header, high⟩ (.verdict ⟨"ERROR", "205", "commit fail, i/o error"⟩) ending :=
      funext fun ending => (commit_attempts open' ending).trans (dif_pos high)
    rw [turns]
    exact commits_attempt commits positive rfl holds open' fun code made => .verdict made
  cases commits with
  | absent absent text =>
    obtain rfl := holds.absent absent
    exact leaves_verdict (fun _ => rfl) text holds
  | already found same text =>
    obtain ⟨transaction, rfl, _, status, kept⟩ := holds.found found
    obtain ⟨bound, phase⟩ := word_committed status
    rw [phase] at kept
    have equal : (bound : Int) = getSeq header := (kept bound rfl).symm.trans same
    refine leaves_verdict (fun ending => ?_) text holds
    simp only [handle, Option.elim_some, Transaction.commit, phase, equal, if_true]
  | expired found text =>
    obtain ⟨transaction, rfl, _, status, _⟩ := holds.found found
    refine leaves_verdict (fun ending => ?_) text holds
    simp only [handle, Option.elim_some, Transaction.commit, word_expired status]
  | otherNumber found pending differs text =>
    obtain ⟨transaction, rfl, _, status, kept⟩ := holds.found found
    refine leaves_verdict (fun ending => ?_) text holds
    rcases pending with rfl | rfl
    · obtain ⟨bound, phase⟩ := word_waiting status
      rw [phase] at kept
      have unequal : (bound : Int) ≠ getSeq header := fun same => differs ((kept bound rfl).trans same)
      simp only [handle, Option.elim_some, Transaction.commit, phase, unequal, if_false]
    · obtain ⟨bound, phase⟩ := word_committed status
      rw [phase] at kept
      have unequal : (bound : Int) ≠ getSeq header := fun same => differs ((kept bound rfl).trans same)
      simp only [handle, Option.elim_some, Transaction.commit, phase, unequal, if_false]
  | nothing found allowed low text =>
    obtain ⟨transaction, rfl, _, status, kept⟩ := holds.found found
    have open' := attempts_of_open allowed status kept
    exact leaves_verdict (fun ending => (commit_attempts open' ending).trans (dif_neg (by omega))) text holds
  | incomplete found allowed high => exact attempts found allowed high
  | primary found allowed high => exact attempts found allowed high
  | written found allowed high => exact attempts found allowed high
  | failed found allowed high => exact attempts found allowed high

/-- A transaction that takes lines it does not have. -/
def Takes (phase : Phase) : Prop :=
  match phase with
  | .committed _ | .collecting .expired => False
  | .waiting _ | .collecting _ | .writing _ => True

theorem takes_of_word {status : Text} {phase : Phase} (same : status = word phase) (notCommitted : status ≠ "COMMITTED")
    (notExpired : status ≠ "EXPIRED") : Takes phase := by
  subst same
  cases phase with
  | collecting age =>
    cases age with
    | young | flagged => trivial
    | expired => exact notExpired rfl
  | waiting | writing => trivial
  | committed => exact notCommitted rfl

theorem write_takes (takes : Takes transaction.phase) (seq : Number) (data : Text) (ending : Ending) :
    transaction.write seq data ending =
      if transaction.lines seq = none then transaction.accept seq data ending
      else tell (some transaction) "WARNING" "301" "SeqNum for current tsnID already received, ignored" := by
  unfold Transaction.write
  cases phase : transaction.phase with
  | collecting age =>
    rw [phase] at takes
    cases age with
    | young | flagged => rfl
    | expired => exact takes.elim
  | waiting | writing => rfl
  | committed =>
    rw [phase] at takes
    exact takes.elim

theorem abort_takes (takes : Takes transaction.phase) : transaction.abort = tell none "ACK" "0" "Aborted" := by
  unfold Transaction.abort
  cases phase : transaction.phase with
  | collecting age =>
    rw [phase] at takes
    cases age with
    | young | flagged => rfl
    | expired => exact takes.elim
  | waiting | writing => rfl
  | committed =>
    rw [phase] at takes
    exact takes.elim

theorem leaves_of_role {other : Log} {turn : Ending → Turn} (leaves : Leaves other tsn header io turn out)
    (same : getServerStatus other = getServerStatus log) : Leaves log tsn header io turn out := by
  cases leaves with
  | answers turns ret text answered holds quiet =>
    refine .answers (fun ending ends => turns ending ?_) ret text answered holds quiet
    rw [Ends, same]
    exact ends
  | accepts turns ret holds quiet => exact .accepts turns ret holds quiet
  | waits turns ret code holds quiet => exact .waits turns ret code holds quiet
  | writes backup written turns ret code holds appended unsent =>
    exact .writes (fun primary => backup (same.trans primary)) written turns ret code holds appended unsent
  | defers primary phase refuses finishes ret code holds quiet =>
    exact .defers (same.symm.trans primary) phase refuses finishes ret code holds quiet

/-- A line that the record does not have. -/
theorem write_fresh {seq : Int} {data : Text} (keeps : Keeps record transaction) (takes : Takes transaction.phase) (high : 1 ≤ seq)
    (fresh : record[seq]? = none) (ending : Ending) :
    handle (some transaction) ending (.write seq data) = transaction.accept ⟨seq, high⟩ data ending := by
  have absent : transaction.lines ⟨seq, high⟩ = none := by
    rw [← keeps.lines ⟨seq, high⟩, fresh]
    rfl
  have written : handle (some transaction) ending (.write seq data) = transaction.write ⟨seq, high⟩ data ending := dif_pos high
  rw [written, write_takes takes, if_pos absent]

/-- The transaction whose record waits for a number. -/
theorem waiting_of_found {text : Text} (holds : Holds log tsn slot) (found : Found log tsn record "WAITING" text) :
    ∃ transaction bound, slot = some transaction ∧ Keeps record transaction ∧ transaction.phase = .waiting bound ∧ atoi text = bound := by
  obtain ⟨transaction, rfl, keeps, status, kept⟩ := holds.found found
  obtain ⟨bound, phase⟩ := word_waiting status
  rw [phase] at kept
  exact ⟨transaction, bound, rfl, keeps, phase, kept bound rfl⟩

section
variable {data : Text} {grown : Record} (keeps : Keeps record transaction) (high : 1 ≤ getSeq header) (fresh : record[getSeq header]? = none)
include keeps high fresh

/-- A line that a waiting transaction takes and that leaves others missing. -/
theorem kept_leaves (phase : transaction.phase = .waiting number) (below : getSeq header ≤ number)
    (grows : grown = record.insert (getSeq header) (header, data)) (gaps : Proofs.missing grown number ≠ []) :
    Leaves log (getTsn header) header io (fun ending => handle (some transaction) ending (.write (getSeq header) data))
      ⟨log.insert (getTsn header) grown, [], true, []⟩ := by
  have takes : Takes transaction.phase := by
    rw [phase]
    trivial
  have added : Keeps grown (transaction.add ⟨getSeq header, high⟩ data) := grows ▸ keeps.add phase ⟨getSeq header, high⟩ header data
  have lacking : (transaction.add ⟨getSeq header, high⟩ data).missing number ≠ ∅ := fun complete => gaps ((added.complete number).mpr complete)
  have within : ¬ number.val < getSeq header := not_lt.mpr below
  have turns (ending : Ending) : handle (some transaction) ending (.write (getSeq header) data) =
      tell (some (transaction.add ⟨getSeq header, high⟩ data)) "ACK" "0" " " := by
    rw [write_fresh keeps takes high fresh]
    simp only [Transaction.accept, phase, within, lacking, if_false]
  exact .accepts turns rfl ⟨grown, Std.ExtTreeMap.getElem?_insert_self, added⟩ rfl

/-- The last line that a waiting transaction lacked: the pending commit is tried. -/
theorem completes_leaves (positive : 1 ≤ getTsn header) (phase : transaction.phase = .waiting number) (below : getSeq header ≤ number)
    (range : IsInt (number : Int)) (grows : grown = record.insert (getSeq header) (header, data)) (complete : Proofs.missing grown number = [])
    (commits : Commits (log.insert (getTsn header) grown) (pendingCommit (getTsn header) number) io out) :
    Leaves log (getTsn header) header io (fun ending => handle (some transaction) ending (.write (getSeq header) data)) out := by
  have takes : Takes transaction.phase := by
    rw [phase]
    trivial
  have added : Keeps grown (transaction.add ⟨getSeq header, high⟩ data) := grows ▸ keeps.add phase ⟨getSeq header, high⟩ header data
  have nothing : (transaction.add ⟨getSeq header, high⟩ data).missing number = ∅ := (added.complete number).mp complete
  have within : ¬ number.val < getSeq header := not_lt.mpr below
  have turns : (fun ending => handle (some transaction) ending (.write (getSeq header) data)) = fun ending =>
      (transaction.add ⟨getSeq header, high⟩ data).attempt number (.verdictOn number ⟨"ERROR", "205", "commit fail, i/o error"⟩) ending := by
    funext ending
    rw [write_fresh keeps takes high fresh]
    simp only [Transaction.accept, phase, within, nothing, if_false, if_true]
  have own : getTsn (pendingCommit (getTsn header) number) = getTsn header := pendingCommit_getTsn (getTsn_isInt header) number
  have open' : Attempts (transaction.add ⟨getSeq header, high⟩ data).phase number := by
    have waits : (transaction.add ⟨getSeq header, high⟩ data).phase = .waiting number := by
      show transaction.phase.reopened = _
      rw [phase]
      rfl
    rw [waits]
    rfl
  have holding : Holds (log.insert (getTsn header) grown) (getTsn (pendingCommit (getTsn header) number))
      (some (transaction.add ⟨getSeq header, high⟩ data)) := by
    rw [own]
    exact ⟨grown, Std.ExtTreeMap.getElem?_insert_self, added⟩
  have told (code : Text) (made : genAnswerStr "ERROR" (pendingCommit (getTsn header) number) "205" "commit fail, i/o error" = .ok code) :
      Carries (getTsn (pendingCommit (getTsn header) number)) header (.verdictOn number ⟨"ERROR", "205", "commit fail, i/o error"⟩) [code] := by
    rw [own]
    exact .verdictOn made
  have left := commits_attempt commits (le_of_le_of_eq positive own.symm) (pendingCommit_getSeq range _) holding open' told
  rw [own] at left
  rw [turns]
  exact leaves_of_role left (getServerStatus_of_get (Store.get_insert_other (by omega)))

/-- A line that a transaction takes while no commit is pending. -/
theorem added_leaves (takes : Takes transaction.phase) (notWaiting : ∀ number, transaction.phase ≠ .waiting number) (text : Text)
    (grows : grown = record.insert (getSeq header) (header, data)) :
    Leaves log (getTsn header) header io (fun ending => handle (some transaction) ending (.write (getSeq header) data))
      ⟨mark log (getTsn header) grown "ACTIVE" text, [], true, []⟩ := by
  have reopened : (transaction.add ⟨getSeq header, high⟩ data).phase = .collecting .young := by
    show transaction.phase.reopened = _
    cases phase : transaction.phase with
    | waiting number => exact absurd phase (notWaiting number)
    | collecting | writing | committed => rfl
  have turns (ending : Ending) : handle (some transaction) ending (.write (getSeq header) data) =
      tell (some (transaction.add ⟨getSeq header, high⟩ data)) "ACK" "0" " " := by
    rw [write_fresh keeps takes high fresh, Transaction.accept]
    cases phase : transaction.phase with
    | waiting number => exact absurd phase (notWaiting number)
    | collecting | writing | committed => rfl
  refine .accepts turns rfl ?_ rfl
  rw [grows]
  refine (keeps.toBody.grow ⟨getSeq header, high⟩ header data).marked (transaction.add ⟨getSeq header, high⟩ data) ⟨rfl, rfl, rfl⟩ ?_ ?_
  · rw [reopened]
    rfl
  · rw [reopened]
    nofun

end

theorem adds_leave {data : Text} (adds : Adds log header data io out) (positive : 1 ≤ getTsn header) (holds : Holds log (getTsn header) slot) :
    Leaves log (getTsn header) header io (fun ending => handle slot ending (.write (getSeq header) data)) out := by
  have written {transaction : Transaction} (high : 1 ≤ getSeq header) (ending : Ending) :
      handle (some transaction) ending (.write (getSeq header) data) = transaction.write ⟨getSeq header, high⟩ data ending := dif_pos high
  cases adds with
  | low low text => exact leaves_verdict (fun _ => dif_neg (by omega)) text holds
  | absent high absent text =>
    obtain rfl := holds.absent absent
    exact leaves_verdict (fun _ => dif_pos high) text holds
  | committed high found text =>
    obtain ⟨transaction, rfl, _, status, _⟩ := holds.found found
    obtain ⟨bound, phase⟩ := word_committed status
    refine leaves_verdict (fun ending => ?_) text holds
    simp only [written high, Transaction.write, phase]
  | expired high found text =>
    obtain ⟨transaction, rfl, _, status, _⟩ := holds.found found
    refine leaves_verdict (fun ending => ?_) text holds
    simp only [written high, Transaction.write, word_expired status]
  | duplicate high found notCommitted notExpired present text =>
    obtain ⟨transaction, rfl, keeps, status, _⟩ := holds.found found
    have takes := takes_of_word status notCommitted notExpired
    have here : transaction.lines ⟨getSeq header, high⟩ ≠ none := (keeps.present ⟨getSeq header, high⟩).mpr (Store.mem_iff_get.mpr ⟨_, present⟩)
    refine leaves_verdict (fun ending => ?_) text holds
    rw [written high, write_takes takes, if_neg here]
  | above high found fresh above text =>
    obtain ⟨transaction, bound, rfl, keeps, phase, same⟩ := waiting_of_found holds found
    have takes : Takes transaction.phase := by
      rw [phase]
      trivial
    have beyond : bound.val < getSeq header := same ▸ above
    refine leaves_verdict (fun ending => ?_) text holds
    rw [write_fresh keeps takes high fresh]
    simp only [Transaction.accept, phase, beyond, if_true]
  | kept high found fresh below grows gaps =>
    obtain ⟨transaction, bound, rfl, keeps, phase, same⟩ := waiting_of_found holds found
    rw [same] at below gaps
    exact kept_leaves keeps high fresh phase below grows gaps
  | @completes _ _ text _ high found fresh below grows complete commits =>
    obtain ⟨transaction, bound, rfl, keeps, phase, same⟩ := waiting_of_found holds found
    have range : IsInt (bound : Int) := same ▸ atoi_isInt text
    rw [same] at below complete commits
    exact completes_leaves keeps high fresh positive phase below range grows complete commits
  | added high found notCommitted notExpired notWaiting fresh grows =>
    obtain ⟨transaction, rfl, keeps, status, _⟩ := holds.found found
    refine added_leaves keeps high fresh (takes_of_word status notCommitted notExpired) ?_ _ grows
    intro number phase
    rw [phase] at status
    exact notWaiting status

end

end TransactionalServer.Proofs.Turns
