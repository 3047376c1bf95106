import TransactionalServer.Proofs.Completion
import TransactionalServer.Proofs.Delivery
import TransactionalServer.Proofs.ManagerFrames

/-! The requests for missing writes. They can be satisfied exactly when none of
them is above the number of the COMMIT that asked. -/

namespace TransactionalServer.Proofs.Resend
open ServerTools LogHandler Exec Session ReplicationManager

variable {π : Type} (answer : Answer π) (fuel : Nat)

/-- The replication that a write starts on the primary succeeds. -/
def Replicates (server : Server π) (env : Env) (auth : Bool) (header data : Text) (seq : Int) : Prop :=
  ∀ out, executeCommand env server auth (parse header) header data = .ok out → out.error = "committed" → IsPrimary out.server.log →
    ∃ final, ReplicationManager.commit answer fuel out.server (commitMessage (getTsn header) seq) = .ok (true, final)

/-- Writes of these numbers, one after the other, end with the transaction
committed, whatever else the server does for others in between. -/
def Completes (tsn seq : Int) : List Int → Server π → Prop
  | [], server => CommittedWith server.log tsn seq
  | number :: rest, server =>
    ∀ (next : Server π) (env : Env) (auth : Bool) (header data : Text), next.log[tsn]? = server.log[tsn]? →
      (∃ role, getServerStatus next.log = .ok role) → unauthorized next auth 5 = .ok false → WriteOf tsn number header →
      env.io = true → Replicates answer fuel next env auth header data seq →
      ∃ handled, dispatch answer fuel env next auth header data = .ok handled ∧ handled.exited = false ∧
        Completes tsn seq rest handled.server

/-- A write of this number is accepted in every later log that holds the same
record of the transaction. -/
def Accepted (log : Log) (tsn number : Int) : Prop :=
  ∀ (next : Log) (header data : Text), next[tsn]? = log[tsn]? → (∃ role, getServerStatus next = .ok role) → WriteOf tsn number header →
    ∃ added, addLogEntry next header data true = .ok added ∧ (added.ret = true ∨ added.code = "committed")

theorem CommittedWith.of_get {log other : Log} {tsn seq : Int} (committed : CommittedWith log tsn seq)
    (same : other[tsn]? = log[tsn]?) : CommittedWith other tsn seq := by
  obtain ⟨record, number, found, rest⟩ := committed
  exact ⟨record, number, ⟨same.trans found.inLog, found.entry⟩, rest⟩

theorem Towards.of_get {log other : Log} {tsn seq : Int} {remaining : List Int} (towards : Towards log tsn seq remaining)
    (same : other[tsn]? = log[tsn]?) : Towards other tsn seq remaining := by
  rcases towards with committed | ⟨record, ⟨⟨number, found, rest⟩, whole⟩, gaps, asked⟩
  · exact Or.inl (CommittedWith.of_get committed same)
  · exact Or.inr ⟨record, ⟨⟨number, ⟨same.trans found.inLog, found.entry⟩, rest⟩, whole⟩, gaps, asked⟩

section
variable {answer fuel} {server : Server π} {env : Env} (auth : Bool) {header : Text} {seq : Int} {record : Record}

/-- The end of a commit on a primary whose backup has committed. -/
theorem doCommit_primary (primary : IsPrimary server.log) (answerable : Answerable header) (positive : 1 ≤ getTsn header) {number : Text}
    (found : Found server.log (getTsn header) record "WRITING" number) (nonzero : atoi number ≠ 0) {final : Server π}
    (replicated : ReplicationManager.commit answer fuel server (commitMessage (getTsn header) (atoi number)) = .ok (true, final))
    {appended : List Effect} (written : writeFile final.log (getTsn header) true = .ok (true, appended)) :
    ∃ ack, doCommit answer fuel true server auth header =
      .ok { server := { final with log := mark final.log (getTsn header) record "COMMITTED" number },
            effects := appended ++ [.save (mark final.log (getTsn header) record "COMMITTED" number), .send ack], auth } := by
  obtain ⟨ack, text⟩ := answerable_genAnswerStr answerable "ACK" "0" "Committed successfully."
  have kept := (manager_keeps answer fuel).2.1 _ _ _ _ replicated
  have still : Found final.log (getTsn header) record "WRITING" number := ⟨(kept.other (by omega)).trans found.inLog, found.entry⟩
  refine ⟨ack, ?_⟩
  unfold doCommit
  rw [text, ok_bind, primary, ok_bind, if_pos rfl, found.getStatusData, ok_bind]
  simp only [nonzero, if_false, replicated, ok_bind, if_true, written, still.changeStatus, pure_eq_ok]

theorem doCommit_writes (primary : IsPrimary server.log) (answerable : Answerable header) (positive : 1 ≤ getTsn header)
    (range : IsInt seq) (high : 1 ≤ seq) (whole : WholeRecord record) (complete : missing record seq = [])
    (found : Found server.log (getTsn header) (record.insert (-1) ("WRITING", iToS seq)) "WRITING" (iToS seq))
    {final : Server π} (replicated : ReplicationManager.commit answer fuel server (commitMessage (getTsn header) seq) = .ok (true, final)) :
    ∃ handled, doCommit answer fuel true server auth header = .ok handled ∧ handled.exited = false ∧
      handled.server.log = mark final.log (getTsn header) (record.insert (-1) ("WRITING", iToS seq)) "COMMITTED" (iToS seq) := by
  have kept := (manager_keeps answer fuel).2.1 _ _ _ _ replicated
  have still : Found final.log (getTsn header) (record.insert (-1) ("WRITING", iToS seq)) "WRITING" (iToS seq) :=
    ⟨(kept.other (by omega)).trans found.inLog, found.entry⟩
  have entries (number : Int) (low : 1 ≤ number) (below : number ≤ atoi (iToS seq)) :
      number ∈ record.insert (-1) ("WRITING".toList, iToS seq) := by
    rw [atoi_iToS range] at below
    exact (mem_insert_iff _).mpr (Or.inr (mem_of_complete whole.low complete low below))
  have written : ∃ path lines, writeFile final.log (getTsn header) true = .ok (true, [.append (getTsn header) path lines]) := by
    rcases writeFile_ok still (whole.mark _ _).formed (by rw [atoi_iToS range]; omega) entries with ⟨_, opened⟩ | ⟨closed, _⟩
    · exact opened
    · cases closed
  obtain ⟨path, lines, written⟩ := written
  rw [← atoi_iToS range] at replicated
  obtain ⟨ack, done⟩ := doCommit_primary auth primary answerable positive found (by rw [atoi_iToS range]; omega) replicated written
  exact ⟨_, done, rfl, rfl⟩

/-- The last write: the pending commit runs and, on a primary, is replicated. -/
theorem last_write_commits {data : Text} {outcome : Outcome} {queued : Server π} (positive : 1 ≤ getTsn header) (high : 1 ≤ seq)
    (whole : Whole server.log (getTsn header)) (answerable : Answerable header) (role : ∃ role, getServerStatus server.log = .ok role) {grown : Log}
    (waits : Waits grown (getTsn header) seq record) (complete : missing record seq = [])
    (adds : Adds server.log header data true outcome) (finishes : Finishes grown (getTsn header) seq true record outcome)
    (log : queued.log = outcome.log)
    (replicates : IsPrimary queued.log →
      ∃ final, ReplicationManager.commit answer fuel queued (commitMessage (getTsn header) seq) = .ok (true, final)) :
    ∃ handled, doCommit answer fuel true queued auth header = .ok handled ∧ handled.exited = false ∧
      Whole handled.server.log (getTsn header) ∧ CommittedWith handled.server.log (getTsn header) seq := by
  cases finishes with
  | failed refused => cases refused
  | primary marked primary =>
    have stillPrimary : IsPrimary queued.log := by
      rw [log]
      exact primary
    have found : Found queued.log (getTsn header) (record.insert (-1) ("WRITING", iToS seq)) "WRITING" (iToS seq) := by
      rw [log, marked]
      exact mark_found _ _ _ _ _
    obtain ⟨final, replicated⟩ := replicates stillPrimary
    obtain ⟨handled, done, running, marks⟩ :=
      doCommit_writes auth stillPrimary answerable positive waits.range high waits.whole complete found replicated
    refine ⟨handled, done, running, ?_⟩
    rw [marks]
    refine ⟨?_, _, _, mark_found _ _ _ _ _, atoi_iToS waits.range⟩
    intro marked inLog
    rw [mark, Std.ExtTreeMap.getElem?_insert_self, Option.some.injEq] at inLog
    exact inLog ▸ (waits.whole.mark _ _).mark _ _
  | written _ marked backup finished =>
    have committed : CommittedWith queued.log (getTsn header) seq := by
      rw [log, finished]
      exact ⟨_, _, mark_found _ _ _ _ _, atoi_iToS waits.range⟩
    have notPrimary : NotPrimary queued.log := by
      rw [log, finished]
      exact backup.of_get (by rw [marked, mark_other (by omega), mark_other (by omega)])
    have still : ∃ role, getServerStatus queued.log = .ok role := by
      obtain ⟨role, read⟩ := role
      exact ⟨role, by rw [log, getServerStatus_of_get (adds.frame (by omega)), read]⟩
    obtain ⟨ack, done⟩ := doCommit_acknowledges auth true notPrimary still answerable
    exact ⟨_, done, rfl, log ▸ adds.whole whole, committed⟩

/-- Handling a write that the transaction waits for returns and brings it nearer. -/
theorem write_dispatched {tsn number : Int} {data : Text} {remaining : List Int} (positive : 1 ≤ tsn) (whole : Whole server.log tsn)
    (role : ∃ role, getServerStatus server.log = .ok role) (authorized : unauthorized server auth 5 = .ok false)
    (write : WriteOf tsn number header) (low : 1 ≤ number) (below : number ≤ seq) (opened : env.io = true)
    (replicates : Replicates answer fuel server env auth header data seq) (towards : Towards server.log tsn seq (number :: remaining)) :
    ∃ handled, dispatch answer fuel env server auth header data = .ok handled ∧ handled.exited = false ∧
      Whole handled.server.log tsn ∧ Towards handled.server.log tsn seq remaining := by
  obtain ⟨method, rfl, rfl⟩ := write
  have answerable := answerable_of_getSeq low
  have replicated : Replicated header := Or.inr (Or.inr (Or.inl method))
  obtain ⟨out, executed⟩ := @executeCommand_returns π server env auth header data role whole.formed answerable (by omega) replicated
  have executes := executeCommand_cases executed
  unfold dispatch
  rw [executed, ok_bind]
  cases executes with
  | read wrong | notAborted wrong | aborted wrong | created wrong | commits wrong | made wrong | pinged wrong | authenticated wrong
  | demoted wrong =>
    rw [method] at wrong
    cases wrong
  | refused cause =>
    rcases cause with refused | other
    · rw [method, authorized] at refused
      cases refused
    · exact absurd replicated other
  | added _ adds kept enqueued =>
    refine ⟨_, by rw [if_pos rfl]; rfl, rfl, ?_, ?_⟩
    · simp only [enqueue_log enqueued]
      exact adds.whole whole
    · simp only [enqueue_log enqueued]
      rw [opened] at adds
      cases write_nears towards low below adds with
      | answered => cases kept
      | filled towards => exact towards
      | completed _ _ finishes =>
        cases finishes with
        | failed refused => cases refused
        | primary => cases kept
        | written => cases kept
  | notAdded _ adds refused notCommitted =>
    rw [opened] at adds
    cases write_nears towards low below adds with
    | answered towards answered =>
      obtain ⟨notIncomplete, notCommitted⟩ := answered.ne_codes
      simp only [ofOutcome, Outcome.reply, Bool.false_eq_true, if_false, notIncomplete, notCommitted]
      exact ⟨_, rfl, rfl, whole, towards⟩
    | filled => cases refused
    | completed _ _ finishes =>
      cases finishes with
      | failed refused => cases refused
      | primary => exact absurd rfl notCommitted
      | written => exact absurd rfl notCommitted
  | @completed outcome queued _ adds refused code enqueued =>
    rw [opened] at adds
    cases write_nears towards low below adds with
    | answered _ answered => exact absurd code answered.ne_codes.2
    | filled => cases refused
    | completed waits complete finishes =>
      have log := enqueue_log enqueued
      have asks : IsPrimary queued.log →
          ∃ final, ReplicationManager.commit answer fuel queued (commitMessage (getTsn header) seq) = .ok (true, final) :=
        fun primary => replicates _ executed code primary
      obtain ⟨handled, done, running, stillWhole, committed⟩ :=
        last_write_commits auth positive (Int.le_trans low below) whole answerable role waits complete adds finishes log asks
      have notIncomplete : outcome.code ≠ "incomplete" := by
        rw [code]
        decide
      rw [if_neg Bool.false_ne_true, if_neg notIncomplete, if_pos code, opened, done]
      exact ⟨_, rfl, running, stillWhole, Or.inl committed⟩

end

theorem completes_of_towards {tsn seq : Int} (positive : 1 ≤ tsn) {order : List Int} {server : Server π}
    (range : ∀ number ∈ order, 1 ≤ number ∧ number ≤ seq) (whole : Whole server.log tsn) (towards : Towards server.log tsn seq order) :
    Completes answer fuel tsn seq order server := by
  induction order generalizing server with
  | nil =>
    rcases towards with committed | ⟨record, _, gaps, asked⟩
    · exact committed
    · obtain ⟨number, rest, shape⟩ := List.exists_cons_of_ne_nil gaps
      exact absurd (asked number (by rw [shape]; exact List.mem_cons_self)) List.not_mem_nil
  | cons number rest ih =>
    intro next env auth header data same role authorized write opened replicates
    obtain ⟨low, below⟩ := range number List.mem_cons_self
    obtain ⟨handled, done, running, stillWhole, nearer⟩ := write_dispatched auth positive (whole.of_get same) role authorized write low
      below opened replicates (Towards.of_get towards same)
    exact ⟨handled, done, running, ih (fun other member => range other (List.mem_cons_of_mem _ member)) stillWhole nearer⟩

theorem accepted_of_missing {log : Log} {tsn seq number : Int} {record : Record} (waits : Waits log tsn seq record)
    (asked : number ∈ missing record seq) (below : number ≤ seq) : Accepted log tsn number := by
  intro next header data same role write
  obtain ⟨_, rfl, rfl⟩ := write
  obtain ⟨low, absent⟩ := missing_positive waits.whole asked
  obtain ⟨pending, found, rest⟩ := waits.found
  have still : Waits next (getTsn header) seq record := ⟨⟨pending, ⟨same.trans found.inLog, found.entry⟩, rest⟩, waits.whole⟩
  have whole : Whole next (getTsn header) := by
    intro other inLog
    rw [same, found.inLog, Option.some.injEq] at inLog
    exact inLog ▸ waits.whole
  obtain ⟨added, ran⟩ := addLogEntry_returns whole.formed (answerable_of_getSeq low) role data true
  refine ⟨added, ran, ?_⟩
  cases waiting_write still low below (addLogEntry_cases ran) with
  | again present => exact absurd present absent
  | fills => exact Or.inl rfl
  | completes _ _ grown complete commits =>
    cases pending_finishes grown (getTsn_isInt header) (Int.le_trans low below) complete commits with
    | primary => exact Or.inr rfl
    | written => exact Or.inr rfl
    | failed refused => cases refused

/-- The header of a WRITE. -/
def writeHeader (tsn number : Int) : Text := compose "WRITE" (iToS tsn) (iToS number) "2"

theorem writeHeader_write {tsn number : Int} (tsnRange : IsInt tsn) (range : IsInt number) :
    WriteOf tsn number (writeHeader tsn number) := by
  have shape : fields (writeHeader tsn number) = "WRITE".toList :: iToS tsn :: iToS number :: ["2".toList] := by
    rw [writeHeader, fields_compose (by decide) (iToS_field tsn) (iToS_field number)]
    rfl
  refine ⟨?_, ?_, ?_⟩
  · rw [parse_of_fields shape]
    rfl
  · rw [getTsn_of_fields shape, lexicalCast_iToS tsnRange, Option.getD_some]
  · rw [getSeq_of_fields shape, lexicalCast_iToS range, Option.getD_some]

theorem above_refused {log : Log} {header data : Text} {io : Bool} {out : Outcome} {record : Record} {number : Text}
    (found : Found log (getTsn header) record "WAITING" number) (above : atoi number < getSeq header)
    (adds : Adds log header data io out) : ∃ code, out = .reply log code ∧ Answered header code := by
  cases adds with
  | low _ text => exact ⟨_, rfl, _, _, _, text⟩
  | absent _ _ text => exact ⟨_, rfl, _, _, _, text⟩
  | committed _ _ text => exact ⟨_, rfl, _, _, _, text⟩
  | expired _ _ text => exact ⟨_, rfl, _, _, _, text⟩
  | duplicate _ _ _ _ _ text => exact ⟨_, rfl, _, _, _, text⟩
  | above _ _ _ _ text => exact ⟨_, rfl, _, _, _, text⟩
  | kept _ other _ below =>
    obtain ⟨_, _, rfl⟩ := found_unique found other
    omega
  | completes _ other _ below =>
    obtain ⟨_, _, rfl⟩ := found_unique found other
    omega
  | added _ other _ _ notWaiting => exact absurd (found_unique found other).2.1.symm notWaiting

/-- A number above the pending commit is requested and then refused. -/
theorem not_accepted_above {log : Log} {tsn seq number : Int} {record : Record} (positive : 1 ≤ tsn) (tsnRange : IsInt tsn)
    (range : IsInt number) (waits : Waits log tsn seq record) (above : seq < number) : ¬ Accepted log tsn number := by
  intro accepted
  have same : (log.insert 0 (twoEntries ("primary", "net") ("127.0.0.1", "8080")))[tsn]? = log[tsn]? :=
    Store.get_insert_other (by omega)
  have role : Found (log.insert 0 (twoEntries ("primary", "net") ("127.0.0.1", "8080"))) 0
      (twoEntries ("primary", "net") ("127.0.0.1", "8080")) "primary" "net" :=
    ⟨Std.ExtTreeMap.getElem?_insert_self, twoEntries_status _ _⟩
  have write := writeHeader_write tsnRange range
  obtain ⟨added, ran, result⟩ := accepted _ (writeHeader tsn number) "x" same ⟨_, role.getStatus⟩ write
  obtain ⟨pending, found, rfl⟩ := waits.found
  have still : Found (log.insert 0 (twoEntries ("primary", "net") ("127.0.0.1", "8080"))) (getTsn (writeHeader tsn number)) record
      "WAITING" pending := ⟨write.tsn.symm ▸ same.trans found.inLog, found.entry⟩
  obtain ⟨code, rfl, answered⟩ := above_refused still (write.seq.symm ▸ above) (addLogEntry_cases ran)
  rcases result with kept | committed
  · cases kept
  · exact answered.ne_codes.2 committed

/-- The requests for missing writes that a COMMIT is answered with can all be
satisfied, and lead to the commit in every order, exactly when the record has no
gap above the number of the COMMIT. -/
theorem requests_are_satisfiable_exactly_without_gap_above {log : Log} {header : Text} {io ready : Bool} {out : Outcome}
    {requested : List Int} (positive : 1 ≤ getTsn header) (high : 1 ≤ getSeq header) (whole : Whole log (getTsn header))
    (ints : ∀ record, log[getTsn header]? = some record → ∀ number ∈ record, IsInt number)
    (committed : LogHandler.commit log header io = .ok out) (incomplete : out.code = "incomplete")
    (asked : canCommit out.log (getTsn header) (getSeq header) [] = .ok (ready, requested)) :
    ((∀ number ∈ requested, Accepted out.log (getTsn header) number) ∧
      ∀ (server : Server π) (order : List Int), server.log = out.log → order.Perm requested →
        Completes answer fuel (getTsn header) (getSeq header) order server) ↔
      ∀ record, log[getTsn header]? = some record → NoGapAbove record (getSeq header) := by
  obtain ⟨record, status, number, found, gaps, marked⟩ : ∃ record status number, Found log (getTsn header) record status number ∧
      missing record (getSeq header) ≠ [] ∧ out.log = mark log (getTsn header) record "WAITING" (iToS (getSeq header)) := by
    rcases (commit_cases committed).code with ⟨_, waiting⟩ | done | answered
    · exact waiting
    · have same : ("committed".toList : Text) = "incomplete".toList := done.symm.trans incomplete
      exact absurd same (by decide)
    · exact absurd incomplete answered.ne_codes.1
  have range := getSeq_isInt header
  have wholeRecord := whole record found.inLog
  have waits : Waits out.log (getTsn header) (getSeq header) (record.insert (-1) ("WAITING", iToS (getSeq header))) := by
    rw [marked]
    exact ⟨⟨_, mark_found _ _ _ _ _, atoi_iToS range⟩, wholeRecord.mark _ _⟩
  obtain ⟨pending, waitingFound, _⟩ := waits.found
  rw [canCommit_of_get waitingFound.inLog, Except.ok.injEq, Prod.mk.injEq] at asked
  obtain ⟨_, rfl⟩ := asked
  rw [missing_insert_present found.entry]
  have unique {other : Record} (inLog : log[getTsn header]? = some other) : other = record :=
    Option.some.inj (inLog.symm.trans found.inLog)
  constructor
  · rintro ⟨accepted, _⟩ other inLog
    obtain rfl := unique inLog
    apply (missing_below wholeRecord high).mp
    intro wanted member
    by_contra above
    have wantedRange : IsInt wanted := by
      obtain ⟨_, _, below | ⟨key, inside, before⟩⟩ := (mem_missing wholeRecord.low).mp member
      · omega
      · have := ints _ inLog key inside
        have low := (missing_positive wholeRecord member).1
        constructor
        · omega
        · have := this.2
          omega
    exact not_accepted_above positive (getTsn_isInt header) wantedRange waits (by omega) (accepted wanted member)
  · intro dense
    have below := (missing_below wholeRecord high).mpr (dense record found.inLog)
    refine ⟨?_, ?_⟩
    · intro wanted member
      exact accepted_of_missing waits (by rwa [missing_insert_present found.entry]) (below wanted member)
    · intro server order same perm
      apply completes_of_towards answer fuel positive
      · intro wanted member
        have inside := perm.mem_iff.mp member
        exact ⟨(missing_positive wholeRecord inside).1, below wanted inside⟩
      · rw [same]
        exact (commit_cases committed).whole whole
      · rw [same]
        refine Or.inr ⟨_, waits, ?_, ?_⟩
        · rw [missing_insert_present found.entry]
          exact gaps
        · intro wanted member
          rw [missing_insert_present found.entry] at member
          exact perm.mem_iff.mpr member

/-- A transaction with its third write and without the two before. -/
def holedLog : Log :=
  (serverData ∅ "127.0.0.1" "8080" "primary" "net").insert 5 ((freshRecord "file").insert 3 ("WRITE 5 3 3", "ef"))

private theorem holedLog_record {record : Record} (inLog : holedLog[(5 : Int)]? = some record) :
    record = (freshRecord "file").insert 3 ("WRITE 5 3 3", "ef") := by
  rw [holedLog, Std.ExtTreeMap.getElem?_insert_self, Option.some.injEq] at inLog
  exact inLog.symm

private theorem holedLog_numbers {record : Record} (inLog : holedLog[(5 : Int)]? = some record) {number : Int}
    (member : number ∈ record) : -1 ≤ number ∧ number ≤ 3 := by
  rw [holedLog_record inLog] at member
  rcases (mem_insert_iff _).mp member with rfl | first
  · decide
  · rcases mem_twoEntries first with rfl | rfl
    · decide
    · decide

/-- Two writes are asked for. They may come in either order. -/
theorem hole_below_the_number_is_filled :
    ∃ out, LogHandler.commit holedLog "COMMIT 5 3 0" true = .ok out ∧
      canCommit out.log 5 3 [] = .ok (false, [1, 2]) ∧ (∀ number ∈ [1, 2], Accepted out.log 5 number) ∧
      ∀ server : Server Unit, server.log = out.log → Completes Backup.noPeer 1 5 3 [1, 2] server ∧ Completes Backup.noPeer 1 5 3 [2, 1] server := by
  obtain ⟨out, committed⟩ := returned_of_isOk (show (LogHandler.commit holedLog "COMMIT 5 3 0" true).isOk by decide +kernel)
  have code : (LogHandler.commit holedLog "COMMIT 5 3 0" true).map (·.code) = .ok "incomplete" := by decide +kernel
  have asks : (LogHandler.commit holedLog "COMMIT 5 3 0" true >>= fun out => canCommit out.log 5 3 []) = .ok (false, [1, 2]) := by
    decide +kernel
  rw [committed] at code asks
  have whole : Whole holedLog 5 := by
    intro record inLog
    rw [holedLog_record inLog]
    exact (twoEntries_whole _ _).insert (by decide) _
  have ints : ∀ record, holedLog[(5 : Int)]? = some record → ∀ number ∈ record, IsInt number := by
    intro record inLog number member
    have range := holedLog_numbers inLog member
    constructor
    · omega
    · omega
  have dense : ∀ record, holedLog[(5 : Int)]? = some record → NoGapAbove record 3 := by
    intro record inLog number key above before member
    have range := holedLog_numbers inLog member
    omega
  have satisfied := (@requests_are_satisfiable_exactly_without_gap_above _ Backup.noPeer 1 holedLog "COMMIT 5 3 0" _ _ _ _
    (by decide +kernel) (by decide +kernel) whole ints committed (Except.ok.inj code) asks).mpr dense
  refine ⟨out, committed, asks, satisfied.1, ?_⟩
  intro server same
  exact ⟨satisfied.2 server _ same (List.Perm.refl _), satisfied.2 server _ same (List.Perm.swap 1 2 [])⟩

/-- NEW_TXN, writes 1 and 3, COMMIT 1, and then the write that it asks for. -/
def gappedRun : Exec (Outcome × List Int × Outcome) := do
  let (log, _, _) ← newTxn (serverData ∅ "127.0.0.1" "8080" "primary" "net") "file" [5]
  let first ← addLogEntry log "WRITE 5 1 3" "ab" true
  let third ← addLogEntry first.log "WRITE 5 3 3" "ef" true
  let out ← LogHandler.commit third.log "COMMIT 5 1 0" true
  let (_, requested) ← canCommit out.log 5 1 []
  let write ← addLogEntry out.log "WRITE 5 2 3" "cd" true
  return (out, requested, write)

theorem hole_above_the_number_is_requested_and_refused :
    gappedRun.map (fun (out, requested, write) => (out.code, requested, write.ret, write.code.take 13)) =
      .ok ("incomplete".toList, [2], false, "ERROR 5 2 202".toList) := by
  decide +kernel

end TransactionalServer.Proofs.Resend
