import TransactionalServer.Library.Store
import TransactionalServer.LogHandler
import TransactionalServer.Proofs.Headers

/-! What one operation of the log can do, case by case. Every later result
about the log reads these cases and never the operations themselves. -/

namespace TransactionalServer.Proofs
open ServerTools LogHandler Exec

/-- A record of the log with its status and number. -/
structure Found (log : Log) (tsn : Int) (record : Record) (status number : Text) : Prop where
  inLog : log[tsn]? = some record
  entry : record[(-1 : Int)]? = some (status, number)

/-- The transaction is committed with this number. -/
def CommittedWith (log : Log) (tsn seq : Int) : Prop := ∃ record number, Found log tsn record "COMMITTED" number ∧ atoi number = seq

/-- The log after a change of a record's status and number. -/
def mark (log : Log) (tsn : Int) (record : Record) (status number : Text) : Log :=
  log.insert tsn (record.insert (-1) (status, number))

section
variable {log : Log} {tsn : Int} {record : Record} {status number : Text}

theorem pair_eq_ok {seq : Int} {entry : LogPair} :
    pair log tsn seq = .ok entry ↔ ∃ record, log[tsn]? = some record ∧ record[seq]? = some entry := by
  simp only [pair, bind_eq_ok, defined_eq_ok]

theorem Found.pair (found : Found log tsn record status number) : LogHandler.pair log tsn (-1) = .ok (status, number) :=
  pair_eq_ok.mpr ⟨record, found.inLog, found.entry⟩

theorem Found.getStatus (found : Found log tsn record status number) : LogHandler.getStatus log tsn = .ok status := by
  simp only [LogHandler.getStatus, found.pair, ok_bind, pure_eq_ok]

theorem Found.getStatusData (found : Found log tsn record status number) :
    LogHandler.getStatusData log tsn = .ok (atoi number) := by
  simp only [LogHandler.getStatusData, found.pair, ok_bind, pure_eq_ok]

theorem found_of_getStatus (read : getStatus log tsn = .ok status) : ∃ record number, Found log tsn record status number := by
  simp only [getStatus, bind_eq_ok, pure_eq_ok, Except.ok.injEq] at read
  obtain ⟨⟨_, number⟩, entry, rfl⟩ := read
  obtain ⟨record, inside, entry⟩ := pair_eq_ok.mp entry
  exact ⟨record, number, inside, entry⟩

/-- Another log with the same record. -/
theorem Found.moved {other : Log} (found : Found log tsn record status number) (same : other[tsn]? = log[tsn]?) :
    Found other tsn record status number := ⟨same.trans found.inLog, found.entry⟩

theorem Found.contains (found : Found log tsn record status number) : log.contains tsn = true :=
  Store.contains_of_get found.inLog

theorem Found.changeStatus (found : Found log tsn record status number) (next : Text) :
    LogHandler.changeStatus log tsn next = .ok (mark log tsn record next number) := by
  simp only [LogHandler.changeStatus, update, found.inLog, found.entry, defined_some, ok_bind, pure_eq_ok, mark]

theorem Found.changeStatusData (found : Found log tsn record status number) (data : Text) :
    LogHandler.changeStatusData log tsn data = .ok (mark log tsn record status data) := by
  simp only [LogHandler.changeStatusData, update, found.inLog, found.entry, defined_some, ok_bind, pure_eq_ok, mark]

theorem changeStatus_cases {after : Log} {next : Text} (ran : LogHandler.changeStatus log tsn next = .ok after) :
    ∃ record status number, Found log tsn record status number ∧ after = mark log tsn record next number := by
  unfold LogHandler.changeStatus update at ran
  obtain ⟨record, inLog, ran⟩ := bind_eq_ok.mp ran
  obtain ⟨⟨status, number⟩, entry, same⟩ := bind_eq_ok.mp ran
  cases same
  exact ⟨record, status, number, ⟨defined_eq_ok.mp inLog, defined_eq_ok.mp entry⟩, rfl⟩

theorem mark_found (log : Log) (tsn : Int) (record : Record) (status number : Text) :
    Found (mark log tsn record status number) tsn (record.insert (-1) (status, number)) status number :=
  ⟨Std.ExtTreeMap.getElem?_insert_self, Std.ExtTreeMap.getElem?_insert_self⟩

theorem mark_mark (log : Log) (tsn : Int) (record : Record) (status number next data : Text) :
    mark (mark log tsn record status number) tsn (record.insert (-1) (status, number)) next data =
      mark log tsn record next data := by
  simp only [mark, Store.insert_insert]

theorem mark_other {other : Int} (differs : other ≠ tsn) : (mark log tsn record status number)[other]? = log[other]? :=
  Store.get_insert_other differs

/-- The numbers that the gap scan of a record asks for. -/
def missing (record : Record) (commitSeq : Int) : List Int :=
  let (current, fetch) := record.keys.foldl scanKey (-1, [])
  if current < commitSeq then fetch ++ (Int.range current commitSeq).map (· + 1) else fetch

theorem canCommit_of_get (inside : log[tsn]? = some record) (commitSeq : Int) :
    canCommit log tsn commitSeq [] = .ok ((missing record commitSeq).isEmpty && commitSeq != 0, missing record commitSeq) := by
  simp only [canCommit, inside, defined_some, ok_bind, pure_eq_ok, missing]

theorem writeFile_cases {io written : Bool} {effects : List Effect} (ran : writeFile log tsn io = .ok (written, effects)) :
    (written = true ∧ io = true ∧ ∃ path lines, effects = [.append tsn path lines] ∧ getFileName log tsn = .ok path ∧
      ∃ bound, getStatusData log tsn = .ok bound ∧ committedLines log tsn bound = .ok lines) ∨
      (written = false ∧ effects = [] ∧ io = false) := by
  unfold writeFile at ran
  obtain ⟨path, named, ran⟩ := bind_eq_ok.mp ran
  cases io with
  | true =>
    simp only [if_true, bind_eq_ok, pure_eq_ok, Except.ok.injEq, Prod.mk.injEq] at ran
    obtain ⟨bound, number, lines, read, rfl, rfl⟩ := ran
    exact Or.inl ⟨rfl, rfl, path, lines, rfl, named, bound, number, read⟩
  | false =>
    cases ran
    exact Or.inr ⟨rfl, rfl, rfl⟩

end

/-- A status that lets COMMIT of this number through. -/
structure Open (status number : Text) (seq : Int) : Prop where
  committed : status ≠ "COMMITTED"
  expired : status ≠ "EXPIRED"
  waiting : status = "WAITING" → atoi number = seq

inductive Commits (log : Log) (header : Text) (io : Bool) : LogHandler.Outcome → Prop where
  | absent {code : Text} (absent : log[getTsn header]? = none)
      (text : genAnswerStr "ERROR" header "201" "Transaction ID not found" = .ok code) : Commits log header io (.reply log code)
  | already {record : Record} {number code : Text} (found : Found log (getTsn header) record "COMMITTED" number)
      (same : atoi number = getSeq header) (text : genAnswerStr "ACK" header "0" "Already committed" = .ok code) :
      Commits log header io (.reply log code)
  | expired {record : Record} {number code : Text} (found : Found log (getTsn header) record "EXPIRED" number)
      (text : genAnswerStr "ERROR" header "220" "Transaction expired, please start a new one." = .ok code) :
      Commits log header io (.reply log code)
  | otherNumber {record : Record} {status number code : Text} (found : Found log (getTsn header) record status number)
      (pending : status = "WAITING" ∨ status = "COMMITTED") (differs : atoi number ≠ getSeq header)
      (text : genAnswerStr "ERROR" header "202" "Transaction was previously committed with a different sequence number" =
        .ok code) :
      Commits log header io (.reply log code)
  | nothing {record : Record} {status number code : Text} (found : Found log (getTsn header) record status number)
      (allowed : Open status number (getSeq header)) (low : getSeq header < 1)
      (text : genAnswerStr "WARNING" header "404" "Nothing to commit, request ignored" = .ok code) :
      Commits log header io (.reply log code)
  | incomplete {record : Record} {status number : Text} (found : Found log (getTsn header) record status number)
      (allowed : Open status number (getSeq header)) (high : 1 ≤ getSeq header)
      (gaps : missing record (getSeq header) ≠ []) {waiting : Log}
      (marked : waiting = mark log (getTsn header) record "WAITING" (iToS (getSeq header))) :
      Commits log header io ⟨waiting, [.save waiting], false, "incomplete"⟩
  | primary {record : Record} {status number : Text} (found : Found log (getTsn header) record status number)
      (allowed : Open status number (getSeq header)) (high : 1 ≤ getSeq header)
      (complete : missing record (getSeq header) = []) {writing : Log}
      (marked : writing = mark log (getTsn header) record "WRITING" (iToS (getSeq header)))
      (role : getServerStatus writing = .ok "primary") :
      Commits log header io ⟨writing, [.save writing], false, "committed"⟩
  | written {record : Record} {status number role path : Text} {lines : List Text}
      (found : Found log (getTsn header) record status number)
      (allowed : Open status number (getSeq header)) (high : 1 ≤ getSeq header)
      (complete : missing record (getSeq header) = []) {writing final : Log}
      (marked : writing = mark log (getTsn header) record "WRITING" (iToS (getSeq header)))
      (serverRole : getServerStatus writing = .ok role) (backup : role ≠ "primary")
      (appended : writeFile writing (getTsn header) io = .ok (true, [.append (getTsn header) path lines]))
      (finished : final = mark log (getTsn header) record "COMMITTED" (iToS (getSeq header))) :
      Commits log header io
        ⟨final, [.save writing, .append (getTsn header) path lines, .save final], false, "committed"⟩
  | failed {record : Record} {status number role code : Text} (found : Found log (getTsn header) record status number)
      (allowed : Open status number (getSeq header)) (high : 1 ≤ getSeq header)
      (complete : missing record (getSeq header) = []) {writing final : Log}
      (marked : writing = mark log (getTsn header) record "WRITING" (iToS (getSeq header)))
      (serverRole : getServerStatus writing = .ok role) (backup : role ≠ "primary")
      (refused : writeFile writing (getTsn header) io = .ok (false, []))
      (text : genAnswerStr "ERROR" header "205" "commit fail, i/o error" = .ok code)
      (finished : final = mark log (getTsn header) record "WAITING" (iToS (getSeq header))) :
      Commits log header io ⟨final, [.save writing, .save final], false, code⟩

private theorem reply_ok {log : Log} {text : Exec Text} {out : LogHandler.Outcome}
    (ran : (do let code ← text; pure (Outcome.reply log code)) = Except.ok out) :
    ∃ code, text = .ok code ∧ out = .reply log code := by
  obtain ⟨code, text, same⟩ := bind_eq_ok.mp ran
  cases same
  exact ⟨code, text, rfl⟩

theorem commit_cases {log : Log} {header : Text} {io : Bool} {out : LogHandler.Outcome}
    (ran : LogHandler.commit log header io = .ok out) : Commits log header io out := by
  unfold LogHandler.commit at ran
  cases inLog : log[getTsn header]? with
  | none =>
    simp only [Store.contains_of_absent inLog, Bool.not_false, if_true, bind_eq_ok, pure_eq_ok, Except.ok.injEq] at ran
    obtain ⟨code, text, rfl⟩ := ran
    exact .absent inLog text
  | some record =>
    simp only [Store.contains_of_get inLog, Bool.not_true, Bool.false_eq_true, if_false, bind_eq_ok] at ran
    obtain ⟨status, read, _, readNumber, ran⟩ := ran
    obtain ⟨record, number, found⟩ := found_of_getStatus read
    rw [found.getStatusData, Except.ok.injEq] at readNumber
    subst readNumber
    split at ran
    next closed =>
      obtain ⟨code, text, rfl⟩ := reply_ok ran
      obtain ⟨rfl, same⟩ := closed
      exact .already found same text
    next notSame =>
    split at ran
    next expired =>
      obtain ⟨code, text, rfl⟩ := reply_ok ran
      subst expired
      exact .expired found text
    next notExpired =>
    split at ran
    next other =>
      obtain ⟨code, text, rfl⟩ := reply_ok ran
      exact .otherNumber found other.1 other.2 text
    next notOther =>
    have allowed : Open status number (getSeq header) := by
      refine ⟨?_, notExpired, ?_⟩
      · intro committed
        by_cases same : atoi number = getSeq header
        · exact notSame ⟨committed, same⟩
        · exact notOther ⟨Or.inr committed, same⟩
      · intro waiting
        by_contra differs
        exact notOther ⟨Or.inl waiting, differs⟩
    split at ran
    next low =>
      obtain ⟨code, text, rfl⟩ := reply_ok ran
      exact .nothing found allowed low text
    next notLow =>
    have high : 1 ≤ getSeq header := Int.not_lt.mp notLow
    simp only [canCommit_of_get found.inLog, found.changeStatus, (mark_found _ _ _ _ _).changeStatusData, ok_bind,
      mark_mark] at ran
    split at ran
    next ready =>
      have complete : missing record (getSeq header) = [] := by
        simp only [Bool.and_eq_true, List.isEmpty_iff] at ready
        exact ready.1
      obtain ⟨role, serverRole, ran⟩ := bind_eq_ok.mp ran
      split at ran
      next primary =>
        cases ran
        subst primary
        exact .primary found allowed high complete rfl serverRole
      next backup =>
        obtain ⟨⟨written, effects⟩, file, ran⟩ := bind_eq_ok.mp ran
        rcases writeFile_cases file with ⟨rfl, _, path, lines, rfl, _⟩ | ⟨rfl, rfl, _⟩
        · simp only [if_true, (mark_found _ _ _ _ _).changeStatus, ok_bind, mark_mark, pure_eq_ok, Except.ok.injEq] at ran
          subst ran
          exact .written found allowed high complete rfl serverRole backup file rfl
        · simp only [Bool.false_eq_true, if_false, (mark_found _ _ _ _ _).changeStatus, ok_bind, mark_mark, pure_eq_ok,
            bind_eq_ok, Except.ok.injEq] at ran
          obtain ⟨code, text, rfl⟩ := ran
          exact .failed found allowed high complete rfl serverRole backup file text rfl
    next notReady =>
      have gaps : missing record (getSeq header) ≠ [] := by
        intro empty
        apply notReady
        have nonzero : getSeq header ≠ 0 := by omega
        simp [empty, nonzero]
      cases ran
      exact .incomplete found allowed high gaps rfl

private theorem commit_found {log : Log} {header : Text} {io : Bool} {record : Record} {status number : Text}
    (found : Found log (getTsn header) record status number) (allowed : Open status number (getSeq header)) :
    LogHandler.commit log header io =
      if getSeq header < 1 then do
        return .reply log (← genAnswerStr "WARNING" header "404" "Nothing to commit, request ignored")
      else if (missing record (getSeq header)).isEmpty && getSeq header != 0 then do
        let writing := mark log (getTsn header) record "WRITING" (iToS (getSeq header))
        if (← getServerStatus writing) = "primary" then
          return { log := writing, effects := [.save writing], ret := false, code := "committed" }
        let (written, appended) ← writeFile writing (getTsn header) io
        if written then
          let final ← changeStatus writing (getTsn header) "COMMITTED"
          return { log := final, effects := .save writing :: appended ++ [.save final], ret := false, code := "committed" }
        else
          let code ← genAnswerStr "ERROR" header "205" "commit fail, i/o error"
          let final ← changeStatus writing (getTsn header) "WAITING"
          return { log := final, effects := .save writing :: appended ++ [.save final], ret := false, code }
      else do
        let waiting := mark log (getTsn header) record "WAITING" (iToS (getSeq header))
        return { log := waiting, effects := [.save waiting], ret := false, code := "incomplete" } := by
  have notOther : ¬ (status = "WAITING" ∧ atoi number ≠ getSeq header) := fun ⟨waiting, differs⟩ =>
    differs (allowed.waiting waiting)
  unfold LogHandler.commit
  simp only [found.contains, Bool.not_true, Bool.false_eq_true, if_false, found.getStatus, found.getStatusData, ok_bind,
    allowed.committed, false_and, allowed.expired, or_false, notOther, canCommit_of_get found.inLog, found.changeStatus,
    (mark_found _ _ _ _ _).changeStatusData, mark_mark, pure_eq_ok]

private theorem ready_of_complete {record : Record} {seq : Int} (high : 1 ≤ seq) (complete : missing record seq = []) :
    ((missing record seq).isEmpty && seq != 0) = true := by
  have nonzero : seq ≠ 0 := by omega
  simp [complete, nonzero]

private theorem not_ready_of_gaps {record : Record} {seq : Int} (gaps : missing record seq ≠ []) :
    ((missing record seq).isEmpty && seq != 0) = false := by
  simp [gaps]

/-- The cases are exactly what the operation does. -/
theorem commit_of_case {log : Log} {header : Text} {io : Bool} {out : LogHandler.Outcome}
    (commits : Commits log header io out) : LogHandler.commit log header io = .ok out := by
  cases commits with
  | absent absent text =>
    unfold LogHandler.commit
    simp only [Store.contains_of_absent absent, Bool.not_false, if_true, text, ok_bind, pure_eq_ok]
  | already found same text =>
    unfold LogHandler.commit
    simp only [found.contains, Bool.not_true, Bool.false_eq_true, if_false, found.getStatus, found.getStatusData, ok_bind,
      same, and_self, if_true, text, pure_eq_ok]
  | expired found text =>
    have committed : ¬ ("EXPIRED".toList = "COMMITTED".toList) := by decide
    unfold LogHandler.commit
    simp only [found.contains, Bool.not_true, Bool.false_eq_true, if_false, found.getStatus, found.getStatusData, ok_bind,
      committed, false_and, if_true, text, pure_eq_ok]
  | @otherNumber record status number code found pending differs text =>
    have expired : status ≠ "EXPIRED".toList := by
      rcases pending with rfl | rfl
      · decide
      · decide
    unfold LogHandler.commit
    simp only [found.contains, Bool.not_true, Bool.false_eq_true, if_false, found.getStatus, found.getStatusData, ok_bind,
      differs, and_false, expired, pending, ne_eq, not_false_eq_true, and_self, if_true, text, pure_eq_ok]
  | nothing found allowed low text => simp only [commit_found found allowed, low, if_true, text, ok_bind, pure_eq_ok]
  | incomplete found allowed high gaps marked =>
    subst marked
    simp only [commit_found found allowed, Int.not_lt.mpr high, if_false, not_ready_of_gaps gaps, Bool.false_eq_true,
      pure_eq_ok]
  | primary found allowed high complete marked role =>
    subst marked
    simp only [commit_found found allowed, Int.not_lt.mpr high, if_false, ready_of_complete high complete, if_true, role,
      ok_bind, pure_eq_ok]
  | written found allowed high complete marked serverRole backup appended finished =>
    subst marked finished
    simp only [commit_found found allowed, Int.not_lt.mpr high, if_false, ready_of_complete high complete, if_true,
      serverRole, ok_bind, backup, appended, (mark_found _ _ _ _ _).changeStatus, mark_mark, pure_eq_ok, List.cons_append,
      List.nil_append]
  | failed found allowed high complete marked serverRole backup refused text finished =>
    subst marked finished
    simp only [commit_found found allowed, Int.not_lt.mpr high, if_false, ready_of_complete high complete, if_true,
      serverRole, ok_bind, backup, refused, Bool.false_eq_true, text, (mark_found _ _ _ _ _).changeStatus, mark_mark,
      pure_eq_ok, List.cons_append, List.nil_append]

/-- The COMMIT that a late write stands for. -/
def pendingCommit (tsn number : Int) : Text := "empty\t" ++ iToS tsn ++ "\t" ++ iToS number ++ "\t0\t"

private theorem pendingCommit_pieces (tsn number : Int) :
    pendingCommit tsn number =
      "empty\t".toList ++ iToS tsn ++ "\t".toList ++ iToS number ++ "\t0\t".toList := rfl

private theorem pendingCommit_tabs (tsn number : Int) :
    pendingCommit tsn number =
      "empty".toList ++ '\t' :: (iToS tsn ++ '\t' :: (iToS number ++ '\t' :: "0\t".toList)) := by
  have start : "empty\t".toList = "empty".toList ++ ['\t'] := by decide
  have tab : "\t".toList = ['\t'] := by decide
  have finish : "\t0\t".toList = '\t' :: "0\t".toList := by decide
  rw [pendingCommit_pieces, start, tab, finish]
  simp only [List.append_assoc]
  rfl

theorem pendingCommit_fields (tsn number : Int) :
    fields (pendingCommit tsn number) = "empty".toList :: iToS tsn :: iToS number :: fields "0\t".toList := by
  rw [pendingCommit_tabs, fields_cons_tab (by decide), fields_cons_tab (iToS_field tsn), fields_cons_tab (iToS_field number)]

theorem pendingCommit_getTsn {tsn : Int} (range : IsInt tsn) (number : Int) : getTsn (pendingCommit tsn number) = tsn := by
  rw [getTsn_of_fields (pendingCommit_fields tsn number), lexicalCast_iToS range, Option.getD_some]

theorem pendingCommit_getSeq {number : Int} (range : IsInt number) (tsn : Int) : getSeq (pendingCommit tsn number) = number := by
  rw [getSeq_of_fields (pendingCommit_fields tsn number), lexicalCast_iToS range, Option.getD_some]

inductive Adds (log : Log) (header data : Text) (io : Bool) : LogHandler.Outcome → Prop where
  | low {code : Text} (low : getSeq header < 1)
      (text : genAnswerStr "ERROR" header "204" "Sequence number invalid: must be 1 or larger" = .ok code) :
      Adds log header data io (.reply log code)
  | absent {code : Text} (high : 1 ≤ getSeq header) (absent : log[getTsn header]? = none)
      (text : genAnswerStr "ERROR" header "201" "Transaction ID not found" = .ok code) : Adds log header data io (.reply log code)
  | committed {record : Record} {number code : Text} (high : 1 ≤ getSeq header)
      (found : Found log (getTsn header) record "COMMITTED" number)
      (text : genAnswerStr "ERROR" header "202" "Transaction was previously committed" = .ok code) :
      Adds log header data io (.reply log code)
  | expired {record : Record} {number code : Text} (high : 1 ≤ getSeq header)
      (found : Found log (getTsn header) record "EXPIRED" number)
      (text : genAnswerStr "ERROR" header "220" "Transaction expired, please start a new one." = .ok code) :
      Adds log header data io (.reply log code)
  | duplicate {record : Record} {status number code : Text} {entry : LogPair} (high : 1 ≤ getSeq header)
      (found : Found log (getTsn header) record status number) (notCommitted : status ≠ "COMMITTED")
      (notExpired : status ≠ "EXPIRED") (present : record[getSeq header]? = some entry)
      (text : genAnswerStr "WARNING" header "301" "SeqNum for current tsnID already received, ignored" = .ok code) :
      Adds log header data io (.reply log code)
  | above {record : Record} {number code : Text} (high : 1 ≤ getSeq header)
      (found : Found log (getTsn header) record "WAITING" number) (fresh : record[getSeq header]? = none)
      (above : atoi number < getSeq header)
      (text : genAnswerStr "ERROR" header "202" "Sequence number for write is higher than pending commit. Ignored." =
        .ok code) :
      Adds log header data io (.reply log code)
  | kept {record grown : Record} {number : Text} (high : 1 ≤ getSeq header)
      (found : Found log (getTsn header) record "WAITING" number) (fresh : record[getSeq header]? = none)
      (below : getSeq header ≤ atoi number) (grows : grown = record.insert (getSeq header) (header, data))
      (gaps : missing grown (atoi number) ≠ []) :
      Adds log header data io ⟨log.insert (getTsn header) grown, [], true, []⟩
  | completes {record grown : Record} {number : Text} {out : LogHandler.Outcome} (high : 1 ≤ getSeq header)
      (found : Found log (getTsn header) record "WAITING" number) (fresh : record[getSeq header]? = none)
      (below : getSeq header ≤ atoi number) (grows : grown = record.insert (getSeq header) (header, data))
      (complete : missing grown (atoi number) = [])
      (commits : Commits (log.insert (getTsn header) grown) (pendingCommit (getTsn header) (atoi number)) io out) :
      Adds log header data io out
  | added {record grown : Record} {status number : Text} (high : 1 ≤ getSeq header)
      (found : Found log (getTsn header) record status number) (notCommitted : status ≠ "COMMITTED")
      (notExpired : status ≠ "EXPIRED") (notWaiting : status ≠ "WAITING") (fresh : record[getSeq header]? = none)
      (grows : grown = record.insert (getSeq header) (header, data)) :
      Adds log header data io ⟨mark log (getTsn header) grown "ACTIVE" number, [], true, []⟩

theorem Found.grow {log : Log} {tsn seq : Int} {record : Record} {status number : Text}
    (found : Found log tsn record status number) (high : 1 ≤ seq) (entry : LogPair) :
    Found (log.insert tsn (record.insert seq entry)) tsn (record.insert seq entry) status number := by
  refine ⟨Std.ExtTreeMap.getElem?_insert_self, ?_⟩
  rw [Store.get_insert_other (by omega)]
  exact found.entry

private theorem mark_insert (log : Log) (tsn : Int) (record grown : Record) (status number : Text) :
    mark (log.insert tsn record) tsn grown status number = mark log tsn grown status number := by
  simp only [mark, Store.insert_insert]

theorem addLogEntry_cases {log : Log} {header data : Text} {io : Bool} {out : LogHandler.Outcome}
    (ran : addLogEntry log header data io = .ok out) : Adds log header data io out := by
  unfold addLogEntry at ran
  by_cases low : getSeq header < 1
  · rw [if_pos low] at ran
    obtain ⟨code, text, rfl⟩ := reply_ok ran
    exact .low low text
  have high : 1 ≤ getSeq header := Int.not_lt.mp low
  rw [if_neg low] at ran
  cases inLog : log[getTsn header]? with
  | none =>
    simp only [Store.contains_of_absent inLog, Bool.not_false, if_true] at ran
    obtain ⟨code, text, rfl⟩ := reply_ok ran
    exact .absent high inLog text
  | some record =>
    simp only [Store.contains_of_get inLog, Bool.not_true, Bool.false_eq_true, if_false] at ran
    obtain ⟨status, read, ran⟩ := bind_eq_ok.mp ran
    obtain ⟨record, number, found⟩ := found_of_getStatus read
    split at ran
    next committed =>
      obtain ⟨code, text, rfl⟩ := reply_ok ran
      subst committed
      exact .committed high found text
    next notCommitted =>
    split at ran
    next expired =>
      obtain ⟨code, text, rfl⟩ := reply_ok ran
      subst expired
      exact .expired high found text
    next notExpired =>
    simp only [found.inLog, defined_some, ok_bind, found.getStatusData] at ran
    cases present : record[getSeq header]? with
    | some entry =>
      simp only [Store.contains_of_get present, if_true] at ran
      obtain ⟨code, text, rfl⟩ := reply_ok ran
      exact .duplicate high found notCommitted notExpired present text
    | none =>
      simp only [Store.contains_of_absent present, Bool.false_eq_true, if_false, Store.insertIfNew_of_absent present] at ran
      have grown := found.grow high (header, data)
      split at ran
      next above =>
        obtain ⟨code, text, rfl⟩ := reply_ok ran
        obtain ⟨rfl, above⟩ := above
        exact .above high found present above text
      next notAbove =>
      split at ran
      next waiting =>
        subst waiting
        have below : getSeq header ≤ atoi number := by
          by_contra above
          exact notAbove ⟨rfl, by omega⟩
        have nonzero : (atoi number != 0) = true := by
          have positive : atoi number ≠ 0 := by omega
          simpa using positive
        simp only [canCommit_of_get grown.inLog, ok_bind, nonzero, Bool.and_true, List.isEmpty_iff] at ran
        split at ran
        next complete => exact .completes high found present below rfl complete (commit_cases ran)
        next gaps =>
          cases ran
          exact .kept high found present below rfl gaps
      next notWaiting =>
        simp only [grown.changeStatus, ok_bind, mark_insert] at ran
        cases ran
        exact .added high found notCommitted notExpired notWaiting present rfl

private theorem addLogEntry_open {log : Log} {header data : Text} {io : Bool} {record : Record} {status number : Text}
    (high : 1 ≤ getSeq header) (found : Found log (getTsn header) record status number) (notCommitted : status ≠ "COMMITTED")
    (notExpired : status ≠ "EXPIRED") :
    addLogEntry log header data io =
      if record.contains (getSeq header) then do
        return .reply log (← genAnswerStr "WARNING" header "301" "SeqNum for current tsnID already received, ignored")
      else if status = "WAITING" ∧ atoi number < getSeq header then do
        return .reply log (← genAnswerStr "ERROR" header "202"
          "Sequence number for write is higher than pending commit. Ignored.")
      else do
        let log := log.insert (getTsn header) (record.insertIfNew (getSeq header) (header, data))
        if status = "WAITING" then
          let (ready, _) ← canCommit log (getTsn header) (atoi number) []
          if ready then LogHandler.commit log (pendingCommit (getTsn header) (atoi number)) io
          else return { log, effects := [], ret := true, code := [] }
        else
          return { log := ← changeStatus log (getTsn header) "ACTIVE", effects := [], ret := true, code := [] } := by
  unfold addLogEntry
  simp only [Int.not_lt.mpr high, if_false, found.contains, Bool.not_true, Bool.false_eq_true, found.getStatus, ok_bind,
    notCommitted, notExpired, found.inLog, defined_some, found.getStatusData]
  rfl

theorem addLogEntry_of_case {log : Log} {header data : Text} {io : Bool} {out : LogHandler.Outcome}
    (adds : Adds log header data io out) : addLogEntry log header data io = .ok out := by
  cases adds with
  | low low text =>
    unfold addLogEntry
    simp only [low, if_true, text, ok_bind, pure_eq_ok]
  | absent high absent text =>
    unfold addLogEntry
    simp only [Int.not_lt.mpr high, if_false, Store.contains_of_absent absent, Bool.not_false, if_true, text, ok_bind,
      pure_eq_ok]
  | committed high found text =>
    unfold addLogEntry
    simp only [Int.not_lt.mpr high, if_false, found.contains, Bool.not_true, Bool.false_eq_true, found.getStatus, ok_bind,
      if_true, text, pure_eq_ok]
  | expired high found text =>
    have committed : ¬ ("EXPIRED".toList = "COMMITTED".toList) := by decide
    unfold addLogEntry
    simp only [Int.not_lt.mpr high, if_false, found.contains, Bool.not_true, Bool.false_eq_true, found.getStatus, ok_bind,
      committed, if_true, text, pure_eq_ok]
  | duplicate high found notCommitted notExpired present text =>
    rw [addLogEntry_open high found notCommitted notExpired]
    simp only [Store.contains_of_get present, if_true, text, ok_bind, pure_eq_ok]
  | above high found fresh above text =>
    rw [addLogEntry_open high found (by decide) (by decide)]
    simp only [Store.contains_of_absent fresh, Bool.false_eq_true, if_false, above, and_self, if_true, text, ok_bind,
      pure_eq_ok]
  | kept high found fresh below grows gaps =>
    subst grows
    rw [addLogEntry_open high found (by decide) (by decide)]
    simp only [Store.contains_of_absent fresh, Bool.false_eq_true, if_false, Int.not_lt.mpr below, and_false, if_true,
      Store.insertIfNew_of_absent fresh, canCommit_of_get (found.grow high _).inLog, ok_bind, not_ready_of_gaps gaps,
      pure_eq_ok]
  | completes high found fresh below grows complete commits =>
    subst grows
    rw [addLogEntry_open high found (by decide) (by decide)]
    simp only [Store.contains_of_absent fresh, Bool.false_eq_true, if_false, Int.not_lt.mpr below, and_false, if_true,
      Store.insertIfNew_of_absent fresh, canCommit_of_get (found.grow high _).inLog, ok_bind,
      ready_of_complete (Int.le_trans high below) complete]
    exact commit_of_case commits
  | added high found notCommitted notExpired notWaiting fresh grows =>
    subst grows
    rw [addLogEntry_open high found notCommitted notExpired]
    simp only [Store.contains_of_absent fresh, Bool.false_eq_true, if_false, notWaiting, false_and,
      Store.insertIfNew_of_absent fresh, (found.grow high _).changeStatus, ok_bind, mark_insert, pure_eq_ok]

section
variable {log : Log} {header data : Text} {io : Bool} {out : LogHandler.Outcome} {tsn : Int} {path : Text} {lines : List Text}

theorem getFileName_congr {other : Log} {record old : Record} (inLog : other[tsn]? = some record) (before : log[tsn]? = some old)
    (same : record[(0 : Int)]? = old[(0 : Int)]?) : getFileName other tsn = getFileName log tsn := by
  simp only [getFileName, pair, inLog, before, defined_some, ok_bind, same]

/-- A commit appends to the file that its transaction names. -/
theorem Commits.appends (commits : Commits log header io out) (member : .append tsn path lines ∈ out.effects) :
    getFileName log (getTsn header) = .ok path := by
  cases commits with
  | absent | already | expired | otherNumber | nothing => cases member
  | incomplete | primary =>
    cases List.mem_singleton.mp member
  | failed =>
    rcases List.mem_cons.mp member with first | later
    · cases first
    · cases List.mem_singleton.mp later
  | written found allowed high complete marked serverRole backup appended finished =>
    subst marked
    rcases List.mem_cons.mp member with first | member
    · cases first
    rcases List.mem_cons.mp member with same | member
    · cases same
      rcases writeFile_cases appended with ⟨_, _, path, lines, effects, named, _⟩ | ⟨written, _⟩
      · cases effects
        rw [← named]
        refine (getFileName_congr (mark_found log (getTsn header) _ _ _).inLog found.inLog ?_).symm
        exact Store.get_insert_other (by decide)
      · cases written
    · cases List.mem_singleton.mp member

theorem Adds.appends (adds : Adds log header data io out) (member : .append tsn path lines ∈ out.effects) :
    getFileName log (getTsn header) = .ok path := by
  cases adds with
  | low | absent | committed | expired | duplicate | above | kept | added => cases member
  | @completes record grown number _ high found _ _ grows _ commits =>
    have named := commits.appends member
    rw [pendingCommit_getTsn (getTsn_isInt header)] at named
    rw [← named]
    subst grows
    refine (getFileName_congr (found.grow high _).inLog found.inLog ?_).symm
    exact Store.get_insert_other (by omega)

end

inductive Aborts (log : Log) (header : Text) : LogHandler.Outcome → Prop where
  | absent {code : Text} (absent : log[getTsn header]? = none)
      (text : genAnswerStr "ERROR" header "201" "Transaction ID not found" = .ok code) : Aborts log header (.reply log code)
  | committed {record : Record} {number code : Text} (found : Found log (getTsn header) record "COMMITTED" number)
      (text : genAnswerStr "ERROR" header "202" "Transaction was previously committed" = .ok code) :
      Aborts log header (.reply log code)
  | expired {record : Record} {number code : Text} (found : Found log (getTsn header) record "EXPIRED" number)
      (text : genAnswerStr "ERROR" header "220" "Transaction expired." = .ok code) : Aborts log header (.reply log code)
  | erased {record : Record} {status number : Text} (found : Found log (getTsn header) record status number)
      (notCommitted : status ≠ "COMMITTED") (notExpired : status ≠ "EXPIRED") :
      Aborts log header ⟨log.erase (getTsn header), [], true, []⟩

theorem abort_cases {log : Log} {header : Text} {out : LogHandler.Outcome} (ran : abort log header = .ok out) :
    Aborts log header out := by
  unfold abort at ran
  cases inLog : log[getTsn header]? with
  | none =>
    simp only [Store.contains_of_absent inLog, Bool.not_false, if_true] at ran
    obtain ⟨code, text, rfl⟩ := reply_ok ran
    exact .absent inLog text
  | some record =>
    simp only [Store.contains_of_get inLog, Bool.not_true, Bool.false_eq_true, if_false] at ran
    obtain ⟨status, read, ran⟩ := bind_eq_ok.mp ran
    obtain ⟨record, number, found⟩ := found_of_getStatus read
    split at ran
    next committed =>
      obtain ⟨code, text, rfl⟩ := reply_ok ran
      subst committed
      exact .committed found text
    next notCommitted =>
    split at ran
    next expired =>
      obtain ⟨code, text, rfl⟩ := reply_ok ran
      subst expired
      exact .expired found text
    next notExpired =>
    cases ran
    exact .erased found notCommitted notExpired

theorem abort_of_case {log : Log} {header : Text} {out : LogHandler.Outcome} (aborts : Aborts log header out) :
    abort log header = .ok out := by
  unfold abort
  cases aborts with
  | absent absent text =>
    simp only [Store.contains_of_absent absent, Bool.not_false, if_true, text, ok_bind, pure_eq_ok]
  | committed found text =>
    simp only [found.contains, Bool.not_true, Bool.false_eq_true, if_false, found.getStatus, ok_bind, if_true, text,
      pure_eq_ok]
  | expired found text =>
    have committed : ¬ ("EXPIRED".toList = "COMMITTED".toList) := by decide
    simp only [found.contains, Bool.not_true, Bool.false_eq_true, if_false, found.getStatus, ok_bind, committed, if_true,
      text, pure_eq_ok]
  | erased found notCommitted notExpired =>
    simp only [found.contains, Bool.not_true, Bool.false_eq_true, if_false, found.getStatus, ok_bind, notCommitted,
      notExpired, pure_eq_ok]

end TransactionalServer.Proofs
