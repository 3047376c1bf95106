import TransactionalServer.Proofs.Answers
import TransactionalServer.Proofs.Immutability
import TransactionalServer.Proofs.BackupProgress

/-! What a failed commit leaves behind. A backup goes back to waiting for the
same number; a primary whose replication was refused stays in writing. -/

namespace TransactionalServer.Proofs.FailedCommits
open ServerTools LogHandler Exec Session

/-- The number of the commit that a COMMIT asks for or a WRITE completes. -/
def Numbered (log : Log) (header : Text) (seq : Int) : Prop :=
  (parse header = 3 ∧ seq = getSeq header) ∨ (parse header = 5 ∧ getStatusData log (getTsn header) = .ok seq)

/-- The transaction waits for its number again: the same COMMIT is tried once
more, one with another number is refused, and a sweep moves it on. -/
structure Waiting (log : Log) (tsn seq : Int) : Prop where
  waits : ∃ record number, Found log tsn record "WAITING" number ∧ atoi number = seq
  retried : ∀ header io out, getTsn header = tsn → getSeq header = seq → LogHandler.commit log header io = .ok out →
    out.code = "committed" ∨ CommitFailed out.code
  refused : ∀ header io out, getTsn header = tsn → getSeq header ≠ seq → LogHandler.commit log header io = .ok out →
    out.log = log ∧ out.effects = [] ∧
      genAnswerStr "ERROR" header "202" "Transaction was previously committed with a different sequence number" = .ok out.code
  ages : ∀ after erased, sweepRecord log tsn = .ok (after, erased) → after[tsn]? ≠ log[tsn]?

/-- What a failed commit must leave: a waiting transaction, its writes, and an
untouched file. -/
structure Restored (before after : Log) (effects : List Effect) (header data : Text) (seq : Int) : Prop where
  waiting : Waiting after (getTsn header) seq
  kept : ∀ k entry, 1 ≤ k → Immutability.Recorded before (getTsn header) k entry → Immutability.Recorded after (getTsn header) k entry
  added : parse header = 5 → Immutability.Recorded after (getTsn header) (getSeq header) (header, data)
  unwritten : ∀ tsn path lines, .append tsn path lines ∉ effects

section
variable {log : Log} {tsn seq : Int} {record : Record} {number : Text}

private theorem aged_differs (marker : Text) : aged marker ≠ marker := by
  unfold aged
  split
  next flag =>
    rw [flag]
    decide
  next notFlag => exact fun same => notFlag same.symm

/-- A complete record that waits for its number. -/
theorem waiting_of_complete (positive : 1 ≤ tsn) (found : Found log tsn record "WAITING" number) (named : atoi number = seq)
    (high : 1 ≤ seq) (complete : missing record seq = []) : Waiting log tsn seq := by
  have only {other : Record} {status digits : Text} (again : Found log tsn other status digits) :
      record = other ∧ "WAITING".toList = status ∧ number = digits := found_unique found again
  refine ⟨⟨record, number, found, named⟩, ?_, ?_, ?_⟩
  · rintro header io out rfl same ran
    subst same
    cases commit_cases ran with
    | absent absent =>
      rw [found.inLog] at absent
      cases absent
    | already again | expired again => exact absurd (only again).2.1 (by decide)
    | otherNumber again _ differs =>
      obtain ⟨_, _, rfl⟩ := only again
      exact absurd named differs
    | nothing _ _ low => omega
    | incomplete again _ _ gaps =>
      obtain ⟨rfl, _, _⟩ := only again
      exact absurd complete gaps
    | primary | written => exact Or.inl rfl
    | failed _ _ _ _ _ _ _ _ text => exact Or.inr ⟨_, text⟩
  · rintro header io out rfl differs ran
    have closed {other : Record} {status digits : Text} (again : Found log (getTsn header) other status digits)
        (allowed : Open status digits (getSeq header)) : False := by
      obtain ⟨_, rfl, rfl⟩ := only again
      exact differs ((allowed.waiting rfl).symm.trans named)
    cases commit_cases ran with
    | absent absent =>
      rw [found.inLog] at absent
      cases absent
    | already again | expired again => exact absurd (only again).2.1 (by decide)
    | otherNumber _ _ _ text => exact ⟨rfl, rfl, text⟩
    | nothing again allowed | incomplete again allowed | primary again allowed | written again allowed | failed again allowed =>
      exact (closed again allowed).elim
  · intro after erased swept
    cases sweepRecord_cases swept with
    | absent absent =>
      rw [found.inLog] at absent
      cases absent
    | low => omega
    | bare inLog bare =>
      obtain rfl := Option.some.inj (found.inLog.symm.trans inLog)
      rw [found.entry] at bare
      cases bare
    | kept again kept =>
      obtain ⟨_, rfl, _⟩ := only again
      exact absurd kept (by decide)
    | marked _ again _ _ notWaiting =>
      obtain ⟨_, rfl, _⟩ := only again
      exact absurd rfl notWaiting
    | removed _ again => exact absurd (only again).2.1 (by decide)
    | @waits other digits marker path _ again file =>
      obtain ⟨rfl, _, _⟩ := only again
      rw [Std.ExtTreeMap.getElem?_insert_self, found.inLog]
      intro same
      have entry := congrArg (fun record : Record => record[(0 : Int)]?) (Option.some.inj same)
      simp only [Std.ExtTreeMap.getElem?_insert_self, file, Option.some.injEq, Prod.mk.injEq, and_true] at entry
      exact aged_differs marker entry
    | dropped =>
      rw [Std.ExtTreeMap.getElem?_erase_self, found.inLog]
      intro same
      cases same

/-- A failed append leaves a complete record waiting. -/
theorem append_restores {base : Log} {commit : Text} {out : Outcome} {io : Bool} (commits : Commits base commit io out)
    (positive : 1 ≤ getTsn commit) (failed : CommitFailed out.code) :
    Waiting out.log (getTsn commit) (getSeq commit) ∧ NotPrimary base ∧
      (∀ k entry, 1 ≤ k → Immutability.Recorded base (getTsn commit) k entry → Immutability.Recorded out.log (getTsn commit) k entry) ∧
      ∀ tsn path lines, .append tsn path lines ∉ out.effects := by
  have answers {method code errString : Text} (word : FieldText method) (clean : FieldText code) (other : code ≠ "205")
      (text : genAnswerStr method commit code errString = .ok out.code) : False :=
    not_commitFailed (genAnswerStr_code word clean text) other failed
  have silent {code : Text} (same : out.code = code) (short : (fields code)[3]? = none) : False := by
    obtain ⟨header, text⟩ := failed
    have fourth := genAnswerStr_code (by decide) (by decide) text
    rw [same, short] at fourth
    cases fourth
  cases commits with
  | absent _ text | expired _ text | otherNumber _ _ _ text => exact (answers (by decide) (by decide) (by decide) text).elim
  | already _ _ text | nothing _ _ _ text => exact (answers (by decide) (by decide) (by decide) text).elim
  | incomplete => exact (@silent "incomplete" rfl (by decide)).elim
  | primary | written => exact (@silent "committed" rfl (by decide)).elim
  | @failed record status number role code found _ high complete writing final marked serverRole backup _ _ finished =>
    subst marked finished
    have leaves := mark_found base (getTsn commit) record "WAITING" (iToS (getSeq commit))
    refine ⟨waiting_of_complete positive leaves (atoi_iToS (getSeq_isInt commit)) high ?_, ?_, ?_, by simp⟩
    · rw [missing_insert_present found.entry, complete]
    · intro primary
      rw [getServerStatus_of_get (mark_other (by omega)), primary, Except.ok.injEq] at serverRole
      exact backup serverRole.symm
    · rintro k entry from1 ⟨other, inLog, recorded⟩
      obtain rfl := Option.some.inj (found.inLog.symm.trans inLog)
      exact ⟨_, leaves.inLog, (Store.get_insert_other (by omega)).trans recorded⟩

end

section
variable {π : Type} {answer : Answer π} {fuel : Nat} {server : Server π} {env : Env} {auth : Bool} {header data packet : Text}
  {payload : Option Text} {handled : Handled π}

/-- The number of an attempt, and what it starts from. -/
theorem attempt_numbered {log base : Log} {commit : Text} (attempt : Attempt log header data base commit) (positive : 1 ≤ getTsn header) :
    Numbered log header (getSeq commit) ∧ (IsPrimary base ↔ IsPrimary log) ∧
      (∀ k entry, 1 ≤ k → Immutability.Recorded log (getTsn header) k entry → Immutability.Recorded base (getTsn header) k entry) ∧
      (parse header = 5 → 1 ≤ getSeq header ∧ Immutability.Recorded base (getTsn header) (getSeq header) (header, data)) := by
  cases attempt with
  | own method =>
    exact ⟨Or.inl ⟨method, rfl⟩, Iff.rfl, fun _ _ _ recorded => recorded, fun write => absurd (method.symm.trans write) (by decide)⟩
  | @pending record number _ high found fresh =>
    refine ⟨Or.inr ⟨‹_›, ?_⟩, ?_, ?_, ?_⟩
    · rw [pendingCommit_getSeq (atoi_isInt number), found.getStatusData]
    · unfold IsPrimary
      rw [getServerStatus_of_get (Store.get_insert_other (by omega))]
    · rintro k entry from1 ⟨other, inLog, recorded⟩
      obtain rfl := Option.some.inj (found.inLog.symm.trans inLog)
      refine ⟨_, Std.ExtTreeMap.getElem?_insert_self, ?_⟩
      have differs : k ≠ getSeq header := by
        rintro rfl
        rw [fresh] at recorded
        cases recorded
      rw [Store.get_insert_other differs, recorded]
    · intro _
      exact ⟨high, _, Std.ExtTreeMap.getElem?_insert_self, Std.ExtTreeMap.getElem?_insert_self⟩

/-- When a commit ends with the client being answered 205, the transaction is
waiting for its number again, with all its writes and nothing appended, exactly
on a server that is not the primary. -/
theorem failed_commits_are_restored_exactly_off_the_primary (positive : 1 ≤ getTsn header) (method : parse header = 3 ∨ parse header = 5)
    (received : receive answer fuel env server auth header payload = .ok handled) (sent : .send packet ∈ handled.effects)
    (failed : CommitFailed packet) :
    ∃ seq, Numbered server.log header seq ∧
      (Restored server.log handled.server.log handled.effects header (payload.getD " ") seq ↔ ¬ IsPrimary server.log) := by
  have begins : Begins packet "ERROR" := by
    obtain ⟨_, text⟩ := failed
    exact genAnswerStr_head (by decide) text
  have other {word : Text} (same : Begins packet word) : word = "ERROR" := Option.some.inj (same.symm.trans begins)
  rcases answered_cases received sent with ack | request | settled
  · exact absurd (other ack) (by decide)
  · exact absurd (other request) (by decide)
  cases settled with
  | answered _ _ notFailed => exact absurd failed (notFailed method)
  | @failed base commit out _ _ attempt commits fails =>
    obtain ⟨numbered, role, kept, added⟩ := attempt_numbered attempt positive
    have tsn := attempt.tsn
    refine ⟨getSeq commit, numbered, ?_⟩
    cases fails with
    | append code =>
      obtain ⟨waiting, backup, still, unwritten⟩ := append_restores commits (by rw [tsn]; exact positive) (code ▸ failed)
      rw [tsn] at waiting still
      have restored : Restored server.log out.log (out.effects ++ [.send packet]) header (payload.getD " ") (getSeq commit) := by
        refine ⟨waiting, fun k entry from1 recorded => still k entry from1 (kept k entry from1 recorded), ?_, ?_⟩
        · intro write
          obtain ⟨high, recorded⟩ := added write
          exact still _ _ high recorded
        · intro tsn path lines inside
          rcases List.mem_append.mp inside with early | late
          · exact unwritten _ _ _ early
          · cases List.mem_singleton.mp late
      exact ⟨fun _ => fun primary => backup (role.mpr primary), fun _ => restored⟩
    | @replication asked final message _ code log primary refuses =>
      have primary : IsPrimary out.log := primary
      have started : IsPrimary base := primary.of_get (commits.frame (by omega)).symm
      obtain ⟨record, writing⟩ : ∃ record, Found out.log (getTsn commit) record "WRITING" (iToS (getSeq commit)) := by
        rcases commits.goes_on (by omega) code with ⟨_, writing⟩ | ⟨_, role, read, backup⟩
        · exact writing
        · exact absurd (Except.ok.inj (read.symm.trans primary)) backup
      have kept := ((manager_keeps answer fuel).2.1 _ _ _ _ refuses).other (show getTsn commit ≠ -1 by omega)
      have stuck : Found final.log (getTsn commit) record "WRITING" (iToS (getSeq commit)) := by
        rw [log] at kept
        exact ⟨kept.trans writing.inLog, writing.entry⟩
      constructor
      · intro restored
        obtain ⟨other, number, waits, _⟩ := restored.waiting.waits
        rw [← tsn] at waits
        exact absurd (found_unique stuck waits).2.1 (by decide)
      · intro backup
        exact absurd (role.mp started) backup

end

open Completeness BackupProgress

def commitFailedText : Text := "ERROR 5 1 205 22\r\n\r\ncommit fail, i/o error\r\n"

private theorem commitFailedText_failed : CommitFailed commitFailedText := ⟨"COMMIT 5 1 0", by decide +kernel⟩

/-- A backup that has been sent transaction 5 with its only write. -/
def writtenBackup : Exec (Server Unit) :=
  [System.Event.packet {} true "MAKE_TXN 5 0 3" (some "aa") (Eq.refl true) System.nothing_drawn,
    .packet {} true "WRITE 5 1 3" (some "xx") (Eq.refl true) System.nothing_drawn].foldlM
    (System.step Backup.noPeer 0) (System.start ⟨"ip", "81", "dir"⟩ false ∅ () [] [])

/-- Its append fails. -/
theorem failed_append_is_restored : ∃ server handled, writtenBackup = .ok server ∧
    receive Backup.noPeer 0 { io := false } server true "COMMIT 5 1 0" none = .ok handled ∧
    Restored server.log handled.server.log handled.effects "COMMIT 5 1 0" " " 1 := by
  obtain ⟨server, ran⟩ := returned_of_isOk (show writtenBackup.isOk by decide +kernel)
  have role : writtenBackup.map (fun server => getServerStatus server.log) = .ok (.ok "backup") := by decide +kernel
  have answers : (writtenBackup >>= fun server => receive Backup.noPeer 0 { io := false } server true "COMMIT 5 1 0" none).map (fun handled =>
      handled.effects.filterMap sentPacket) = .ok [commitFailedText] := by decide +kernel
  rw [ran] at role
  rw [ran, ok_bind] at answers
  obtain ⟨handled, received⟩ : ∃ handled, receive Backup.noPeer 0 { io := false } server true "COMMIT 5 1 0" none = .ok handled := by
    cases received : receive Backup.noPeer 0 { io := false } server true "COMMIT 5 1 0" none with
    | ok handled => exact ⟨handled, rfl⟩
    | error halt =>
      rw [received] at answers
      cases answers
  rw [received] at answers
  have sent := mem_of_sentPacket (Except.ok.inj answers)
  have positive : 1 ≤ getTsn "COMMIT 5 1 0" := by decide
  have method : parse "COMMIT 5 1 0" = 3 ∨ parse "COMMIT 5 1 0" = 5 := Or.inl (by decide)
  obtain ⟨seq, numbered, restored⟩ :=
    failed_commits_are_restored_exactly_off_the_primary positive method received sent commitFailedText_failed
  have seq : seq = 1 := by
    rcases numbered with ⟨_, same⟩ | ⟨write, _⟩
    · rw [same]
      decide +kernel
    · exact absurd write (by decide)
  subst seq
  refine ⟨server, handled, ran, received, restored.mpr ?_⟩
  intro primary
  exact absurd (primary.symm.trans (Except.ok.inj role)) (by decide)

/-- A primary whose backup cannot append. -/
def refusingBackup : Exec (Server Backup) :=
  [pingBackup, .tick {}, createFive, writeFive].foldlM (System.step overNetwork 5)
    { BackupProgress.pair with link := { BackupProgress.pair.link with wires := [.up true, .up true, .up false] } }

/-- The client is answered 205 and the transaction is left in writing. -/
theorem refused_replication_leaves_writing : ∃ server handled, refusingBackup = .ok server ∧
    receive overNetwork 5 {} server false "COMMIT 5 1 0" none = .ok handled ∧ Effect.send commitFailedText ∈ handled.effects ∧
    CommitFailed commitFailedText ∧ getStatus handled.server.log 5 = .ok "WRITING" ∧
    ¬ Restored server.log handled.server.log handled.effects "COMMIT 5 1 0" " " 1 := by
  obtain ⟨server, ran⟩ := returned_of_isOk (show refusingBackup.isOk by decide +kernel)
  have seen : (refusingBackup >>= fun server => receive overNetwork 5 {} server false "COMMIT 5 1 0" none).map (fun handled =>
      (handled.effects.filterMap sentPacket, getStatus handled.server.log 5)) = .ok ([commitFailedText], .ok "WRITING") := by decide +kernel
  rw [ran, ok_bind] at seen
  cases received : receive overNetwork 5 {} server false "COMMIT 5 1 0" none with
  | error halt =>
    rw [received] at seen
    cases seen
  | ok handled =>
    rw [received] at seen
    obtain ⟨answers, status⟩ := Prod.mk.inj (Except.ok.inj seen)
    refine ⟨server, handled, ran, received, mem_of_sentPacket answers, commitFailedText_failed, status, ?_⟩
    intro restored
    obtain ⟨record, number, waits, _⟩ := restored.waiting.waits
    have waiting : getStatus handled.server.log 5 = .ok "WAITING" := waits.getStatus
    exact absurd (waiting.symm.trans status) (by decide)

end TransactionalServer.Proofs.FailedCommits
