import TransactionalServer.Proofs.FileContents
import TransactionalServer.Proofs.Resend

/-! A transaction whose writes and whose commit arrive in any order, each of them
at least once. However they come, one commit writes its lines. -/

namespace TransactionalServer.Proofs.OrderIndependence
open ServerTools LogHandler Exec Session ReplicationManager Resend Ledger FileContents

/-- The packets of one transaction: a WRITE for each of 1..last, and COMMIT last. -/
structure Submission where
  tsn : Int
  last : Int
  file : Text
  header : Int → Text
  data : Int → Text
  commit : Text
  positive : 1 ≤ tsn
  nonempty : 1 ≤ last
  writes : ∀ number, 1 ≤ number → number ≤ last → WriteOf tsn number (header number)
  method : parse commit = 3
  commitTsn : getTsn commit = tsn
  commitSeq : getSeq commit = last

inductive Packet where
  | write (number : Int)
  | commit

namespace Submission

def Has (submission : Submission) : Packet → Prop
  | .write number => 1 ≤ number ∧ number ≤ submission.last
  | .commit => True

def headerOf (submission : Submission) : Packet → Text
  | .write number => submission.header number
  | .commit => submission.commit

def payloadOf (submission : Submission) : Packet → Option Text
  | .write number => some (submission.data number)
  | .commit => none

def dataOf (submission : Submission) : Packet → Text
  | .write number => submission.data number
  | .commit => " "

/-- The committed record, entry by entry. -/
def entry (submission : Submission) (number : Int) : Option LogPair :=
  if number = -1 then some ("COMMITTED", iToS submission.last)
  else if number = 0 then some ("NEW_TXN", submission.file)
  else if 1 ≤ number ∧ number ≤ submission.last then some (submission.header number, submission.data number)
  else none

def lines (submission : Submission) : List Text := (Int.range 1 (submission.last + 1)).map submission.data

/-- The record is the committed one and its lines have been appended once. -/
structure Stands (submission : Submission) (log : Log) (appended : List Append) : Prop where
  record : ∃ record, log[submission.tsn]? = some record ∧ ∀ number, record[number]? = submission.entry number
  appended : appended = [⟨submission.tsn, submission.file, submission.lines⟩]

end Submission

section
variable {π : Type} (answer : Answer π) (fuel : Nat) (submission : Submission)

/-- These packets, one after the other, end with the transaction committed and
its lines appended once, whatever else the server does for others in between. -/
def Ends : List Packet → Server π → List Append → Prop
  | [], server, appended => submission.Stands server.log appended
  | packet :: rest, server, appended =>
    ∀ (next : Server π) (env : Env) (auth : Bool), next.log[submission.tsn]? = server.log[submission.tsn]? →
      (∃ role, getServerStatus next.log = .ok role) → unauthorized next auth (parse (submission.headerOf packet)) = .ok false →
      env.io = true → Replicates answer fuel next env auth (submission.headerOf packet) (submission.dataOf packet) submission.last →
      ∃ handled, receive answer fuel env next auth (submission.headerOf packet) (submission.payloadOf packet) = .ok handled ∧
        handled.exited = false ∧ Ends rest handled.server (appended ++ appends handled.effects)

end

/-- A record of the transaction with some of its writes. -/
structure Gathers (submission : Submission) (record : Record) (status number : Text) : Prop where
  entry : record[(-1 : Int)]? = some (status, number)
  file : record[(0 : Int)]? = some (("NEW_TXN" : Text), submission.file)
  writes : ∀ seq, seq ≠ -1 → seq ≠ 0 → seq ∈ record →
    (1 ≤ seq ∧ seq ≤ submission.last) ∧ record[seq]? = some (submission.header seq, submission.data seq)

section
variable {submission : Submission} {record : Record} {status number : Text} {log : Log}

theorem fresh_gathers (submission : Submission) : Gathers submission (freshRecord submission.file) "ACTIVE" "0" := by
  refine ⟨twoEntries_status _ _, twoEntries_file _ _, ?_⟩
  intro seq notStatus notFile member
  rcases mem_twoEntries member with status | file
  · exact absurd status notStatus
  · exact absurd file notFile

theorem Gathers.whole (gathers : Gathers submission record status number) : WholeRecord record := by
  refine ⟨⟨_, _, gathers.entry⟩, ⟨_, _, gathers.file⟩, ?_⟩
  intro key member
  by_cases negative : key = -1
  · omega
  by_cases zero : key = 0
  · omega
  · have range := (gathers.writes key negative zero member).1.1
    omega

theorem Submission.range (submission : Submission) : IsInt submission.last := submission.commitSeq ▸ getSeq_isInt submission.commit

theorem Gathers.missing_iff (gathers : Gathers submission record status number) {seq : Int} :
    seq ∈ missing record submission.last ↔ (1 ≤ seq ∧ seq ≤ submission.last) ∧ seq ∉ record := by
  constructor
  · intro asked
    obtain ⟨low, absent⟩ := missing_positive gathers.whole asked
    refine ⟨⟨low, ?_⟩, absent⟩
    rcases ((mem_missing gathers.whole.low).mp asked).2.2 with below | ⟨key, member, before⟩
    · exact below
    · have inside := (gathers.writes key (by omega) (by omega) member).1.2
      omega
  · intro lacks
    exact (mem_missing gathers.whole.low).mpr ⟨by omega, lacks.2, Or.inl lacks.1.2⟩

theorem Gathers.mark (gathers : Gathers submission record status number) (next data : Text) :
    Gathers submission (record.insert (-1) (next, data)) next data := by
  refine ⟨Std.ExtTreeMap.getElem?_insert_self, ?_, ?_⟩
  · rw [Store.get_insert_other (by decide)]
    exact gathers.file
  · intro seq notStatus notFile member
    rw [Store.get_insert_other notStatus]
    exact gathers.writes seq notStatus notFile (((mem_insert_iff _).mp member).resolve_left notStatus)

theorem Gathers.grow (gathers : Gathers submission record status number) {seq : Int} (low : 1 ≤ seq) (below : seq ≤ submission.last) :
    Gathers submission (record.insert seq (submission.header seq, submission.data seq)) status number := by
  refine ⟨?_, ?_, ?_⟩
  · rw [Store.get_insert_other (by omega)]
    exact gathers.entry
  · rw [Store.get_insert_other (by omega)]
    exact gathers.file
  · intro other notStatus notFile member
    by_cases same : other = seq
    · rw [same]
      exact ⟨⟨low, below⟩, Std.ExtTreeMap.getElem?_insert_self⟩
    · rw [Store.get_insert_other same]
      exact gathers.writes other notStatus notFile (((mem_insert_iff _).mp member).resolve_left same)

theorem Gathers.present (gathers : Gathers submission record status number) (complete : missing record submission.last = [])
    {seq : Int} (low : 1 ≤ seq) (below : seq ≤ submission.last) : record[seq]? = some (submission.header seq, submission.data seq) :=
  (gathers.writes seq (by omega) (by omega) (mem_of_complete gathers.whole.low complete low below)).2

/-- The file of a complete record is appended with its lines. -/
theorem Gathers.writeFile (gathers : Gathers submission record status (iToS submission.last))
    (complete : missing record submission.last = []) (inLog : log[submission.tsn]? = some record) :
    writeFile log submission.tsn true = .ok (true, [.append submission.tsn submission.file submission.lines]) := by
  have named : getFileName log submission.tsn = .ok submission.file := by
    simp only [getFileName, pair_eq_ok.mpr ⟨record, inLog, gathers.file⟩, ok_bind, pure_eq_ok]
  have found : Found log submission.tsn record status (iToS submission.last) := ⟨inLog, gathers.entry⟩
  have read : committedLines log submission.tsn submission.last = .ok submission.lines := by
    have given : (Int.range 1 (submission.last + 1)).mapM (getData log submission.tsn) =
        (Int.range 1 (submission.last + 1)).mapM (fun seq => pure (submission.data seq)) := by
      apply mapM_congr
      intro seq member
      have range := Int.mem_range_iff.mp member
      have entry := gathers.present complete range.1 (Int.lt_add_one_iff.mp range.2)
      simp only [getData, pair_eq_ok.mpr ⟨record, inLog, entry⟩, ok_bind, pure_eq_ok]
    have high := submission.nonempty
    rw [committedLines, if_neg (by omega), given, List.mapM_pure]
    rfl
  simp only [LogHandler.writeFile, named, ok_bind, if_true, found.getStatusData, atoi_iToS submission.range, read, pure_eq_ok]

theorem Gathers.stands (gathers : Gathers submission record "COMMITTED" (iToS submission.last))
    (complete : missing record submission.last = []) (inLog : log[submission.tsn]? = some record) :
    submission.Stands log [⟨submission.tsn, submission.file, submission.lines⟩] := by
  refine ⟨⟨record, inLog, ?_⟩, rfl⟩
  intro seq
  unfold Submission.entry
  by_cases negative : seq = -1
  · rw [if_pos negative, negative]
    exact gathers.entry
  by_cases zero : seq = 0
  · rw [if_neg negative, if_pos zero, zero]
    exact gathers.file
  rw [if_neg negative, if_neg zero]
  by_cases inside : 1 ≤ seq ∧ seq ≤ submission.last
  · rw [if_pos inside]
    exact gathers.present complete inside.1 inside.2
  · rw [if_neg inside, ← Store.not_mem_iff_get]
    exact fun member => inside (gathers.writes seq negative zero member).1

/-- What the commit of the whole transaction does to the log. -/
inductive Writes (submission : Submission) (log : Log) (record : Record) : Outcome → Prop where
  | primary {writing : Log} (marked : writing = mark log submission.tsn record "WRITING" (iToS submission.last))
      (role : IsPrimary writing) : Writes submission log record ⟨writing, [.save writing], false, "committed"⟩
  | backup {writing final : Log} (marked : final = mark log submission.tsn record "COMMITTED" (iToS submission.last))
      (backup : NotPrimary final) :
      Writes submission log record
        ⟨final, [.save writing, .append submission.tsn submission.file submission.lines, .save final], false, "committed"⟩

theorem Writes.code {out : Outcome} (writes : Writes submission log record out) : out.ret = false ∧ out.code = "committed" := by
  cases writes with
  | primary => exact ⟨rfl, rfl⟩
  | backup => exact ⟨rfl, rfl⟩

/-- COMMIT of an open transaction writes it, or waits for what it lacks. -/
inductive Tries (submission : Submission) (log : Log) (record : Record) : Outcome → Prop where
  | writes {out : Outcome} (complete : missing record submission.last = []) (writes : Writes submission log record out) :
      Tries submission log record out
  | waits {waiting : Log} (gaps : missing record submission.last ≠ [])
      (marked : waiting = mark log submission.tsn record "WAITING" (iToS submission.last)) :
      Tries submission log record ⟨waiting, [.save waiting], false, "incomplete"⟩

theorem commit_tries {header : Text} {out : Outcome} (inLog : log[submission.tsn]? = some record)
    (gathers : Gathers submission record status number) (allowed : Open status number submission.last)
    (tsn : getTsn header = submission.tsn) (seq : getSeq header = submission.last) (commits : Commits log header true out) :
    Tries submission log record out := by
  have high := submission.nonempty
  have here : Found log (getTsn header) record status number := ⟨tsn ▸ inLog, gathers.entry⟩
  have written (complete : missing record submission.last = []) :=
    (gathers.mark "WRITING" (iToS submission.last)).writeFile (by rwa [missing_insert_present gathers.entry])
      (mark_found log submission.tsn record "WRITING" (iToS submission.last)).inLog
  cases commits with
  | absent absent =>
    rw [here.inLog] at absent
    cases absent
  | already found => exact absurd (found_unique here found).2.1 allowed.committed
  | expired found => exact absurd (found_unique here found).2.1 allowed.expired
  | otherNumber found pending differs =>
    obtain ⟨rfl, rfl, rfl⟩ := found_unique here found
    rcases pending with waiting | committed
    · exact absurd ((allowed.waiting waiting).trans seq.symm) differs
    · exact absurd committed allowed.committed
  | nothing _ _ low => omega
  | incomplete found _ _ gaps marked =>
    obtain ⟨rfl, _⟩ := found_unique here found
    rw [seq] at gaps marked
    exact .waits gaps (tsn ▸ marked)
  | primary found _ _ complete marked role =>
    obtain ⟨rfl, _⟩ := found_unique here found
    rw [tsn, seq] at marked
    exact .writes (seq ▸ complete) (.primary marked role)
  | written found _ _ complete marked serverRole backup appended finished =>
    obtain ⟨rfl, _⟩ := found_unique here found
    rw [seq] at complete
    rw [tsn, seq] at marked finished
    subst marked
    rw [tsn, written complete] at appended
    obtain ⟨rfl, rfl⟩ : submission.file = _ ∧ submission.lines = _ := by simpa using appended
    have notPrimary : NotPrimary (mark log submission.tsn record "WRITING" (iToS submission.last)) :=
      fun primary => backup (Except.ok.inj (serverRole.symm.trans primary))
    have positive := submission.positive
    rw [tsn]
    exact .writes complete (.backup finished (finished ▸ notPrimary.of_get (by rw [mark_other (by omega), mark_other (by omega)])))
  | failed found _ _ complete marked _ _ refused =>
    obtain ⟨rfl, _⟩ := found_unique here found
    rw [seq] at complete
    rw [tsn, seq] at marked
    rw [marked, tsn, written complete] at refused
    cases refused

/-- How far the transaction is while these packets are still to come. -/
inductive Stage (submission : Submission) (remaining : List Packet) (log : Log) (appended : List Append) : Prop where
  | opened {record : Record} {number : Text} (inLog : log[submission.tsn]? = some record)
      (gathers : Gathers submission record "ACTIVE" number) (later : .commit ∈ remaining)
      (asked : ∀ seq ∈ missing record submission.last, .write seq ∈ remaining) (nothing : appended = [])
  | pending {record : Record} (inLog : log[submission.tsn]? = some record)
      (gathers : Gathers submission record "WAITING" (iToS submission.last)) (gaps : missing record submission.last ≠ [])
      (asked : ∀ seq ∈ missing record submission.last, .write seq ∈ remaining) (nothing : appended = [])
  | done (stands : submission.Stands log appended)

theorem Stage.ends {appended : List Append} (stage : Stage submission [] log appended) : submission.Stands log appended := by
  cases stage with
  | opened _ _ later => cases later
  | pending _ _ gaps asked =>
    obtain ⟨seq, rest, shape⟩ := List.exists_cons_of_ne_nil gaps
    have member := asked seq (by rw [shape]; exact List.mem_cons_self)
    cases member
  | done stands => exact stands

theorem Stage.of_get {remaining : List Packet} {appended : List Append} {other : Log} (stage : Stage submission remaining log appended)
    (same : other[submission.tsn]? = log[submission.tsn]?) : Stage submission remaining other appended := by
  cases stage with
  | opened inLog gathers later asked nothing => exact .opened (same.trans inLog) gathers later asked nothing
  | pending inLog gathers gaps asked nothing => exact .pending (same.trans inLog) gathers gaps asked nothing
  | done stands =>
    obtain ⟨⟨record, inLog, entries⟩, appended⟩ := stands
    exact .done ⟨⟨record, same.trans inLog, entries⟩, appended⟩

/-- What one packet of the transaction does to the log. -/
inductive Moves (submission : Submission) (remaining : List Packet) (appended : List Append) : Outcome → Prop where
  | stays {out : Outcome} (stage : Stage submission remaining out.log appended) (silent : appends out.effects = [])
      (goesOn : out.code ≠ "committed") : Moves submission remaining appended out
  | concludes {log : Log} {record : Record} {status number : Text} {out : Outcome} (nothing : appended = [])
      (gathers : Gathers submission record status number) (complete : missing record submission.last = [])
      (writes : Writes submission log record out) : Moves submission remaining appended out

theorem Submission.Stands.committed {appended : List Append} (stands : submission.Stands log appended) :
    CommittedWith log submission.tsn submission.last := by
  obtain ⟨record, inLog, entries⟩ := stands.record
  exact ⟨record, iToS submission.last, ⟨inLog, entries (-1)⟩, atoi_iToS submission.range⟩

section
variable {remaining : List Packet} {appended : List Append} {out : Outcome} {seq : Int}

/-- A write that is recorded is no longer to come. -/
theorem asked_of_present (gathers : Gathers submission record status number) (member : seq ∈ record)
    (asked : ∀ other ∈ missing record submission.last, .write other ∈ Packet.write seq :: remaining) :
    ∀ other ∈ missing record submission.last, .write other ∈ remaining := by
  intro other lacking
  have absent := (gathers.missing_iff.mp lacking).2
  rcases List.mem_cons.mp (asked other lacking) with same | later
  · cases same
    exact absurd member absent
  · exact later

theorem asked_of_grown (gathers : Gathers submission record status number) (low : 1 ≤ seq) (below : seq ≤ submission.last)
    (asked : ∀ other ∈ missing record submission.last, .write other ∈ Packet.write seq :: remaining) :
    ∀ other ∈ missing (record.insert seq (submission.header seq, submission.data seq)) submission.last, .write other ∈ remaining := by
  have grown := gathers.grow low below
  apply asked_of_present grown ((mem_insert_iff _).mpr (Or.inl rfl))
  intro other lacking
  obtain ⟨range, absent⟩ := grown.missing_iff.mp lacking
  exact asked other (gathers.missing_iff.mpr ⟨range, fun member => absent ((mem_insert_iff _).mpr (Or.inr member))⟩)

theorem write_moves (low : 1 ≤ seq) (below : seq ≤ submission.last) (stage : Stage submission (.write seq :: remaining) log appended)
    (adds : Adds log (submission.header seq) (submission.data seq) true out) : Moves submission remaining appended out := by
  obtain ⟨method, tsn, number⟩ := submission.writes seq low below
  have unchanged {code : Text} (answered : Answered (submission.header seq) code) (still : Stage submission remaining log appended) :
      Moves submission remaining appended (.reply log code) := .stays still rfl answered.ne_codes.2
  cases stage with
  | opened inLog gathers later asked nothing =>
    have commitLater : .commit ∈ remaining := by
      rcases List.mem_cons.mp later with same | member
      · cases same
      · exact member
    have here : Found log (getTsn (submission.header seq)) _ _ _ := ⟨tsn.symm ▸ inLog, gathers.entry⟩
    cases adds with
    | low before => omega
    | absent _ absent =>
      rw [here.inLog] at absent
      cases absent
    | committed _ found => exact absurd (found_unique here found).2.1 (by decide)
    | expired _ found => exact absurd (found_unique here found).2.1 (by decide)
    | duplicate _ found _ _ present text =>
      obtain ⟨rfl, _⟩ := found_unique here found
      have member := Store.mem_iff_get.mpr ⟨_, number ▸ present⟩
      exact unchanged ⟨_, _, _, text⟩ (.opened inLog gathers commitLater (asked_of_present gathers member asked) nothing)
    | above _ found => exact absurd (found_unique here found).2.1 (by decide)
    | kept _ found => exact absurd (found_unique here found).2.1 (by decide)
    | completes _ found => exact absurd (found_unique here found).2.1 (by decide)
    | added _ found _ _ _ fresh grows =>
      obtain ⟨rfl, rfl, rfl⟩ := found_unique here found
      rw [number] at grows
      subst grows
      have grown := gathers.grow low below
      have asks := asked_of_grown gathers low below asked
      rw [tsn]
      refine .stays (.opened (mark_found _ _ _ _ _).inLog (grown.mark _ _) commitLater ?_ nothing) rfl (by decide : ([] : Text) ≠ "committed".toList)
      rwa [missing_insert_present grown.entry]
  | pending inLog gathers gaps asked nothing =>
    have here : Found log (getTsn (submission.header seq)) _ _ _ := ⟨tsn.symm ▸ inLog, gathers.entry⟩
    cases adds with
    | low before => omega
    | absent _ absent =>
      rw [here.inLog] at absent
      cases absent
    | committed _ found => exact absurd (found_unique here found).2.1 (by decide)
    | expired _ found => exact absurd (found_unique here found).2.1 (by decide)
    | duplicate _ found _ _ present text =>
      obtain ⟨rfl, _⟩ := found_unique here found
      have member := Store.mem_iff_get.mpr ⟨_, number ▸ present⟩
      exact unchanged ⟨_, _, _, text⟩ (.pending inLog gathers gaps (asked_of_present gathers member asked) nothing)
    | above _ found _ above =>
      obtain ⟨_, _, rfl⟩ := found_unique here found
      rw [atoi_iToS submission.range] at above
      omega
    | kept _ found fresh _ grows left =>
      obtain ⟨rfl, _, rfl⟩ := found_unique here found
      rw [atoi_iToS submission.range] at left
      rw [number] at grows
      subst grows
      rw [tsn]
      exact .stays (.pending Std.ExtTreeMap.getElem?_insert_self (gathers.grow low below) left
        (asked_of_grown gathers low below asked) nothing) rfl (by decide : ([] : Text) ≠ "committed".toList)
    | completes _ found fresh _ grows complete commits =>
      obtain ⟨rfl, _, rfl⟩ := found_unique here found
      rw [atoi_iToS submission.range] at complete commits
      rw [number] at grows
      subst grows
      have grown := gathers.grow low below
      have allowed : Open "WAITING" (iToS submission.last) submission.last :=
        ⟨by decide, by decide, fun _ => atoi_iToS submission.range⟩
      rw [tsn] at commits
      have range : IsInt submission.tsn := tsn ▸ getTsn_isInt (submission.header seq)
      cases commit_tries Std.ExtTreeMap.getElem?_insert_self grown allowed (pendingCommit_getTsn range submission.last)
        (pendingCommit_getSeq submission.range submission.tsn) commits with
      | writes _ writes => exact .concludes nothing grown complete writes
      | waits gaps => exact absurd complete gaps
    | added _ found _ _ notWaiting => exact absurd (found_unique here found).2.1.symm notWaiting
  | done stands =>
    have committed := stands.committed
    rw [← tsn] at committed
    obtain ⟨code, rfl, answered⟩ := committed_stays committed adds
    exact unchanged answered (.done stands)

theorem commit_moves (stage : Stage submission (.commit :: remaining) log appended) (commits : Commits log submission.commit true out) :
    Moves submission remaining appended out := by
  have later {record : Record} (asked : ∀ seq ∈ missing record submission.last, .write seq ∈ Packet.commit :: remaining) :
      ∀ seq ∈ missing record submission.last, .write seq ∈ remaining := by
    intro seq lacking
    rcases List.mem_cons.mp (asked seq lacking) with same | member
    · cases same
    · exact member
  have moves {record : Record} {status number : Text} (inLog : log[submission.tsn]? = some record)
      (gathers : Gathers submission record status number) (allowed : Open status number submission.last)
      (asked : ∀ seq ∈ missing record submission.last, .write seq ∈ Packet.commit :: remaining) (nothing : appended = []) :
      Moves submission remaining appended out := by
    cases commit_tries inLog gathers allowed submission.commitTsn submission.commitSeq commits with
    | writes complete writes => exact .concludes nothing gathers complete writes
    | waits gaps marked =>
      have same := missing_insert_present gathers.entry ("WAITING", iToS submission.last) submission.last
      subst marked
      refine .stays (.pending (mark_found _ _ _ _ _).inLog (gathers.mark _ _) ?_ ?_ nothing) rfl
        (by decide : ("incomplete".toList : Text) ≠ "committed".toList)
      · rwa [same]
      · rw [same]
        exact later asked
  cases stage with
  | opened inLog gathers _ asked nothing =>
    exact moves inLog gathers ⟨by decide, by decide, fun waiting => absurd waiting (by decide)⟩ asked nothing
  | pending inLog gathers _ asked nothing =>
    exact moves inLog gathers ⟨by decide, by decide, fun _ => atoi_iToS submission.range⟩ asked nothing
  | done stands =>
    have committed := stands.committed
    obtain ⟨record, number, here, same⟩ := committed
    rw [← submission.commitTsn] at here
    have unchanged {code : Text} (answered : Answered submission.commit code) : Moves submission remaining appended (.reply log code) :=
      .stays (.done stands) rfl answered.ne_codes.2
    cases commits with
    | absent absent =>
      rw [here.inLog] at absent
      cases absent
    | already _ _ text => exact unchanged ⟨_, _, _, text⟩
    | expired _ text => exact unchanged ⟨_, _, _, text⟩
    | otherNumber _ _ _ text => exact unchanged ⟨_, _, _, text⟩
    | nothing _ _ _ text => exact unchanged ⟨_, _, _, text⟩
    | incomplete found allowed | primary found allowed | written found allowed | failed found allowed =>
      exact absurd (found_unique here found).2.1.symm allowed.committed

end

end

theorem appends_append (first second : List Effect) : appends (first ++ second) = appends first ++ appends second :=
  List.filterMap_append

theorem appends_sends {sends : List Effect} (only : ∀ effect ∈ sends, ∃ packet, effect = .send packet) : appends sends = [] := by
  unfold appends
  rw [List.filterMap_eq_nil_iff]
  intro effect member
  obtain ⟨packet, rfl⟩ := only effect member
  rfl

section
variable {π : Type} {answer : Answer π} {fuel : Nat} {server : Server π} {env : Env} {auth : Bool} {submission : Submission}

/-- A command that commits nothing is answered and appends nothing more. -/
theorem dispatch_stays {header data : Text} {out : Command π} (executed : executeCommand env server auth (parse header) header data = .ok out)
    (goesOn : out.error ≠ "committed") :
    ∃ handled, dispatch answer fuel env server auth header data = .ok handled ∧ handled.exited = false ∧
      handled.server = out.server ∧ appends handled.effects = appends out.effects := by
  unfold dispatch
  rw [executed, ok_bind]
  cases asked : out.ret with
  | true => exact ⟨_, rfl, rfl, rfl, rfl⟩
  | false =>
    rw [if_neg Bool.false_ne_true]
    by_cases incomplete : out.error = "incomplete"
    · obtain ⟨packet, rest, sent⟩ := resend_sends (executeCommand_cases executed) asked incomplete
      have only := appends_sends (sendAckResend_effects sent)
      rw [if_pos incomplete, sent]
      refine ⟨_, rfl, rfl, rfl, ?_⟩
      rw [appends_append, only, List.append_nil]
    · rw [if_neg incomplete, if_neg goesOn]
      refine ⟨_, rfl, rfl, rfl, ?_⟩
      rw [appends_append]
      exact List.append_nil _

/-- The session's part of the commit, on a primary and on a backup. -/
theorem writes_concluded {header : Text} {log : Log} {record : Record} {status number : Text} {out : Outcome}
    (gathers : Gathers submission record status number) (complete : missing record submission.last = [])
    (writes : Writes submission log record out) (same : server.log = out.log) (tsn : getTsn header = submission.tsn)
    (answerable : Answerable header) (role : ∃ role, getServerStatus server.log = .ok role)
    (replicates : IsPrimary server.log →
      ∃ final, ReplicationManager.commit answer fuel server (commitMessage (getTsn header) submission.last) = .ok (true, final)) :
    ∃ handled, doCommit answer fuel true server auth header = .ok handled ∧ handled.exited = false ∧
      submission.Stands handled.server.log (appends out.effects ++ appends handled.effects) := by
  have positive := submission.positive
  have marked := gathers.mark "WRITING" (iToS submission.last)
  have markedComplete : missing (record.insert (-1) ("WRITING", iToS submission.last)) submission.last = [] := by
    rwa [missing_insert_present gathers.entry]
  cases writes with
  | @primary writing shape primary =>
    have found : Found server.log (getTsn header) (record.insert (-1) ("WRITING", iToS submission.last)) "WRITING" (iToS submission.last) := by
      rw [same, shape, tsn]
      exact mark_found _ _ _ _ _
    have primary : IsPrimary server.log := by rwa [same]
    obtain ⟨final, replicated⟩ := replicates primary
    have kept := (manager_keeps answer fuel).2.1 _ _ _ _ replicated
    have inLog : final.log[submission.tsn]? = some (record.insert (-1) ("WRITING", iToS submission.last)) :=
      (kept.other (by omega)).trans (tsn ▸ found.inLog)
    have written := marked.writeFile markedComplete inLog
    rw [← atoi_iToS submission.range] at replicated
    have high := submission.nonempty
    obtain ⟨ack, done⟩ := doCommit_primary auth primary answerable (by omega) found (by rw [atoi_iToS submission.range]; omega) replicated
      (by rw [tsn]; exact written)
    refine ⟨_, done, rfl, (marked.mark _ _).stands ?_ ?_⟩
    · rwa [missing_insert_present marked.entry]
    · rw [tsn]
      exact (mark_found _ _ _ _ _).inLog
  | backup finished backup =>
    have notPrimary : NotPrimary server.log := by rwa [same]
    obtain ⟨ack, done⟩ := doCommit_acknowledges auth true notPrimary role answerable
    refine ⟨_, done, rfl, (gathers.mark _ _).stands ?_ ?_⟩
    · rwa [missing_insert_present gathers.entry]
    · rw [same, finished]
      exact (mark_found _ _ _ _ _).inLog

/-- What `executeCommand` makes of a packet of the transaction is what the log
operation made of it. -/
structure Reports (out : Command π) (outcome : Outcome) : Prop where
  log : out.server.log = outcome.log
  ret : out.ret = outcome.ret
  code : out.error = outcome.code
  appended : appends out.effects = appends outcome.effects

variable {packet : Packet} {remaining : List Packet} {appended : List Append}

theorem Submission.headerOf_facts (has : submission.Has packet) :
    getTsn (submission.headerOf packet) = submission.tsn ∧ Answerable (submission.headerOf packet) ∧ Replicated (submission.headerOf packet) := by
  cases packet with
  | write seq =>
    obtain ⟨method, tsn, number⟩ := submission.writes seq has.1 has.2
    have low : 1 ≤ getSeq (submission.header seq) := number.symm ▸ has.1
    exact ⟨tsn, answerable_of_getSeq low, Or.inr (Or.inr (Or.inl method))⟩
  | commit =>
    have low : 1 ≤ getSeq submission.commit := submission.commitSeq.symm ▸ submission.nonempty
    exact ⟨submission.commitTsn, answerable_of_getSeq low, Or.inr (Or.inl submission.method)⟩

theorem receive_packet (submission : Submission) (packet : Packet) :
    receive answer fuel env server auth (submission.headerOf packet) (submission.payloadOf packet) =
      dispatch answer fuel env server auth (submission.headerOf packet) (submission.dataOf packet) := by
  cases packet with
  | write seq => rfl
  | commit =>
    have unneeded : needsData submission.commit = false := by simp [needsData, submission.method]
    unfold receive
    simp only [Submission.payloadOf, Submission.headerOf, Submission.dataOf, unneeded, Bool.false_eq_true, if_false]

theorem executes_moves {out : Command π} (has : submission.Has packet) (opened : env.io = true)
    (authorized : unauthorized server auth (parse (submission.headerOf packet)) = .ok false)
    (stage : Stage submission (packet :: remaining) server.log appended)
    (executes : Executes server env auth (submission.headerOf packet) (submission.dataOf packet) out) :
    ∃ outcome, Moves submission remaining appended outcome ∧ Reports out outcome := by
  have moves {outcome : Outcome} (operated : (parse (submission.headerOf packet) = 3 ∧ Commits server.log (submission.headerOf packet) env.io outcome) ∨
      parse (submission.headerOf packet) = 5 ∧ Adds server.log (submission.headerOf packet) (submission.dataOf packet) env.io outcome) :
      Moves submission remaining appended outcome := by
    rw [opened] at operated
    cases packet with
    | write seq =>
      have method := (submission.writes seq has.1 has.2).method
      rcases operated with ⟨other, _⟩ | ⟨_, adds⟩
      · rw [Submission.headerOf, method] at other
        cases other
      · exact write_moves has.1 has.2 stage adds
    | commit =>
      rcases operated with ⟨_, commits⟩ | ⟨other, _⟩
      · exact commit_moves stage commits
      · rw [Submission.headerOf, submission.method] at other
        cases other
  have method : parse (submission.headerOf packet) = 3 ∨ parse (submission.headerOf packet) = 5 := by
    cases packet with
    | write seq => exact Or.inr (submission.writes seq has.1 has.2).method
    | commit => exact Or.inl submission.method
  cases executes with
  | read wrong | notAborted wrong | aborted wrong | created wrong | made wrong | pinged wrong | authenticated wrong | demoted wrong =>
    rw [wrong] at method
    rcases method with other | other
    · cases other
    · cases other
  | refused cause =>
    rcases cause with refused | other
    · rw [authorized] at refused
      cases refused
    · exact absurd (Submission.headerOf_facts has).2.2 other
  | commits method commits => exact ⟨_, moves (Or.inl ⟨method, commits⟩), rfl, rfl, rfl, rfl⟩
  | added method adds kept enqueued =>
    refine ⟨_, moves (Or.inr ⟨method, adds⟩), enqueue_log enqueued, kept.symm, rfl, ?_⟩
    rw [appends_append]
    exact List.append_nil _
  | completed method adds refused code enqueued => exact ⟨_, moves (Or.inr ⟨method, adds⟩), enqueue_log enqueued, refused.symm, rfl, rfl⟩
  | notAdded method adds => exact ⟨_, moves (Or.inr ⟨method, adds⟩), rfl, rfl, rfl, rfl⟩

theorem Stage.formed {log : Log} (stage : Stage submission remaining log appended) : Formed log submission.tsn := by
  have whole {record other : Record} {status number : Text} (inLog : log[submission.tsn]? = some record)
      (gathers : Gathers submission record status number) (found : log[submission.tsn]? = some other) : FormedRecord other := by
    obtain rfl := Option.some.inj (inLog.symm.trans found)
    exact gathers.whole.formed
  intro other found
  cases stage with
  | opened inLog gathers => exact whole inLog gathers found
  | pending inLog gathers => exact whole inLog gathers found
  | done stands =>
    obtain ⟨record, inLog, entries⟩ := stands.record
    obtain rfl := Option.some.inj (inLog.symm.trans found)
    exact ⟨⟨_, _, entries (-1)⟩, ⟨_, _, entries 0⟩⟩

/-- One packet of the transaction, with its file and its replication working. -/
theorem packet_received (has : submission.Has packet) (opened : env.io = true) (role : ∃ role, getServerStatus server.log = .ok role)
    (authorized : unauthorized server auth (parse (submission.headerOf packet)) = .ok false)
    (replicates : Replicates answer fuel server env auth (submission.headerOf packet) (submission.dataOf packet) submission.last)
    (stage : Stage submission (packet :: remaining) server.log appended) :
    ∃ handled, receive answer fuel env server auth (submission.headerOf packet) (submission.payloadOf packet) = .ok handled ∧
      handled.exited = false ∧ Stage submission remaining handled.server.log (appended ++ appends handled.effects) := by
  obtain ⟨tsn, answerable, replicated⟩ := Submission.headerOf_facts has
  have positive := submission.positive
  have notZero : getTsn (submission.headerOf packet) ≠ 0 := by omega
  obtain ⟨out, executed⟩ := @executeCommand_returns π server env auth _ (submission.dataOf packet) role (tsn.symm ▸ stage.formed)
    answerable notZero replicated
  have executes := executeCommand_cases executed
  obtain ⟨outcome, moves, reports⟩ := executes_moves has opened authorized stage executes
  rw [receive_packet]
  cases moves with
  | stays stage silent goesOn =>
    obtain ⟨handled, done, running, same, effects⟩ := @dispatch_stays π answer fuel server env auth _ _ _ executed (reports.code ▸ goesOn)
    refine ⟨handled, done, running, ?_⟩
    rw [same, effects, reports.log, reports.appended, silent, List.append_nil]
    exact stage
  | concludes nothing gathers complete writes =>
    obtain ⟨refused, code⟩ := writes.code
    have stillRole : ∃ role, getServerStatus out.server.log = .ok role := by
      obtain ⟨role, read⟩ := role
      exact ⟨role, by rw [getServerStatus_of_get (executes.frame replicated (Ne.symm notZero)), read]⟩
    have committed : out.error = "committed" := reports.code.trans code
    obtain ⟨handled, done, running, stands⟩ := @writes_concluded π answer fuel out.server out.auth _ _ _ _ _ _ _ gathers complete writes
      reports.log tsn answerable stillRole (replicates out executed committed)
    have notIncomplete : out.error ≠ "incomplete" := by
      rw [committed]
      decide
    have refused : ¬ (out.ret = true) := by rw [reports.ret, refused]; decide
    unfold dispatch
    rw [executed, ok_bind, if_neg refused, if_neg notIncomplete, if_pos committed, opened, done]
    refine ⟨_, rfl, running, .done ?_⟩
    rw [nothing, List.nil_append, appends_append, reports.appended]
    exact stands

end

section
variable {π : Type} (answer : Answer π) (fuel : Nat) (submission : Submission)

theorem ends_of_stage {order : List Packet} (all : ∀ packet ∈ order, submission.Has packet) {server : Server π} {appended : List Append}
    (stage : Stage submission order server.log appended) : Ends answer fuel submission order server appended := by
  induction order generalizing server appended with
  | nil => exact stage.ends
  | cons packet rest ih =>
    intro next env auth same role authorized opened replicates
    obtain ⟨handled, received, running, further⟩ :=
      packet_received (all packet List.mem_cons_self) opened role authorized replicates (stage.of_get same)
    exact ⟨handled, received, running, ih (fun other member => all other (List.mem_cons_of_mem _ member)) further⟩

/-- In every order and with any repetitions, the packets of a fresh transaction
end with one and the same record and with its lines appended once. -/
theorem order_and_repetition_do_not_matter {server : Server π} (fresh : server.log[submission.tsn]? = some (freshRecord submission.file))
    {order : List Packet} (all : ∀ packet, packet ∈ order ↔ submission.Has packet) : Ends answer fuel submission order server [] := by
  apply ends_of_stage answer fuel submission (fun packet member => (all packet).mp member)
  have gathers := fresh_gathers submission
  refine .opened fresh gathers ((all .commit).mpr trivial) ?_ rfl
  intro seq lacking
  exact (all (.write seq)).mpr (gathers.missing_iff.mp lacking).1

end

/-- Two lines for transaction 5. -/
def twoLines : Submission where
  tsn := 5
  last := 2
  file := "aa"
  header := fun number => if number = 1 then "WRITE 5 1 3" else "WRITE 5 2 3"
  data := fun number => if number = 1 then "xx" else "yy"
  commit := "COMMIT 5 2 0"
  positive := by decide
  nonempty := by decide
  writes := by
    intro number low below
    have one_or_two : number = 1 ∨ number = 2 := by omega
    rcases one_or_two with rfl | rfl
    · exact ⟨by decide, by decide, by decide⟩
    · exact ⟨by decide, by decide, by decide⟩
  method := by decide
  commitTsn := by decide
  commitSeq := by decide

def twoFresh : Server Unit :=
  { log := (serverData ∅ "ip" "80" "backup" "dir").insert 5 (freshRecord "aa"), link := { peer := (), wires := [], connects := [] } }

/-- COMMIT comes first, and the second write twice before the first. -/
theorem commit_first_ends : Ends Backup.noPeer 1 twoLines [.commit, .write 2, .write 2, .write 1] twoFresh [] := by
  apply order_and_repetition_do_not_matter
  · exact Std.ExtTreeMap.getElem?_insert_self
  · intro packet
    cases packet with
    | commit => simp [Submission.Has]
    | write number =>
      simp only [Submission.Has, twoLines, List.mem_cons, Packet.write.injEq, reduceCtorEq, List.not_mem_nil, false_or, or_false]
      omega

end TransactionalServer.Proofs.OrderIndependence
