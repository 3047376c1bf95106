import TransactionalServer.Proofs.Frames
import TransactionalServer.Proofs.Missing

/-! Operations on whole records return. A lookup fails only where an entry that
the program always writes has been taken away. -/

namespace TransactionalServer.Proofs
open ServerTools LogHandler Exec

variable {log : Log} {tsn : Int} {record : Record} {header data : Text} {io : Bool}

/-- A record with its status and file entries and nothing below them. -/
structure WholeRecord (record : Record) : Prop where
  status : ∃ status number, record[(-1 : Int)]? = some (status, number)
  file : ∃ marker path, record[(0 : Int)]? = some (marker, path)
  low : ∀ key ∈ record, -1 ≤ key

def Whole (log : Log) (tsn : Int) : Prop := ∀ record, log[tsn]? = some record → WholeRecord record

/-- A record with its status and file entries. -/
structure FormedRecord (record : Record) : Prop where
  status : ∃ status number, record[(-1 : Int)]? = some (status, number)
  file : ∃ marker path, record[(0 : Int)]? = some (marker, path)

def Formed (log : Log) (tsn : Int) : Prop := ∀ record, log[tsn]? = some record → FormedRecord record

theorem WholeRecord.formed (whole : WholeRecord record) : FormedRecord record := ⟨whole.status, whole.file⟩

theorem Whole.formed (whole : Whole log tsn) : Formed log tsn := fun record inLog => (whole record inLog).formed

theorem FormedRecord.insert (formed : FormedRecord record) {seq : Int} (low : 1 ≤ seq) (entry : LogPair) :
    FormedRecord (record.insert seq entry) := by
  constructor
  · rw [Store.get_insert_other (by omega)]
    exact formed.status
  · rw [Store.get_insert_other (by omega)]
    exact formed.file

theorem FormedRecord.mark (formed : FormedRecord record) (status number : Text) : FormedRecord (record.insert (-1) (status, number)) := by
  refine ⟨⟨status, number, Std.ExtTreeMap.getElem?_insert_self⟩, ?_⟩
  rw [Store.get_insert_other (by decide)]
  exact formed.file

theorem Formed.found (formed : Formed log tsn) (inLog : log[tsn]? = some record) : ∃ status number, Found log tsn record status number := by
  obtain ⟨status, number, entry⟩ := (formed record inLog).status
  exact ⟨status, number, inLog, entry⟩

/-- A header that an answer can repeat. -/
def Answerable (header : Text) : Prop := ∃ first tsn seq rest, fields header = first :: tsn :: seq :: rest

theorem answerable_genAnswerStr (answerable : Answerable header) (method code errString : Text) :
    ∃ text, genAnswerStr method header code errString = .ok text := by
  obtain ⟨_, _, _, _, shape⟩ := answerable
  obtain ⟨_, made⟩ := genAnswerStr_of_fields shape method code errString
  exact ⟨_, made⟩

theorem answerable_of_valid (valid : validHeader header = true) : Answerable header := by
  have count : (fields header).length = 4 := by simpa [validHeader] using valid
  match shape : fields header, count with
  | [first, tsn, seq, length], _ => exact ⟨first, tsn, seq, [length], shape⟩

theorem WholeRecord.insert (whole : WholeRecord record) {seq : Int} (low : 1 ≤ seq) (entry : LogPair) :
    WholeRecord (record.insert seq entry) := by
  refine ⟨?_, ?_, ?_⟩
  · rw [Store.get_insert_other (by omega)]
    exact whole.status
  · rw [Store.get_insert_other (by omega)]
    exact whole.file
  · intro key member
    by_cases same : key = seq
    · omega
    · rw [Store.mem_iff_get, Store.get_insert_other same] at member
      exact whole.low key (Store.mem_iff_get.mpr member)

theorem WholeRecord.mark (whole : WholeRecord record) (status number : Text) :
    WholeRecord (record.insert (-1) (status, number)) := by
  refine ⟨⟨status, number, Std.ExtTreeMap.getElem?_insert_self⟩, ?_, ?_⟩
  · rw [Store.get_insert_other (by decide)]
    exact whole.file
  · intro key member
    by_cases same : key = -1
    · omega
    · rw [Store.mem_iff_get, Store.get_insert_other same] at member
      exact whole.low key (Store.mem_iff_get.mpr member)

theorem twoEntries_whole (status file : LogPair) : WholeRecord (twoEntries status file) := by
  refine ⟨⟨_, _, twoEntries_status status file⟩, ⟨_, _, twoEntries_file status file⟩, ?_⟩
  intro key member
  rcases mem_twoEntries member with rfl | rfl
  · decide
  · decide

/-- The record of a transaction, if there is one, has a property. -/
def At (holds : Record → Prop) (log : Log) (tsn : Int) : Prop := ∀ record, log[tsn]? = some record → holds record

/-- A property of records that no operation takes away. -/
structure Robust (holds : Record → Prop) : Prop where
  write : ∀ record seq entry, holds record → 1 ≤ seq → holds (record.insert seq entry)
  mark : ∀ record status number, holds record → holds (record.insert (-1) (status, number))
  fresh : ∀ data, holds (freshRecord data)

theorem whole_robust : Robust WholeRecord where
  write := fun _ _ entry whole low => whole.insert low entry
  mark := fun _ status number whole => whole.mark status number
  fresh := fun _ => twoEntries_whole _ _

theorem formed_robust : Robust FormedRecord where
  write := fun _ _ entry formed low => formed.insert low entry
  mark := fun _ status number formed => formed.mark status number
  fresh := fun _ => (twoEntries_whole _ _).formed

section
variable {holds : Record → Prop}

theorem At.of_get {other : Log} (all : At holds log tsn) (same : other[tsn]? = log[tsn]?) : At holds other tsn := by
  intro record inLog
  rw [same] at inLog
  exact all record inLog

theorem At.insert (all : At holds log tsn) {other : Int} (changed : other = tsn → holds record) : At holds (log.insert other record) tsn := by
  by_cases here : other = tsn
  · intro found inLog
    rw [here, Std.ExtTreeMap.getElem?_insert_self, Option.some.injEq] at inLog
    exact inLog ▸ changed here
  · exact all.of_get (Store.get_insert_other (Ne.symm here))

theorem At.erase (all : At holds log tsn) (other : Int) : At holds (log.erase other) tsn := by
  by_cases here : other = tsn
  · intro found inLog
    rw [here, Std.ExtTreeMap.getElem?_erase_self] at inLog
    cases inLog
  · exact all.of_get (Store.get_erase_other (Ne.symm here))

theorem At.mark (robust : Robust holds) (all : At holds log tsn) {other : Int} (inLog : log[other]? = some record) (status number : Text) :
    At holds (Proofs.mark log other record status number) tsn :=
  all.insert (fun here => robust.mark _ status number (all record (here ▸ inLog)))

theorem Commits.robust {out : Outcome} (robust : Robust holds) (commits : Commits log header io out) (all : At holds log tsn) :
    At holds out.log tsn := by
  cases commits with
  | absent | already | expired | otherNumber | nothing => exact all
  | incomplete found _ _ _ marked | primary found _ _ _ marked =>
    subst marked
    exact At.mark robust all found.inLog _ _
  | written found _ _ _ _ _ _ _ finished | failed found _ _ _ _ _ _ _ _ finished =>
    subst finished
    exact At.mark robust all found.inLog _ _

theorem Adds.robust {out : Outcome} (robust : Robust holds) (adds : Adds log header data io out) (all : At holds log tsn) :
    At holds out.log tsn := by
  have written {record : Record} {status number : Text} (found : Found log (getTsn header) record status number) (high : 1 ≤ getSeq header)
      (here : getTsn header = tsn) : holds (record.insert (getSeq header) (header, data)) :=
    robust.write _ _ _ (all _ (here ▸ found.inLog)) high
  cases adds with
  | low | absent | committed | expired | duplicate | above => exact all
  | kept high found _ _ grows =>
    subst grows
    exact all.insert (written found high)
  | completes high found _ _ grows _ commits =>
    subst grows
    exact commits.robust robust (all.insert (written found high))
  | added high found _ _ _ _ grows =>
    subst grows
    exact all.insert (fun here => robust.mark _ _ _ (written found high here))

theorem Aborts.robust {out : Outcome} (aborts : Aborts log header out) (all : At holds log tsn) : At holds out.log tsn := by
  cases aborts with
  | absent | committed | expired => exact all
  | erased => exact all.erase _

theorem makeTxn_robust (robust : Robust holds) (all : At holds log tsn) (data : Text) (other : Int) : At holds (makeTxn log data other).1 tsn := by
  unfold makeTxn
  split
  · exact all.insert (fun _ => robust.fresh data)
  · exact all

end

theorem Whole.of_get {other : Log} (whole : Whole log tsn) (same : other[tsn]? = log[tsn]?) : Whole other tsn := At.of_get whole same

theorem Commits.whole {out : Outcome} (commits : Commits log header io out) (whole : Whole log tsn) : Whole out.log tsn :=
  commits.robust whole_robust whole

theorem Adds.whole {out : Outcome} (adds : Adds log header data io out) (whole : Whole log tsn) : Whole out.log tsn :=
  adds.robust whole_robust whole

theorem Aborts.whole {out : Outcome} (aborts : Aborts log header out) (whole : Whole log tsn) : Whole out.log tsn := aborts.robust whole

theorem makeTxn_whole (whole : Whole log tsn) (data : Text) (other : Int) : Whole (makeTxn log data other).1 tsn :=
  makeTxn_robust whole_robust whole data other

/-- Every number up to the commit number is in a record without gaps. -/
theorem mem_of_complete {seq number : Int} (low : ∀ key ∈ record, -1 ≤ key) (complete : missing record seq = []) (from1 : 1 ≤ number)
    (below : number ≤ seq) : number ∈ record :=
  (missing_empty low).mp complete number (by omega) (Or.inl below)

theorem mapM_ok {α β : Type} {next : α → Exec β} {values : List α} (each : ∀ value ∈ values, ∃ result, next value = .ok result) :
    ∃ results, values.mapM next = .ok results := by
  induction values with
  | nil => exact ⟨[], rfl⟩
  | cons value values ih =>
    obtain ⟨first, here⟩ := each value List.mem_cons_self
    obtain ⟨rest, later⟩ := ih (fun other member => each other (List.mem_cons_of_mem _ member))
    refine ⟨first :: rest, ?_⟩
    rw [List.mapM_cons, here, later]
    rfl

theorem committedLines_ok {bound : Int} (inLog : log[tsn]? = some record) (positive : 0 ≤ bound)
    (entries : ∀ number, 1 ≤ number → number ≤ bound → number ∈ record) : ∃ lines, committedLines log tsn bound = .ok lines := by
  rw [committedLines, if_neg (by omega)]
  apply mapM_ok
  intro number member
  have range := Int.mem_range_iff.mp member
  obtain ⟨entry, inRecord⟩ := Store.mem_iff_get.mp (entries number (by omega) (by omega))
  refine ⟨entry.2, ?_⟩
  simp only [getData, pair_eq_ok.mpr ⟨record, inLog, inRecord⟩, ok_bind, pure_eq_ok]

/-- Writing the lines of a complete record succeeds or fails as the file does. -/
theorem writeFile_ok {status number : Text} (found : Found log tsn record status number) (formed : FormedRecord record)
    (positive : 0 ≤ atoi number) (entries : ∀ seq, 1 ≤ seq → seq ≤ atoi number → seq ∈ record) :
    (io = true ∧ ∃ path lines, writeFile log tsn io = .ok (true, [.append tsn path lines])) ∨
      (io = false ∧ writeFile log tsn io = .ok (false, [])) := by
  obtain ⟨marker, path, file⟩ := formed.file
  have named : getFileName log tsn = .ok path := by
    simp only [getFileName, pair_eq_ok.mpr ⟨record, found.inLog, file⟩, ok_bind, pure_eq_ok]
  obtain ⟨lines, read⟩ := committedLines_ok found.inLog positive entries
  cases io with
  | true =>
    refine Or.inl ⟨rfl, path, lines, ?_⟩
    simp only [writeFile, named, ok_bind, if_true, found.getStatusData, read, pure_eq_ok]
  | false =>
    refine Or.inr ⟨rfl, ?_⟩
    simp only [writeFile, named, ok_bind, Bool.false_eq_true, if_false, pure_eq_ok]

/-- The writing step of a commit whose record is complete. -/
theorem writeFile_marked (log : Log) (tsn : Int) (io : Bool) {seq : Int} (formed : FormedRecord record) (range : IsInt seq) (high : 1 ≤ seq)
    (complete : missing record seq = []) :
    (io = true ∧ ∃ path lines, writeFile (mark log tsn record "WRITING" (iToS seq)) tsn io =
        .ok (true, [.append tsn path lines])) ∨
      (io = false ∧ writeFile (mark log tsn record "WRITING" (iToS seq)) tsn io = .ok (false, [])) := by
  apply writeFile_ok (mark_found _ _ _ _ _) (formed.mark _ _)
  · rw [atoi_iToS range]
    omega
  · intro number from1 below
    rw [atoi_iToS range] at below
    obtain ⟨status, digits, entry⟩ := formed.status
    have member := mem_of_gapless (Store.mem_iff_get.mpr ⟨_, entry⟩) complete from1 below
    rw [Store.mem_iff_get, Store.get_insert_other (by omega)]
    exact Store.mem_iff_get.mp member

theorem commit_returns (formed : Formed log (getTsn header)) (answerable : Answerable header)
    (role : ∃ role, getServerStatus log = .ok role) (io : Bool) : ∃ out, LogHandler.commit log header io = .ok out := by
  have texts := answerable_genAnswerStr answerable
  cases inLog : log[getTsn header]? with
  | none =>
    obtain ⟨code, text⟩ := texts "ERROR" "201" "Transaction ID not found"
    exact ⟨_, commit_of_case (.absent inLog text)⟩
  | some record =>
    obtain ⟨status, number, found⟩ := formed.found inLog
    by_cases expired : status = "EXPIRED"
    · obtain ⟨code, text⟩ := texts "ERROR" "220" "Transaction expired, please start a new one."
      exact ⟨_, commit_of_case (.expired (expired ▸ found) text)⟩
    by_cases committed : status = "COMMITTED"
    · subst committed
      by_cases same : atoi number = getSeq header
      · obtain ⟨code, text⟩ := texts "ACK" "0" "Already committed"
        exact ⟨_, commit_of_case (.already found same text)⟩
      · obtain ⟨code, text⟩ := texts "ERROR" "202" "Transaction was previously committed with a different sequence number"
        exact ⟨_, commit_of_case (.otherNumber found (Or.inr rfl) same text)⟩
    by_cases other : status = "WAITING" ∧ atoi number ≠ getSeq header
    · obtain ⟨code, text⟩ := texts "ERROR" "202" "Transaction was previously committed with a different sequence number"
      exact ⟨_, commit_of_case (.otherNumber found (Or.inl other.1) other.2 text)⟩
    have allowed : Open status number (getSeq header) :=
      ⟨committed, expired, fun waiting => not_not.mp (fun differs => other ⟨waiting, differs⟩)⟩
    by_cases low : getSeq header < 1
    · obtain ⟨code, text⟩ := texts "WARNING" "404" "Nothing to commit, request ignored"
      exact ⟨_, commit_of_case (.nothing found allowed low text)⟩
    have high : 1 ≤ getSeq header := by omega
    by_cases complete : missing record (getSeq header) = []
    · have roleAfter : ∃ role, getServerStatus (mark log (getTsn header) record "WRITING" (iToS (getSeq header))) = .ok role := by
        by_cases here : getTsn header = 0
        · rw [here]
          exact ⟨_, (mark_found _ _ _ _ _).getStatus⟩
        · obtain ⟨role, read⟩ := role
          exact ⟨role, by rw [getServerStatus_of_get (mark_other (Ne.symm here)), read]⟩
      obtain ⟨role, read⟩ := roleAfter
      by_cases primary : role = "primary"
      · exact ⟨_, commit_of_case (.primary found allowed high complete rfl (primary ▸ read))⟩
      · rcases writeFile_marked log (getTsn header) io (formed record inLog) (getSeq_isInt header) high complete with
          ⟨_, path, lines, file⟩ | ⟨_, file⟩
        · exact ⟨_, commit_of_case (.written found allowed high complete rfl read primary file rfl)⟩
        · obtain ⟨code, text⟩ := texts "ERROR" "205" "commit fail, i/o error"
          exact ⟨_, commit_of_case (.failed found allowed high complete rfl read primary file text rfl)⟩
    · exact ⟨_, commit_of_case (.incomplete found allowed high complete rfl)⟩

theorem addLogEntry_returns (formed : Formed log (getTsn header)) (answerable : Answerable header)
    (role : ∃ role, getServerStatus log = .ok role) (data : Text) (io : Bool) :
    ∃ out, addLogEntry log header data io = .ok out := by
  have texts := answerable_genAnswerStr answerable
  by_cases low : getSeq header < 1
  · obtain ⟨code, text⟩ := texts "ERROR" "204" "Sequence number invalid: must be 1 or larger"
    exact ⟨_, addLogEntry_of_case (.low low text)⟩
  have high : 1 ≤ getSeq header := by omega
  cases inLog : log[getTsn header]? with
  | none =>
    obtain ⟨code, text⟩ := texts "ERROR" "201" "Transaction ID not found"
    exact ⟨_, addLogEntry_of_case (.absent high inLog text)⟩
  | some record =>
    obtain ⟨status, number, found⟩ := formed.found inLog
    by_cases committed : status = "COMMITTED"
    · obtain ⟨code, text⟩ := texts "ERROR" "202" "Transaction was previously committed"
      exact ⟨_, addLogEntry_of_case (.committed high (committed ▸ found) text)⟩
    by_cases expired : status = "EXPIRED"
    · obtain ⟨code, text⟩ := texts "ERROR" "220" "Transaction expired, please start a new one."
      exact ⟨_, addLogEntry_of_case (.expired high (expired ▸ found) text)⟩
    cases fresh : record[getSeq header]? with
    | some entry =>
      obtain ⟨code, text⟩ := texts "WARNING" "301" "SeqNum for current tsnID already received, ignored"
      exact ⟨_, addLogEntry_of_case (.duplicate high found committed expired fresh text)⟩
    | none =>
      by_cases waiting : status = "WAITING"
      · subst waiting
        by_cases above : atoi number < getSeq header
        · obtain ⟨code, text⟩ := texts "ERROR" "202" "Sequence number for write is higher than pending commit. Ignored."
          exact ⟨_, addLogEntry_of_case (.above high found fresh above text)⟩
        · by_cases complete : missing (record.insert (getSeq header) (header, data)) (atoi number) = []
          · have tsn := pendingCommit_getTsn (getTsn_isInt header) (atoi number)
            have grown : Formed (log.insert (getTsn header) (record.insert (getSeq header) (header, data)))
                (getTsn (pendingCommit (getTsn header) (atoi number))) := by
              intro other inGrown
              rw [tsn, Std.ExtTreeMap.getElem?_insert_self, Option.some.injEq] at inGrown
              exact inGrown ▸ (formed record inLog).insert high _
            have roleGrown : ∃ role,
                getServerStatus (log.insert (getTsn header) (record.insert (getSeq header) (header, data))) = .ok role := by
              by_cases here : getTsn header = 0
              · rw [here] at found ⊢
                exact ⟨_, (found.grow high _).getStatus⟩
              · obtain ⟨role, read⟩ := role
                exact ⟨role, by rw [getServerStatus_of_get (Store.get_insert_other (Ne.symm here)), read]⟩
            obtain ⟨out, ran⟩ := commit_returns grown ⟨_, _, _, _, pendingCommit_fields _ _⟩ roleGrown io
            exact ⟨out, addLogEntry_of_case
              (.completes high found fresh (Int.not_lt.mp above) rfl complete (commit_cases ran))⟩
          · exact ⟨_, addLogEntry_of_case (.kept high found fresh (Int.not_lt.mp above) rfl complete)⟩
      · exact ⟨_, addLogEntry_of_case (.added high found committed expired waiting fresh rfl)⟩

theorem abort_returns (formed : Formed log (getTsn header)) (answerable : Answerable header) : ∃ out, abort log header = .ok out := by
  have texts := answerable_genAnswerStr answerable
  cases inLog : log[getTsn header]? with
  | none =>
    obtain ⟨code, text⟩ := texts "ERROR" "201" "Transaction ID not found"
    exact ⟨_, abort_of_case (.absent inLog text)⟩
  | some record =>
    obtain ⟨status, number, found⟩ := formed.found inLog
    by_cases committed : status = "COMMITTED"
    · obtain ⟨code, text⟩ := texts "ERROR" "202" "Transaction was previously committed"
      exact ⟨_, abort_of_case (.committed (committed ▸ found) text)⟩
    by_cases expired : status = "EXPIRED"
    · obtain ⟨code, text⟩ := texts "ERROR" "220" "Transaction expired."
      exact ⟨_, abort_of_case (.expired (expired ▸ found) text)⟩
    exact ⟨_, abort_of_case (.erased found committed expired)⟩

end TransactionalServer.Proofs
