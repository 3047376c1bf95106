import TransactionalServer.Proofs.Totality

/-! A transaction that waits for missing writes. Each write it lacks brings it
nearer, and the last one runs the pending commit. -/

namespace TransactionalServer.Proofs
open ServerTools LogHandler Exec

/-- The packet that wrote entry `seq` of a transaction. -/
structure WriteOf (tsn seq : Int) (header : Text) : Prop where
  method : parse header = 5
  tsn : getTsn header = tsn
  seq : getSeq header = seq

theorem answerable_of_getSeq {header : Text} (high : 1 ≤ getSeq header) : Answerable header := by
  match shape : fields header with
  | first :: tsn :: seq :: rest => exact ⟨first, tsn, seq, rest, shape⟩
  | [] => simp [getSeq, shape] at high
  | [_] => simp [getSeq, shape] at high
  | [_, _] => simp [getSeq, shape] at high

/-- A COMMIT of this number was answered with requests for missing writes. -/
structure Waits (log : Log) (tsn seq : Int) (record : Record) : Prop where
  found : ∃ number, Found log tsn record "WAITING" number ∧ atoi number = seq
  whole : WholeRecord record

theorem Waits.range {log : Log} {tsn seq : Int} {record : Record} (waits : Waits log tsn seq record) : IsInt seq := by
  obtain ⟨number, _, rfl⟩ := waits.found
  exact atoi_isInt number

section
variable {record : Record} {seq commitSeq : Int}

theorem missing_positive (whole : WholeRecord record) {number : Int} (asked : number ∈ missing record commitSeq) :
    1 ≤ number ∧ number ∉ record := by
  obtain ⟨positive, absent, _⟩ := (mem_missing whole.low).mp asked
  obtain ⟨marker, path, file⟩ := whole.file
  have notFile : number ≠ 0 := by
    rintro rfl
    exact absent (Store.mem_iff_get.mpr ⟨_, file⟩)
  exact ⟨by omega, absent⟩

theorem mem_insert_iff {number : Int} (entry : LogPair) : number ∈ record.insert seq entry ↔ number = seq ∨ number ∈ record := by
  by_cases same : number = seq
  · subst same
    simp
  · rw [Store.mem_iff_get, Store.get_insert_other same, ← Store.mem_iff_get]
    simp [same]

/-- A write up to the commit number fills its own gap and opens no other. -/
theorem missing_grow (whole : WholeRecord record) (low : 1 ≤ seq) (below : seq ≤ commitSeq) (entry : LogPair) (number : Int) :
    number ∈ missing (record.insert seq entry) commitSeq ↔ number ∈ missing record commitSeq ∧ number ≠ seq := by
  rw [mem_missing (whole.insert low entry).low, mem_missing whole.low]
  simp only [mem_insert_iff, not_or]
  constructor
  · rintro ⟨positive, ⟨other, absent⟩, wanted⟩
    refine ⟨⟨positive, absent, ?_⟩, other⟩
    rcases wanted with below' | ⟨key, rfl | member, before⟩
    · exact Or.inl below'
    · exact Or.inl (by omega)
    · exact Or.inr ⟨key, member, before⟩
  · rintro ⟨⟨positive, absent, wanted⟩, other⟩
    refine ⟨positive, ⟨other, absent⟩, ?_⟩
    rcases wanted with below' | ⟨key, member, before⟩
    · exact Or.inl below'
    · exact Or.inr ⟨key, Or.inr member, before⟩

/-- The numbers between the commit number and the highest entry are recorded. -/
def NoGapAbove (record : Record) (commitSeq : Int) : Prop :=
  ∀ number key, commitSeq < number → number < key → key ∈ record → number ∈ record

theorem missing_below (whole : WholeRecord record) (positive : 1 ≤ commitSeq) :
    (∀ number ∈ missing record commitSeq, number ≤ commitSeq) ↔ NoGapAbove record commitSeq := by
  constructor
  · intro below number key above before member
    by_contra absent
    have := below number ((mem_missing whole.low).mpr ⟨by omega, absent, Or.inr ⟨key, member, before⟩⟩)
    omega
  · intro dense number asked
    obtain ⟨_, absent, below | ⟨key, member, before⟩⟩ := (mem_missing whole.low).mp asked
    · exact below
    · by_contra above
      exact absent (dense number key (by omega) before member)

end

section
variable {log : Log} {header data : Text} {io : Bool} {out : Outcome} {record : Record} {seq : Int}

/-- What a write up to the pending number does to a waiting transaction. -/
inductive Arrives (log : Log) (header data : Text) (io : Bool) (record : Record) (seq : Int) : Outcome → Prop where
  | again {code : Text} (present : getSeq header ∈ record) (answered : Answered header code) :
      Arrives log header data io record seq (.reply log code)
  | fills (absent : getSeq header ∉ record) {grown : Record} (grows : grown = record.insert (getSeq header) (header, data))
      (waits : Waits (log.insert (getTsn header) grown) (getTsn header) seq grown) (gaps : missing grown seq ≠ []) :
      Arrives log header data io record seq ⟨log.insert (getTsn header) grown, [], true, []⟩
  | completes {out : Outcome} (absent : getSeq header ∉ record) {grown : Record}
      (grows : grown = record.insert (getSeq header) (header, data))
      (waits : Waits (log.insert (getTsn header) grown) (getTsn header) seq grown) (complete : missing grown seq = [])
      (commits : Commits (log.insert (getTsn header) grown) (pendingCommit (getTsn header) seq) io out) :
      Arrives log header data io record seq out

theorem waiting_write (waits : Waits log (getTsn header) seq record) (high : 1 ≤ getSeq header) (below : getSeq header ≤ seq)
    (adds : Adds log header data io out) : Arrives log header data io record seq out := by
  obtain ⟨number, found, rfl⟩ := waits.found
  have grown : Waits (log.insert (getTsn header) (record.insert (getSeq header) (header, data))) (getTsn header) (atoi number)
      (record.insert (getSeq header) (header, data)) :=
    ⟨⟨number, found.grow high _, rfl⟩, waits.whole.insert high _⟩
  cases adds with
  | low low => omega
  | absent _ absent =>
    rw [found.inLog] at absent
    cases absent
  | committed _ other => exact absurd (found_unique found other).2.1 (by decide)
  | expired _ other => exact absurd (found_unique found other).2.1 (by decide)
  | duplicate _ other _ _ present text =>
    obtain ⟨rfl, _⟩ := found_unique found other
    exact .again (Store.mem_iff_get.mpr ⟨_, present⟩) ⟨_, _, _, text⟩
  | above _ other _ above =>
    obtain ⟨_, _, rfl⟩ := found_unique found other
    omega
  | kept _ other fresh _ grows gaps =>
    obtain ⟨rfl, _, rfl⟩ := found_unique found other
    subst grows
    exact .fills (Store.not_mem_iff_get.mpr fresh) rfl grown gaps
  | completes _ other fresh _ grows complete commits =>
    obtain ⟨rfl, _, rfl⟩ := found_unique found other
    subst grows
    exact .completes (Store.not_mem_iff_get.mpr fresh) rfl grown complete commits
  | added _ other _ _ notWaiting =>
    obtain ⟨_, rfl, _⟩ := found_unique found other
    exact absurd rfl notWaiting

/-- The pending commit of a complete record. -/
inductive Finishes (log : Log) (tsn seq : Int) (io : Bool) (record : Record) : Outcome → Prop where
  | primary {writing : Log} (marked : writing = mark log tsn record "WRITING" (iToS seq))
      (role : getServerStatus writing = .ok "primary") :
      Finishes log tsn seq io record ⟨writing, [.save writing], false, "committed"⟩
  | written {writing final : Log} {path : Text} {lines : List Text} (opened : io = true)
      (marked : writing = mark log tsn record "WRITING" (iToS seq)) (backup : NotPrimary writing)
      (finished : final = mark log tsn record "COMMITTED" (iToS seq)) :
      Finishes log tsn seq io record ⟨final, [.save writing, .append tsn path lines, .save final], false, "committed"⟩
  | failed {out : Outcome} (refused : io = false) : Finishes log tsn seq io record out

theorem pending_finishes {tsn : Int} (waits : Waits log tsn seq record) (tsnRange : IsInt tsn) (high : 1 ≤ seq)
    (complete : missing record seq = []) (commits : Commits log (pendingCommit tsn seq) io out) :
    Finishes log tsn seq io record out := by
  obtain ⟨number, found, same⟩ := waits.found
  have sameTsn := pendingCommit_getTsn tsnRange seq
  have sameSeq := pendingCommit_getSeq waits.range tsn
  cases commits with
  | absent absent =>
    rw [sameTsn, found.inLog] at absent
    cases absent
  | already other =>
    rw [sameTsn] at other
    exact absurd (found_unique found other).2.1 (by decide)
  | expired other =>
    rw [sameTsn] at other
    exact absurd (found_unique found other).2.1 (by decide)
  | otherNumber other _ differs =>
    rw [sameTsn] at other
    rw [sameSeq] at differs
    obtain ⟨_, _, rfl⟩ := found_unique found other
    exact absurd same differs
  | nothing _ _ low =>
    rw [sameSeq] at low
    omega
  | incomplete other _ _ gaps =>
    rw [sameTsn] at other
    rw [sameSeq] at gaps
    obtain ⟨rfl, _⟩ := found_unique found other
    exact absurd complete gaps
  | primary other _ _ _ marked role =>
    rw [sameTsn] at other marked
    rw [sameSeq] at marked
    obtain ⟨rfl, _⟩ := found_unique found other
    exact .primary marked role
  | written other _ _ _ marked serverRole backup appended finished =>
    rw [sameTsn] at other marked finished appended
    rw [sameSeq] at marked finished
    obtain ⟨rfl, _⟩ := found_unique found other
    have opened : io = true := by
      rcases writeFile_cases appended with ⟨_, opened, _⟩ | ⟨absurd, _⟩
      · exact opened
      · cases absurd
    have notPrimary : NotPrimary _ := fun primary => backup (Except.ok.inj (serverRole.symm.trans primary))
    rw [sameTsn]
    exact .written opened marked notPrimary finished
  | failed _ _ _ _ _ _ _ refused =>
    have closed : io = false := by
      rcases writeFile_cases refused with ⟨absurd, _⟩ | ⟨_, _, closed⟩
      · cases absurd
      · exact closed
    exact .failed closed

/-- The transaction is committed, or it lacks only numbers still to come. -/
def Towards (log : Log) (tsn seq : Int) (remaining : List Int) : Prop :=
  CommittedWith log tsn seq ∨
    ∃ record, Waits log tsn seq record ∧ missing record seq ≠ [] ∧ ∀ number ∈ missing record seq, number ∈ remaining

/-- A committed transaction refuses every write. -/
theorem committed_stays (committed : CommittedWith log (getTsn header) seq) (adds : Adds log header data io out) :
    ∃ code, out = .reply log code ∧ Answered header code := by
  obtain ⟨record, number, found, _⟩ := committed
  cases adds with
  | low _ text => exact ⟨_, rfl, _, _, _, text⟩
  | absent _ _ text => exact ⟨_, rfl, _, _, _, text⟩
  | committed _ _ text => exact ⟨_, rfl, _, _, _, text⟩
  | expired _ _ text => exact ⟨_, rfl, _, _, _, text⟩
  | duplicate _ _ _ _ _ text => exact ⟨_, rfl, _, _, _, text⟩
  | above _ _ _ _ text => exact ⟨_, rfl, _, _, _, text⟩
  | kept _ other => exact absurd (found_unique found other).2.1 (by decide)
  | completes _ other => exact absurd (found_unique found other).2.1 (by decide)
  | added _ other notCommitted => exact absurd (found_unique found other).2.1.symm notCommitted

/-- What a write up to the number does on the way to the commit. -/
inductive Nears (log : Log) (header data : Text) (io : Bool) (seq : Int) (remaining : List Int) : Outcome → Prop where
  | answered {code : Text} (towards : Towards log (getTsn header) seq remaining) (answered : Answered header code) :
      Nears log header data io seq remaining (.reply log code)
  | filled {grown : Log} (towards : Towards grown (getTsn header) seq remaining) :
      Nears log header data io seq remaining ⟨grown, [], true, []⟩
  | completed {grown : Log} {record : Record} {out : Outcome}
      (waits : Waits grown (getTsn header) seq record) (complete : missing record seq = [])
      (finishes : Finishes grown (getTsn header) seq io record out) : Nears log header data io seq remaining out

theorem write_nears {remaining : List Int} (towards : Towards log (getTsn header) seq (getSeq header :: remaining))
    (low : 1 ≤ getSeq header) (below : getSeq header ≤ seq) (adds : Adds log header data io out) :
    Nears log header data io seq remaining out := by
  rcases towards with committed | ⟨record, waits, gaps, asked⟩
  · obtain ⟨code, rfl, answered⟩ := committed_stays committed adds
    exact .answered (Or.inl committed) answered
  cases waiting_write waits low below adds with
  | again present answered =>
    refine .answered (Or.inr ⟨record, waits, gaps, ?_⟩) answered
    intro other member
    rcases List.mem_cons.mp (asked other member) with rfl | later
    · exact absurd present (missing_positive waits.whole member).2
    · exact later
  | fills _ grows grown left =>
    subst grows
    refine .filled (Or.inr ⟨_, grown, left, ?_⟩)
    intro other member
    obtain ⟨was, differs⟩ := (missing_grow waits.whole low below _ _).mp member
    exact (List.mem_cons.mp (asked other was)).resolve_left differs
  | completes _ _ grown complete commits =>
    exact .completed grown complete
      (pending_finishes grown (getTsn_isInt header) (Int.le_trans low below) complete commits)

end

end TransactionalServer.Proofs
