import TransactionalServer.Transaction
import TransactionalServer.Proofs.Completion
import TransactionalServer.Proofs.SweepIndependence

/-! How the log keeps a transaction: its phase and its age as words, its commit as a
text, its lines among the entries of a record. The gap scan, the sweep and the loop
that reads the lines are what they are for the transaction. -/

namespace TransactionalServer.Proofs.Portrayal
open ServerTools LogHandler Exec Transaction SweepIndependence

def word : Phase → Text
  | .collecting .young => "ACTIVE"
  | .collecting .flagged => "FLAG"
  | .collecting .expired => "EXPIRED"
  | .waiting _ => "WAITING"
  | .writing _ => "WRITING"
  | .committed _ => "COMMITTED"

/-- The number that stands beside the word. -/
def commitNumber : Phase → Option Number
  | .collecting _ => none
  | .waiting number | .writing number | .committed number => some number

/-- The marker in entry 0 counts the sweeps that a waiting transaction has seen. -/
def ageOf (marker : Text) : Age := if marker = "FLAG" then .flagged else if marker = "EXPIRED" then .expired else .young

/-- What a record has of a transaction beside its phase. -/
structure Body (record : Record) (path : Text) (waited : Age) (lines : Number → Option Text) : Prop where
  file : ∃ marker, record[(0 : Int)]? = some (marker, path) ∧ ageOf marker = waited
  lines : ∀ seq : Number, record[(seq : Int)]?.map Prod.snd = lines seq
  low : ∀ key ∈ record, -1 ≤ key

/-- A record that keeps a transaction. -/
structure Keeps (record : Record) (transaction : Transaction) : Prop extends
    Body record transaction.path transaction.waited transaction.lines where
  status : ∃ number, record[(-1 : Int)]? = some (word transaction.phase, number) ∧
    ∀ kept, commitNumber transaction.phase = some kept → atoi number = kept

/-- What the log has under an id. -/
def Holds (log : Log) (tsn : Int) : Option Transaction → Prop
  | none => log[tsn]? = none
  | some transaction => ∃ record, log[tsn]? = some record ∧ Keeps record transaction

section
variable {phase : Phase} {log other : Log} {tsn : Int} {record : Record} {status number : Text} {transaction : Transaction} {slot : Option Transaction}
  {path : Text} {waited : Age} {lines : Number → Option Text}

theorem word_committed (same : ("COMMITTED" : Text) = word phase) : ∃ number, phase = .committed number := by
  cases phase with
  | collecting age => cases age <;> exact absurd same (by decide)
  | waiting => exact absurd same (show ("COMMITTED" : Text) ≠ "WAITING" by decide)
  | writing => exact absurd same (show ("COMMITTED" : Text) ≠ "WRITING" by decide)
  | committed number => exact ⟨number, rfl⟩

theorem word_waiting (same : ("WAITING" : Text) = word phase) : ∃ number, phase = .waiting number := by
  cases phase with
  | collecting age => cases age <;> exact absurd same (by decide)
  | waiting number => exact ⟨number, rfl⟩
  | writing => exact absurd same (show ("WAITING" : Text) ≠ "WRITING" by decide)
  | committed => exact absurd same (show ("WAITING" : Text) ≠ "COMMITTED" by decide)

theorem word_expired (same : ("EXPIRED" : Text) = word phase) : phase = .collecting .expired := by
  cases phase with
  | collecting age =>
    cases age with
    | young | flagged => exact absurd same (by decide)
    | expired => rfl
  | waiting => exact absurd same (show ("EXPIRED" : Text) ≠ "WAITING" by decide)
  | writing => exact absurd same (show ("EXPIRED" : Text) ≠ "WRITING" by decide)
  | committed => exact absurd same (show ("EXPIRED" : Text) ≠ "COMMITTED" by decide)

theorem Holds.moved (holds : Holds log tsn slot) (same : other[tsn]? = log[tsn]?) : Holds other tsn slot := by
  cases slot with
  | none => exact same.trans holds
  | some transaction =>
    obtain ⟨record, inLog, keeps⟩ := holds
    exact ⟨record, same.trans inLog, keeps⟩

theorem Holds.absent (holds : Holds log tsn slot) (absent : log[tsn]? = none) : slot = none := by
  cases slot with
  | none => rfl
  | some transaction =>
    obtain ⟨record, inLog, _⟩ := holds
    cases absent.symm.trans inLog

/-- The transaction in a record that the code has found. -/
theorem Holds.found (holds : Holds log tsn slot) (found : Found log tsn record status number) :
    ∃ transaction, slot = some transaction ∧ Keeps record transaction ∧ status = word transaction.phase ∧
      ∀ kept, commitNumber transaction.phase = some kept → atoi number = kept := by
  cases slot with
  | none => cases holds.symm.trans found.inLog
  | some transaction =>
    obtain ⟨same, inLog, keeps⟩ := holds
    obtain rfl := Option.some.inj (inLog.symm.trans found.inLog)
    obtain ⟨text, entry, kept⟩ := keeps.status
    obtain ⟨rfl, rfl⟩ := Prod.mk.inj (Option.some.inj (entry.symm.trans found.entry))
    exact ⟨transaction, rfl, keeps, rfl, kept⟩

theorem Keeps.present (keeps : Keeps record transaction) (seq : Number) : transaction.lines seq ≠ none ↔ (seq : Int) ∈ record := by
  rw [← keeps.lines seq, ne_eq, Option.map_eq_none_iff, ← Store.not_mem_iff_get, not_not]

/-- The scan asks for what the transaction lacks. -/
theorem Keeps.mem_missing (keeps : Keeps record transaction) (seq : Int) (number : Number) :
    seq ∈ Proofs.missing record number ↔ ∃ high : 1 ≤ seq, ⟨seq, high⟩ ∈ transaction.missing number := by
  obtain ⟨marker, file, _⟩ := keeps.file
  have here : (0 : Int) ∈ record := Store.mem_iff_get.mpr ⟨_, file⟩
  rw [Proofs.mem_missing keeps.low]
  constructor
  · intro asked
    obtain ⟨positive, absent, wanted⟩ := asked
    have high : 1 ≤ seq := by
      by_contra low
      have zero : seq = 0 := by omega
      exact absent (zero ▸ here)
    refine ⟨high, ?_, ?_⟩
    · by_contra present
      exact absent ((keeps.present ⟨seq, high⟩).mp present)
    · rcases wanted with below | ⟨key, member, above⟩
      · exact Or.inl below
      · exact Or.inr ⟨⟨key, by omega⟩, above, (keeps.present ⟨key, by omega⟩).mpr member⟩
  · intro lacked
    obtain ⟨high, absent, wanted⟩ := lacked
    refine ⟨by omega, ?_, ?_⟩
    · intro member
      exact (keeps.present ⟨seq, high⟩).mpr member absent
    · rcases wanted with below | ⟨above, after, present⟩
      · exact Or.inl below
      · exact Or.inr ⟨above, (keeps.present above).mp present, after⟩

theorem Keeps.complete (keeps : Keeps record transaction) (number : Number) :
    Proofs.missing record number = [] ↔ transaction.missing number = ∅ := by
  rw [List.eq_nil_iff_forall_not_mem, Set.eq_empty_iff_forall_notMem]
  constructor
  · intro none seq lacked
    exact none seq ((keeps.mem_missing seq number).mpr ⟨seq.property, lacked⟩)
  · intro none seq asked
    obtain ⟨high, lacked⟩ := (keeps.mem_missing seq number).mp asked
    exact none _ lacked

theorem Body.mark (body : Body record path waited lines) (entry : LogPair) : Body (record.insert (-1) entry) path waited lines where
  file := by
    rw [Store.get_insert_other (by decide)]
    exact body.file
  lines seq := by
    have high := seq.property
    rw [Store.get_insert_other (by omega)]
    exact body.lines seq
  low key member := by
    rcases (mem_insert_iff _).mp member with rfl | inside
    · omega
    · exact body.low key inside

theorem Body.grow (body : Body record path waited lines) (seq : Number) (header data : Text) :
    Body (record.insert (seq : Int) (header, data)) path waited (Function.update lines seq (some data)) where
  file := by
    have high := seq.property
    rw [Store.get_insert_other (by omega)]
    exact body.file
  lines other := by
    by_cases same : other = seq
    · rw [same, Std.ExtTreeMap.getElem?_insert_self, Function.update_self]
      rfl
    · rw [Store.get_insert_other (fun equal => same (Subtype.ext equal)), Function.update_of_ne same]
      exact body.lines other
  low key member := by
    have high := seq.property
    rcases (mem_insert_iff _).mp member with rfl | inside
    · omega
    · exact body.low key inside

theorem Body.age (body : Body record path waited lines) (marker : Text) : Body (record.insert 0 (marker, path)) path (ageOf marker) lines where
  file := ⟨marker, Std.ExtTreeMap.getElem?_insert_self, rfl⟩
  lines seq := by
    have high := seq.property
    rw [Store.get_insert_other (by omega)]
    exact body.lines seq
  low key member := by
    rcases (mem_insert_iff _).mp member with rfl | inside
    · omega
    · exact body.low key inside

/-- A word and a number make a transaction of a body. -/
theorem Body.marked (body : Body record path waited lines) (next : Transaction) (same : next.path = path ∧ next.waited = waited ∧ next.lines = lines)
    (spelled : status = word next.phase) (kept : ∀ kept, commitNumber next.phase = some kept → atoi number = kept) :
    Holds (Proofs.mark log tsn record status number) tsn (some next) := by
  obtain ⟨rfl, rfl, rfl⟩ := same
  exact ⟨_, (mark_found _ _ _ _ _).inLog, body.mark _, number, spelled ▸ Std.ExtTreeMap.getElem?_insert_self, kept⟩

/-- One more line of a transaction that waits. -/
theorem Keeps.add (keeps : Keeps record transaction) {bound : Number} (phase : transaction.phase = .waiting bound) (seq : Number) (header data : Text) :
    Keeps (record.insert (seq : Int) (header, data)) (transaction.add seq data) where
  toBody := keeps.toBody.grow seq header data
  status := by
    have high := seq.property
    have same : transaction.phase.reopened = transaction.phase := by
      rw [phase]
      rfl
    rw [Store.get_insert_other (by omega), show (transaction.add seq data).phase = transaction.phase from same]
    exact keeps.status

theorem fresh_keeps (data : Text) : Keeps (freshRecord data) (fresh data) where
  file := ⟨_, twoEntries_file _ _, show ageOf ("NEW_TXN" : Text) = .young by decide⟩
  lines seq := by
    have high := seq.property
    rw [freshRecord_eq, twoEntries_other (by omega) (by omega)]
    rfl
  low key member := by
    rcases mem_twoEntries member with rfl | rfl <;> decide
  status := ⟨_, twoEntries_status _ _, nofun⟩

/-- The loop of `writeFile` reads the lines of a commit that lacks nothing. -/
theorem Keeps.reads (keeps : Keeps record transaction) (inLog : log[tsn]? = some record) {bound : Number}
    (whole : ∀ seq, seq ≤ bound → transaction.lines seq ≠ none) : committedLines log tsn bound = .ok (transaction.block bound) := by
  have high := bound.property
  rw [committedLines, if_neg (by omega), block]
  apply mapM_filterMap
  intro seq member
  have range := Int.mem_range_iff.mp member
  have present := whole ⟨seq, range.1⟩ (show seq ≤ bound by omega)
  obtain ⟨line, here⟩ := Option.ne_none_iff_exists'.mp present
  obtain ⟨entry, inRecord, same⟩ := Option.map_eq_some_iff.mp ((keeps.lines ⟨seq, range.1⟩).trans here)
  refine ⟨line, ?_, ?_⟩
  · rw [getData, pair_eq_ok.mpr ⟨record, inLog, inRecord⟩, ok_bind, same, pure_eq_ok]
  · rw [dif_pos range.1, here]

theorem ageOf_aged (marker : Text) (young : marker ≠ "EXPIRED") : (ageOf marker).older = some (ageOf (aged marker)) := by
  unfold ageOf Proofs.aged
  by_cases flag : marker = "FLAG"
  · subst flag
    decide
  · rw [if_neg flag, if_neg flag, if_neg young]
    decide

/-- A sweep makes of the record what it makes of the transaction. -/
theorem Keeps.swept {after : Log} (keeps : Keeps record transaction) (positive : 1 ≤ tsn) (inLog : log[tsn]? = some record)
    (sweeps : after[tsn]? = SweepIndependence.swept tsn record) : Holds after tsn transaction.aged := by
  obtain ⟨number, entry, kept⟩ := keeps.status
  obtain ⟨marker, file, age⟩ := keeps.file
  have high : 0 ≤ tsn := by omega
  have marked (next : Age) (live : word transaction.phase ≠ "EXPIRED") (open' : commitNumber transaction.phase = none)
      (notKept : ¬ Kept (word transaction.phase)) (notWaiting : word transaction.phase ≠ "WAITING")
      (same : Proofs.aged (word transaction.phase) = word (.collecting next)) : Holds after tsn (some (transaction.collect next)) := by
    rw [swept_marked high ⟨inLog, entry⟩ notKept live notWaiting] at sweeps
    exact ⟨_, sweeps, keeps.toBody.mark _, number, same ▸ Std.ExtTreeMap.getElem?_insert_self, nofun⟩
  have still (stays : Kept (word transaction.phase)) : Holds after tsn (some transaction) := by
    rw [swept_kept ⟨inLog, entry⟩ stays] at sweeps
    exact ⟨record, sweeps, keeps⟩
  unfold Transaction.aged
  cases phase : transaction.phase with
  | collecting age =>
    rw [phase] at marked entry
    cases age with
    | young => exact marked .flagged (by decide) rfl (by decide) (by decide) (by decide)
    | flagged => exact marked .expired (by decide) rfl (by decide) (by decide) (by decide)
    | expired =>
      rw [swept_expired high ⟨inLog, entry⟩] at sweeps
      exact sweeps
  | waiting bound =>
    rw [phase] at entry
    rw [swept_waiting high ⟨inLog, entry⟩ file] at sweeps
    split at sweeps
    next expired =>
      have last : transaction.waited = .expired := by rw [← age, expired]; decide
      rw [last]
      exact sweeps
    next young =>
      simp only [← age, ageOf_aged marker young, Option.map_some]
      refine ⟨_, sweeps, keeps.toBody.age _, number, ?_, ?_⟩
      · rw [Store.get_insert_other (by decide), entry]
        exact phase ▸ rfl
      · exact kept
  | writing bound =>
    rw [phase] at still
    exact still (Or.inr (Or.inl rfl))
  | committed bound =>
    rw [phase] at still
    exact still (Or.inl rfl)

theorem Holds.swept {after : Log} (holds : Holds log tsn slot) (positive : 1 ≤ tsn)
    (sweeps : after[tsn]? = log[tsn]?.bind (SweepIndependence.swept tsn)) : Holds after tsn (slot.bind Transaction.aged) := by
  cases slot with
  | none =>
    rw [show log[tsn]? = none from holds] at sweeps
    exact sweeps
  | some transaction =>
    obtain ⟨record, inLog, keeps⟩ := holds
    rw [inLog] at sweeps
    exact keeps.swept positive inLog sweeps

end

end TransactionalServer.Proofs.Portrayal
