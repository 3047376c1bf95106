import TransactionalServer.Proofs.LedgerSteps
import TransactionalServer.Proofs.Pending

/-! Convergence of the two logs. Once the backup has handled the queue it has
every transaction of its primary, whatever the connection did meanwhile. -/

namespace TransactionalServer.Proofs.Convergence
open ServerTools LogHandler Exec Session ReplicationManager Pending

/-- Two records with the same numbers, and the same file name and data for them. -/
def SameEntries (record copy : Record) : Prop := ∀ seq : Int, seq ≠ -1 → (copy[seq]?).map Prod.snd = (record[seq]?).map Prod.snd

/-- How far a transaction is on the primary and on the backup, where only a
commit changes the status. -/
inductive Standing (record copy : Record) : Prop where
  | committed {number : Text} (own : record[(-1 : Int)]? = some (("COMMITTED" : Text), number)) (other : copy[(-1 : Int)]? = some (("COMMITTED" : Text), number))
      (high : 1 ≤ atoi number)
  | underway {status number digits : Text} (own : record[(-1 : Int)]? = some (status, number)) (notCommitted : status ≠ "COMMITTED")
      (other : copy[(-1 : Int)]? = some (("ACTIVE" : Text), digits))

structure Twin (record copy : Record) : Prop where
  entries : SameEntries record copy
  standing : Standing record copy

/-- What the two logs hold about one transaction. -/
inductive Matched (log copy : Log) (tsn : Int) : Prop where
  | absent (own : log[tsn]? = none) (other : copy[tsn]? = none)
  | present {record twin : Record} (own : log[tsn]? = some record) (other : copy[tsn]? = some twin) (range : IsInt tsn) (twin : Twin record twin)

/-- The ids 0 and -1 are the server's own. -/
def Twins (log copy : Log) : Prop := ∀ tsn : Int, tsn ≠ 0 → tsn ≠ -1 → Matched log copy tsn

section
variable {record copy : Record} {seq : Int} {status number digits header arrived data : Text}

theorem SameEntries.marked (same : SameEntries record copy) (entry : LogPair) : SameEntries (record.insert (-1) entry) copy := by
  intro seq other
  rw [Store.get_insert_other other]
  exact same seq other

theorem SameEntries.copied (same : SameEntries record copy) (entry : LogPair) : SameEntries record (copy.insert (-1) entry) := by
  intro seq other
  rw [Store.get_insert_other other]
  exact same seq other

theorem SameEntries.write (same : SameEntries record copy) (seq : Int) (header arrived data : Text) :
    SameEntries (record.insert seq (header, data)) (copy.insert seq (arrived, data)) := by
  intro asked other
  by_cases here : asked = seq
  · rw [here, Std.ExtTreeMap.getElem?_insert_self, Std.ExtTreeMap.getElem?_insert_self]
    rfl
  · rw [Store.get_insert_other here, Store.get_insert_other here]
    exact same asked other

theorem SameEntries.fresh (same : SameEntries record copy) (other : seq ≠ -1) (fresh : record[seq]? = none) : copy[seq]? = none := by
  have entry := same seq other
  rw [fresh] at entry
  exact Option.map_eq_none_iff.mp entry

theorem SameEntries.missing (same : SameEntries record copy) (own : record[(-1 : Int)]? = some (status, number))
    (other : copy[(-1 : Int)]? = some (("ACTIVE" : Text), digits)) (commitSeq : Int) : missing copy commitSeq = missing record commitSeq := by
  apply missing_of_numbers
  intro key
  by_cases entry : key = -1
  · subst entry
    exact iff_of_true (Store.mem_iff_get.mpr ⟨_, other⟩) (Store.mem_iff_get.mpr ⟨_, own⟩)
  · rw [Std.ExtTreeMap.mem_iff_isSome_getElem?, Std.ExtTreeMap.mem_iff_isSome_getElem?, ← Option.isSome_map, same key entry, Option.isSome_map]

theorem Twin.fresh (data : Text) : Twin (freshRecord data) (freshRecord data) :=
  ⟨fun _ _ => rfl, .underway (twoEntries_status _ _) (by decide) (twoEntries_status _ _)⟩

end

section
variable {log copy after settled : Log} {tsn : Int} {record twin : Record} {status number digits : Text}

theorem Twins.update (twins : Twins log copy) (frame : ∀ other, other ≠ tsn → after[other]? = log[other]?)
    (copied : ∀ other, other ≠ tsn → settled[other]? = copy[other]?) (here : Matched after settled tsn) : Twins after settled := by
  intro other notServer notBackup
  by_cases same : other = tsn
  · exact same ▸ here
  · cases twins other notServer notBackup with
    | absent own absent => exact .absent ((frame other same).trans own) ((copied other same).trans absent)
    | present own present range twin => exact .present ((frame other same).trans own) ((copied other same).trans present) range twin

theorem Twins.of_transactions (twins : Twins log copy) (frame : ∀ other : Int, other ≠ -1 → after[other]? = log[other]?) : Twins after copy := by
  intro other notServer notBackup
  cases twins other notServer notBackup with
  | absent own absent => exact .absent ((frame other notBackup).trans own) absent
  | present own present range twin => exact .present ((frame other notBackup).trans own) present range twin

theorem Twins.kept (twins : Twins log copy) (kept : LogKept log after) : Twins after copy :=
  twins.of_transactions (fun _ differs => kept.other differs)

theorem Twins.absent (twins : Twins log copy) (positive : 1 ≤ tsn) (absent : log[tsn]? = none) : copy[tsn]? = none := by
  cases twins tsn (by omega) (by omega) with
  | absent _ other => exact other
  | present own =>
    rw [absent] at own
    cases own

/-- What the backup has of an open transaction. -/
structure Underway (copy : Log) (tsn : Int) (record twin : Record) (digits : Text) : Prop where
  found : Found copy tsn twin "ACTIVE" digits
  range : IsInt tsn
  entries : SameEntries record twin

theorem Twins.underway (twins : Twins log copy) (positive : 1 ≤ tsn) (found : Found log tsn record status number) (notCommitted : status ≠ "COMMITTED") :
    ∃ twin digits, Underway copy tsn record twin digits := by
  cases twins tsn (by omega) (by omega) with
  | absent own =>
    rw [found.inLog] at own
    cases own
  | @present _ twin own other range pair =>
    obtain rfl := Option.some.inj (found.inLog.symm.trans own)
    cases pair.standing with
    | committed own =>
      rw [found.entry, Option.some.injEq, Prod.mk.injEq] at own
      exact absurd own.1 notCommitted
    | underway _ _ active => exact ⟨twin, _, ⟨⟨other, active⟩, range, pair.entries⟩⟩

/-- A transaction that stays open changes its status on the primary only. -/
theorem Twins.mark (twins : Twins log copy) (positive : 1 ≤ tsn) (found : Found log tsn record status number) (notCommitted : status ≠ "COMMITTED")
    {next : Text} (data : Text) (open_ : next ≠ "COMMITTED") : Twins (Proofs.mark log tsn record next data) copy := by
  obtain ⟨twin, digits, active⟩ := twins.underway positive found notCommitted
  refine twins.update (fun other differs => mark_other differs) (fun _ _ => rfl) ?_
  exact .present Std.ExtTreeMap.getElem?_insert_self active.found.inLog active.range
    ⟨active.entries.marked _, .underway Std.ExtTreeMap.getElem?_insert_self open_ active.found.entry⟩

/-- The commit of both. -/
theorem Twins.commit (twins : Twins log copy) (active : Underway copy tsn record twin digits) (high : 1 ≤ atoi number) :
    Twins (Proofs.mark log tsn record "COMMITTED" number) (Proofs.mark copy tsn twin "COMMITTED" number) := by
  refine twins.update (fun other differs => mark_other differs) (fun other differs => mark_other differs) ?_
  exact .present Std.ExtTreeMap.getElem?_insert_self Std.ExtTreeMap.getElem?_insert_self active.range
    ⟨(active.entries.marked _).copied _, .committed Std.ExtTreeMap.getElem?_insert_self Std.ExtTreeMap.getElem?_insert_self high⟩

/-- The transactions that the check of the primary asks for. -/
theorem Twins.covers (twins : Twins log copy) : Covers log copy := by
  intro tsn record number positive found
  cases twins tsn (by omega) (by omega) with
  | absent own =>
    rw [found.inLog] at own
    cases own
  | @present _ twin own other range pair =>
    obtain rfl := Option.some.inj (found.inLog.symm.trans own)
    cases pair.standing with
    | committed own done high =>
      rw [found.entry, Option.some.injEq, Prod.mk.injEq] at own
      obtain ⟨_, rfl⟩ := own
      exact ⟨range, high, twin, number, ⟨other, done⟩, rfl⟩
    | underway own notCommitted =>
      rw [found.entry, Option.some.injEq, Prod.mk.injEq] at own
      exact absurd own.1.symm notCommitted

end

section
variable {backup : Backup} {header data : Text} {twin : Record} {digits : Text}

/-- A packet of the queue as it arrives. -/
structure Arrived (header data arrived : Text) (payload : Option Text) : Prop where
  method : parse arrived = parse header
  tsn : getTsn arrived = getTsn header
  seq : getSeq arrived = getSeq header
  answerable : Answerable arrived
  payload : needsData header = true → payload = some data

theorem delivered (receptive : Receptive backup) (deliverable : Deliverable (header, data)) :
    ∃ log arrived payload, Backup.deliver Backup.unchanged backup (header, data) = .ok { backup with log } ∧
      Arrived header data arrived payload ∧ Handles backup.log true arrived payload log := by
  obtain ⟨next, delivered, _⟩ := deliver_returns unchanged_honest receptive deliverable
  obtain ⟨reply, ran⟩ := deliver_eq_ok.mp delivered
  obtain ⟨arrived, payload, log, text, sent, handles, rfl, _⟩ := answer_handles unchanged_honest receptive.notPrimary deliverable.replicated ran
  obtain ⟨method, tsn, seq, answerable, _⟩ := unchanged_honest.same _ _ _ _ sent
  refine ⟨log, arrived, payload, delivered, ⟨method, tsn, seq, answerable, ?_⟩, handles⟩
  exact unchanged_payload sent

/-- The backup records a write that it does not have. -/
theorem write_delivered (receptive : Receptive backup) (deliverable : Deliverable (header, data)) (method : parse header = 5)
    (high : 1 ≤ getSeq header) (found : Found backup.log (getTsn header) twin "ACTIVE" digits) (fresh : twin[getSeq header]? = none) :
    ∃ arrived, Backup.deliver Backup.unchanged backup (header, data) =
      .ok { backup with log := mark backup.log (getTsn header) (twin.insert (getSeq header) (arrived, data)) "ACTIVE" digits } := by
  obtain ⟨log, arrived, payload, delivered, arrives, handles⟩ := delivered receptive deliverable
  refine ⟨arrived, ?_⟩
  have given := arrives.payload (by simp only [needsData, method])
  have other {number : Nat} (same : parse arrived = number) (differs : number ≠ 5) : False :=
    differs (same.symm.trans (arrives.method.trans method))
  rw [← arrives.tsn] at found ⊢
  rw [← arrives.seq] at high fresh ⊢
  cases handles with
  | ignored => cases given
  | made same | committed same | aborted same => exact (other same (by decide)).elim
  | added _ adds =>
    cases given
    obtain rfl := Except.ok.inj ((addLogEntry_of_case adds).symm.trans
      (addLogEntry_of_case (.added high found (by decide) (by decide) (by decide) fresh rfl)))
    exact delivered

theorem abort_delivered (receptive : Receptive backup) (deliverable : Deliverable (header, data)) (method : parse header = 1)
    (found : Found backup.log (getTsn header) twin "ACTIVE" digits) :
    Backup.deliver Backup.unchanged backup (header, data) = .ok { backup with log := backup.log.erase (getTsn header) } := by
  obtain ⟨log, arrived, payload, delivered, arrives, handles⟩ := delivered receptive deliverable
  have other {number : Nat} (same : parse arrived = number) (differs : number ≠ 1) : False :=
    differs (same.symm.trans (arrives.method.trans method))
  rw [← arrives.tsn] at found ⊢
  cases handles with
  | ignored needed =>
    rw [needsData_of_parse arrives.method, needsData, method] at needed
    cases needed
  | made same | committed same | added same => exact (other same (by decide)).elim
  | aborted _ aborts =>
    obtain rfl := Except.ok.inj ((abort_of_case aborts).symm.trans (abort_of_case (.erased found (by decide) (by decide))))
    exact delivered

theorem create_delivered {tsn : Int} (receptive : Receptive backup) (range : IsInt tsn) (positive : 1 ≤ tsn) (absent : backup.log[tsn]? = none) :
    Deliverable ("MAKE_TXN " ++ iToS tsn ++ " 0 0 0", data) ∧
      Backup.deliver Backup.unchanged backup ("MAKE_TXN " ++ iToS tsn ++ " 0 0 0", data) =
        .ok { backup with log := backup.log.insert tsn (freshRecord data) } := by
  have shape := makeTxnHeader_fields tsn
  have method : parse ("MAKE_TXN " ++ iToS tsn ++ " 0 0 0" : Text) = 6 := by
    rw [parse_of_fields shape]
    rfl
  have names : getTsn ("MAKE_TXN " ++ iToS tsn ++ " 0 0 0" : Text) = tsn := by
    rw [getTsn_of_fields shape, lexicalCast_iToS range, Option.getD_some]
  have deliverable : Deliverable ("MAKE_TXN " ++ iToS tsn ++ " 0 0 0", data) :=
    ⟨Or.inr (Or.inr (Or.inr method)), ⟨_, _, _, _, shape⟩, by simp only [names]; exact positive⟩
  refine ⟨deliverable, ?_⟩
  obtain ⟨log, arrived, payload, delivered, arrives, handles⟩ := delivered receptive deliverable
  have given := arrives.payload (by simp only [needsData, method])
  have other {number : Nat} (same : parse arrived = number) (differs : number ≠ 6) : False :=
    differs (same.symm.trans (arrives.method.trans method))
  cases handles with
  | ignored => cases given
  | committed same | aborted same | added same => exact (other same (by decide)).elim
  | made =>
    cases given
    rw [arrives.tsn, names, makeTxn, Store.contains_of_absent absent] at delivered
    exact delivered

end

/-- The backup as the queue leaves it has the transactions of the primary. -/
def Converging (server : Server Backup) : Prop := ∃ after, Owes Backup.unchanged server after ∧ Twins server.log after.log

section
variable {fuel : Nat} {server queued : Server Backup} {after : Backup} {env : Env} {auth : Bool} {header data : Text} {log : Log}

/-- A change of the log that the backup need not hear of. -/
theorem Converging.unheard (owes : Owes Backup.unchanged server after) (primary : IsPrimary log) (twins : Twins log after.log) :
    Converging { server with log } := ⟨after, owes.of_same primary rfl rfl rfl, twins⟩

/-- A change of the log and the packet that tells the backup of it. -/
theorem Converging.queue {next : Backup} (owes : Owes Backup.unchanged server after) (primary : IsPrimary log) (deliverable : Deliverable (header, data))
    (delivered : Backup.deliver Backup.unchanged after (header, data) = .ok next)
    (enqueued : enqueue { server with log } header data = .ok queued) (twins : Twins log next.log) : Converging queued := by
  have changed : Owes Backup.unchanged { server with log } after := owes.of_same primary rfl rfl rfl
  refine ⟨next, changed.enqueue deliverable delivered enqueued, ?_⟩
  rw [enqueue_log enqueued]
  exact twins

/-- A complete transaction goes to writing on a primary. -/
theorem going_commit {io : Bool} {out : Outcome} {record : Record} {status number : Text} (commits : Commits log header io out)
    (primary : IsPrimary log) (ordinary : getTsn header ≠ 0) (found : Found log (getTsn header) record status number)
    (allowed : Open status number (getSeq header)) (high : 1 ≤ getSeq header) (complete : missing record (getSeq header) = []) :
    out.log = mark log (getTsn header) record "WRITING" (iToS (getSeq header)) ∧ out.ret = false ∧ out.code = "committed" := by
  have role : IsPrimary (mark log (getTsn header) record "WRITING" (iToS (getSeq header))) := primary.of_get (mark_other (Ne.symm ordinary))
  obtain rfl := Except.ok.inj ((commit_of_case commits).symm.trans (commit_of_case (.primary found allowed high complete rfl role)))
  exact ⟨rfl, rfl, rfl⟩

theorem commits_twins {io : Bool} {out : Outcome} {copy : Log} (twins : Twins log copy) (primary : IsPrimary log) (positive : 1 ≤ getTsn header)
    (commits : Commits log header io out) : Twins out.log copy ∧ IsPrimary out.log := by
  have ordinary : (0 : Int) ≠ getTsn header := by omega
  cases commits with
  | absent | already | expired | otherNumber | nothing => exact ⟨twins, primary⟩
  | incomplete found allowed _ _ marked =>
    subst marked
    exact ⟨twins.mark positive found allowed.committed _ (by decide), primary.of_get (mark_other ordinary)⟩
  | primary found allowed _ _ marked role =>
    subst marked
    exact ⟨twins.mark positive found allowed.committed _ (by decide), role⟩
  | written _ _ _ _ marked role notRole | failed _ _ _ _ marked role notRole =>
    subst marked
    rw [getServerStatus_of_get (mark_other ordinary), primary, Except.ok.injEq] at role
    exact absurd role.symm notRole

/-- A write that a primary records, and the status that it leaves. -/
structure Records (log : Log) (header data : Text) (after : Log) (record : Record) (number next digits : Text) : Prop where
  high : 1 ≤ getSeq header
  underway : ∃ status, Found log (getTsn header) record status number ∧ status ≠ "COMMITTED"
  fresh : record[getSeq header]? = none
  recorded : after = mark log (getTsn header) (record.insert (getSeq header) (header, data)) next digits
  open_ : next ≠ "COMMITTED"

/-- A write is recorded, or it changes nothing. -/
theorem adds_cases {io : Bool} {out : Outcome} (adds : Adds log header data io out) (primary : IsPrimary log) (ordinary : getTsn header ≠ 0) :
    (out.log = log ∧ out.ret = false ∧ out.code ≠ "committed") ∨
      ((out.ret = true ∨ out.code = "committed") ∧ ∃ record number next digits, Records log header data out.log record number next digits) := by
  cases adds with
  | low _ text | absent _ _ text | committed _ _ text | expired _ _ text | duplicate _ _ _ _ _ text | above _ _ _ _ text =>
    exact Or.inl ⟨rfl, rfl, (Answered.ne_codes ⟨_, _, _, text⟩).2⟩
  | @kept record grown number high found fresh _ grows =>
    subst grows
    refine Or.inr ⟨Or.inl rfl, record, number, "WAITING", number, high, ⟨_, found, by decide⟩, fresh, ?_, by decide⟩
    rw [mark, Store.insert_get (found.grow high (header, data)).entry]
  | @added record grown status number high found notCommitted _ _ fresh grows =>
    subst grows
    exact Or.inr ⟨Or.inl rfl, record, number, "ACTIVE", number, high, ⟨_, found, notCommitted⟩, fresh, rfl, by decide⟩
  | @completes record grown number _ high found fresh below grows complete commits =>
    subst grows
    have sameTsn := pendingCommit_getTsn (getTsn_isInt header) (atoi number)
    have sameSeq := pendingCommit_getSeq (atoi_isInt number) (getTsn header)
    have grown : IsPrimary (log.insert (getTsn header) (record.insert (getSeq header) (header, data))) :=
      primary.of_get (Store.get_insert_other (Ne.symm ordinary))
    obtain ⟨writing, _, code⟩ := going_commit commits grown (by rw [sameTsn]; exact ordinary) (by rw [sameTsn]; exact found.grow high (header, data))
      ⟨by decide, by decide, fun _ => sameSeq.symm⟩ (by rw [sameSeq]; omega) (by rw [sameSeq]; exact complete)
    refine Or.inr ⟨Or.inr code, record, number, "WRITING", iToS (atoi number), high, ⟨_, found, by decide⟩, fresh, ?_, by decide⟩
    rw [writing, sameTsn, sameSeq, mark, Store.insert_insert]
    rfl

/-- A recorded write goes to the backup too. -/
theorem Records.converging {record : Record} {number next digits : Text} (records : Records server.log header data log record number next digits)
    (owes : Owes Backup.unchanged server after) (twins : Twins server.log after.log) (positive : 1 ≤ getTsn header) (answerable : Answerable header)
    (method : parse header = 5) (enqueued : enqueue { server with log } header data = .ok queued) : Converging queued := by
  obtain ⟨status, found, notCommitted⟩ := records.underway
  obtain ⟨twin, active, underway⟩ := twins.underway positive found notCommitted
  have recorded := records.recorded
  subst recorded
  have high := records.high
  have deliverable : Deliverable (header, data) := ⟨Or.inr (Or.inr (Or.inl method)), answerable, positive⟩
  obtain ⟨arrived, delivered⟩ := write_delivered (owes.receptive unchanged_honest) deliverable method high underway.found
    (underway.entries.fresh (by omega) records.fresh)
  apply Converging.queue owes (owes.primary.of_get (mark_other (by omega))) deliverable delivered enqueued
  refine twins.update (fun other differs => mark_other differs) (fun other differs => mark_other differs) ?_
  have entries := ((underway.entries.write (getSeq header) header arrived data).marked (next, digits)).copied ("ACTIVE", active)
  exact .present Std.ExtTreeMap.getElem?_insert_self Std.ExtTreeMap.getElem?_insert_self underway.range
    ⟨entries, .underway Std.ExtTreeMap.getElem?_insert_self records.open_ Std.ExtTreeMap.getElem?_insert_self⟩

/-- What a primary of clients may be sent: its role does not change, and only
the primary itself creates transactions under an id of its own. -/
structure Request (env : Env) (header : Text) : Prop where
  io : env.io = true
  notCreated : parse header ≠ 6
  notDemoted : parse header ≠ 9
  addressed : Addressed header

theorem executes_converging {out : Command Backup} (converging : Converging server) (request : Request env header) (answerable : Answerable header)
    (drawn : ∀ draw ∈ env.draws, 1 ≤ draw ∧ draw ≤ 100000) (executes : Executes server env auth header data out) : Converging out.server := by
  obtain ⟨after, owes, twins⟩ := converging
  have primary := owes.primary
  cases executes with
  | refused | read | authenticated => exact ⟨after, owes, twins⟩
  | notAborted _ aborts kept =>
    cases aborts with
    | absent | committed | expired => exact ⟨after, owes, twins⟩
    | erased => cases kept
  | aborted method aborts erased enqueued =>
    have positive := request.addressed (Or.inl method)
    cases aborts with
    | absent | committed | expired => cases erased
    | erased found notCommitted =>
      obtain ⟨twin, digits, active⟩ := twins.underway positive found notCommitted
      have deliverable : Deliverable (header, data) := ⟨Or.inl method, answerable, positive⟩
      have delivered := abort_delivered (owes.receptive unchanged_honest) deliverable method active.found
      apply Converging.queue owes (primary.of_get (Store.get_erase_other (by omega))) deliverable delivered enqueued
      exact twins.update (fun _ differs => Store.get_erase_other differs) (fun _ differs => Store.get_erase_other differs)
        (.absent Std.ExtTreeMap.getElem?_erase_self Std.ExtTreeMap.getElem?_erase_self)
  | @created log effects tsn queued ack method creates valid enqueued =>
    rcases newTxn_cases creates with ⟨_, _, zero, _⟩ | ⟨_, chosen, absent, rfl, _⟩
    · exact absurd zero valid
    · obtain ⟨positive, below⟩ := drawn tsn chosen
      have range : IsInt tsn := ⟨by omega, by omega⟩
      obtain ⟨deliverable, delivered⟩ := @create_delivered after data tsn (owes.receptive unchanged_honest) range positive (twins.absent positive absent)
      apply Converging.queue owes (primary.of_get (Store.get_insert_other (by omega))) deliverable delivered enqueued
      exact twins.update (fun _ differs => Store.get_insert_other differs) (fun _ differs => Store.get_insert_other differs)
        (.present Std.ExtTreeMap.getElem?_insert_self Std.ExtTreeMap.getElem?_insert_self range (.fresh data))
  | commits method commits =>
    obtain ⟨still, role⟩ := commits_twins twins primary (request.addressed (Or.inr (Or.inl method))) commits
    exact .unheard owes role still
  | added method adds kept enqueued =>
    have positive := request.addressed (Or.inr (Or.inr (Or.inl method)))
    rcases adds_cases adds primary (by omega) with ⟨_, refused, _⟩ | ⟨_, record, number, next, digits, records⟩
    · rw [refused] at kept
      cases kept
    · exact records.converging owes twins positive answerable method enqueued
  | completed method adds _ code enqueued =>
    have positive := request.addressed (Or.inr (Or.inr (Or.inl method)))
    rcases adds_cases adds primary (by omega) with ⟨_, _, other⟩ | ⟨_, record, number, next, digits, records⟩
    · exact absurd code other
    · exact records.converging owes twins positive answerable method enqueued
  | notAdded method adds refused code =>
    have positive := request.addressed (Or.inr (Or.inr (Or.inl method)))
    rcases adds_cases adds primary (by omega) with ⟨same, _⟩ | ⟨accepted, _⟩
    · simp only [ofOutcome, same]
      exact ⟨after, owes, twins⟩
    · rcases accepted with kept | committed
      · rw [refused] at kept
        cases kept
      · exact absurd committed code
  | made method => exact absurd method request.notCreated
  | pinged _ _ registers =>
    exact .unheard owes (primary.of_get (register_frame (by decide) registers)) (twins.of_transactions (fun _ differs => register_frame differs registers))
  | demoted method => exact absurd method request.notDemoted

/-- The end of a commit: the backup has it, or a packet that brings it. -/
theorem doCommit_converging {done : Handled Backup} {record : Record} {seq : Int} (converging : Converging server) (positive : 1 ≤ getTsn header)
    (found : Found server.log (getTsn header) record "WRITING" (iToS seq)) (range : IsInt seq) (high : 1 ≤ seq) (complete : missing record seq = [])
    (ran : doCommit (Backup.answer Backup.unchanged) fuel true server auth header = .ok done) : Converging done.server := by
  obtain ⟨after, owes, twins⟩ := converging
  obtain ⟨twin, digits, active⟩ := twins.underway positive found (by decide)
  have takes : Takes after.log (getTsn header) seq (mark after.log (getTsn header) twin "COMMITTED" (iToS seq)) :=
    .complete active.found ⟨by decide, by decide, fun waiting => absurd waiting (by decide)⟩
      ((active.entries.missing found.entry active.found.entry seq).trans complete)
  have replicates {replicated : Bool} {final : Server Backup}
      (commits : ReplicationManager.commit (Backup.answer Backup.unchanged) fuel server (commitMessage (getTsn header) seq) =
        .ok (replicated, final)) :=
    (manager_owes unchanged_honest fuel).2.1 _ _ _ _ _ _ _ owes twins.covers ⟨active.range, positive, range, high⟩ takes commits
  cases CommitDecision.doCommit_writing owes.primary positive range high found ran with
  | refused commits =>
    obtain ⟨replicated, _⟩ := replicates commits
    cases replicated
  | unwritten _ _ file =>
    -- the file is writable
    rcases writeFile_cases file with ⟨written, _⟩ | ⟨_, _, blocked⟩
    · cases written
    · cases blocked
  | committed commits =>
    obtain ⟨_, owed⟩ := replicates commits
    have kept := (manager_keeps _ fuel).2.1 _ _ _ _ commits
    refine .unheard owed (owed.primary.of_get (mark_other (by omega))) ?_
    exact (twins.kept kept).commit active (by rw [atoi_iToS range]; exact high)

theorem receive_converging {payload : Option Text} {handled : Handled Backup} (converging : Converging server) (request : Request env header)
    (answerable : Answerable header) (drawn : ∀ draw ∈ env.draws, 1 ≤ draw ∧ draw ≤ 100000)
    (ran : receive (Backup.answer Backup.unchanged) fuel env server auth header payload = .ok handled) : Converging handled.server := by
  have primary : IsPrimary server.log := by
    obtain ⟨_, owes, _⟩ := converging
    exact owes.primary
  rcases receive_server ran with same | ⟨out, executes, same | ⟨refused, code, done, concluded, same⟩⟩
  · rw [same]
    exact converging
  · rw [same]
    exact executes_converging converging request answerable drawn executes
  · have next := executes_converging converging request answerable drawn executes
    have positive : 1 ≤ getTsn header := request.addressed (Or.inr ((executes.committed_method refused code).imp id Or.inl))
    obtain ⟨record, seq, high, range, found, complete, _⟩ := CommitDecision.writing_of_committed primary (by omega) executes refused code
    rw [request.io] at concluded
    rw [same]
    exact doCommit_converging next positive found range high complete concluded

/-- An event of the run. -/
def Allowed : System.Event → Prop
  | .packet env _ header _ _ _ => Request env header
  | .sweep => False
  | .save | .tick _ => True

theorem step_converging {next : Server Backup} {event : System.Event} (converging : Converging server) (allowed : Allowed event)
    (ran : System.step (Backup.answer Backup.unchanged) fuel server event = .ok next) : Converging next := by
  cases step_cases ran with
  | packet valid drawn received => exact receive_converging converging allowed (answerable_of_valid valid) drawn received
  | sweep => exact absurd allowed id
  | save => exact converging
  | tick checked =>
    obtain ⟨after, owes, twins⟩ := converging
    rcases check_cases checked with ⟨_, ops⟩ | ⟨backup, _⟩
    · have kept := (manager_keeps _ fuel).1 _ _ ops
      exact ⟨after, (manager_owes unchanged_honest fuel).1 _ _ _ owes twins.covers ops, twins.kept kept⟩
    · exact absurd owes.primary backup

end

/-- Two logs hold the same of a transaction. -/
structure Agree (log copy : Log) (tsn : Int) : Prop where
  present : tsn ∈ copy ↔ tsn ∈ log
  file : getFileName copy tsn = getFileName log tsn
  data : ∀ seq : Int, 1 ≤ seq → getData copy tsn seq = getData log tsn seq
  committed : ∀ seq, CommittedWith copy tsn seq ↔ CommittedWith log tsn seq

theorem Twin.standing_iff {record copy : Record} (twin : Twin record copy) (number : Text) :
    copy[(-1 : Int)]? = some (("COMMITTED" : Text), number) ↔ record[(-1 : Int)]? = some (("COMMITTED" : Text), number) := by
  cases twin.standing with
  | committed own other => rw [own, other]
  | underway own notCommitted other =>
    constructor
    · intro same
      rw [other, Option.some.injEq, Prod.mk.injEq] at same
      exact absurd same.1 (by decide)
    · intro same
      rw [own, Option.some.injEq, Prod.mk.injEq] at same
      exact absurd same.1 notCommitted

theorem Matched.agree {log copy : Log} {tsn : Int} (matched : Matched log copy tsn) : Agree log copy tsn := by
  cases matched with
  | absent own other =>
    refine ⟨iff_of_false (Store.not_mem_iff_get.mpr other) (Store.not_mem_iff_get.mpr own), ?_, ?_, ?_⟩
    · simp only [getFileName, pair, own, other]
    · intro seq _
      simp only [getData, pair, own, other]
    · intro seq
      constructor
      · rintro ⟨record, number, found, _⟩
        rw [found.inLog] at other
        cases other
      · rintro ⟨record, number, found, _⟩
        rw [found.inLog] at own
        cases own
  | @present record copied own other range twin =>
    have data (seq : Int) (ordinary : seq ≠ -1) : getData copy tsn seq = getData log tsn seq := by
      have same := twin.entries seq ordinary
      simp only [getData, pair, own, other, defined_some, ok_bind]
      cases inRecord : record[seq]? with
      | none =>
        rw [inRecord] at same
        rw [Option.map_eq_none_iff.mp same]
      | some entry =>
        rw [inRecord] at same
        obtain ⟨copied, inCopy, equal⟩ := Option.map_eq_some_iff.mp same
        rw [inCopy]
        simp only [defined_some, ok_bind, pure_eq_ok, equal]
    refine ⟨iff_of_true (Store.mem_iff_get.mpr ⟨_, other⟩) (Store.mem_iff_get.mpr ⟨_, own⟩), data 0 (by decide), ?_, ?_⟩
    · intro seq high
      exact data seq (by omega)
    · intro seq
      constructor
      · rintro ⟨again, number, ⟨inLog, entry⟩, same⟩
        obtain rfl := Option.some.inj (other.symm.trans inLog)
        exact ⟨record, number, ⟨own, (twin.standing_iff number).mp entry⟩, same⟩
      · rintro ⟨again, number, ⟨inLog, entry⟩, same⟩
        obtain rfl := Option.some.inj (own.symm.trans inLog)
        exact ⟨copied, number, ⟨other, (twin.standing_iff number).mpr entry⟩, same⟩

/-- The log holds no transactions. -/
def Bare (log : Log) : Prop := ∀ tsn : Int, tsn ≠ 0 → tsn ≠ -1 → log[tsn]? = none

/-- A primary and its backup at the far end, as they are started. -/
def replicas (own other : Identity) (loaded copy : Log) (wires : List Wire) (connects : List Bool) : Server Backup :=
  System.start own true loaded (System.start other false copy () [] []) wires connects

theorem replicas_converging {own other : Identity} {loaded copy : Log} {wires : List Wire} (connects : List Bool) (bare : Bare loaded)
    (bareCopy : Bare copy) (files : ∀ wire ∈ wires, Writes wire) : Converging (replicas own other loaded copy wires connects) := by
  have started {log : Log} (bare : Bare log) (ip port role dir : Text) : Bare (serverData log ip port role dir) := by
    intro tsn notServer notBackup
    rw [serverData_eq, Store.get_insert_other notServer, Store.get_erase_other notServer]
    exact bare tsn notServer notBackup
  have role := serverData_role copy other.ip other.port "backup" other.dir
  refine ⟨System.start other false copy () [] [], ⟨serverData_role _ _ _ _ _, ?_, ⟨?_, ⟨_, role⟩, ?_⟩, files, rfl⟩, ?_⟩
  · intro packet member
    cases member
  · intro primary
    exact absurd (Except.ok.inj (role.symm.trans primary)) (by decide)
  · intro tsn positive record inLog
    have none := started bareCopy other.ip other.port "backup" other.dir tsn (by omega) (by omega)
    exact absurd (inLog.symm.trans none) (by simp)
  · intro tsn notServer notBackup
    exact .absent (started bare _ _ _ _ tsn notServer notBackup) (started bareCopy _ _ _ _ tsn notServer notBackup)

/-- Between any two handlers, whatever the connection has lost: the backup that
handles the packets still queued has every transaction as the primary has it. -/
theorem drained_backup_agrees {fuel : Nat} {own other : Identity} {loaded copy : Log} {wires : List Wire} {connects : List Bool}
    (bare : Bare loaded) (bareCopy : Bare copy) (files : ∀ wire ∈ wires, Writes wire) {events : List System.Event} {final : Server Backup}
    (allowed : ∀ event ∈ events, Allowed event)
    (ran : events.foldlM (System.step (Backup.answer Backup.unchanged) fuel) (replicas own other loaded copy wires connects) = .ok final) :
    ∃ drained, final.manager.syncQueue.foldlM (Backup.deliver Backup.unchanged) final.link.peer = .ok drained ∧
      ∀ tsn : Int, tsn ≠ 0 → tsn ≠ -1 → Agree final.log drained.log tsn := by
  have converging : Converging final := by
    refine run_preserves Converging ?_ (along_of_forall allowed _) (replicas_converging connects bare bareCopy files) ran
    intro server event next converging allowed stepped
    exact step_converging converging allowed stepped
  obtain ⟨drained, owes, twins⟩ := converging
  exact ⟨drained, owes.drained, fun tsn notServer notBackup => (twins tsn notServer notBackup).agree⟩

private def register : System.Event := .packet {} true "PING -1 0 6" (some "ip|81") (Eq.refl true) System.nothing_drawn

private def create : System.Event := .packet { draws := [5] } true "NEW_TXN -1 0 3" (some "aa") (Eq.refl true) System.five_drawn

private def write : System.Event := .packet {} true "WRITE 5 1 3" (some "xx") (Eq.refl true) System.nothing_drawn

private def commit : System.Event := .packet {} true "COMMIT 5 1 0" none (Eq.refl true) System.nothing_drawn

/-- The reply to the MAKE_TXN is lost, and the tick after it connects again. The
request of the commit is lost too. -/
private def losses : List System.Event := [register, .tick {}, create, .tick {}, write, .tick {}, .tick {}, commit]

private theorem losses_allowed : ∀ event ∈ losses, Allowed event := by
  have allowed {env : Env} {header : Text} (io : env.io = true) (method : parse header ≠ 6 ∧ parse header ≠ 9)
      (addressed : Addressed header) : Request env header := ⟨io, method.1, method.2, addressed⟩
  have registers : Allowed register := allowed rfl (by decide) (by unfold Addressed Replicated; decide)
  have creates : Allowed create := allowed rfl (by decide) (by unfold Addressed Replicated; decide)
  have writes : Allowed write := allowed rfl (by decide) (fun _ => by decide)
  have commits : Allowed commit := allowed rfl (by decide) (fun _ => by decide)
  simp only [losses, List.mem_cons, List.not_mem_nil, or_false, forall_eq_or_imp, forall_eq]
  exact ⟨registers, trivial, creates, trivial, writes, trivial, trivial, commits⟩

private def lossy : Server Backup := replicas ⟨"ip", "80", "dir"⟩ ⟨"ip", "81", "dir"⟩ ∅ ∅ [.lostReply true, .up true, .up true, .lostRequest] []

theorem commit_over_a_lossy_connection_converges :
    ∃ final drained, losses.foldlM (System.step (Backup.answer Backup.unchanged) 8) lossy = .ok final ∧
      final.manager.syncQueue.foldlM (Backup.deliver Backup.unchanged) final.link.peer = .ok drained ∧
      getStatus final.log 5 = .ok "COMMITTED" ∧ final.manager.syncQueue.length = 1 ∧ Agree final.log drained.log 5 := by
  have reached : (losses.foldlM (System.step (Backup.answer Backup.unchanged) 8) lossy).map
      (fun final => (getStatus final.log 5, final.manager.syncQueue.length)) = .ok (.ok ("COMMITTED" : Text), 1) := by decide +kernel
  obtain ⟨final, ran⟩ : ∃ final, losses.foldlM (System.step (Backup.answer Backup.unchanged) 8) lossy = .ok final :=
    returned_of_isOk (by decide +kernel)
  have bare : Bare ∅ := fun _ _ _ => Std.ExtTreeMap.getElem?_empty
  have files : ∀ wire ∈ [Wire.lostReply true, .up true, .up true, .lostRequest], Writes wire := by
    unfold Writes
    decide
  obtain ⟨drained, delivered, agree⟩ := drained_backup_agrees bare bare files losses_allowed ran
  rw [ran] at reached
  simp only [Except.map, Except.ok.injEq, Prod.mk.injEq] at reached
  exact ⟨final, drained, ran, delivered, reached.1, reached.2, agree 5 (by decide) (by decide)⟩

end TransactionalServer.Proofs.Convergence
