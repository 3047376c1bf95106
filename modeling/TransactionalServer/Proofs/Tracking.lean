import TransactionalServer.Clocked
import TransactionalServer.Proofs.Changes
import TransactionalServer.Proofs.Completion
import TransactionalServer.Proofs.Completeness
import TransactionalServer.Proofs.Sockets

/-! What a backup holds under an id of the primary. Both delete transactions on
their own clock, and the primary draws an id again once it has deleted it. -/

namespace TransactionalServer.Proofs.Tracking
open ServerTools LogHandler Exec Session ReplicationManager Completeness Sockets

/-- The copy has the file name of the record, and no data that the record lacks. -/
structure Below (copy record : Record) : Prop where
  file : (copy[(0 : Int)]?).map Prod.snd = (record[(0 : Int)]?).map Prod.snd
  data : ∀ (seq : Int) (header data : Text), 1 ≤ seq → copy[seq]? = some (header, data) → ∃ other, record[seq]? = some (other, data)

/-- What the backup may hold of a record of the primary. -/
def Copied (copy : Log) (record : Record) (tsn : Int) : Prop :=
  ∀ twin status number, Found copy tsn twin status number → status = "EXPIRED" ∨ Below twin record

/-- The packets about the transaction are writes of its record. -/
def Writes (record : Record) (tsn : Int) (queue : List (Text × Text)) : Prop :=
  ∀ packet ∈ queue, getTsn packet.1 = tsn →
    parse packet.1 = 5 ∧ 1 ≤ getSeq packet.1 ∧ ∃ other, record[getSeq packet.1]? = some (other, packet.2)

/-- The backup's record is the one that the primary has under the id, or the
MAKE_TXN that brings that one is still in the queue. -/
inductive Tracked (log copy : Log) (queue : List (Text × Text)) (tsn : Int) : Prop where
  | gone (absent : log[tsn]? = none)
  | renewed {record : Record} {status number header path : Text} {earlier later : List (Text × Text)} (found : Found log tsn record status number)
      (notCommitted : status ≠ "COMMITTED") (shape : queue = earlier ++ (header, path) :: later) (method : parse header = 6)
      (names : getTsn header = tsn) (file : (record[(0 : Int)]?).map Prod.snd = some path) (writes : Writes record tsn later)
  | current {record : Record} {status number : Text} (found : Found log tsn record status number) (writes : Writes record tsn queue)
      (copied : Copied copy record tsn) (committed : status = "COMMITTED" → CommittedWith copy tsn (atoi number))

/-- A record that has gained at most a write. -/
structure Grows (record changed : Record) : Prop where
  file : (changed[(0 : Int)]?).map Prod.snd = (record[(0 : Int)]?).map Prod.snd
  data : ∀ (seq : Int) (header data : Text), 1 ≤ seq → record[seq]? = some (header, data) → ∃ other, changed[seq]? = some (other, data)

section
variable {copy record changed twin : Record} {seq tsn : Int} {entry : LogPair} {queue : List (Text × Text)}

theorem SameWrites.grows (same : SameWrites record changed) : Grows record changed := by
  refine ⟨same.file, ?_⟩
  intro seq header data high inRecord
  exact ⟨header, (same.writes seq high).trans inRecord⟩

theorem grows_write (high : 1 ≤ seq) (fresh : record[seq]? = none) (same : SameWrites (record.insert seq entry) changed) : Grows record changed := by
  constructor
  · rw [same.file, Store.get_insert_other (by omega)]
  · intro asked header data from1 inRecord
    have other : asked ≠ seq := by
      rintro rfl
      rw [fresh] at inRecord
      cases inRecord
    exact ⟨header, by rw [same.writes asked from1, Store.get_insert_other other, inRecord]⟩

theorem Below.grows (below : Below copy record) (grows : Grows record changed) : Below copy changed := by
  refine ⟨below.file.trans grows.file.symm, ?_⟩
  intro seq header data high inCopy
  obtain ⟨other, inRecord⟩ := below.data seq header data high inCopy
  exact grows.data seq other data high inRecord

theorem Writes.grows (writes : Writes record tsn queue) (grows : Grows record changed) : Writes changed tsn queue := by
  intro packet member names
  obtain ⟨method, high, other, inRecord⟩ := writes packet member names
  exact ⟨method, high, grows.data _ _ _ high inRecord⟩

theorem Below.marked (below : Below copy record) (same : SameWrites copy changed) : Below changed record := by
  refine ⟨same.file.trans below.file, ?_⟩
  intro seq header data high inCopy
  exact below.data seq header data high ((same.writes seq high).symm.trans inCopy)

theorem Below.wrote (below : Below copy record) (high : 1 ≤ seq) (recorded : ∃ other, record[seq]? = some (other, entry.2))
    (same : SameWrites (copy.insert seq entry) changed) : Below changed record := by
  constructor
  · rw [same.file, Store.get_insert_other (by omega), below.file]
  · intro asked header data from1 inCopy
    rw [same.writes asked from1] at inCopy
    by_cases here : asked = seq
    · subst here
      rw [Std.ExtTreeMap.getElem?_insert_self, Option.some.injEq] at inCopy
      subst inCopy
      exact recorded
    · rw [Store.get_insert_other here] at inCopy
      exact below.data asked header data from1 inCopy

theorem fresh_below {path : Text} (file : (record[(0 : Int)]?).map Prod.snd = some path) : Below (freshRecord path) record := by
  constructor
  · rw [file, freshRecord_eq, twoEntries_file]
    rfl
  · intro seq header data high inCopy
    rw [freshRecord_eq, twoEntries_other (by omega) (by omega)] at inCopy
    cases inCopy

end

section
variable {log copy after : Log} {tsn : Int} {record : Record} {status number : Text} {queue packets : List (Text × Text)} {commits : Prop}
  {write : Option (Int × LogPair)}

/-- What a change leaves of a record that was found. -/
theorem Change.cases_found (change : Change commits log after tsn write) (found : Found log tsn record status number) :
    after[tsn]? = log[tsn]? ∨ (status ≠ "COMMITTED" ∧ after[tsn]? = none) ∨
      (status ≠ "COMMITTED" ∧ ∃ changed next digits, Found after tsn changed next digits ∧ Grows record changed ∧ (next = "COMMITTED" → commits)) := by
  cases change with
  | same same => exact Or.inl same
  | gone there notCommitted absent =>
    obtain ⟨_, rfl, _⟩ := found_unique found there
    exact Or.inr (Or.inl ⟨notCommitted, absent⟩)
  | marked there notCommitted _ leaves entries allowed =>
    obtain ⟨rfl, rfl, _⟩ := found_unique found there
    exact Or.inr (Or.inr ⟨notCommitted, _, _, _, leaves, SameWrites.grows entries, allowed⟩)
  | wrote there notCommitted _ high fresh leaves entries allowed =>
    obtain ⟨rfl, rfl, _⟩ := found_unique found there
    exact Or.inr (Or.inr ⟨notCommitted, _, _, _, leaves, grows_write high fresh entries, allowed⟩)

theorem Found.of_get {other : Log} (found : Found log tsn record status number) (same : other[tsn]? = log[tsn]?) :
    Found other tsn record status number := ⟨same.trans found.inLog, found.entry⟩

theorem Copied.change (copied : Copied copy record tsn) (change : Change commits copy after tsn write)
    (recorded : ∀ seq entry, write = some (seq, entry) → ∃ other, record[seq]? = some (other, entry.2)) : Copied after record tsn := by
  intro twin status number there
  cases change with
  | same same => exact copied twin status number (Found.of_get there same.symm)
  | gone _ _ absent =>
    rw [there.inLog] at absent
    cases absent
  | marked found _ notExpired leaves entries =>
    obtain ⟨rfl, _, _⟩ := found_unique there leaves
    rcases copied _ _ _ found with expired | below
    · exact absurd expired notExpired
    · exact Or.inr (below.marked entries)
  | wrote found _ notExpired high _ leaves entries =>
    obtain ⟨rfl, _, _⟩ := found_unique there leaves
    rcases copied _ _ _ found with expired | below
    · exact absurd expired notExpired
    · exact Or.inr (below.wrote high (recorded _ _ rfl) entries)

theorem committed_change {seq : Int} (committed : CommittedWith copy tsn seq) (change : Change commits copy after tsn write) :
    CommittedWith after tsn seq := by
  obtain ⟨record, number, found, same⟩ := committed
  rcases Change.cases_found change found with kept | ⟨notCommitted, _⟩ | ⟨notCommitted, _⟩
  · exact ⟨record, number, Found.of_get found kept, same⟩
  · exact absurd rfl notCommitted
  · exact absurd rfl notCommitted

/-- A change of the primary's record that is no commit. -/
theorem Tracked.own (tracked : Tracked log copy queue tsn) (change : Change False log after tsn write) : Tracked after copy queue tsn := by
  cases tracked with
  | gone absent =>
    cases change with
    | same same => exact .gone (same.trans absent)
    | gone found | marked found | wrote found =>
      rw [found.inLog] at absent
      cases absent
  | renewed found notCommitted shape method names file writes =>
    rcases Change.cases_found change found with same | ⟨_, absent⟩ | ⟨_, changed, next, digits, leaves, grows, allowed⟩
    · exact .renewed (Found.of_get found same) notCommitted shape method names file writes
    · exact .gone absent
    · exact .renewed leaves (fun committed => allowed committed) shape method names (grows.file.trans file) (writes.grows grows)
  | current found writes copied committed =>
    rcases Change.cases_found change found with same | ⟨_, absent⟩ | ⟨_, changed, next, digits, leaves, grows, allowed⟩
    · exact .current (Found.of_get found same) writes copied committed
    · exact .gone absent
    · refine .current leaves (writes.grows grows) ?_ (fun committed => (allowed committed).elim)
      intro twin status number there
      exact (copied twin status number there).imp id (fun below => below.grows grows)

/-- A change on the backup that writes at most what the primary has. -/
theorem Tracked.copies (tracked : Tracked log copy queue tsn) (change : Change commits copy after tsn none) : Tracked log after queue tsn := by
  cases tracked with
  | gone absent => exact .gone absent
  | renewed found notCommitted shape method names file writes => exact .renewed found notCommitted shape method names file writes
  | current found writes copied committed =>
    refine .current found writes (copied.change change ?_) (fun done => committed_change (committed done) change)
    intro seq entry absurd
    cases absurd

theorem Tracked.enqueue (tracked : Tracked log copy queue tsn)
    (writes : ∀ record status number, Found log tsn record status number → Writes record tsn packets) : Tracked log copy (queue ++ packets) tsn := by
  have appended {record : Record} {earlier : List (Text × Text)} (one : Writes record tsn earlier) (two : Writes record tsn packets) :
      Writes record tsn (earlier ++ packets) := by
    intro packet member
    rcases List.mem_append.mp member with early | late
    · exact one packet early
    · exact two packet late
  cases tracked with
  | gone absent => exact .gone absent
  | @renewed record status number header path earlier later found notCommitted shape method names file after =>
    have whole : queue ++ packets = earlier ++ (header, path) :: (later ++ packets) := by
      rw [shape, List.append_assoc, List.cons_append]
    exact .renewed found notCommitted whole method names file (appended after (writes _ _ _ found))
  | current found earlier copied committed => exact .current found (appended earlier (writes _ _ _ found)) copied committed

/-- The MAKE_TXN of a record joins the queue. -/
theorem tracked_renewed {header path : Text} (found : Found log tsn record status number) (notCommitted : status ≠ "COMMITTED") (copy : Log)
    (queue : List (Text × Text)) (method : parse header = 6) (names : getTsn header = tsn) (file : (record[(0 : Int)]?).map Prod.snd = some path)
    : Tracked log copy (queue ++ [(header, path)]) tsn :=
  .renewed found notCommitted rfl method names file (fun _ member => absurd member List.not_mem_nil)

/-- What a packet that reached the backup has done to the record of a transaction. -/
inductive Reaches (copy : Log) (header data : Text) (after : Log) (tsn : Int) : Prop where
  | same (same : after[tsn]? = copy[tsn]?)
  | created (method : parse header = 6) (names : getTsn header = tsn) (absent : copy[tsn]? = none) (made : after[tsn]? = some (freshRecord data))
  | marked (change : Change True copy after tsn none)
  | written {arrived : Text} (method : parse header = 5) (names : getTsn header = tsn)
      (change : Change True copy after tsn (some (getSeq header, (arrived, data))))

/-- The packet at the front of the queue leaves it. A MAKE_TXN brings the record
of the primary, unless it meets one that is alive. -/
theorem Tracked.dequeue {header data : Text} (tracked : Tracked log copy ((header, data) :: queue) tsn) (reaches : Reaches copy header data after tsn)
    (unmet : parse header = 6 → getTsn header = tsn → ∀ twin status number, Found copy tsn twin status number → status = "EXPIRED") :
    Tracked log after queue tsn := by
  cases tracked with
  | gone absent => exact .gone absent
  | @renewed record status number other path earlier later found notCommitted shape method names file writes =>
    cases earlier with
    | cons first earlier =>
      obtain ⟨_, rest⟩ := List.cons.inj shape
      exact .renewed found notCommitted rest method names file writes
    | nil =>
      obtain ⟨same, rfl⟩ := List.cons.inj shape
      obtain ⟨rfl, rfl⟩ := Prod.mk.inj same
      have expired := unmet method names
      have copied : Copied copy record tsn := fun twin status number there => Or.inl (expired twin status number there)
      have open_ {next : Text} (done : next = status) : next = "COMMITTED" → CommittedWith after tsn (atoi number) :=
        fun committed => absurd (done.symm.trans committed) notCommitted
      cases reaches with
      | same same => exact .current found writes (fun twin status number there => copied twin status number (Found.of_get there same.symm)) (open_ rfl)
      | created _ _ _ made =>
        refine .current found writes ?_ (open_ rfl)
        intro twin status number there
        obtain rfl := Option.some.inj (made.symm.trans there.inLog)
        exact Or.inr (fresh_below file)
      | marked change => exact .current found writes (copied.change change (fun _ _ absurd => by cases absurd)) (open_ rfl)
      | written other =>
        rw [method] at other
        cases other
  | current found writes copied committed =>
    have later : Writes _ tsn queue := fun packet member => writes packet (List.mem_cons_of_mem _ member)
    cases reaches with
    | same same =>
      have change : Change True copy after tsn none := .same same
      exact Tracked.copies (.current found later copied committed) change
    | created method names =>
      rw [(writes _ List.mem_cons_self names).1] at method
      cases method
    | marked change => exact Tracked.copies (.current found later copied committed) change
    | written method names change =>
      obtain ⟨_, _, recorded⟩ := writes _ List.mem_cons_self names
      refine .current found later (copied.change change ?_) (fun done => committed_change (committed done) change)
      intro seq entry same
      obtain ⟨rfl, rfl⟩ := Prod.mk.inj (Option.some.inj same)
      exact recorded

end

/-- A clock that is behind by some sweeps keeps what each turn of a sweep keeps. -/
theorem sweep_preserves {holds : Log → Prop} (each : ∀ log key after erased, holds log → Sweeps log key after erased → holds after) {times : Nat}
    {log after : Log} (start : holds log) (ran : Clocked.sweep log times = .ok after) : holds after := by
  induction times generalizing log with
  | zero =>
    cases ran
    exact start
  | succ times ih =>
    unfold Clocked.sweep at ran
    obtain ⟨⟨swept, dangling⟩, once, ran⟩ := bind_eq_ok.mp ran
    exact ih (timeouts_preserves each start once) ran

/-- A record that is found and not alive is expired. -/
theorem expired_of_not_alive {log : Log} {tsn : Int} (dead : Clocked.alive log tsn = false) {record : Record} {status number : Text}
    (found : Found log tsn record status number) : status = "EXPIRED" := by
  simp only [Clocked.alive, found.getStatus] at dead
  simpa using dead

/-- A COMMIT asks for several writes when it lacks them. -/
theorem parts_iff (log : Log) (header : Text) : Clocked.parts log header = true ↔ OneReply.LacksSeveral log header := by
  unfold Clocked.parts
  simp only [Bool.and_eq_true, beq_iff_eq, decide_eq_true_eq]
  constructor
  · rintro ⟨⟨method, high⟩, rest⟩
    split at rest
    next status number ready stack read same scanned =>
      obtain ⟨record, digits, found⟩ := found_of_getStatus read
      rw [found.getStatusData, Except.ok.injEq] at same
      rw [canCommit_of_get found.inLog, Except.ok.injEq, Prod.mk.injEq] at scanned
      obtain ⟨_, rfl⟩ := scanned
      simp only [Bool.and_eq_true, bne_iff_ne, Bool.or_eq_true, beq_iff_eq, decide_eq_true_eq] at rest
      obtain ⟨⟨⟨committed, expired⟩, waiting⟩, several⟩ := rest
      refine ⟨method, high, record, status, digits, found, ⟨committed, expired, fun waits => ?_⟩, several⟩
      rw [same]
      exact waiting.resolve_left (fun other => other waits)
    next => cases rest
  · rintro ⟨method, high, record, status, number, found, allowed, several⟩
    refine ⟨⟨method, high⟩, ?_⟩
    rw [found.getStatus, found.getStatusData, canCommit_of_get found.inLog]
    simp only [Bool.and_eq_true, bne_iff_ne, Bool.or_eq_true, beq_iff_eq, decide_eq_true_eq]
    refine ⟨⟨⟨allowed.committed, allowed.expired⟩, ?_⟩, several⟩
    by_cases waits : status = "WAITING"
    · exact Or.inr (allowed.waiting waits)
    · exact Or.inl waits

/-- The primary may have been told something else of this id. -/
def Astray (peer : Clocked) (tsn : Int) : Prop := peer.parted = true ∨ tsn ∈ peer.met

section
variable {arrival : Backup.Arrival} {log : Log} {header data : Text} {io : Bool} {peer : Clocked} {socket next : Socket Clocked} {reply : Option Text}
  {queue : List (Text × Text)}

/-- What the queue and the backup have to do with the primary's log, for every
id that has not gone astray. -/
structure Tracks (log : Log) (queue : List (Text × Text)) (socket : Socket Clocked) : Prop where
  backup : NotPrimary socket.peer.backup.log
  sound : Sound socket.peer.backup.log
  queued : ∀ packet ∈ queue, Replicated packet.1 ∧ 1 ≤ getTsn packet.1
  tracked : ∀ tsn : Int, 1 ≤ tsn → Astray socket.peer tsn ∨ Tracked log socket.peer.backup.log queue tsn
  prompt : socket.peer.parted = true ∨ socket.unread = []

theorem handles_reaches {copy after : Log} {arrived : Text} {payload : Option Text} (handles : Handles copy io arrived payload after)
    (method : parse arrived = parse header) (tsn : getTsn arrived = getTsn header) (seq : getSeq arrived = getSeq header)
    (given : payload = none ∨ payload = some data) {id : Int} (positive : 1 ≤ id) : Reaches copy header data after id := by
  by_cases here : id = getTsn arrived
  · have high : 1 ≤ getTsn arrived := here ▸ positive
    cases handles with
    | ignored => exact .same rfl
    | made made =>
      obtain rfl := Option.some.inj (given.resolve_left (by simp))
      cases absent : copy[getTsn arrived]? with
      | some record =>
        apply Reaches.same
        rw [makeTxn, Store.contains_of_get absent]
        rfl
      | none =>
        refine .created (method.symm.trans made) (tsn.symm.trans here.symm) (here ▸ absent) ?_
        rw [makeTxn, Store.contains_of_absent absent, here]
        exact Std.ExtTreeMap.getElem?_insert_self
    | added made adds =>
      obtain rfl := Option.some.inj (given.resolve_left (by simp))
      have change := adds.change high (fun _ => trivial)
      rw [← here, seq] at change
      exact .written (method.symm.trans made) (tsn.symm.trans here.symm) change
    | committed _ commits =>
      have change := commits.change high (fun _ => trivial)
      rw [← here] at change
      exact .marked change
    | aborted _ aborts =>
      have change := @Aborts.change _ _ _ True aborts
      rw [← here] at change
      exact .marked change
  · exact .same (handles.frame here)

theorem runs_sound {granted : Ledger.Scope} {log after : Log} {effects : List Effect} (sound : Sound log)
    (runs : Ledger.Runs granted log effects after) : Sound after :=
  runs.keeps (fun state => Sound state.log) (fun _ _ _ sound act => (@act_sound _ _ _ _ { saved := ∅ } ⟨sound, sound_empty⟩ act).1) sound

theorem sweeps_sound {log after : Log} {key : Int} {erased : Bool} (sound : Sound log) (sweeps : Sweeps log key after erased) : Sound after :=
  have runs : Ledger.Runs ⟨fun _ => True, fun _ => True, fun _ => True⟩ log [] after := sweeps.runs (fun _ => trivial)
  runs_sound sound runs

/-- The records of the backup stay complete. -/
theorem replies_sound {backup settled : Backup} {own : List Text} (honest : Honest arrival) (sound : Sound backup.log) (positive : 1 ≤ getTsn header)
    (ran : Backup.replies arrival backup io header data = .ok (settled, own)) : Sound settled.log := by
  obtain ⟨⟨arrived, payload⟩, sent, ran⟩ := bind_eq_ok.mp ran
  obtain ⟨handled, received, same⟩ := bind_eq_ok.mp ran
  cases same
  obtain ⟨_, tsn, _⟩ := honest.same _ _ _ _ sent
  have addressed : Addressed arrived := fun _ => tsn ▸ positive
  exact runs_sound sound (receive_runs addressed (fun _ member => absurd member List.not_mem_nil) received)

/-- What a packet makes of a backup that may have swept before. -/
structure Takes (arrival : Backup.Arrival) (peer : Clocked) (io : Bool) (header data : Text) (swept : Log) (own : List Text) (next : Clocked) : Prop where
  sweeps : Clocked.sweep peer.backup.log (peer.sweeps.headD 0) = .ok swept
  backup : NotPrimary swept
  sound : Sound next.backup.log
  replied : Backup.replies arrival { peer.backup with log := swept } io header data = .ok (next.backup, own)
  met : next.met = (if Clocked.meets swept header then getTsn header :: peer.met else peer.met)
  parted : next.parted = (peer.parted || Clocked.parts swept header)
  reaches : ∀ id : Int, 1 ≤ id → Reaches swept header data next.backup.log id

section
variable {swept : Log} {own : List Text} {after : Clocked}

theorem replies_takes (honest : Honest arrival) (backup : NotPrimary peer.backup.log) (sound : Sound peer.backup.log)
    (replicated : Replicated header) (positive : 1 ≤ getTsn header) (ran : Clocked.replies arrival peer io header data = .ok (after, own)) :
    ∃ swept, Takes arrival peer io header data swept own after := by
  unfold Clocked.replies at ran
  obtain ⟨swept, sweeps, ran⟩ := bind_eq_ok.mp ran
  obtain ⟨⟨settled, replied⟩, answered, same⟩ := bind_eq_ok.mp ran
  cases same
  have still : NotPrimary swept := sweep_preserves (fun _ _ _ _ holds sweeps => sweeps.notPrimary holds) backup sweeps
  have complete : Sound swept := sweep_preserves (fun _ _ _ _ holds sweeps => sweeps_sound holds sweeps) sound sweeps
  refine ⟨swept, sweeps, still, replies_sound honest complete positive answered, answered, rfl, rfl, ?_⟩
  intro id high
  obtain ⟨arrived, payload, after, text, sent, handles, rfl, _⟩ := @answer_handles arrival { peer.backup with log := swept } io header data honest still
    replicated settled _ (answer_of_replies answered)
  obtain ⟨method, tsn, seq, _, given⟩ := honest.same _ _ _ _ sent
  exact handles_reaches handles method tsn seq given high

theorem Takes.notPrimary (takes : Takes arrival peer io header data swept own after) : NotPrimary after.backup.log :=
  @answer_notPrimary arrival _ _ _ _ _ _ takes.backup (answer_of_replies takes.replied)

/-- What has gone astray stays so. -/
theorem Takes.astray (takes : Takes arrival peer io header data swept own after) {tsn : Int} (astray : Astray peer tsn) : Astray after tsn := by
  rcases astray with parted | met
  · exact Or.inl (by rw [takes.parted, parted, Bool.true_or])
  · right
    rw [takes.met]
    split
    · exact List.mem_cons_of_mem _ met
    · exact met

/-- Either the packet has parted the replies, or it is answered with a single one. -/
theorem Takes.alone (honest : Honest arrival) (replicated : Replicated header) (takes : Takes arrival peer io header data swept own after) :
    after.parted = true ∨ peer.parted = false ∧ ∃ text, own = [text] := by
  cases before : peer.parted with
  | true => exact Or.inl (by rw [takes.parted, before, Bool.true_or])
  | false =>
    cases asks : Clocked.parts swept header with
    | true => exact Or.inl (by rw [takes.parted, asks, Bool.or_true])
    | false =>
      refine Or.inr ⟨rfl, replies_alone honest takes.backup replicated ?_ takes.replied⟩
      rw [← parts_iff, asks]
      exact Bool.false_ne_true

end

/-- The client reads what the packet was answered with, unless replies have parted. -/
theorem Tracks.takes (honest : Honest arrival) (tracks : Tracks log queue socket) (replicated : Replicated header) (positive : 1 ≤ getTsn header)
    (ran : Socket.answer (Clocked.replies arrival) socket io header data = .ok (next, reply)) :
    ∃ swept own, Takes arrival socket.peer io header data swept own next.peer ∧
      (next.peer.parted = true ∨ next.unread = [] ∧ reply = own.head?) := by
  obtain ⟨own, replied, reads⟩ := answer_peer ran
  obtain ⟨swept, takes⟩ := replies_takes honest tracks.backup tracks.sound replicated positive replied
  refine ⟨swept, own, takes, ?_⟩
  rcases takes.alone honest replicated with parted | ⟨before, text, alone⟩
  · exact Or.inl parted
  · obtain ⟨left, same⟩ := reads (tracks.prompt.resolve_left (by simp [before])) text alone
    exact Or.inr ⟨left, by rw [same, alone]; rfl⟩

theorem Tracked.swept {copy swept : Log} {times : Nat} {tsn : Int} (tracked : Tracked log copy queue tsn) (ran : Clocked.sweep copy times = .ok swept) :
    Tracked log swept queue tsn := by
  have each (copy : Log) (key : Int) (after : Log) (erased : Bool) (tracked : Tracked log copy queue tsn) (sweeps : Sweeps copy key after erased) :
      Tracked log after queue tsn := tracked.copies (sweeps.change tsn)
  exact sweep_preserves each tracked ran

/-- One packet of the queue has reached the backup. -/
theorem Tracks.dequeue (honest : Honest arrival) (tracks : Tracks log ((header, data) :: queue) socket)
    (ran : Socket.answer (Clocked.replies arrival) socket io header data = .ok (next, reply)) : Tracks log queue next := by
  obtain ⟨replicated, addressed⟩ := tracks.queued _ List.mem_cons_self
  obtain ⟨swept, own, takes, prompt⟩ := tracks.takes honest replicated addressed ran
  refine ⟨takes.notPrimary, takes.sound, fun packet member => tracks.queued packet (List.mem_cons_of_mem _ member), ?_, prompt.imp id And.left⟩
  intro tsn positive
  rcases tracks.tracked tsn positive with already | tracked
  · exact Or.inl (takes.astray already)
  · by_cases meets : parse header = 6 ∧ getTsn header = tsn ∧ Clocked.alive swept tsn = true
    · obtain ⟨method, rfl, alive⟩ := meets
      refine Or.inl (Or.inr ?_)
      rw [takes.met, if_pos (by simp [Clocked.meets, method, alive])]
      exact List.mem_cons_self
    · refine Or.inr (Tracked.dequeue (tracked.swept takes.sweeps) (takes.reaches tsn positive) ?_)
      intro method names twin status number there
      refine expired_of_not_alive ?_ there
      simpa using fun alive => meets ⟨method, names, alive⟩

/-- A COMMIT has reached it. -/
theorem Tracks.commit (honest : Honest arrival) (tracks : Tracks log queue socket) (method : parse header = 3) (addressed : 1 ≤ getTsn header)
    (ran : Socket.answer (Clocked.replies arrival) socket io header data = .ok (next, reply)) : Tracks log queue next := by
  obtain ⟨swept, own, takes, prompt⟩ := tracks.takes honest (Or.inr (Or.inl method)) addressed ran
  refine ⟨takes.notPrimary, takes.sound, tracks.queued, ?_, prompt.imp id And.left⟩
  intro tsn positive
  rcases tracks.tracked tsn positive with already | tracked
  · exact Or.inl (takes.astray already)
  · have swept := tracked.swept takes.sweeps
    cases takes.reaches tsn positive with
    | same unchanged =>
      have change : Change True _ next.peer.backup.log tsn none := .same unchanged
      exact Or.inr (swept.copies change)
    | marked change => exact Or.inr (swept.copies change)
    | created other | written other =>
      rw [method] at other
      cases other

theorem drain_tracks (honest : Honest arrival) {queue : List (Text × Text)} {server final : Server (Socket Clocked)} (up : Up server.link)
    (tracks : Tracks log queue server.link.peer) (ran : drain (Socket.answer (Clocked.replies arrival)) queue server = .ok final) :
    final.log = server.log ∧ final.manager = { server.manager with syncQueue := [] } ∧ Up final.link ∧ Tracks log [] final.link.peer := by
  induction queue generalizing server with
  | nil =>
    cases ran
    exact ⟨rfl, rfl, up, tracks⟩
  | cons packet rest ih =>
    obtain ⟨header, data⟩ := packet
    unfold drain at ran
    obtain ⟨⟨reply, link⟩, sent, ran⟩ := bind_eq_ok.mp ran
    obtain ⟨io, text, handled, rfl, after⟩ := up.sendReceive sent
    exact @ih { server with link } after (tracks.dequeue honest handled) ran

end

end TransactionalServer.Proofs.Tracking
