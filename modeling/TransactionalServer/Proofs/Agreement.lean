import TransactionalServer.Proofs.Tracking
import TransactionalServer.Proofs.Convergence

/-! What the two servers have committed under one id. An id that the primary
draws again may still be taken on the backup. -/

namespace TransactionalServer.Proofs.Agreement
open ServerTools LogHandler Exec Session ReplicationManager Completeness Tracking Sockets

/-- The writes of the primary's records are under the id and the number that
their headers name. -/
def Signed (log : Log) : Prop :=
  ∀ (tsn : Int) (record : Record), 1 ≤ tsn → log[tsn]? = some record →
    ∀ (seq : Int) (entry : LogPair), 1 ≤ seq → record[seq]? = some entry → WriteOf tsn seq entry.1

/-- A primary whose connection works, and the backup that follows it. -/
structure Paired (server : Server (Socket Clocked)) : Prop where
  primary : IsPrimary server.log
  alive : server.manager.alive = true
  up : Up server.link
  signed : Signed server.log
  tracks : Tracks server.log server.manager.syncQueue server.link.peer

section
variable {arrival : Backup.Arrival} {fuel : Nat} {server final : Server (Socket Clocked)} {tsn seq : Int}

theorem primaryOps_paired (honest : Honest arrival) (paired : Paired server) (ran : primaryOps (Socket.answer (Clocked.replies arrival)) fuel server = .ok final) :
    Paired final ∧ final.log = server.log ∧ final.manager.syncQueue = [] := by
  cases fuel with
  | zero => simp [primaryOps] at ran
  | succ fuel =>
    rw [primaryOps_alive paired.alive] at ran
    obtain ⟨log, manager, up, tracks⟩ := drain_tracks honest paired.up paired.tracks ran
    refine ⟨⟨?_, ?_, up, ?_, ?_⟩, log, by rw [manager]⟩
    · rw [log]
      exact paired.primary
    · rw [manager]
      exact paired.alive
    · rw [log]
      exact paired.signed
    · rw [log, manager]
      exact tracks

/-- Packets for the queue, each about what the primary has under its id. -/
theorem Paired.queued (paired : Paired server) {packets : List (Text × Text)}
    (replicated : ∀ packet ∈ packets, Replicated packet.1 ∧ 1 ≤ getTsn packet.1)
    (tracked : ∀ tsn : Int, 1 ≤ tsn → Tracked server.log server.link.peer.peer.backup.log server.manager.syncQueue tsn →
      Tracked server.log server.link.peer.peer.backup.log (server.manager.syncQueue ++ packets) tsn) : Paired (Server.queued server packets) := by
  refine ⟨paired.primary, paired.alive, paired.up, paired.signed, paired.tracks.backup, paired.tracks.sound, ?_, ?_, paired.tracks.prompt⟩
  · intro packet member
    rcases List.mem_append.mp member with earlier | new
    · exact paired.tracks.queued packet earlier
    · exact replicated packet new
  · intro tsn positive
    exact (paired.tracks.tracked tsn positive).imp id (tracked tsn positive)

/-- A resend queues writes of the primary's record. -/
theorem Paired.resent {record : Record} {status number : Text} {bound : Int} {packets : List (Text × Text)} (paired : Paired server) (positive : 1 ≤ tsn)
    (found : Found server.log tsn record status number) (read : (Int.range 1 (bound + 1)).mapM (pair server.log tsn) = .ok packets) :
    Paired (Server.queued server packets) := by
  have written : ∀ packet ∈ packets, ∃ key, 1 ≤ key ∧ record[key]? = some packet ∧ WriteOf tsn key packet.1 := by
    intro packet member
    obtain ⟨key, inRange, here⟩ := mem_of_mapM read member
    obtain ⟨again, inLog, inRecord⟩ := pair_eq_ok.mp here
    obtain rfl := Option.some.inj (found.inLog.symm.trans inLog)
    have high := (Int.mem_range_iff.mp inRange).1
    exact ⟨key, high, inRecord, paired.signed tsn record positive found.inLog key packet high inRecord⟩
  refine paired.queued ?_ ?_
  · intro packet member
    obtain ⟨key, _, _, write⟩ := written packet member
    exact ⟨Or.inr (Or.inr (Or.inl write.method)), write.tsn ▸ positive⟩
  · intro id _ tracked
    apply tracked.enqueue
    intro other status digits there packet member names
    obtain ⟨key, high, inRecord, write⟩ := written packet member
    obtain rfl := write.tsn.symm.trans names
    obtain ⟨rfl, _⟩ := found_unique found there
    rw [write.seq]
    exact ⟨write.method, high, packet.1, inRecord⟩

/-- A MAKE_TXN with the file name of the primary's record joins the queue. -/
theorem Paired.renewed {record : Record} {status number header path : Text} (paired : Paired server) (positive : 1 ≤ tsn) (found : Found server.log tsn record status number)
    (notCommitted : status ≠ "COMMITTED") (method : parse header = 6) (names : getTsn header = tsn)
    (file : (record[(0 : Int)]?).map Prod.snd = some path) : Paired (Server.queued server [(header, path)]) := by
  refine paired.queued ?_ ?_
  · intro packet member
    cases List.mem_singleton.mp member
    exact ⟨Or.inr (Or.inr (Or.inr method)), names ▸ positive⟩
  · intro id _ tracked
    by_cases here : id = tsn
    · exact here ▸ tracked_renewed found notCommitted _ _ method names file
    · apply tracked.enqueue
      intro _ _ _ _ packet member other
      cases List.mem_singleton.mp member
      exact absurd (other.symm.trans names) here

theorem Paired.recreated {record : Record} {number file : Text} (paired : Paired server) (tsnRange : IsInt tsn) (positive : 1 ≤ tsn)
    (found : Found server.log tsn record "WRITING" number) (named : getFileName server.log tsn = .ok file) :
    Paired (Server.queued server [("MAKE_TXN " ++ iToS tsn ++ " -1 0", file)]) := by
  have shape := makeTsnHeader_fields tsn
  have names : getTsn ("MAKE_TXN " ++ iToS tsn ++ " -1 0" : Text) = tsn := by
    rw [getTsn_of_fields shape, lexicalCast_iToS tsnRange, Option.getD_some]
  obtain ⟨⟨marker, path⟩, entry, same⟩ := bind_eq_ok.mp named
  cases same
  obtain ⟨again, inLog, inRecord⟩ := pair_eq_ok.mp entry
  obtain rfl := Option.some.inj (found.inLog.symm.trans inLog)
  refine paired.renewed positive found (by decide) ?_ names ?_
  · rw [parse_of_fields shape]
    rfl
  · rw [inRecord]
    rfl

/-- The backup has the transaction, unless replies have parted. -/
def Taken (peer : Clocked) (tsn seq : Int) : Prop := peer.parted = true ∨ CommittedWith peer.backup.log tsn seq

/-- The COMMIT reaches the backup, and an ACK says that it has committed. -/
theorem Paired.asks (honest : Honest arrival) {link : Link (Socket Clocked)} {result : Option Text} (paired : Paired server) (tsnRange : IsInt tsn)
    (positive : 1 ≤ tsn) (range : IsInt seq) (high : 1 ≤ seq)
    (sent : Client.sendReceive (Socket.answer (Clocked.replies arrival)) server.link (commitMessage tsn seq) " " = .ok (result, link)) :
    ∃ text, result = some text ∧ Paired { server with link } ∧ ((replyWords text)[0]? = some "ACK".toList → Taken link.peer.peer tsn seq) := by
  obtain ⟨io, text, handled, same, after⟩ := paired.up.sendReceive sent
  have method := commitMessage_parse tsn seq
  have addressed : 1 ≤ getTsn (commitMessage tsn seq) := by
    rw [commitMessage_getTsn tsnRange]
    exact positive
  have tracks := paired.tracks.commit honest method addressed handled
  refine ⟨_, same, ⟨paired.primary, paired.alive, after, paired.signed, tracks⟩, ?_⟩
  intro acknowledged
  obtain ⟨swept, own, takes, read⟩ := paired.tracks.takes honest (Or.inr (Or.inl method)) addressed handled
  rcases read with parted | ⟨_, first⟩
  · exact Or.inl parted
  obtain ⟨settledLog, word, code, reply, settles, settled, given, reads⟩ :=
    @answer_commit_cases arrival { server.link.peer.peer.backup with log := swept } _ _ _ honest takes.backup tsnRange range high positive _ _
      (answer_of_replies takes.replied)
  obtain rfl := Option.some.inj (first.trans given)
  obtain ⟨third, rest, words⟩ := reads.words
  rw [replyWords, words] at acknowledged
  have committed := settles.committed range (Option.some.inj acknowledged)
  right
  rw [settled]
  exact committed

/-- A connected primary commits what the backup has acknowledged. -/
theorem commit_paired (honest : Honest arrival) {done : Bool} {record : Record} {number : Text} (paired : Paired server) (tsnRange : IsInt tsn)
    (positive : 1 ≤ tsn) (range : IsInt seq) (high : 1 ≤ seq) (found : Found server.log tsn record "WRITING" number)
    (ran : ReplicationManager.commit (Socket.answer (Clocked.replies arrival)) fuel server (commitMessage tsn seq) = .ok (done, final)) :
    Paired final ∧ final.log = server.log ∧
      (done = true → final.manager.syncQueue = [] ∧ Taken final.link.peer.peer tsn seq) := by
  induction fuel generalizing server with
  | zero => simp [ReplicationManager.commit] at ran
  | succ fuel ih =>
    obtain ⟨synced, synchronised, round⟩ := commit_round paired.primary ran
    obtain ⟨paired, log, empty⟩ := primaryOps_paired honest paired synchronised
    have found : Found synced.log tsn record "WRITING" number := by
      rw [log]
      exact found
    have asked {link : Link (Socket Clocked)} {result : Option Text}
        (sent : Client.sendReceive (Socket.answer (Clocked.replies arrival)) synced.link (commitMessage tsn seq) " " = .ok (result, link)) :=
      paired.asks honest tsnRange positive range high sent
    cases round with
    | away down =>
      rw [paired.alive] at down
      cases down
    | unsynced _ pending => exact absurd empty pending
    | lost _ _ sent =>
      obtain ⟨_, absurd, _⟩ := asked sent
      cases absurd
    | acked _ _ sent word =>
      obtain ⟨_, same, next, committed⟩ := asked sent
      cases same
      exact ⟨next, log, fun _ => ⟨empty, committed word⟩⟩
    | refused _ _ sent =>
      obtain ⟨_, _, next, _⟩ := asked sent
      exact ⟨next, log, fun absurd => by cases absurd⟩
    | resent _ _ sent _ resends again =>
      obtain ⟨_, _, next, _⟩ := asked sent
      obtain ⟨bound, packets, _, _, read, rfl⟩ := resend_queued next.primary resends
      rw [commitMessage_getTsn tsnRange] at read
      obtain ⟨last, same, decides⟩ := ih (next.resent positive found read) found again
      exact ⟨last, same.trans log, decides⟩
    | created _ _ sent _ _ named enqueued again =>
      obtain ⟨_, _, next, _⟩ := asked sent
      rw [commitMessage_getTsn tsnRange] at named enqueued
      rw [enqueue_queued next.primary, Except.ok.injEq] at enqueued
      subst enqueued
      obtain ⟨last, same, decides⟩ := ih (next.recreated tsnRange positive found named) found again
      exact ⟨last, same.trans log, decides⟩

end

/-- Changes of the primary's log that commit nothing. -/
def Moves (log after : Log) : Prop :=
  ∀ tsn : Int, 1 ≤ tsn → ∃ write, Change False log after tsn write ∧ ∀ seq entry, write = some (seq, entry) → WriteOf tsn seq entry.1

section
variable {log after : Log} {tsn : Int}

theorem moves_same (same : ∀ tsn : Int, 1 ≤ tsn → after[tsn]? = log[tsn]?) : Moves log after :=
  fun tsn positive => ⟨none, .same (same tsn positive), fun _ _ absurd => by cases absurd⟩

/-- A change of one record. -/
theorem moves_one {write : Option (Int × LogPair)} (change : Change False log after tsn write)
    (written : ∀ seq entry, write = some (seq, entry) → WriteOf tsn seq entry.1) (frame : ∀ other, other ≠ tsn → after[other]? = log[other]?) :
    Moves log after := by
  intro other positive
  by_cases here : other = tsn
  · exact here ▸ ⟨write, change, written⟩
  · exact ⟨none, .same (frame other here), fun _ _ absurd => by cases absurd⟩

theorem Signed.moves (signed : Signed log) (moves : Moves log after) : Signed after := by
  intro tsn record positive inLog seq entry high inRecord
  obtain ⟨write, change, written⟩ := moves tsn positive
  cases change with
  | same same => exact signed tsn record positive (same.symm.trans inLog) seq entry high inRecord
  | gone _ _ absent =>
    rw [inLog] at absent
    cases absent
  | marked found _ _ leaves entries =>
    obtain rfl := Option.some.inj (inLog.symm.trans leaves.inLog)
    rw [entries.writes seq high] at inRecord
    exact signed tsn _ positive found.inLog seq entry high inRecord
  | @wrote key wrote _ _ _ _ _ _ found _ _ _ _ leaves entries =>
    obtain rfl := Option.some.inj (inLog.symm.trans leaves.inLog)
    rw [entries.writes seq high] at inRecord
    by_cases here : seq = key
    · subst here
      rw [Std.ExtTreeMap.getElem?_insert_self, Option.some.injEq] at inRecord
      exact inRecord ▸ written seq wrote rfl
    · rw [Store.get_insert_other here] at inRecord
      exact signed tsn _ positive found.inLog seq entry high inRecord

end

section
variable {arrival : Backup.Arrival} {fuel : Nat} {server queued : Server (Socket Clocked)} {env : Env} {auth : Bool} {header data : Text} {log : Log}

theorem Paired.moves (paired : Paired server) (primary : IsPrimary log) (moves : Moves server.log log) : Paired { server with log } := by
  refine ⟨primary, paired.alive, paired.up, paired.signed.moves moves, paired.tracks.backup, paired.tracks.sound, paired.tracks.queued, ?_,
    paired.tracks.prompt⟩
  intro tsn positive
  obtain ⟨write, change, _⟩ := moves tsn positive
  exact (paired.tracks.tracked tsn positive).imp id (fun tracked => Tracked.own tracked change)

/-- What clients and the backup may send to a primary. -/
structure Request (header : Text) : Prop where
  notCreated : parse header ≠ 6
  notDemoted : parse header ≠ 9
  addressed : Addressed header

/-- A recorded write, and its packet. -/
theorem Paired.records {io : Bool} {outcome : Outcome} {record : Record} {number next digits : Text} (paired : Paired server)
    (adds : Adds server.log header data io outcome)
    (records : Convergence.Records server.log header data outcome.log record number next digits) (positive : 1 ≤ getTsn header)
    (method : parse header = 5) (enqueued : enqueue { server with log := outcome.log } header data = .ok queued) : Paired queued := by
  have high := records.high
  have change : Change False server.log outcome.log (getTsn header) (some (getSeq header, (header, data))) :=
    adds.change positive (fun backup => backup paired.primary)
  have moved : Paired { server with log := outcome.log } := by
    refine paired.moves (paired.primary.of_get (adds.frame (by omega))) (moves_one change ?_ (fun _ differs => adds.frame differs))
    intro seq entry same
    obtain ⟨rfl, rfl⟩ := Prod.mk.inj (Option.some.inj same)
    exact ⟨method, rfl, rfl⟩
  rw [enqueue_queued moved.primary, Except.ok.injEq] at enqueued
  subst enqueued
  refine moved.queued ?_ ?_
  · intro packet member
    cases List.mem_singleton.mp member
    exact ⟨Or.inr (Or.inr (Or.inl method)), positive⟩
  · intro id _ tracked
    apply tracked.enqueue
    intro changed status digits there packet member names
    cases List.mem_singleton.mp member
    subst names
    have inLog := there.inLog
    rw [records.recorded, mark, Std.ExtTreeMap.getElem?_insert_self, Option.some.injEq] at inLog
    subst inLog
    refine ⟨method, high, header, ?_⟩
    have apart : getSeq header ≠ -1 := by omega
    rw [Store.get_insert_other apart, Std.ExtTreeMap.getElem?_insert_self]

/-- A transaction that is created under an id that was free, and its MAKE_TXN. -/
theorem Paired.creates {tsn : Int} (paired : Paired server) (range : IsInt tsn) (positive : 1 ≤ tsn) (absent : server.log[tsn]? = none)
    (enqueued : enqueue { server with log := server.log.insert tsn (freshRecord data) } ("MAKE_TXN " ++ iToS tsn ++ " 0 0 0") data = .ok queued) :
    Paired queued := by
  have shape := makeTxnHeader_fields tsn
  have method : parse ("MAKE_TXN " ++ iToS tsn ++ " 0 0 0" : Text) = 6 := by
    rw [parse_of_fields shape]
    rfl
  have names : getTsn ("MAKE_TXN " ++ iToS tsn ++ " 0 0 0" : Text) = tsn := by
    rw [getTsn_of_fields shape, lexicalCast_iToS range, Option.getD_some]
  have primary : IsPrimary (server.log.insert tsn (freshRecord data)) := paired.primary.of_get (Store.get_insert_other (by omega))
  have created : Found (server.log.insert tsn (freshRecord data)) tsn (freshRecord data) "ACTIVE" "0" :=
    ⟨Std.ExtTreeMap.getElem?_insert_self, by rw [freshRecord_eq]; exact twoEntries_status _ _⟩
  have file : ((freshRecord data)[(0 : Int)]?).map Prod.snd = some data := by
    rw [freshRecord_eq, twoEntries_file]
    rfl
  have queues := @enqueue_queued (Socket Clocked) { server with log := server.log.insert tsn (freshRecord data) } primary
  rw [queues, Except.ok.injEq] at enqueued
  subst enqueued
  refine ⟨primary, paired.alive, paired.up, ?_, paired.tracks.backup, paired.tracks.sound, ?_, ?_, paired.tracks.prompt⟩
  · intro id record high inLog seq entry from1 inRecord
    by_cases here : id = tsn
    · subst here
      obtain rfl := Option.some.inj (created.inLog.symm.trans inLog)
      rw [freshRecord_eq, twoEntries_other (by omega) (by omega)] at inRecord
      cases inRecord
    · have same : (server.log.insert tsn (freshRecord data))[id]? = server.log[id]? := Store.get_insert_other here
      exact paired.signed id record high (same.symm.trans inLog) seq entry from1 inRecord
  · intro packet member
    rcases List.mem_append.mp member with earlier | new
    · exact paired.tracks.queued packet earlier
    · cases List.mem_singleton.mp new
      exact ⟨Or.inr (Or.inr (Or.inr method)), by rw [names]; exact positive⟩
  · intro id high
    rcases paired.tracks.tracked id high with met | tracked
    · exact Or.inl met
    refine Or.inr ?_
    by_cases here : id = tsn
    · subst here
      exact tracked_renewed created (by decide) _ _ method names file
    · have change : Change False server.log (server.log.insert tsn (freshRecord data)) id none := .same (Store.get_insert_other here)
      apply (tracked.own change).enqueue
      intro _ _ _ _ packet member other
      cases List.mem_singleton.mp member
      exact absurd (other.symm.trans names) here

/-- An ABORT erases the record, and is sent on. -/
theorem Paired.aborts {record : Record} {status number : Text} {queued : Server (Socket Clocked)} (paired : Paired server) (method : parse header = 1)
    (positive : 1 ≤ getTsn header) (found : Found server.log (getTsn header) record status number) (notCommitted : status ≠ "COMMITTED")
    (enqueued : ReplicationManager.enqueue { server with log := server.log.erase (getTsn header) } header data = .ok queued) : Paired queued := by
  have change : Change False server.log (server.log.erase (getTsn header)) (getTsn header) none :=
    .gone found notCommitted Std.ExtTreeMap.getElem?_erase_self
  have moved : Paired { server with log := server.log.erase (getTsn header) } := by
    refine paired.moves (paired.primary.of_get (Store.get_erase_other (by omega)))
      (moves_one change ?_ (fun _ differs => Store.get_erase_other differs))
    intro _ _ absurd
    cases absurd
  rw [enqueue_queued moved.primary, Except.ok.injEq] at enqueued
  subst enqueued
  refine moved.queued ?_ ?_
  · intro packet member
    cases List.mem_singleton.mp member
    exact ⟨Or.inl method, positive⟩
  · intro id _ tracked
    apply tracked.enqueue
    intro record status number there packet member names
    cases List.mem_singleton.mp member
    subst names
    have gone := there.inLog
    rw [Std.ExtTreeMap.getElem?_erase_self] at gone
    cases gone

theorem executes_paired {out : Command (Socket Clocked)} (paired : Paired server) (request : Request header)
    (drawn : ∀ draw ∈ env.draws, 1 ≤ draw ∧ draw ≤ 100000) (executes : Executes server env auth header data out) : Paired out.server := by
  have primary := paired.primary
  cases executes with
  | refused | read | authenticated => exact paired
  | notAborted _ aborts kept =>
    cases aborts with
    | absent | committed | expired => exact paired
    | erased => cases kept
  | aborted method aborts erased enqueued =>
    have positive := request.addressed (Or.inl method)
    cases aborts with
    | absent | committed | expired => cases erased
    | erased found notCommitted => exact paired.aborts method positive found notCommitted enqueued
  | @created log effects tsn queued ack method creates valid enqueued =>
    rcases newTxn_cases creates with ⟨_, _, zero, _⟩ | ⟨_, chosen, absent, rfl, _⟩
    · exact absurd zero valid
    · obtain ⟨positive, below⟩ := drawn tsn chosen
      exact paired.creates ⟨by omega, by omega⟩ positive absent enqueued
  | @commits out method commits =>
    have positive := request.addressed (Or.inr (Or.inl method))
    have change : Change False server.log out.log (getTsn header) none := commits.change positive (fun backup => backup primary)
    refine paired.moves (primary.of_get (commits.frame (by omega))) (moves_one change ?_ (fun _ differs => commits.frame differs))
    intro _ _ absurd
    cases absurd
  | added method adds kept enqueued =>
    have positive := request.addressed (Or.inr (Or.inr (Or.inl method)))
    rcases Convergence.adds_cases adds primary (by omega) with ⟨_, refused, _⟩ | ⟨_, record, number, next, digits, records⟩
    · rw [refused] at kept
      cases kept
    · exact paired.records adds records positive method enqueued
  | completed method adds _ code enqueued =>
    have positive := request.addressed (Or.inr (Or.inr (Or.inl method)))
    rcases Convergence.adds_cases adds primary (by omega) with ⟨_, _, other⟩ | ⟨_, record, number, next, digits, records⟩
    · exact absurd code other
    · exact paired.records adds records positive method enqueued
  | notAdded method adds refused code =>
    have positive := request.addressed (Or.inr (Or.inr (Or.inl method)))
    rcases Convergence.adds_cases adds primary (by omega) with ⟨same, _⟩ | ⟨accepted, _⟩
    · simp only [ofOutcome, same]
      exact paired
    · rcases accepted with kept | committed
      · rw [refused] at kept
        cases kept
      · exact absurd committed code
  | made method => exact absurd method request.notCreated
  | @pinged registered ack _ _ registers =>
    refine paired.moves (primary.of_get (register_frame (by decide) registers)) (moves_same ?_)
    intro tsn positive
    exact register_frame (by omega) registers
  | demoted method => exact absurd method request.notDemoted

/-- The primary marks what the backup has committed. -/
theorem Paired.marks {record : Record} {tsn seq : Int} (paired : Paired server) (range : IsInt seq) (positive : 1 ≤ tsn)
    (found : Found server.log tsn record "WRITING" (iToS seq)) (empty : server.manager.syncQueue = [])
    (taken : Taken server.link.peer.peer tsn seq) :
    Paired { server with log := mark server.log tsn record "COMMITTED" (iToS seq) } := by
  have marked := SameWrites.marked record ("COMMITTED", iToS seq)
  refine ⟨paired.primary.of_get (mark_other (by omega)), paired.alive, paired.up, ?_, paired.tracks.backup, paired.tracks.sound,
    paired.tracks.queued, ?_, paired.tracks.prompt⟩
  · intro id changed high inLog key entry from1 inRecord
    by_cases here : id = tsn
    · subst here
      obtain rfl := Option.some.inj ((mark_found _ _ _ _ _).inLog.symm.trans inLog)
      rw [marked.writes key from1] at inRecord
      exact paired.signed id record high found.inLog key entry from1 inRecord
    · have same : (mark server.log tsn record "COMMITTED" (iToS seq))[id]? = server.log[id]? := mark_other here
      exact paired.signed id changed high (same.symm.trans inLog) key entry from1 inRecord
  · intro id high
    rcases taken with parted | committed
    · exact Or.inl (Or.inl parted)
    rcases paired.tracks.tracked id high with met | tracked
    · exact Or.inl met
    refine Or.inr ?_
    by_cases here : id = tsn
    · subst here
      rw [empty] at tracked ⊢
      cases tracked with
      | gone absent =>
        rw [found.inLog] at absent
        cases absent
      | renewed _ _ shape => exact absurd shape.symm (List.append_ne_nil_of_right_ne_nil _ (List.cons_ne_nil _ _))
      | current there _ copied =>
        obtain ⟨rfl, _⟩ := found_unique there found
        refine .current (mark_found _ _ _ _ _) (fun _ member => absurd member List.not_mem_nil) ?_ ?_
        · intro twin status number held
          exact (copied twin status number held).imp (fun expired => expired) (fun below => below.grows (SameWrites.grows marked))
        · intro _
          rw [atoi_iToS range]
          exact committed
    · have change : Change False server.log (mark server.log tsn record "COMMITTED" (iToS seq)) id none := .same (mark_other here)
      exact tracked.own change

theorem doCommit_paired (honest : Honest arrival) {io : Bool} {done : Handled (Socket Clocked)} {record : Record} {seq : Int} (paired : Paired server)
    (positive : 1 ≤ getTsn header) (found : Found server.log (getTsn header) record "WRITING" (iToS seq)) (range : IsInt seq) (high : 1 ≤ seq)
    (ran : doCommit (Socket.answer (Clocked.replies arrival)) fuel io server auth header = .ok done) : Paired done.server := by
  cases CommitDecision.doCommit_writing paired.primary positive range high found ran with
  | refused commits | unwritten commits => exact (commit_paired honest paired (getTsn_isInt header) positive range high found commits).1
  | committed commits still =>
    obtain ⟨after, _, decides⟩ := commit_paired honest paired (getTsn_isInt header) positive range high found commits
    obtain ⟨empty, copied⟩ := decides rfl
    exact after.marks range positive still empty copied

theorem receive_paired (honest : Honest arrival) {payload : Option Text} {handled : Handled (Socket Clocked)} (paired : Paired server)
    (request : Request header) (drawn : ∀ draw ∈ env.draws, 1 ≤ draw ∧ draw ≤ 100000)
    (ran : receive (Socket.answer (Clocked.replies arrival)) fuel env server auth header payload = .ok handled) : Paired handled.server := by
  rcases receive_server ran with same | ⟨out, executes, same | ⟨refused, code, done, concluded, same⟩⟩
  · rw [same]
    exact paired
  · rw [same]
    exact executes_paired paired request drawn executes
  · have next := executes_paired paired request drawn executes
    have positive : 1 ≤ getTsn header := request.addressed (Or.inr ((executes.committed_method refused code).imp id Or.inl))
    obtain ⟨record, seq, high, range, found, _⟩ := CommitDecision.writing_of_committed paired.primary (by omega) executes refused code
    rw [same]
    exact doCommit_paired honest next positive found range high concluded

/-- What may happen: requests of clients, sweeps on both clocks, saves and ticks. -/
def Requested : Clocked.Event → Prop
  | .primary (.packet _ _ header _ _ _) => Request header
  | .primary .sweep | .primary .save | .primary (.tick _) | .backupSweep => True

theorem step_paired {next : Server (Socket Clocked)} {event : Clocked.Event} (honest : Honest arrival) (paired : Paired server)
    (requested : Requested event) (stepped : Clocked.step arrival fuel server event = .ok next) : Paired next := by
  cases event with
  | backupSweep =>
    obtain ⟨swept, sweeps, same⟩ := bind_eq_ok.mp stepped
    cases same
    have backup := sweep_preserves (fun _ _ _ _ holds sweeps => sweeps.notPrimary holds) paired.tracks.backup sweeps
    have sound := sweep_preserves (fun _ _ _ _ holds sweeps => sweeps_sound holds sweeps) paired.tracks.sound sweeps
    refine ⟨paired.primary, paired.alive, ⟨paired.up.connected, paired.up.answered⟩, paired.signed, backup, sound, paired.tracks.queued, ?_,
      paired.tracks.prompt⟩
    intro tsn positive
    exact (paired.tracks.tracked tsn positive).imp id (fun tracked => tracked.swept sweeps)
  | primary event =>
    cases step_cases stepped with
    | packet valid drawn received => exact receive_paired honest paired requested drawn received
    | sweep swept =>
      have each (log : Log) (key : Int) (after : Log) (erased : Bool) (paired : Paired { server with log }) (sweeps : Sweeps log key after erased) :
          Paired { server with log := after } := by
        refine paired.moves (sweeps.primary paired.primary) ?_
        intro tsn _
        exact ⟨none, sweeps.change tsn, fun _ _ absurd => by cases absurd⟩
      exact timeouts_preserves each paired swept
    | save => exact paired
    | tick checked =>
      rcases check_cases checked with ⟨_, ops⟩ | ⟨backup, _⟩
      · exact (primaryOps_paired honest paired ops).1
      · exact absurd paired.primary backup

end

/-- A primary that has opened its connection, and its backup. Neither holds a
transaction, and nothing is queued or left to be read. -/
structure Opened (server : Server (Socket Clocked)) : Prop where
  primary : IsPrimary server.log
  backup : NotPrimary server.link.peer.peer.backup.log
  alive : server.manager.alive = true
  up : Up server.link
  queue : server.manager.syncQueue = []
  unread : server.link.peer.unread = []
  bare : ∀ tsn : Int, 1 ≤ tsn → server.log[tsn]? = none ∧ server.link.peer.peer.backup.log[tsn]? = none

theorem Opened.paired {server : Server (Socket Clocked)} (opened : Opened server) : Paired server := by
  refine ⟨opened.primary, opened.alive, opened.up, ?_, opened.backup, ?_, ?_, ?_, Or.inr opened.unread⟩
  · intro tsn record positive inLog
    rw [(opened.bare tsn positive).1] at inLog
    cases inLog
  · intro tsn record positive inLog
    rw [(opened.bare tsn positive).2] at inLog
    cases inLog
  · rw [opened.queue]
    intro packet member
    cases member
  · intro tsn positive
    exact Or.inr (.gone (opened.bare tsn positive).1)

/-- The same file name, the same commit number, and the same data up to it. -/
structure SameContent (log copy : Log) (tsn : Int) : Prop where
  path : ∃ path, getFileName log tsn = .ok path ∧ getFileName copy tsn = .ok path
  data : ∃ number, getStatusData log tsn = .ok number ∧ getStatusData copy tsn = .ok number ∧
    ∀ seq : Int, 1 ≤ seq → seq ≤ number → ∃ data, getData log tsn seq = .ok data ∧ getData copy tsn seq = .ok data

section
variable {log copy : Log} {record twin : Record} {number digits : Text} {tsn : Int}

/-- A complete record that holds no data but the other's holds the same. -/
theorem sameContent_of_below (below : Below twin record) (sound : SoundRecord twin) (found : Found log tsn record "COMMITTED" number)
    (held : Found copy tsn twin "COMMITTED" digits) (numbers : atoi digits = atoi number) : SameContent log copy tsn := by
  refine ⟨?_, atoi number, found.getStatusData, by rw [held.getStatusData, numbers], ?_⟩
  · obtain ⟨marker, path, inTwin⟩ := sound.whole.file
    have file := below.file
    rw [inTwin] at file
    obtain ⟨⟨own, same⟩, inRecord, rfl⟩ := Option.map_eq_some_iff.mp file.symm
    refine ⟨same, ?_, ?_⟩
    · rw [getFileName, pair_eq_ok.mpr ⟨record, found.inLog, inRecord⟩]
      rfl
    · rw [getFileName, pair_eq_ok.mpr ⟨twin, held.inLog, inTwin⟩]
      rfl
  · intro seq high low
    obtain ⟨_, entries⟩ := sound.complete _ _ held.entry (Or.inr rfl)
    obtain ⟨⟨header, data⟩, inTwin⟩ := Store.mem_iff_get.mp (entries seq high (numbers ▸ low))
    obtain ⟨other, inRecord⟩ := below.data seq header data high inTwin
    refine ⟨data, ?_, ?_⟩
    · rw [getData, pair_eq_ok.mpr ⟨record, found.inLog, inRecord⟩]
      rfl
    · rw [getData, pair_eq_ok.mpr ⟨twin, held.inLog, inTwin⟩]
      rfl

/-- However replies arrive, what both servers have committed under an id is the
same unless a MAKE_TXN of that id met a record on the backup that had not expired,
or some COMMIT found several writes missing there. -/
theorem committed_contents_agree_unless_met_or_parted {fuel : Nat} {server final : Server (Socket Clocked)} {events : List Clocked.Event}
    (opened : Opened server) (requested : ∀ event ∈ events, Requested event)
    (ran : events.foldlM (Clocked.step Backup.echoed fuel) server = .ok final) (positive : 1 ≤ tsn) (unmet : tsn ∉ final.link.peer.peer.met)
    (together : final.link.peer.peer.parted = false)
    (own : getStatus final.log tsn = .ok "COMMITTED") (other : getStatus final.link.peer.peer.backup.log tsn = .ok "COMMITTED") :
    SameContent final.log final.link.peer.peer.backup.log tsn := by
  have paired : Paired final := by
    refine run_preserves Paired ?_ (along_of_forall requested server) opened.paired ran
    intro server event next paired requested stepped
    exact step_paired echoed_honest paired requested stepped
  obtain ⟨record, number, found⟩ := found_of_getStatus own
  obtain ⟨twin, digits, held⟩ := found_of_getStatus other
  rcases paired.tracks.tracked tsn positive with (parted | met) | tracked
  · rw [together] at parted
    cases parted
  · exact absurd met unmet
  cases tracked with
  | gone absent =>
    rw [found.inLog] at absent
    cases absent
  | renewed there notCommitted => exact absurd (found_unique found there).2.1.symm notCommitted
  | current there _ copied committed =>
    obtain ⟨rfl, same, rfl⟩ := found_unique there found
    rcases copied _ _ _ held with expired | below
    · exact absurd expired (by decide)
    · obtain ⟨again, text, last, numbers⟩ := committed same
      obtain ⟨rfl, _, rfl⟩ := found_unique last held
      exact sameContent_of_below below (paired.tracks.sound.found positive held) found held numbers

end

/-- A primary and its backup with the connection open. -/
private def connected : Server (Socket Clocked) :=
  let backup : Backup := System.start ⟨"ip", "81", "dir"⟩ false ∅ () [] []
  { log := serverData ∅ "ip" "80" "primary" "dir", manager := { alive := true }, link := { peer := { peer := { backup } }, connected := true } }

private theorem connected_opened : Opened connected := by
  have absent (ip port role : Text) (tsn : Int) (positive : 1 ≤ tsn) : (serverData ∅ ip port role "dir")[tsn]? = none := by
    rw [serverData_eq, Store.get_insert_other (by omega), Store.get_erase_other (by omega)]
    exact Std.ExtTreeMap.getElem?_empty
  refine ⟨serverData_role _ _ _ _ _, ?_, rfl, ⟨rfl, fun _ member => absurd member List.not_mem_nil⟩, rfl, rfl, ?_⟩
  · intro primary
    exact absurd (Except.ok.inj ((serverData_role ∅ "ip" "81" "backup" "dir").symm.trans primary)) (by decide)
  · intro tsn positive
    exact ⟨absent _ _ _ tsn positive, absent _ _ _ tsn positive⟩

private def create (path : Text) : Clocked.Event := .primary (.packet { draws := [5] } false "NEW_TXN -1 0 3" (some path) (Eq.refl true) System.five_drawn)

private def write (data : Text) : Clocked.Event := .primary (.packet {} false "WRITE 5 1 4" (some data) (Eq.refl true) System.nothing_drawn)

private def commit : Clocked.Event := .primary (.packet {} false "COMMIT 5 1 0" none (Eq.refl true) System.nothing_drawn)

private theorem requests (path data : Text) : Requested (create path) ∧ Requested (write data) ∧ Requested commit :=
  ⟨⟨by decide, by decide, fun replicated => absurd replicated (by unfold Replicated; decide)⟩, ⟨by decide, by decide, fun _ => by decide⟩,
    ⟨by decide, by decide, fun _ => by decide⟩⟩

private def plainRun : List Clocked.Event := [create "aa", write "old", .backupSweep, commit]

/-- The primary has swept its first transaction away when it draws the id again;
the backup has not. -/
private def redrawnRun : List Clocked.Event :=
  [create "aa", write "old", .primary (.tick {}), .primary .sweep, .primary .sweep, .primary .sweep, create "bb", write "new", commit]

private def shown (server : Server (Socket Clocked)) : List (Exec Text) × List Int × Bool :=
  ([getStatus server.log 5, getFileName server.log 5, getData server.log 5 1, getStatus server.link.peer.peer.backup.log 5,
    getFileName server.link.peer.peer.backup.log 5, getData server.link.peer.peer.backup.log 5 1], server.link.peer.peer.met, server.link.peer.peer.parted)

theorem transaction_committed_between_sweeps_agrees : ∃ final, plainRun.foldlM (Clocked.step Backup.echoed 5) connected = .ok final ∧
    getStatus final.log 5 = .ok "COMMITTED" ∧ SameContent final.log final.link.peer.peer.backup.log 5 := by
  obtain ⟨final, ran⟩ := returned_of_isOk (show (plainRun.foldlM (Clocked.step Backup.echoed 5) connected).isOk by decide +kernel)
  have seen : (plainRun.foldlM (Clocked.step Backup.echoed 5) connected).map shown =
      .ok ([.ok "COMMITTED", .ok "aa", .ok "old", .ok "COMMITTED", .ok "aa", .ok "old"], [], false) := by decide +kernel
  rw [ran] at seen
  simp only [shown, Except.map, Except.ok.injEq, Prod.mk.injEq, List.cons.injEq] at seen
  obtain ⟨⟨own, _, _, other, _⟩, unmet, together⟩ := seen
  have requested : ∀ event ∈ plainRun, Requested event := by
    obtain ⟨creates, writes, commits⟩ := requests "aa" "old"
    simp only [plainRun, List.forall_mem_cons, List.not_mem_nil, false_implies, implies_true, and_true]
    exact ⟨creates, writes, trivial, commits⟩
  refine ⟨final, ran, own, committed_contents_agree_unless_met_or_parted connected_opened requested ran (by decide) ?_ together own other⟩
  rw [unmet]
  exact List.not_mem_nil

/-- The backup kept the first transaction: it took the COMMIT of the second one for it. -/
theorem redrawn_id_commits_different_contents : Opened connected ∧ (∀ event ∈ redrawnRun, Requested event) ∧
    ∃ final, redrawnRun.foldlM (Clocked.step Backup.echoed 5) connected = .ok final ∧ getStatus final.log 5 = .ok "COMMITTED" ∧
      getStatus final.link.peer.peer.backup.log 5 = .ok "COMMITTED" ∧ getFileName final.log 5 = .ok "bb" ∧
      getFileName final.link.peer.peer.backup.log 5 = .ok "aa" ∧ getData final.log 5 1 = .ok "new" ∧
      getData final.link.peer.peer.backup.log 5 1 = .ok "old" := by
  obtain ⟨final, ran⟩ := returned_of_isOk (show (redrawnRun.foldlM (Clocked.step Backup.echoed 5) connected).isOk by decide +kernel)
  have seen : (redrawnRun.foldlM (Clocked.step Backup.echoed 5) connected).map shown =
      .ok ([.ok "COMMITTED", .ok "bb", .ok "new", .ok "COMMITTED", .ok "aa", .ok "old"], [5], false) := by decide +kernel
  rw [ran] at seen
  simp only [shown, Except.map, Except.ok.injEq, Prod.mk.injEq, List.cons.injEq] at seen
  obtain ⟨⟨own, path, data, other, held, kept, _⟩, _⟩ := seen
  have requested : ∀ event ∈ redrawnRun, Requested event := by
    obtain ⟨first, writes, commits⟩ := requests "aa" "old"
    obtain ⟨second, again, _⟩ := requests "bb" "new"
    simp only [redrawnRun, List.forall_mem_cons, List.not_mem_nil, false_implies, implies_true, and_true]
    exact ⟨first, writes, trivial, trivial, trivial, trivial, second, again, commits⟩
  exact ⟨connected_opened, requested, final, ran, own, other, path, held, data, kept⟩

end TransactionalServer.Proofs.Agreement
