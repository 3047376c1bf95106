import TransactionalServer.Proofs.Redelivery
import TransactionalServer.Proofs.ManagerFrames
import TransactionalServer.Proofs.Settling

/-! The backup as it will be once the queue of its primary has drained. Nothing
that the connection does on the way changes it. -/

namespace TransactionalServer.Proofs.Pending
open ServerTools LogHandler Exec Session ReplicationManager

variable {arrival : Backup.Arrival} {fuel : Nat}

/-- A packet of the queue, about a transaction. -/
structure Deliverable (packet : Text × Text) : Prop where
  replicated : Replicated packet.1
  answerable : Answerable packet.1
  positive : 1 ≤ getTsn packet.1

/-- A backup that handles every packet of the queue. -/
structure Receptive (backup : Backup) : Prop where
  notPrimary : NotPrimary backup.log
  role : ∃ role, getServerStatus backup.log = .ok role
  whole : ∀ tsn : Int, 1 ≤ tsn → Whole backup.log tsn

section
variable {backup after : Backup} {packet : Text × Text} {reply : Option Text}

theorem receptive_of_answer (honest : Honest arrival) (receptive : Receptive backup) (deliverable : Deliverable packet) {io : Bool}
    (ran : Backup.answer arrival backup io packet.1 packet.2 = .ok (after, reply)) : Receptive after := by
  obtain ⟨arrived, payload, log, text, sent, handles, same, _⟩ := answer_handles honest receptive.notPrimary deliverable.replicated ran
  have positive := deliverable.positive
  obtain ⟨_, tsn, _⟩ := honest.same _ _ _ _ sent
  refine ⟨answer_notPrimary receptive.notPrimary ran, ?_, ?_⟩
  · obtain ⟨role, read⟩ := receptive.role
    refine ⟨role, ?_⟩
    simp only [same]
    rw [getServerStatus_of_get (handles.frame (by omega)), read]
  · intro tsn positive
    simp only [same]
    exact handles.whole (receptive.whole tsn positive)

theorem deliver_eq_ok : Backup.deliver arrival backup packet = .ok after ↔
    ∃ reply, Backup.answer arrival backup true packet.1 packet.2 = .ok (after, reply) := by
  simp only [Backup.deliver, bind_eq_ok, pure_eq_ok, Except.ok.injEq, Prod.exists]
  constructor
  · rintro ⟨_, reply, ran, rfl⟩
    exact ⟨reply, ran⟩
  · rintro ⟨reply, ran⟩
    exact ⟨after, reply, ran, rfl⟩

theorem deliver_returns (honest : Honest arrival) (receptive : Receptive backup) (deliverable : Deliverable packet) :
    ∃ after, Backup.deliver arrival backup packet = .ok after ∧ Receptive after := by
  have positive := deliverable.positive
  obtain ⟨after, reply, ran⟩ := answer_returns honest receptive.notPrimary receptive.role (receptive.whole _ positive) deliverable.answerable
    (by omega) deliverable.replicated packet.2 true
  exact ⟨after, deliver_eq_ok.mpr ⟨reply, ran⟩, receptive_of_answer honest receptive deliverable ran⟩

/-- A packet that arrives again changes nothing. -/
theorem deliver_twice (honest : Honest arrival) (receptive : Receptive backup) (deliverable : Deliverable packet)
    (delivered : Backup.deliver arrival backup packet = .ok after) : Backup.deliver arrival after packet = .ok after := by
  obtain ⟨reply, ran⟩ := deliver_eq_ok.mp delivered
  have still := receptive_of_answer honest receptive deliverable ran
  obtain ⟨again, redelivered, _⟩ := deliver_returns honest still deliverable
  obtain ⟨second, reran⟩ := deliver_eq_ok.mp redelivered
  rw [redelivered, Except.ok.injEq]
  simp only [Backup.answer, bind_eq_ok, pure_eq_ok, Except.ok.injEq, Prod.mk.injEq] at ran reran
  obtain ⟨⟨arrived, payload⟩, sent, first, received, rfl, _⟩ := ran
  obtain ⟨⟨_, _⟩, resent, next, rereceived, rfl, _⟩ := reran
  obtain ⟨rfl, rfl⟩ := Prod.mk.inj (Except.ok.inj (sent.symm.trans resent))
  obtain ⟨method, tsn, _, answerable, _⟩ := honest.same _ _ _ _ sent
  have replicated : Replicated arrived := by
    rw [Replicated, method]
    exact deliverable.replicated
  obtain ⟨log, once, operates, same, _⟩ := Redelivery.receive_operates receptive.notPrimary replicated received
  obtain ⟨final, twice, reoperates, again, _⟩ := Redelivery.receive_operates still.notPrimary replicated rereceived
  rw [same] at reoperates again
  obtain ⟨settled, _⟩ := operates.twice reoperates receptive.notPrimary answerable (by rw [tsn]; exact deliverable.positive)
  rw [again, same, settled]

end

/-- What the backup will be once it has handled the queue. -/
def pending (arrival : Backup.Arrival) (server : Server Backup) : Exec Backup :=
  server.manager.syncQueue.foldlM (Backup.deliver arrival) server.link.peer

/-- An exchange in which the backup, if it is reached, can write its file. -/
def Writes (wire : Wire) : Prop := wire ≠ .up false ∧ wire ≠ .lostReply false

/-- A primary that owes its backup packets, and the backup that has them. -/
structure Owes (arrival : Backup.Arrival) (server : Server Backup) (after : Backup) : Prop where
  primary : IsPrimary server.log
  queue : ∀ packet ∈ server.manager.syncQueue, Deliverable packet
  peer : Receptive server.link.peer
  files : ∀ wire ∈ server.link.wires, Writes wire
  drained : pending arrival server = .ok after

theorem receptive_of_run (honest : Honest arrival) {packets : List (Text × Text)} {backup after : Backup} (receptive : Receptive backup)
    (deliverable : ∀ packet ∈ packets, Deliverable packet) (ran : packets.foldlM (Backup.deliver arrival) backup = .ok after) : Receptive after := by
  induction packets generalizing backup with
  | nil =>
    cases ran
    exact receptive
  | cons packet packets ih =>
    rw [List.foldlM_cons] at ran
    obtain ⟨next, delivered, ran⟩ := bind_eq_ok.mp ran
    obtain ⟨reply, ran'⟩ := deliver_eq_ok.mp delivered
    have still := receptive_of_answer honest receptive (deliverable packet List.mem_cons_self) ran'
    exact ih still (fun other member => deliverable other (List.mem_cons_of_mem _ member)) ran

section
variable {server final : Server Backup} {after : Backup}

theorem Owes.receptive (honest : Honest arrival) (owes : Owes arrival server after) : Receptive after :=
  receptive_of_run honest owes.peer owes.queue owes.drained

/-- The primary's own log and the rest of its manager have no part in it. -/
theorem Owes.of_same (owes : Owes arrival server after) (primary : IsPrimary final.log)
    (queue : final.manager.syncQueue = server.manager.syncQueue) (peer : final.link.peer = server.link.peer)
    (wires : final.link.wires = server.link.wires) : Owes arrival final after := by
  refine ⟨primary, ?_, ?_, ?_, ?_⟩
  · rw [queue]
    exact owes.queue
  · rw [peer]
    exact owes.peer
  · rw [wires]
    exact owes.files
  · rw [pending, queue, peer]
    exact owes.drained

theorem Owes.enqueue (owes : Owes arrival server after) {header data : Text} {next : Backup} (deliverable : Deliverable (header, data))
    (delivered : Backup.deliver arrival after (header, data) = .ok next) {queued : Server Backup}
    (enqueued : ReplicationManager.enqueue server header data = .ok queued) : Owes arrival queued next := by
  rw [enqueue_queued owes.primary, Except.ok.injEq] at enqueued
  subst enqueued
  refine ⟨owes.primary, ?_, owes.peer, owes.files, ?_⟩
  · intro packet member
    rcases List.mem_append.mp member with earlier | new
    · exact owes.queue packet earlier
    · cases List.mem_singleton.mp new
      exact deliverable
  · have drained := owes.drained
    unfold pending at drained ⊢
    simp only [Server.queued]
    rw [List.foldlM_append, drained, ok_bind, List.foldlM_cons, delivered]
    rfl

/-- One request to the backup: it has not arrived, or the backup has handled it. -/
theorem sendReceive_delivers {link next : Link Backup} {header data : Text} {result : Option Text} (files : ∀ wire ∈ link.wires, Writes wire)
    (ran : Client.sendReceive (Backup.answer arrival) link header data = .ok (result, next)) :
    (∀ wire ∈ next.wires, Writes wire) ∧
      ((result = none ∧ next.peer = link.peer) ∨
        ∃ reply, Backup.answer arrival link.peer true header data = .ok (next.peer, reply) ∧
          (result = none ∨ ∃ text, reply = some text ∧ result = some (Client.readReply text))) := by
  have script {wire : Wire} {wires : List Wire} (next : Client.nextWire link.wires = (wire, wires)) :
      Writes wire ∧ ∀ other ∈ wires, Writes other := by
    unfold Client.nextWire at next
    split at next
    next => cases next; exact ⟨⟨by decide, by decide⟩, fun _ member => absurd member List.not_mem_nil⟩
    next shape =>
      cases next
      rw [shape] at files
      exact ⟨files _ List.mem_cons_self, fun other member => files other (List.mem_cons_of_mem _ member)⟩
  cases sendReceive_cases ran with
  | down => exact ⟨files, Or.inl ⟨rfl, rfl⟩⟩
  | lostRequest _ next => exact ⟨(script next).2, Or.inl ⟨rfl, rfl⟩⟩
  | @lostReply io wires peer reply _ next handled =>
    obtain ⟨writes, rest⟩ := script next
    cases io with
    | true => exact ⟨rest, Or.inr ⟨reply, handled, Or.inl rfl⟩⟩
    | false => exact absurd rfl writes.2
  | @answered io wires peer text _ next handled =>
    obtain ⟨writes, rest⟩ := script next
    cases io with
    | true => exact ⟨rest, Or.inr ⟨_, handled, Or.inr ⟨text, rfl, rfl⟩⟩⟩
    | false => exact absurd rfl writes.1

/-- A packet that stays in the queue is delivered again, without effect. -/
theorem drain_owes (honest : Honest arrival) {queue : List (Text × Text)} (primary : IsPrimary server.log)
    (deliverable : ∀ packet ∈ queue, Deliverable packet) (receptive : Receptive server.link.peer) (files : ∀ wire ∈ server.link.wires, Writes wire)
    (drained : queue.foldlM (Backup.deliver arrival) server.link.peer = .ok after)
    (ran : drain (Backup.answer arrival) queue server = .ok final) : Owes arrival final after := by
  induction queue generalizing server with
  | nil =>
    cases ran
    exact ⟨primary, deliverable, receptive, files, drained⟩
  | cons packet rest ih =>
    obtain ⟨header, data⟩ := packet
    have first := deliverable _ List.mem_cons_self
    unfold drain at ran
    obtain ⟨⟨result, link⟩, sent, ran⟩ := bind_eq_ok.mp ran
    obtain ⟨wires, fate⟩ := sendReceive_delivers files sent
    rcases fate with ⟨rfl, same⟩ | ⟨reply, handled, fate⟩
    · cases ran
      refine ⟨primary, deliverable, ?_, wires, ?_⟩
      · simp only [same]
        exact receptive
      · simp only [pending, same]
        exact drained
    · have delivered := (@deliver_eq_ok arrival _ _ (header, data)).mpr ⟨reply, handled⟩
      have still : Receptive link.peer := @receptive_of_answer arrival _ _ (header, data) _ honest receptive first true handled
      rw [List.foldlM_cons, delivered, ok_bind] at drained
      rcases fate with rfl | ⟨text, _, rfl⟩
      · cases ran
        refine ⟨primary, deliverable, still, wires, ?_⟩
        simp only [pending]
        rw [List.foldlM_cons, deliver_twice honest receptive first delivered, ok_bind, drained]
      · exact @ih { server with link } primary (fun other member => deliverable other (List.mem_cons_of_mem _ member)) still wires drained ran

end

/-- A log that takes COMMIT `seq` of a transaction, and what it is then. -/
inductive Takes (log : Log) (tsn seq : Int) : Log → Prop where
  | already {record : Record} {number : Text} (found : Found log tsn record "COMMITTED" number) (same : atoi number = seq) : Takes log tsn seq log
  | complete {record : Record} {status number : Text} (found : Found log tsn record status number) (allowed : Open status number seq)
      (complete : missing record seq = []) : Takes log tsn seq (mark log tsn record "COMMITTED" (iToS seq))

/-- What a backup takes it acknowledges. -/
theorem Takes.settles {log settled next : Log} {tsn seq : Int} {word code : Text} (takes : Takes log tsn seq next)
    (settles : Settles log tsn seq true settled word code) : settled = next ∧ word = "ACK" := by
  cases takes with
  | already found same =>
    cases settles with
    | absent absent =>
      rw [found.inLog] at absent
      cases absent
    | already => exact ⟨rfl, rfl⟩
    | expired other => exact absurd (found_unique found other).2.1 (by decide)
    | otherNumber other _ differs =>
      obtain ⟨_, _, rfl⟩ := found_unique found other
      exact absurd same differs
    | incomplete other allowed => exact absurd (found_unique found other).2.1.symm allowed.committed
    | written other allowed => exact absurd (found_unique found other).2.1.symm allowed.committed
    | failed other allowed => exact absurd (found_unique found other).2.1.symm allowed.committed
  | complete found allowed complete =>
    cases settles with
    | absent absent =>
      rw [found.inLog] at absent
      cases absent
    | already other => exact absurd (found_unique found other).2.1 allowed.committed
    | expired other => exact absurd (found_unique found other).2.1 allowed.expired
    | otherNumber other pending differs =>
      obtain ⟨_, rfl, rfl⟩ := found_unique found other
      rcases pending with waiting | committed
      · exact absurd (allowed.waiting waiting) differs
      · exact absurd committed allowed.committed
    | incomplete other _ gaps =>
      obtain ⟨rfl, _⟩ := found_unique found other
      exact absurd complete gaps
    | written other =>
      obtain ⟨rfl, _⟩ := found_unique found other
      exact ⟨rfl, rfl⟩
    | failed _ _ _ refused => cases refused

/-- A COMMIT of a transaction, as the primary sends it. -/
structure Commit (tsn seq : Int) : Prop where
  tsnRange : IsInt tsn
  positive : 1 ≤ tsn
  range : IsInt seq
  high : 1 ≤ seq

theorem Commit.deliverable {tsn seq : Int} (commit : Commit tsn seq) : Deliverable (commitMessage tsn seq, " ") := by
  refine ⟨Or.inr (Or.inl (commitMessage_parse tsn seq)), ⟨_, _, _, _, commitMessage_fields tsn seq⟩, ?_⟩
  simp only [commitMessage_getTsn commit.tsnRange]
  exact commit.positive

section
variable {backup : Backup} {tsn seq : Int} {next : Log}

theorem Takes.answered (honest : Honest arrival) (receptive : Receptive backup) (commit : Commit tsn seq) (takes : Takes backup.log tsn seq next)
    {settled : Backup} {reply : Option Text}
    (ran : Backup.answer arrival backup true (commitMessage tsn seq) " " = .ok (settled, reply)) :
    settled = { backup with log := next } ∧ ∀ text, reply = some text → (replyWords (Client.readReply text))[0]? = some "ACK".toList := by
  obtain ⟨log, word, code, text, settles, same, replied, reads⟩ :=
    answer_commit_cases honest receptive.notPrimary commit.tsnRange commit.range commit.high commit.positive ran
  obtain ⟨rfl, rfl⟩ := takes.settles settles
  refine ⟨same, ?_⟩
  intro other given
  obtain rfl := Option.some.inj (replied.symm.trans given)
  obtain ⟨third, rest, words⟩ := reads.words
  rw [replyWords, words]
  rfl

theorem Takes.delivered (honest : Honest arrival) (receptive : Receptive backup) (commit : Commit tsn seq) (takes : Takes backup.log tsn seq next) :
    Backup.deliver arrival backup (commitMessage tsn seq, " ") = .ok { backup with log := next } := by
  obtain ⟨settled, delivered, _⟩ := deliver_returns honest receptive commit.deliverable
  obtain ⟨reply, ran⟩ := deliver_eq_ok.mp delivered
  rw [delivered, (takes.answered honest receptive commit ran).1]

end

/-- The transactions that one log has committed, the other has too. -/
def Covers (log after : Log) : Prop :=
  ∀ (tsn : Int) record number, 1 ≤ tsn → Found log tsn record "COMMITTED" number →
    IsInt tsn ∧ 1 ≤ atoi number ∧ ∃ other digits, Found after tsn other "COMMITTED" digits ∧ atoi digits = atoi number

theorem Covers.kept {log kept after : Log} (covers : Covers log after) (same : LogKept log kept) : Covers kept after := by
  intro tsn record number positive found
  exact covers tsn record number positive ⟨(same.other (by omega)).symm.trans found.inLog, found.entry⟩

/-- The headers that the check of a primary goes through. -/
theorem getCommits_named {log : Log} {holder : List Text} (primary : IsPrimary log) (ran : getCommits log = .ok holder) :
    ∀ header ∈ holder, ∃ tsn record number, 1 ≤ tsn ∧ Found log tsn record "COMMITTED" number ∧ header = commitMessage tsn (atoi number) := by
  intro header member
  obtain ⟨tsn, record, number, low, found, same⟩ := (getCommits_names log).returns _ ran header member
  refine ⟨tsn, record, number, ?_, found, same⟩
  have notServer : tsn ≠ 0 := by
    rintro rfl
    have read : getServerStatus log = .ok "COMMITTED" := found.getStatus
    rw [primary, Except.ok.injEq] at read
    exact absurd read (by decide)
  omega

theorem connectSocket_keeps {link next : Link Backup} {up : Bool} (attempt : Client.connectSocket link = (up, next)) :
    next.peer = link.peer ∧ next.wires = link.wires := by
  unfold Client.connectSocket at attempt
  split at attempt
  · cases attempt
    exact ⟨rfl, rfl⟩
  · cases attempt
    exact ⟨rfl, rfl⟩

section
variable {server final : Server Backup} {settled : Backup}

/-- The last request of a commit, once the queue is empty. -/
theorem commit_sent (honest : Honest arrival) (owes : Owes arrival server settled) (empty : server.manager.syncQueue = []) {tsn seq : Int}
    (commit : Commit tsn seq) {next : Log} (takes : Takes settled.log tsn seq next) {result : Option Text} {link : Link Backup}
    (sent : Client.sendReceive (Backup.answer arrival) server.link (commitMessage tsn seq) " " = .ok (result, link)) :
    match result with
    | none => Owes arrival { server with link := link } settled ∨ Owes arrival { server with link := link } { settled with log := next }
    | some text => (replyWords text)[0]? = some "ACK".toList ∧ Owes arrival { server with link := link } { settled with log := next } := by
  have same : server.link.peer = settled := by
    have drained := owes.drained
    rw [pending, empty] at drained
    cases drained
    rfl
  have receptive := owes.receptive honest
  obtain ⟨wires, fate⟩ := sendReceive_delivers owes.files sent
  have without {peer : Backup} (still : Receptive peer) (reached : link.peer = peer) : Owes arrival { server with link } peer := by
    refine ⟨owes.primary, owes.queue, ?_, wires, ?_⟩
    · rw [reached]
      exact still
    · rw [pending, empty]
      simp only [reached]
      rfl
  rcases fate with ⟨rfl, reached⟩ | ⟨reply, handled, fate⟩
  · exact Or.inl (without receptive (reached.trans same))
  · rw [same] at handled
    obtain ⟨reached, acknowledged⟩ := takes.answered honest receptive commit handled
    have still := @receptive_of_answer arrival settled link.peer (commitMessage tsn seq, " ") reply honest receptive commit.deliverable true handled
    have taken := without (reached ▸ still) reached
    rcases fate with rfl | ⟨text, replied, rfl⟩
    · exact Or.inr taken
    · exact ⟨acknowledged text replied, taken⟩

/-- The packet of a commit that was not answered goes to the queue, whether the
backup has handled it or not. -/
theorem commit_queued (honest : Honest arrival) {tsn seq : Int} (commit : Commit tsn seq) {next : Log} (takes : Takes settled.log tsn seq next)
    (receptive : Receptive settled) (either : Owes arrival server settled ∨ Owes arrival server { settled with log := next })
    {queued : Server Backup} (enqueued : enqueue server (commitMessage tsn seq) " " = .ok queued) :
    Owes arrival queued { settled with log := next } := by
  have delivered := takes.delivered honest receptive commit
  rcases either with owes | owes
  · exact owes.enqueue commit.deliverable delivered enqueued
  · exact owes.enqueue commit.deliverable (deliver_twice honest receptive commit.deliverable delivered) enqueued

/-- The check asks for commits that the backup will have made. -/
theorem checkCommits_owes {commit : Server Backup → Text → Exec (Bool × Server Backup)} {log : Log}
    (owed : ∀ (server final : Server Backup) tsn seq done, Owes arrival server settled → Covers server.log settled.log → Commit tsn seq →
      Takes settled.log tsn seq settled.log → commit server (commitMessage tsn seq) = .ok (done, final) →
      Owes arrival final settled ∧ LogKept server.log final.log)
    {holder : List Text} (owes : Owes arrival server settled) (covers : Covers log settled.log) (kept : LogKept log server.log)
    (named : ∀ header ∈ holder, ∃ tsn record number, 1 ≤ tsn ∧ Found log tsn record "COMMITTED" number ∧ header = commitMessage tsn (atoi number))
    {done : Bool} (ran : checkCommits commit holder server = .ok (done, final)) : Owes arrival final settled := by
  induction holder generalizing server with
  | nil =>
    cases ran
    exact owes
  | cons header rest ih =>
    obtain ⟨tsn, record, number, positive, found, rfl⟩ := named header List.mem_cons_self
    obtain ⟨range, high, other, digits, already, same⟩ := covers tsn record number positive found
    unfold checkCommits at ran
    obtain ⟨⟨done, next⟩, committed, ran⟩ := bind_eq_ok.mp ran
    obtain ⟨still, further⟩ := owed _ _ _ _ _ owes (covers.kept kept) ⟨range, positive, atoi_isInt number, high⟩ (.already already same) committed
    cases done with
    | true => exact ih still (kept.trans further) (fun other member => named other (List.mem_cons_of_mem _ member)) ran
    | false =>
      cases ran
      exact still

/-- Whatever the connection does, the calls of the manager leave what the backup
will be, but for the COMMIT that is asked for; and that succeeds. -/
theorem manager_owes (honest : Honest arrival) (fuel : Nat) :
    (∀ (server final : Server Backup) settled, Owes arrival server settled → Covers server.log settled.log →
        primaryOps (Backup.answer arrival) fuel server = .ok final → Owes arrival final settled) ∧
      (∀ (server final : Server Backup) settled tsn seq next done, Owes arrival server settled → Covers server.log settled.log → Commit tsn seq →
        Takes settled.log tsn seq next → ReplicationManager.commit (Backup.answer arrival) fuel server (commitMessage tsn seq) = .ok (done, final) →
        done = true ∧ Owes arrival final { settled with log := next }) ∧
      ∀ (server final : Server Backup) settled done, Owes arrival server settled → Covers server.log settled.log →
        integrityCheck (Backup.answer arrival) fuel server = .ok (done, final) → Owes arrival final settled := by
  induction fuel with
  | zero => simp [primaryOps, ReplicationManager.commit, integrityCheck]
  | succ fuel ih =>
    obtain ⟨tick, commits, checks⟩ := ih
    refine ⟨?_, ?_, ?_⟩
    · intro server final settled owes covers ran
      have connected {target : Server Backup} {up : Bool} {next : Link Backup} (refreshed : refreshTarget server = .ok target)
          (attempt : Client.connectSocket target.link = (up, next)) : Owes arrival (setAlive { target with link := next } up) settled := by
        obtain ⟨log, link, queue⟩ := refreshTarget_keeps refreshed
        obtain ⟨peer, wires⟩ := connectSocket_keeps attempt
        exact owes.of_same (log ▸ owes.primary) queue (by rw [← link]; exact peer) (by rw [← link]; exact wires)
      cases primaryOps_cases ran with
      | drains _ drained => exact drain_owes honest owes.primary owes.queue owes.peer owes.files owes.drained drained
      | fails _ refreshed down =>
        have opened := connected refreshed down
        exact opened.of_same (opened.primary.of_get (Store.get_erase_other (by decide))) rfl rfl rfl
      | checks _ refreshed up check => exact checks _ _ _ _ (connected refreshed up) ((refreshTarget_keeps refreshed).1 ▸ covers) check
      | idle => exact owes
    · intro server final settled tsn seq next done owes covers commit takes ran
      obtain ⟨synced, synchronised, round⟩ := commit_round owes.primary ran
      have owes := tick _ _ _ owes covers synchronised
      have covers := covers.kept ((manager_keeps _ fuel).1 _ _ synchronised)
      have receptive := owes.receptive honest
      cases round with
      | away _ enqueued => exact ⟨rfl, commit_queued honest commit takes receptive (Or.inl owes) enqueued⟩
      | unsynced _ _ again => exact commits _ _ _ _ _ _ _ owes covers commit takes again
      | lost _ empty sent enqueued =>
        have either := commit_sent honest owes empty commit takes sent
        have queued := commit_queued honest commit takes receptive either enqueued
        exact ⟨rfl, queued.of_same queued.primary rfl rfl rfl⟩
      | acked _ empty sent => exact ⟨rfl, (commit_sent honest owes empty commit takes sent).2⟩
      | resent _ empty sent word =>
        rw [(commit_sent honest owes empty commit takes sent).1] at word
        exact absurd word (by decide)
      | created _ empty sent word =>
        rw [(commit_sent honest owes empty commit takes sent).1] at word
        exact absurd word (by decide)
      | refused _ empty sent notAck => exact absurd (commit_sent honest owes empty commit takes sent).1 notAck
    · intro server final settled done owes covers ran
      obtain ⟨opened, holder, checked, opening, gathered, check, ends⟩ := integrityCheck_cases ran
      rcases openCheck_cases opening with ⟨_, rfl⟩ | ⟨backup, _⟩
      case inr => exact absurd owes.primary backup
      have named := getCommits_named owes.primary gathered
      have still : Owes arrival checked settled := by
        refine checkCommits_owes ?_ owes covers (LogKept.refl _) ?_ check
        · intro server final tsn seq done owes covers commit already committed
          exact ⟨(commits _ _ _ _ _ _ _ owes covers commit already committed).2, (manager_keeps _ fuel).2.1 _ _ _ _ committed⟩
        · intro header member
          exact named header (List.mem_reverse.mp member)
      rcases ends with rfl | ⟨backup, _⟩
      · exact still
      · exact absurd still.primary backup

end

end TransactionalServer.Proofs.Pending
