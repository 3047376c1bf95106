import TransactionalServer.Library.Outbox
import TransactionalServer.Proofs.Pending

/-! The queue of a primary as an outbox, whatever the peer is. The manager may
hand over the first packet more than once; what its peer settles in changes only
by the packets that are put into the queue and by the commits that are asked for. -/

namespace TransactionalServer.Proofs.Shipping
open ServerTools LogHandler Exec Session ReplicationManager Pending Outbox

variable {π : Type} {answer : Answer π} {ready : π → Prop} {fits : Text × Text → Prop} {fuel : Nat}

/-- The peer after a packet has reached it, its own file append succeeding. -/
def handled (answer : Answer π) (peer : π) (packet : Text × Text) : Exec π := return (← answer peer true packet.1 packet.2).1

theorem handled_eq_ok {peer after : π} {packet : Text × Text} :
    handled answer peer packet = .ok after ↔ ∃ reply, answer peer true packet.1 packet.2 = .ok (after, reply) := by
  simp only [handled, bind_eq_ok, pure_eq_ok, Except.ok.injEq, Prod.exists]
  constructor
  · rintro ⟨_, reply, ran, rfl⟩
    exact ⟨reply, ran⟩
  · rintro ⟨reply, ran⟩
    exact ⟨after, reply, ran, rfl⟩

/-- A primary whose peer settles in this state. -/
structure Ships (answer : Answer π) (ready : π → Prop) (fits : Text × Text → Prop) (server : Server π) (settled : π) : Prop where
  primary : IsPrimary server.log
  files : ∀ wire ∈ server.link.wires, Writes wire
  pends : Pends (handled answer) ready fits server.manager.syncQueue server.link.peer settled

/-- A settled peer that handles this COMMIT acknowledges it. -/
structure Confirms (answer : Answer π) (fits : Text × Text → Prop) (header : Text) (settled next : π) : Prop where
  fit : fits (header, " ")
  taken : handled answer settled (header, " ") = .ok next
  word : ∀ after text, answer settled true header " " = .ok (after, some text) →
    (replyWords (Client.readReply text))[0]? = some "ACK".toList

/-- The settled peer has every commit that a check asks for. -/
def Covered (answer : Answer π) (fits : Text × Text → Prop) (log : Log) (settled : π) : Prop :=
  ∀ kept holder, LogKept log kept → getCommits kept = .ok holder → ∀ header ∈ holder, Confirms answer fits header settled settled

theorem Covered.kept {log after : Log} {settled : π} (covered : Covered answer fits log settled) (kept : LogKept log after) :
    Covered answer fits after settled :=
  fun later holder still gathered => covered later holder (kept.trans still) gathered

section
variable {server final : Server π} {settled next : π} {header data : Text}

theorem Ships.of_same (ships : Ships answer ready fits server settled) (primary : IsPrimary final.log)
    (queue : final.manager.syncQueue = server.manager.syncQueue) (peer : final.link.peer = server.link.peer)
    (wires : final.link.wires = server.link.wires) : Ships answer ready fits final settled := by
  refine ⟨primary, ?_, ?_⟩
  · rw [wires]
    exact ships.files
  · rw [queue, peer]
    exact ships.pends

/-- One request: it has not arrived, or the peer has handled it. -/
theorem sendReceive_handles {link after : Link π} {result : Option Text} (files : ∀ wire ∈ link.wires, Writes wire)
    (ran : Client.sendReceive answer link header data = .ok (result, after)) :
    (∀ wire ∈ after.wires, Writes wire) ∧
      ((result = none ∧ after.peer = link.peer) ∨
        ∃ reply, answer link.peer true header data = .ok (after.peer, reply) ∧
          (result = none ∨ ∃ text, reply = some text ∧ result = some (Client.readReply text))) := by
  have script {wire : Wire} {wires : List Wire} (next : Client.nextWire link.wires = (wire, wires)) :
      Writes wire ∧ ∀ other ∈ wires, Writes other := by
    unfold Client.nextWire at next
    split at next
    next => cases next; exact ⟨⟨by decide, by decide⟩, fun _ member => absurd member List.not_mem_nil⟩
    next shape =>
      cases next
      rw [shape] at files
      exact ⟨files _ List.mem_cons_self, fun other member => files other (List.mem_cons_of_mem _ member)⟩
  cases sendReceive_cases ran with
  | down => exact ⟨files, Or.inl ⟨rfl, rfl⟩⟩
  | lostRequest _ next => exact ⟨(script next).2, Or.inl ⟨rfl, rfl⟩⟩
  | @lostReply io wires peer reply _ next handled =>
    obtain ⟨writes, rest⟩ := script next
    cases io with
    | true => exact ⟨rest, Or.inr ⟨reply, handled, Or.inl rfl⟩⟩
    | false => exact absurd rfl writes.2
  | @answered io wires peer text _ next handled =>
    obtain ⟨writes, rest⟩ := script next
    cases io with
    | true => exact ⟨rest, Or.inr ⟨_, handled, Or.inr ⟨text, rfl, rfl⟩⟩⟩
    | false => exact absurd rfl writes.1

theorem checkCommits_ships {commit : Server π → Text → Exec (Bool × Server π)}
    (shipped : ∀ server header done final, Ships answer ready fits server settled → Covered answer fits server.log settled →
      Confirms answer fits header settled settled → commit server header = .ok (done, final) →
      Ships answer ready fits final settled ∧ LogKept server.log final.log)
    {holder : List Text} (ships : Ships answer ready fits server settled) (covered : Covered answer fits server.log settled)
    (named : ∀ header ∈ holder, Confirms answer fits header settled settled) {done : Bool}
    (ran : checkCommits commit holder server = .ok (done, final)) : Ships answer ready fits final settled := by
  induction holder generalizing server with
  | nil =>
    cases ran
    exact ships
  | cons header rest ih =>
    unfold checkCommits at ran
    obtain ⟨⟨done, next⟩, committed, ran⟩ := bind_eq_ok.mp ran
    obtain ⟨still, kept⟩ := shipped _ _ _ _ ships covered (named header List.mem_cons_self) committed
    cases done with
    | true => exact ih still (covered.kept kept) (fun other member => named other (List.mem_cons_of_mem _ member)) ran
    | false =>
      cases ran
      exact still

variable (idempotent : Idempotent (handled answer) ready fits)
include idempotent

theorem Ships.enqueue (ships : Ships answer ready fits server settled) (fit : fits (header, data))
    (taken : handled answer settled (header, data) = .ok next) {queued : Server π}
    (enqueued : ReplicationManager.enqueue server header data = .ok queued) : Ships answer ready fits queued next := by
  rw [enqueue_queued ships.primary, Except.ok.injEq] at enqueued
  subst enqueued
  exact ⟨ships.primary, ships.files, ships.pends.put idempotent fit taken⟩

/-- A packet leaves the queue when its reply has been read, and not before. -/
theorem drain_ships {queue : List (Text × Text)} (primary : IsPrimary server.log) (files : ∀ wire ∈ server.link.wires, Writes wire)
    (pends : Pends (handled answer) ready fits queue server.link.peer settled) (ran : drain answer queue server = .ok final) :
    Ships answer ready fits final settled := by
  induction queue generalizing server with
  | nil =>
    cases ran
    exact ⟨primary, files, pends⟩
  | cons packet rest ih =>
    obtain ⟨header, data⟩ := packet
    unfold drain at ran
    obtain ⟨⟨result, link⟩, sent, ran⟩ := bind_eq_ok.mp ran
    obtain ⟨wires, fate⟩ := sendReceive_handles files sent
    rcases fate with ⟨rfl, same⟩ | ⟨reply, handled, fate⟩
    · cases ran
      exact ⟨primary, wires, same ▸ pends⟩
    · have taken := (@handled_eq_ok π answer _ _ (header, data)).mpr ⟨reply, handled⟩
      rcases fate with rfl | ⟨text, _, rfl⟩
      · cases ran
        exact ⟨primary, wires, pends.retry idempotent taken⟩
      · exact @ih { server with link } primary wires (pends.pop idempotent taken) ran

/-- The last request of a commit, once the queue is empty. -/
theorem commit_asked (ships : Ships answer ready fits server settled) (empty : server.manager.syncQueue = [])
    (acknowledges : Confirms answer fits header settled next) {result : Option Text} {link : Link π}
    (sent : Client.sendReceive answer server.link header " " = .ok (result, link)) :
    match result with
    | none => Ships answer ready fits { server with link } settled ∨ Ships answer ready fits { server with link } next
    | some text => (replyWords text)[0]? = some "ACK".toList ∧ Ships answer ready fits { server with link } next := by
  have pends := ships.pends
  rw [empty] at pends
  obtain rfl := pends.empty
  obtain ⟨wires, fate⟩ := sendReceive_handles ships.files sent
  have nothing {peer : π} (start : ready peer) (reached : link.peer = peer) : Ships answer ready fits { server with link } peer := by
    refine ⟨ships.primary, wires, ?_⟩
    rw [empty, reached]
    exact .nothing start
  rcases fate with ⟨rfl, reached⟩ | ⟨reply, handled, fate⟩
  · exact Or.inl (nothing pends.ready reached)
  · have taken := (@handled_eq_ok π answer _ _ (header, " ")).mpr ⟨reply, handled⟩
    obtain rfl := Except.ok.inj (taken.symm.trans acknowledges.taken)
    have further := nothing (idempotent.stays pends.ready acknowledges.fit taken) rfl
    rcases fate with rfl | ⟨text, rfl, rfl⟩
    · exact Or.inr further
    · exact ⟨acknowledges.word _ _ handled, further⟩

/-- The packet of a commit that was not answered goes to the queue, whether the
peer has handled it or not. -/
theorem commit_deferred (start : ready settled) (acknowledges : Confirms answer fits header settled next)
    (either : Ships answer ready fits server settled ∨ Ships answer ready fits server next) {queued : Server π}
    (enqueued : ReplicationManager.enqueue server header " " = .ok queued) : Ships answer ready fits queued next := by
  rcases either with ships | ships
  · exact ships.enqueue idempotent acknowledges.fit acknowledges.taken enqueued
  · exact ships.enqueue idempotent acknowledges.fit (idempotent.again start acknowledges.fit acknowledges.taken) enqueued

/-- Whatever the connection does, the calls of the manager leave the settled peer
as it is, but for the COMMIT that is asked for; and that succeeds. -/
theorem manager_ships (fuel : Nat) :
    (∀ (server final : Server π) settled, Ships answer ready fits server settled → Covered answer fits server.log settled →
        primaryOps answer fuel server = .ok final → Ships answer ready fits final settled) ∧
      (∀ (server final : Server π) settled next header done, Ships answer ready fits server settled → Covered answer fits server.log settled →
        Confirms answer fits header settled next → ReplicationManager.commit answer fuel server header = .ok (done, final) →
        done = true ∧ Ships answer ready fits final next) ∧
      ∀ (server final : Server π) settled done, Ships answer ready fits server settled → Covered answer fits server.log settled →
        integrityCheck answer fuel server = .ok (done, final) → Ships answer ready fits final settled := by
  induction fuel with
  | zero => simp [primaryOps, ReplicationManager.commit, integrityCheck]
  | succ fuel ih =>
    obtain ⟨tick, commits, checks⟩ := ih
    refine ⟨?_, ?_, ?_⟩
    · intro server final settled ships covered ran
      have connected {target : Server π} {up : Bool} {next : Link π} (refreshed : refreshTarget server = .ok target)
          (attempt : Client.connectSocket target.link = (up, next)) : Ships answer ready fits (setAlive { target with link := next } up) settled := by
        obtain ⟨log, link, queue⟩ := refreshTarget_keeps refreshed
        have same : next.peer = target.link.peer ∧ next.wires = target.link.wires := by
          unfold Client.connectSocket at attempt
          split at attempt
          · cases attempt
            exact ⟨rfl, rfl⟩
          · cases attempt
            exact ⟨rfl, rfl⟩
        exact ships.of_same (log ▸ ships.primary) queue (by rw [← link]; exact same.1) (by rw [← link]; exact same.2)
      cases primaryOps_cases ran with
      | drains _ drained => exact drain_ships idempotent ships.primary ships.files ships.pends drained
      | fails _ refreshed down =>
        have opened := connected refreshed down
        exact opened.of_same (opened.primary.of_get (Store.get_erase_other (by decide))) rfl rfl rfl
      | checks _ refreshed up check => exact checks _ _ _ _ (connected refreshed up) ((refreshTarget_keeps refreshed).1 ▸ covered) check
      | idle => exact ships
    · intro server final settled next header done ships covered acknowledges ran
      obtain ⟨synced, synchronised, round⟩ := commit_round ships.primary ran
      have ships := tick _ _ _ ships covered synchronised
      have covered := covered.kept ((manager_keeps _ fuel).1 _ _ synchronised)
      have start := ships.pends.settled_ready idempotent
      cases round with
      | away _ enqueued => exact ⟨rfl, commit_deferred idempotent start acknowledges (Or.inl ships) enqueued⟩
      | unsynced _ _ again => exact commits _ _ _ _ _ _ ships covered acknowledges again
      | lost _ empty sent enqueued =>
        have either := commit_asked idempotent ships empty acknowledges sent
        have queued := commit_deferred idempotent start acknowledges either enqueued
        exact ⟨rfl, queued.of_same queued.primary rfl rfl rfl⟩
      | acked _ empty sent => exact ⟨rfl, (commit_asked idempotent ships empty acknowledges sent).2⟩
      | resent _ empty sent word =>
        rw [(commit_asked idempotent ships empty acknowledges sent).1] at word
        exact absurd word (by decide)
      | created _ empty sent word =>
        rw [(commit_asked idempotent ships empty acknowledges sent).1] at word
        exact absurd word (by decide)
      | refused _ empty sent notAck => exact absurd (commit_asked idempotent ships empty acknowledges sent).1 notAck
    · intro server final settled done ships covered ran
      obtain ⟨opened, holder, checked, opening, gathered, check, ends⟩ := integrityCheck_cases ran
      rcases openCheck_cases opening with ⟨_, rfl⟩ | ⟨backup, _⟩
      case inr => exact absurd ships.primary backup
      have named := covered _ _ (.refl _) gathered
      have still : Ships answer ready fits checked settled := by
        refine checkCommits_ships ?_ ships covered (fun header member => named header (List.mem_reverse.mp member)) check
        intro server header done final ships covered acknowledges committed
        exact ⟨(commits _ _ _ _ _ _ ships covered acknowledges committed).2, (manager_keeps _ fuel).2.1 _ _ _ _ committed⟩
      rcases ends with rfl | ⟨backup, _⟩
      · exact still
      · exact absurd still.primary backup

end

end TransactionalServer.Proofs.Shipping
