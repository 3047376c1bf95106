import TransactionalServer.Proofs.Frames

/-! One call of the replication manager, case by case. The calls re-enter each
other with less fuel, so run lemmas go by induction on the fuel. -/

namespace TransactionalServer.Proofs
open ServerTools LogHandler Exec ReplicationManager

variable {π : Type} {answer : Answer π} {fuel : Nat}

def IsPrimary (log : Log) : Prop := getServerStatus log = .ok "primary"

theorem IsPrimary.of_get {log other : Log} (primary : IsPrimary log) (same : other[(0 : Int)]? = log[(0 : Int)]?) :
    IsPrimary other := by
  unfold IsPrimary
  rw [getServerStatus_of_get same]
  exact primary

/-- The words of what `sendReceive` returned. -/
abbrev replyWords (result : Text) : List Text := Fields.split [' '] result

/-- What a round of `commit` does once the queue has been synchronised. -/
inductive Round (answer : Answer π) (fuel : Nat) (synced : Server π) (header : Text) : Bool → Server π → Prop where
  | away {queued : Server π} (down : synced.manager.alive = false)
      (enqueued : enqueue synced header " " = .ok queued) : Round answer fuel synced header true queued
  | unsynced {done : Bool} {final : Server π} (alive : synced.manager.alive = true)
      (pending : synced.manager.syncQueue ≠ []) (again : ReplicationManager.commit answer fuel synced header = .ok (done, final)) :
      Round answer fuel synced header done final
  | lost {link : Link π} {queued : Server π} (alive : synced.manager.alive = true) (empty : synced.manager.syncQueue = [])
      (sent : Client.sendReceive answer synced.link header " " = .ok (none, link))
      (enqueued : enqueue { synced with link } header " " = .ok queued) :
      Round answer fuel synced header true (setAlive queued false)
  | acked {link : Link π} {result : Text} (alive : synced.manager.alive = true) (empty : synced.manager.syncQueue = [])
      (sent : Client.sendReceive answer synced.link header " " = .ok (some result, link))
      (word : (replyWords result)[0]? = some "ACK".toList) : Round answer fuel synced header true { synced with link }
  | resent {link : Link π} {result : Text} {queued final : Server π} {done : Bool} (alive : synced.manager.alive = true)
      (empty : synced.manager.syncQueue = [])
      (sent : Client.sendReceive answer synced.link header " " = .ok (some result, link))
      (word : (replyWords result)[0]? = some "ACK_RESEND".toList)
      (resends : resend { synced with link } (getTsn header) = .ok queued)
      (again : ReplicationManager.commit answer fuel queued header = .ok (done, final)) : Round answer fuel synced header done final
  | created {link : Link π} {result file : Text} {queued final : Server π} {done : Bool}
      (alive : synced.manager.alive = true) (empty : synced.manager.syncQueue = [])
      (sent : Client.sendReceive answer synced.link header " " = .ok (some result, link))
      (word : (replyWords result)[0]? = some "ERROR".toList) (code : (replyWords result)[3]? = some "201".toList)
      (named : getFileName synced.log (getTsn header) = .ok file)
      (enqueued : enqueue { synced with link } ("MAKE_TXN " ++ iToS (getTsn header) ++ " -1 0") file = .ok queued)
      (again : ReplicationManager.commit answer fuel queued header = .ok (done, final)) : Round answer fuel synced header done final
  | refused {link : Link π} {result : Text} (alive : synced.manager.alive = true) (empty : synced.manager.syncQueue = [])
      (sent : Client.sendReceive answer synced.link header " " = .ok (some result, link))
      (notAck : (replyWords result)[0]? ≠ some "ACK".toList) (notResend : (replyWords result)[0]? ≠ some "ACK_RESEND".toList)
      (notMissing : (replyWords result)[0]? = some "ERROR".toList →
        ∃ code, (replyWords result)[3]? = some code ∧ code ≠ "201".toList) :
      Round answer fuel synced header false { synced with link }

theorem commit_round {server final : Server π} {header : Text} {done : Bool} (primary : IsPrimary server.log)
    (ran : ReplicationManager.commit answer (fuel + 1) server header = .ok (done, final)) :
    ∃ synced, primaryOps answer fuel server = .ok synced ∧ Round answer fuel synced header done final := by
  have role : (("primary".toList : Text) == "primary".toList) = true := by decide
  unfold ReplicationManager.commit at ran
  rw [primary, ok_bind] at ran
  simp only [role, if_true] at ran
  obtain ⟨synced, synchronised, ran⟩ := bind_eq_ok.mp ran
  refine ⟨synced, synchronised, ?_⟩
  cases alive : synced.manager.alive with
  | false =>
    simp only [alive, Bool.false_and, Bool.false_eq_true, if_false, bind_eq_ok, pure_eq_ok, Except.ok.injEq, Prod.mk.injEq] at ran
    obtain ⟨queued, enqueued, rfl, rfl⟩ := ran
    exact .away alive enqueued
  | true =>
    cases queue : synced.manager.syncQueue with
    | cons packet rest =>
      simp only [alive, queue, List.isEmpty_cons, Bool.and_false, Bool.false_eq_true, if_false, Bool.not_false, Bool.and_true,
        if_true] at ran
      exact .unsynced alive (by simp [queue]) ran
    | nil =>
      simp only [alive, queue, List.isEmpty_nil, Bool.and_true, if_true] at ran
      obtain ⟨⟨result, link⟩, sent, ran⟩ := bind_eq_ok.mp ran
      cases result with
      | none =>
        simp only [bind_eq_ok, pure_eq_ok, Except.ok.injEq, Prod.mk.injEq] at ran
        obtain ⟨queued, enqueued, rfl, rfl⟩ := ran
        exact .lost alive queue sent enqueued
      | some result =>
        simp only at ran
        split at ran
        next word =>
          cases ran
          exact .acked alive queue sent word
        next notAck =>
        simp only [Bool.not_true, Bool.false_eq_true, if_false] at ran
        split at ran
        next word =>
          obtain ⟨queued, resends, again⟩ := bind_eq_ok.mp ran
          exact .resent alive queue sent word resends again
        next notResend =>
        split at ran
        next word =>
          obtain ⟨code, inReply, ran⟩ := bind_eq_ok.mp ran
          split at ran
          next missing =>
            obtain ⟨file, named, ran⟩ := bind_eq_ok.mp ran
            obtain ⟨queued, enqueued, again⟩ := bind_eq_ok.mp ran
            subst missing
            exact .created alive queue sent word (defined_eq_ok.mp inReply) named enqueued again
          next found =>
            cases ran
            exact .refused alive queue sent notAck notResend (fun _ => ⟨code, defined_eq_ok.mp inReply, found⟩)
        next notError =>
          cases ran
          exact .refused alive queue sent notAck notResend (fun word => absurd word notError)

theorem commit_of_round {server synced final : Server π} {header : Text} {done : Bool} (primary : IsPrimary server.log)
    (synchronised : primaryOps answer fuel server = .ok synced)
    (round : Round answer fuel synced header done final) :
    ReplicationManager.commit answer (fuel + 1) server header = .ok (done, final) := by
  have role : (("primary".toList : Text) == "primary".toList) = true := by decide
  have resend : ("ACK_RESEND".toList : Text) ≠ "ACK".toList := by decide
  have error : ("ERROR".toList : Text) ≠ "ACK".toList := by decide
  have notResend : ("ERROR".toList : Text) ≠ "ACK_RESEND".toList := by decide
  unfold ReplicationManager.commit
  rw [primary, ok_bind]
  simp only [role, if_true, synchronised, ok_bind]
  cases round with
  | away down enqueued => simp only [down, Bool.false_and, Bool.false_eq_true, if_false, enqueued, ok_bind, pure_eq_ok]
  | unsynced alive pending again =>
    have filled : synced.manager.syncQueue.isEmpty = false := by simpa using pending
    simp only [alive, filled, Bool.and_false, Bool.false_eq_true, if_false, Bool.not_false, Bool.and_true, if_true, again]
  | lost alive empty sent enqueued =>
    simp only [alive, empty, List.isEmpty_nil, Bool.and_true, if_true, sent, ok_bind, enqueued, pure_eq_ok]
  | acked alive empty sent word =>
    simp only [alive, empty, List.isEmpty_nil, Bool.and_true, if_true, sent, ok_bind, word, pure_eq_ok]
  | resent alive empty sent word resends again =>
    simp only [alive, empty, List.isEmpty_nil, Bool.and_true, if_true, sent, ok_bind, word, Option.some.injEq, resend, if_false,
      Bool.not_true, Bool.false_eq_true, resends, again]
  | created alive empty sent word code named enqueued again =>
    simp only [alive, empty, List.isEmpty_nil, Bool.and_true, if_true, sent, ok_bind, word, Option.some.injEq, error, notResend,
      if_false, Bool.not_true, Bool.false_eq_true, code, defined_some, named, enqueued, again]
  | refused alive empty sent notAck notResend notMissing =>
    simp only [alive, empty, List.isEmpty_nil, Bool.and_true, if_true, sent, ok_bind, notAck, notResend, if_false, Bool.not_true,
      Bool.false_eq_true]
    split
    next word =>
      obtain ⟨code, inReply, other⟩ := notMissing word
      simp only [inReply, defined_some, ok_bind, other, if_false, pure_eq_ok]
    next => rfl

/-- What a round of `commit` does on a server that is not the primary. -/
inductive BackupRound (answer : Answer π) (fuel : Nat) (server : Server π) (header : Text) : Bool → Server π → Prop where
  | away (down : server.manager.alive = false) : BackupRound answer fuel server header true server
  | unsynced {done : Bool} {final : Server π} (alive : server.manager.alive = true) (pending : server.manager.syncQueue ≠ [])
      (again : ReplicationManager.commit answer fuel server header = .ok (done, final)) : BackupRound answer fuel server header done final
  | lost {link : Link π} (sent : Client.sendReceive answer server.link header " " = .ok (none, link)) :
      BackupRound answer fuel server header true (setAlive { server with link } false)
  | acked {link : Link π} {result : Text} (sent : Client.sendReceive answer server.link header " " = .ok (some result, link)) :
      BackupRound answer fuel server header true { server with link }
  | kills {link killed : Link π} {result : Text} (sent : Client.sendReceive answer server.link header " " = .ok (some result, link))
      (kill : Client.sendPacket link (Client.genRequest "KILL" "-1" "0" " ") = (true, killed)) :
      BackupRound answer fuel server header false { server with
        link := Client.closeSocket killed,
        manager := { server.manager with ip := "0.0.0.0", port := "0", tries := 4, restarted := true } }
  | unheard {link left : Link π} {result : Text} (sent : Client.sendReceive answer server.link header " " = .ok (some result, link))
      (kill : Client.sendPacket link (Client.genRequest "KILL" "-1" "0" " ") = (false, left)) :
      BackupRound answer fuel server header true (setAlive { server with link := left } false)

theorem backup_round {server final : Server π} {header : Text} {done : Bool} (backup : NotPrimary server.log)
    (ran : ReplicationManager.commit answer (fuel + 1) server header = .ok (done, final)) : BackupRound answer fuel server header done final := by
  unfold ReplicationManager.commit at ran
  obtain ⟨role, read, ran⟩ := bind_eq_ok.mp ran
  have notPrimary : (role == ("primary" : Text)) = false := by
    rw [beq_eq_false_iff_ne]
    intro primary
    exact backup (primary ▸ read)
  simp only [notPrimary, Bool.false_eq_true, if_false, ok_bind] at ran
  cases alive : server.manager.alive with
  | false =>
    simp only [alive, Bool.false_and, Bool.false_eq_true, if_false] at ran
    obtain ⟨queued, enqueued, same⟩ := bind_eq_ok.mp ran
    cases same
    obtain rfl := enqueue_backup backup enqueued
    exact .away alive
  | true =>
    cases queue : server.manager.syncQueue with
    | cons packet rest =>
      simp only [alive, queue, List.isEmpty_cons, Bool.and_false, Bool.false_eq_true, if_false, Bool.not_false, Bool.and_true,
        if_true] at ran
      exact .unsynced alive (by simp [queue]) ran
    | nil =>
      simp only [alive, queue, List.isEmpty_nil, Bool.and_true, if_true, Bool.not_false] at ran
      obtain ⟨⟨result, link⟩, sent, ran⟩ := bind_eq_ok.mp ran
      cases result with
      | none =>
        obtain ⟨queued, enqueued, same⟩ := bind_eq_ok.mp ran
        cases same
        obtain rfl := @enqueue_backup π { server with link } _ _ _ backup enqueued
        exact .lost sent
      | some result =>
        simp only at ran
        split at ran
        · cases ran
          exact .acked sent
        rcases kill : Client.sendPacket link (Client.genRequest "KILL" "-1" "0" " ") with ⟨sends, left⟩
        rw [kill] at ran
        cases sends with
        | true =>
          cases ran
          exact .kills sent kill
        | false =>
          obtain ⟨queued, enqueued, same⟩ := bind_eq_ok.mp ran
          cases same
          obtain rfl := @enqueue_backup π { server with link := left } _ _ _ backup enqueued
          exact .unheard sent kill

theorem refreshTarget_cases {server target : Server π} (ran : refreshTarget server = .ok target) :
    target = server ∨ ∃ ip port, target = changeConnection server ip port := by
  unfold refreshTarget at ran
  split at ran
  · obtain ⟨ip, _, ran⟩ := bind_eq_ok.mp ran
    obtain ⟨port, _, same⟩ := bind_eq_ok.mp ran
    cases same
    exact Or.inr ⟨ip, port, rfl⟩
  · cases ran
    exact Or.inl rfl

theorem refreshTarget_keeps {server target : Server π} (ran : refreshTarget server = .ok target) :
    target.log = server.log ∧ target.link = server.link ∧ target.manager.syncQueue = server.manager.syncQueue := by
  rcases refreshTarget_cases ran with rfl | ⟨_, _, rfl⟩
  · exact ⟨rfl, rfl, rfl⟩
  · exact ⟨rfl, rfl, rfl⟩

/-- What a tick of the manager does on a primary. -/
inductive Ops (answer : Answer π) (fuel : Nat) (server : Server π) : Server π → Prop where
  | drains {final : Server π} (alive : server.manager.alive = true) (drained : drain answer server.manager.syncQueue server = .ok final) :
      Ops answer fuel server final
  | fails {target : Server π} {link : Link π} (dead : server.manager.alive = false) (refreshed : refreshTarget server = .ok target)
      (down : Client.connectSocket target.link = (false, link)) :
      Ops answer fuel server { target with
        log := target.log.erase (-1), link, manager := { target.manager with alive := false, triedConnect := true } }
  | checks {target final : Server π} {link : Link π} {done : Bool} (dead : server.manager.alive = false)
      (refreshed : refreshTarget server = .ok target) (up : Client.connectSocket target.link = (true, link))
      (check : integrityCheck answer fuel (setAlive { target with link } true) = .ok (done, final)) : Ops answer fuel server final
  | idle : Ops answer fuel server server

theorem primaryOps_cases {server final : Server π} (ran : primaryOps answer (fuel + 1) server = .ok final) : Ops answer fuel server final := by
  unfold primaryOps at ran
  split at ran
  next syncs => exact .drains (Bool.and_eq_true_iff.mp syncs).1 ran
  split at ran
  next connects =>
    have dead : server.manager.alive = false := by simpa using (Bool.and_eq_true_iff.mp connects).1
    obtain ⟨target, refreshed, ran⟩ := bind_eq_ok.mp ran
    rcases attempt : Client.connectSocket target.link with ⟨up, link⟩
    rw [attempt] at ran
    cases up with
    | false =>
      obtain ⟨log, deleted, same⟩ := bind_eq_ok.mp ran
      obtain ⟨_, _, erased⟩ := bind_eq_ok.mp deleted
      cases erased
      cases same
      exact @Ops.fails π answer fuel server target link dead refreshed attempt
    | true =>
      obtain ⟨⟨done, checked⟩, check, same⟩ := bind_eq_ok.mp ran
      cases same
      exact .checks dead refreshed attempt check
  next =>
    cases ran
    exact .idle

/-- Only a server that is not the primary connects before it checks. -/
theorem openCheck_cases {server opened : Server π} (ran : openCheck server = .ok opened) :
    (IsPrimary server.log ∧ opened = server) ∨
      (NotPrimary server.log ∧ ∃ up link, Client.connectSocket server.link = (up, link) ∧
        opened = if up = true then setAlive { server with link } true else { server with link }) := by
  unfold openCheck at ran
  obtain ⟨role, read, ran⟩ := bind_eq_ok.mp ran
  split at ran
  next other =>
    refine Or.inr ⟨fun primary => other (Except.ok.inj (read.symm.trans primary)), _, _, rfl, ?_⟩
    cases ran
    rfl
  next primary =>
    obtain rfl := not_ne_iff.mp primary
    cases ran
    exact Or.inl ⟨read, rfl⟩

/-- A check asks for every commit, and a backup closes its connection after it. -/
theorem integrityCheck_cases {server final : Server π} {done : Bool} (ran : integrityCheck answer (fuel + 1) server = .ok (done, final)) :
    ∃ opened holder checked, openCheck server = .ok opened ∧ getCommits opened.log = .ok holder ∧
      checkCommits (ReplicationManager.commit answer fuel) holder.reverse opened = .ok (done, checked) ∧
      (final = checked ∨
        (NotPrimary checked.log ∧ final = setAlive { checked with link := Client.closeSocket checked.link } false)) := by
  unfold integrityCheck at ran
  obtain ⟨opened, opens, ran⟩ := bind_eq_ok.mp ran
  obtain ⟨holder, gathered, ran⟩ := bind_eq_ok.mp ran
  obtain ⟨⟨agreed, checked⟩, checks, ran⟩ := bind_eq_ok.mp ran
  obtain ⟨status, read, ran⟩ := bind_eq_ok.mp ran
  split at ran
  next closes =>
    cases ran
    refine ⟨opened, holder, checked, opens, gathered, checks, Or.inr ⟨?_, rfl⟩⟩
    intro primary
    exact closes.1 (Except.ok.inj (read.symm.trans primary))
  next =>
    cases ran
    exact ⟨opened, holder, final, opens, gathered, checks, Or.inl rfl⟩

/-- What the network makes of one request. -/
inductive Exchange (answer : Answer π) (link : Link π) (header data : Text) : Option Text → Link π → Prop where
  | down (down : link.connected = false) : Exchange answer link header data none link
  | lostRequest {wires : List Wire} (up : link.connected = true) (next : Client.nextWire link.wires = (.lostRequest, wires)) :
      Exchange answer link header data none { link with connected := false, wires }
  | lostReply {io : Bool} {wires : List Wire} {peer : π} {reply : Option Text} (up : link.connected = true)
      (next : Client.nextWire link.wires = (.lostReply io, wires)) (handled : answer link.peer io header data = .ok (peer, reply)) :
      Exchange answer link header data none { link with peer, connected := false, wires }
  | answered {io : Bool} {wires : List Wire} {peer : π} {text : Text} (up : link.connected = true)
      (next : Client.nextWire link.wires = (.up io, wires)) (handled : answer link.peer io header data = .ok (peer, some text)) :
      Exchange answer link header data (some (Client.readReply text)) { link with peer, wires }

theorem exchange_cases {link after : Link π} {header data : Text} {result : Option Text}
    (ran : Client.exchange answer link header data = .ok (result, after)) : Exchange answer link header data result after := by
  unfold Client.exchange at ran
  cases up : link.connected with
  | false =>
    simp only [up, Bool.not_false, if_true, pure_eq_ok, Except.ok.injEq, Prod.mk.injEq] at ran
    obtain ⟨rfl, rfl⟩ := ran
    exact .down up
  | true =>
    simp only [up, Bool.not_true, Bool.false_eq_true, if_false] at ran
    rcases next : Client.nextWire link.wires with ⟨wire, wires⟩
    rw [next] at ran
    cases wire with
    | lostRequest =>
      cases ran
      exact .lostRequest up next
    | lostReply io =>
      simp only at ran
      obtain ⟨⟨peer, reply⟩, handled, same⟩ := bind_eq_ok.mp ran
      cases same
      exact .lostReply up next handled
    | up io =>
      simp only at ran
      obtain ⟨⟨peer, reply⟩, handled, ran⟩ := bind_eq_ok.mp ran
      obtain ⟨text, given, same⟩ := bind_eq_ok.mp ran
      cases same
      obtain rfl : reply = some text := finished_eq_ok.mp given
      have exchange := Exchange.answered up next handled
      rw [up] at exchange
      exact exchange

theorem sendReceive_cases {link after : Link π} {header data : Text} {result : Option Text}
    (ran : Client.sendReceive answer link header data = .ok (result, after)) : Exchange answer link header data result after := by
  obtain ⟨_, _, ran⟩ := bind_eq_ok.mp ran
  exact exchange_cases ran

/-- A working connection: every exchange still to come is answered. -/
structure Up (link : Link π) : Prop where
  connected : link.connected = true
  answered : ∀ wire ∈ link.wires, ∃ io, wire = .up io

theorem Up.next {link : Link π} (up : Up link) {wire : Wire} {wires : List Wire} (next : Client.nextWire link.wires = (wire, wires)) :
    (∃ io, wire = .up io) ∧ ∀ other ∈ wires, ∃ io, other = .up io := by
  unfold Client.nextWire at next
  split at next
  · cases next
    exact ⟨⟨true, rfl⟩, fun _ member => absurd member List.not_mem_nil⟩
  next shape =>
    cases next
    refine ⟨up.answered _ (by rw [shape]; exact List.mem_cons_self), ?_⟩
    intro other member
    exact up.answered other (by rw [shape]; exact List.mem_cons_of_mem _ member)

theorem Up.sendReceive {link after : Link π} (up : Up link) {header data : Text} {result : Option Text}
    (ran : Client.sendReceive answer link header data = .ok (result, after)) :
    ∃ io text, answer link.peer io header data = .ok (after.peer, some text) ∧ result = some (Client.readReply text) ∧ Up after := by
  cases sendReceive_cases ran with
  | down down =>
    rw [up.connected] at down
    cases down
  | lostRequest _ next =>
    obtain ⟨⟨_, absurd⟩, _⟩ := up.next next
    cases absurd
  | lostReply _ next =>
    obtain ⟨⟨_, absurd⟩, _⟩ := up.next next
    cases absurd
  | @answered io wires peer text _ next handled => exact ⟨io, text, handled, rfl, up.connected, (up.next next).2⟩

/-- What a drain over a working connection does to the server: the queue is
empty and the peer has handled its packets. -/
theorem drain_up {queue : List (Text × Text)} {server final : Server π} {keeps : π → Prop} (up : Up server.link)
    (kept : ∀ packet ∈ queue, ∀ peer io after reply, keeps peer → answer peer io packet.1 packet.2 = .ok (after, reply) → keeps after)
    (holds : keeps server.link.peer) (ran : drain answer queue server = .ok final) :
    final.log = server.log ∧ final.manager = { server.manager with syncQueue := [] } ∧ Up final.link ∧ keeps final.link.peer := by
  induction queue generalizing server with
  | nil =>
    cases ran
    exact ⟨rfl, rfl, up, holds⟩
  | cons packet rest ih =>
    obtain ⟨header, data⟩ := packet
    unfold drain at ran
    obtain ⟨⟨reply, link⟩, sent, ran⟩ := bind_eq_ok.mp ran
    obtain ⟨io, text, handled, rfl, after⟩ := up.sendReceive sent
    simp only at ran
    exact @ih { server with link } after (fun packet member => kept packet (List.mem_cons_of_mem _ member))
      (kept _ List.mem_cons_self _ _ _ _ holds handled) ran

theorem drain_empty {server : Server π} (empty : server.manager.syncQueue = []) : drain answer [] server = .ok server := by
  unfold drain
  rw [← empty]
  rfl

/-- With an open connection the tick only drains the queue. -/
theorem primaryOps_alive {server : Server π} (alive : server.manager.alive = true) :
    primaryOps answer (fuel + 1) server = drain answer server.manager.syncQueue server := by
  unfold primaryOps
  cases queue : server.manager.syncQueue with
  | cons packet rest => simp only [alive, List.isEmpty_cons, Bool.not_false, Bool.and_true, if_true]
  | nil =>
    rw [drain_empty queue]
    simp only [alive, List.isEmpty_nil, Bool.not_true, Bool.and_false, Bool.false_and, Bool.false_eq_true, if_false, pure_eq_ok]

theorem primaryOps_up {server final : Server π} {keeps : π → Prop} (alive : server.manager.alive = true) (up : Up server.link)
    (kept : ∀ packet ∈ server.manager.syncQueue, ∀ peer io after reply, keeps peer →
      answer peer io packet.1 packet.2 = .ok (after, reply) → keeps after)
    (holds : keeps server.link.peer) (ran : primaryOps answer fuel server = .ok final) :
    final.log = server.log ∧ final.manager = { server.manager with syncQueue := [] } ∧ Up final.link ∧ keeps final.link.peer := by
  cases fuel with
  | zero => simp [primaryOps] at ran
  | succ fuel =>
    rw [primaryOps_alive alive] at ran
    exact drain_up up kept holds ran

/-- Packets put at the end of the queue. -/
def Server.queued (server : Server π) (packets : List (Text × Text)) : Server π :=
  { server with manager := { server.manager with syncQueue := server.manager.syncQueue ++ packets } }

theorem enqueue_queued {server : Server π} (primary : IsPrimary server.log) (header data : Text) :
    enqueue server header data = .ok (Server.queued server [(header, data)]) := enqueue_primary primary header data

private theorem queued_queued (server : Server π) (first second : List (Text × Text)) :
    Server.queued (Server.queued server first) second = Server.queued server (first ++ second) := by
  simp only [Server.queued, List.append_assoc]

private theorem resend_loop {tsn : Int} {seqs : List Int} {server final : Server π} (primary : IsPrimary server.log)
    (ran : seqs.foldlM (fun server seq => do
      enqueue server (← getHeader server.log tsn seq) (← getData server.log tsn seq)) server = .ok final) :
    ∃ packets, seqs.mapM (pair server.log tsn) = .ok packets ∧ final = Server.queued server packets := by
  induction seqs generalizing server with
  | nil =>
    cases ran
    exact ⟨[], rfl, by simp [Server.queued]⟩
  | cons seq seqs ih =>
    rw [List.foldlM_cons] at ran
    obtain ⟨next, enqueued, ran⟩ := bind_eq_ok.mp ran
    simp only [getHeader, getData, bind_eq_ok, pure_eq_ok, Except.ok.injEq] at enqueued
    obtain ⟨_, ⟨entry, read, rfl⟩, _, ⟨_, again, rfl⟩, enqueued⟩ := enqueued
    rw [read, Except.ok.injEq] at again
    subst again
    rw [enqueue_queued primary, Except.ok.injEq] at enqueued
    subst enqueued
    obtain ⟨packets, mapped, rfl⟩ := @ih (Server.queued server [entry]) primary ran
    refine ⟨entry :: packets, ?_, queued_queued _ _ _⟩
    have rest : seqs.mapM (pair server.log tsn) = .ok packets := mapped
    rw [List.mapM_cons, read, rest]
    rfl

/-- A resend queues every packet of the transaction up to its number. -/
theorem resend_queued {server final : Server π} {tsn : Int} (primary : IsPrimary server.log)
    (ran : resend server tsn = .ok final) :
    ∃ bound packets, getStatusData server.log tsn = .ok bound ∧ 0 ≤ bound ∧
      (Int.range 1 (bound + 1)).mapM (pair server.log tsn) = .ok packets ∧ final = Server.queued server packets := by
  unfold resend at ran
  obtain ⟨bound, number, ran⟩ := bind_eq_ok.mp ran
  split at ran
  · cases ran
  next positive =>
    obtain ⟨packets, mapped, same⟩ := resend_loop primary ran
    exact ⟨bound, packets, number, by omega, mapped, same⟩

private theorem resend_loop_returns {tsn : Int} {seqs : List Int} {packets : List (Text × Text)} {server : Server π}
    (primary : IsPrimary server.log) (read : seqs.mapM (pair server.log tsn) = .ok packets) :
    seqs.foldlM (fun server seq => do
      enqueue server (← getHeader server.log tsn seq) (← getData server.log tsn seq)) server = .ok (Server.queued server packets) := by
  induction seqs generalizing server packets with
  | nil =>
    cases read
    simp [Server.queued]
  | cons seq seqs ih =>
    rw [List.mapM_cons] at read
    obtain ⟨entry, here, read⟩ := bind_eq_ok.mp read
    obtain ⟨rest, later, same⟩ := bind_eq_ok.mp read
    cases same
    rw [List.foldlM_cons]
    simp only [getHeader, getData, here, ok_bind, pure_eq_ok, enqueue_queued primary]
    have next := @ih rest (Server.queued server [entry]) primary later
    rw [queued_queued] at next
    exact next

theorem resend_returns {server : Server π} {tsn bound : Int} {packets : List (Text × Text)} (primary : IsPrimary server.log)
    (number : getStatusData server.log tsn = .ok bound) (positive : 0 ≤ bound)
    (read : (Int.range 1 (bound + 1)).mapM (pair server.log tsn) = .ok packets) :
    resend server tsn = .ok (Server.queued server packets) := by
  simp only [resend, number, ok_bind, Int.not_lt.mpr positive, if_false]
  exact resend_loop_returns primary read

end TransactionalServer.Proofs
