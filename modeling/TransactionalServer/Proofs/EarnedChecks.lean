import TransactionalServer.Proofs.BackupProgress
import TransactionalServer.Proofs.PrimaryChecks
import TransactionalServer.Proofs.Retries

/-! What a successful integrity check has found out. Off the primary nothing
keeps a commit that could not be sent. -/

namespace TransactionalServer.Proofs.EarnedChecks
open ServerTools LogHandler Exec Session ReplicationManager BackupProgress

/-- A peer whose ACK to a COMMIT comes alone, as that of a session does. -/
structure Peer (π : Type) where
  replies : Replies π
  alone : ∀ {peer io tsn seq next packets reply}, replies peer io (commitMessage tsn seq) " " = .ok (next, packets) → reply ∈ packets →
    (words reply)[0]? = some ("ACK" : Text) → packets = [reply]

section
variable {π : Type}

/-- The link to the peer with an empty transcript and nothing to be read. -/
def watchedLink (late : Nat → Nat) (link : Link π) : Link (Socket (π × Transcript)) where
  peer := { peer := (link.peer, []), late }
  connected := link.connected
  wires := link.wires
  connects := link.connects
  outbox := link.outbox

def watched (late : Nat → Nat) (server : Server π) : Server (Socket (π × Transcript)) where
  log := server.log
  manager := server.manager
  link := watchedLink late server.link

/-- Each committed transaction was acknowledged or waits in the queue. -/
def Earned (log : Log) (final : Server (Socket (π × Transcript))) : Prop :=
  ∀ tsn record number, 0 ≤ tsn → Found log tsn record "COMMITTED" number →
    Acked (heard final) (commitMessage tsn (atoi number)) ∨ (commitMessage tsn (atoi number), (" " : Text)) ∈ final.manager.syncQueue

/-- From a standing connection on the peer acknowledges every commit, or refuses
one and the KILL goes out, before an exchange fails. A reply may be lost after
the last acknowledgment; a peer that never replies ends the check as well. -/
def Through (replies : Replies π) : List Text → π → List Wire → Prop
  | [], _, _ => True
  | header :: rest, peer, wires =>
    match Client.nextWire wires with
    | (.lostRequest, _) => False
    | (.lostReply io, _) =>
      match replies peer io header " " with
      | .ok (_, reply :: _) => (words reply)[0]? = some ("ACK" : Text) ∧ rest = []
      | .ok (_, []) => False
      | .error _ => True
    | (.up io, wires) =>
      match replies peer io header " " with
      | .ok (peer, reply :: _) =>
        if (words reply)[0]? = some ("ACK" : Text) then Through replies rest peer wires else (Client.nextWire wires).1 ≠ .lostRequest
      | .ok (_, []) => True
      | .error _ => True

/-- When a check off the primary has earned its success. A queue that a primary
has left behind keeps it from returning, or already holds the commits. -/
def Covered (replies : Replies π) (server : Server π) (holder : List Text) : Prop :=
  let (up, link) := Client.connectSocket server.link
  if up || server.manager.alive then
    server.manager.syncQueue ≠ [] ∨ (if up then Through replies holder.reverse link.peer link.wires else holder = [])
  else
    ∀ header ∈ holder, (header, (" " : Text)) ∈ server.manager.syncQueue

end

section
variable {π : Type} {answer : Answer π} {server : Server π} {role : Text}

/-- A call of `commit` off the primary that has its connection and no queue, once
the peer has been asked. -/
def turn (server : Server π) : Option Text → Link π → Bool × Server π
  | none, link => (true, setAlive { server with link } false)
  | some result, link =>
    if (Fields.split [' '] result)[0]? = some ("ACK" : Text) then
      (true, { server with link })
    else
      let (sent, link) := Client.sendPacket link killPacket
      if sent then
        let server := changeConnection { server with link := Client.closeSocket link } "0.0.0.0" "0"
        (false, { server with manager := { server.manager with tries := 4, restarted := true } })
      else
        (true, setAlive { server with link } false)

theorem enqueue_off (read : getServerStatus server.log = .ok role) (backup : role ≠ "primary") (header data : Text) :
    enqueue server header data = .ok server := enqueue_eq_ok.mpr ⟨role, read, (if_neg backup).symm⟩

theorem commit_turn (read : getServerStatus server.log = .ok role) (backup : role ≠ "primary") (alive : server.manager.alive = true)
    (empty : server.manager.syncQueue = []) (fuel : Nat) (header : Text) :
    ReplicationManager.commit answer (fuel + 1) server header =
      (Client.sendReceive answer server.link header " " >>= fun sent => .ok (turn server sent.1 sent.2)) := by
  have notPrimary : (role == ("primary" : Text)) = false := beq_eq_false_iff_ne.mpr backup
  have off (link : Link π) (header data : Text) : enqueue { server with link } header data = .ok { server with link } :=
    @enqueue_off π { server with link } role read backup header data
  unfold ReplicationManager.commit
  simp only [read, ok_bind, notPrimary, Bool.false_eq_true, if_false, alive, empty, List.isEmpty_nil, Bool.and_self, if_true]
  refine congrArg _ (funext fun sent => ?_)
  obtain ⟨result, link⟩ := sent
  cases result with
  | none =>
    simp only [off, ok_bind, pure_eq_ok]
    rfl
  | some result =>
    simp only [Bool.not_false, if_true, turn]
    split
    · rfl
    rw [show Client.genRequest "KILL" "-1" "0" " " = killPacket from rfl]
    generalize Client.sendPacket link killPacket = attempt
    obtain ⟨sends, after⟩ := attempt
    cases sends with
    | true => rfl
    | false =>
      simp only [Bool.false_eq_true, if_false, off, ok_bind, pure_eq_ok]

/-- Without a connection every commit is done. -/
theorem checkCommits_unlinked (read : getServerStatus server.log = .ok role) (backup : role ≠ "primary") (dead : server.manager.alive = false)
    (fuel : Nat) (holder : List Text) : checkCommits (ReplicationManager.commit answer (fuel + 1)) holder server = .ok (true, server) := by
  induction holder with
  | nil => rfl
  | cons header rest ih =>
    have notPrimary : (role == ("primary" : Text)) = false := beq_eq_false_iff_ne.mpr backup
    have done : ReplicationManager.commit answer (fuel + 1) server header = .ok (true, server) := by
      unfold ReplicationManager.commit
      simp only [read, ok_bind, notPrimary, Bool.false_eq_true, if_false, dead, Bool.false_and, enqueue_off read backup, pure_eq_ok]
    rw [checkCommits, done, ok_bind]
    exact ih

theorem sendReceive_named {link : Link π} {header : Text} (named : ∃ tsn seq, header = commitMessage tsn seq) :
    Client.sendReceive answer link header " " = Client.exchange answer link header " " := by
  obtain ⟨tsn, seq, rfl⟩ := named
  have echoed : Client.echoHeader (commitMessage tsn seq) " " = .ok (commitMessage tsn seq) := by
    rw [commitMessage_eq]
    exact echoHeader_bare (by decide) (iToS_field tsn) (iToS_field seq)
  unfold Client.sendReceive Client.genEcho
  rw [echoed]
  rfl

end

theorem sendPacket_sent {π : Type} (link : Link π) (packet : Text) :
    (Client.sendPacket link packet).1 = true ↔ link.connected = true ∧ (Client.nextWire link.wires).1 ≠ .lostRequest := by
  unfold Client.sendPacket
  simp only
  split
  next sends => simpa using sends
  next fails => simpa using fails

/-- A refused commit fails when the KILL goes out, and is done when it does not. -/
theorem turn_refused {π : Type} (server : Server π) {reply : Text} (refused : (words reply)[0]? ≠ some ("ACK" : Text)) (link : Link π) :
    ((Client.sendPacket link killPacket).1 = true → (turn server (some (Client.readReply reply)) link).1 = false) ∧
      ((Client.sendPacket link killPacket).1 = false →
        turn server (some (Client.readReply reply)) link = (true, setAlive { server with link := (Client.sendPacket link killPacket).2 } false)) := by
  have other : (Fields.split [' '] (Client.readReply reply))[0]? ≠ some ("ACK" : Text) := refused
  constructor
  · intro sent
    simp only [turn, other, if_false, sent, if_true]
  · intro unsent
    simp only [turn, other, unsent, Bool.false_eq_true, if_false]

theorem acked_append {seen told : Transcript} {header : Text} : Acked (seen ++ told) header ↔ Acked seen header ∨ Acked told header := by
  constructor
  · rintro ⟨packets, reply, member, answer⟩
    rcases List.mem_append.mp member with earlier | later
    · exact Or.inl ⟨packets, reply, earlier, answer⟩
    · exact Or.inr ⟨packets, reply, later, answer⟩
  · rintro (earlier | later)
    · exact earlier.mono (List.subset_append_left _ _)
    · exact later.mono (List.subset_append_right _ _)

/-- The answer to one request. -/
theorem acked_singleton {header : Text} {packets : List Text} :
    Acked [(header, packets)] header ↔ ∃ reply ∈ packets, (words reply)[0]? = some ("ACK" : Text) := by
  constructor
  · rintro ⟨other, reply, member, inside, ack⟩
    obtain ⟨_, rfl⟩ := Prod.mk.inj (List.mem_singleton.mp member)
    exact ⟨reply, inside, ack⟩
  · rintro ⟨reply, inside, ack⟩
    exact ⟨packets, reply, List.mem_singleton.mpr rfl, inside, ack⟩

theorem not_acked_nil {header : Text} : ¬ Acked [] header := by
  rintro ⟨packets, reply, member, _⟩
  cases member

/-- A backup that can ask: connected, and with nothing queued or left to be read. -/
structure Asking {π : Type} (server : Server (Socket (π × Transcript))) (role : Text) : Prop where
  read : getServerStatus server.log = .ok role
  backup : role ≠ "primary"
  alive : server.manager.alive = true
  empty : server.manager.syncQueue = []
  connected : server.link.connected = true
  clear : server.link.peer.unread = []

section
variable {π : Type} {replies : Replies π} {socket : Socket (π × Transcript)} {io : Bool} {header data : Text} {next : π} {packets : List Text}

/-- With nothing left over the first packet of the answer is read. -/
theorem overheard_reads (clear : socket.unread = []) (handled : replies socket.peer.1 io header data = .ok (next, packets)) :
    ∃ after, overheard replies socket io header data = .ok (after, packets.head?) ∧ after.peer = (next, socket.peer.2 ++ [(header, packets)]) ∧
      (packets.length ≤ 1 → after.unread = []) := by
  have told : recorded replies socket.peer io header data = .ok ((next, socket.peer.2 ++ [(header, packets)]), packets) := by
    rw [recorded, handled]
    rfl
  unfold overheard Socket.answer
  rw [told, ok_bind]
  simp only [clear, List.nil_append]
  cases packets with
  | nil => exact ⟨_, rfl, rfl, fun _ => rfl⟩
  | cons first rest =>
    refine ⟨_, rfl, rfl, fun alone => ?_⟩
    obtain rfl : rest = [] := by simpa using alone
    exact List.drop_nil

theorem overheard_halts {halt : Halt} (handled : replies socket.peer.1 io header data = .error halt) :
    overheard replies socket io header data = .error halt := by
  unfold overheard Socket.answer recorded
  rw [handled]
  rfl

end

/-- What becomes of a COMMIT that a check off the primary sends, and whether the
connection then carries the check through. -/
inductive Attempt {π : Type} (replies : Replies π) (fuel : Nat) (server : Server (Socket (π × Transcript))) (role header : Text) (rest : List Text) :
    Prop where
  | halts (ran : ∀ result, ReplicationManager.commit (overheard replies) (fuel + 1) server header ≠ .ok result)
      (through : Through replies (header :: rest) server.link.peer.peer.1 server.link.wires) : Attempt replies fuel server role header rest
  | fails {final : Server (Socket (π × Transcript))} (ran : ReplicationManager.commit (overheard replies) (fuel + 1) server header = .ok (false, final))
      (through : Through replies (header :: rest) server.link.peer.peer.1 server.link.wires) : Attempt replies fuel server role header rest
  | dies {final : Server (Socket (π × Transcript))} (told : Transcript)
      (ran : ReplicationManager.commit (overheard replies) (fuel + 1) server header = .ok (true, final))
      (log : final.log = server.log) (dead : final.manager.alive = false) (seen : heard final = heard server ++ told)
      (about : ∀ entry ∈ told, entry.1 = header)
      (through : Through replies (header :: rest) server.link.peer.peer.1 server.link.wires ↔ Acked told header ∧ rest = []) :
      Attempt replies fuel server role header rest
  | acks {next : Server (Socket (π × Transcript))} {reply : Text}
      (ran : ReplicationManager.commit (overheard replies) (fuel + 1) server header = .ok (true, next)) (asking : Asking next role)
      (seen : heard next = heard server ++ [(header, [reply])]) (ack : (words reply)[0]? = some ("ACK" : Text))
      (through : Through replies (header :: rest) server.link.peer.peer.1 server.link.wires ↔ Through replies rest next.link.peer.peer.1 next.link.wires) :
      Attempt replies fuel server role header rest

section
variable {π : Type} {peer : Peer π} {fuel : Nat} {server : Server (Socket (π × Transcript))} {role header : Text} {rest holder : List Text}
  {wires : List Wire} {io : Bool}

theorem commit_exchange (asking : Asking server role) (named : ∃ tsn seq, header = commitMessage tsn seq) (replies : Replies π) (fuel : Nat) :
    ReplicationManager.commit (overheard replies) (fuel + 1) server header =
      (Client.exchange (overheard replies) server.link header " " >>= fun sent => .ok (turn server sent.1 sent.2)) := by
  rw [commit_turn asking.read asking.backup asking.alive asking.empty, sendReceive_named named]

/-- Nobody was asked. -/
theorem attempt_unasked (asking : Asking server role) (named : ∃ tsn seq, header = commitMessage tsn seq)
    (decision : Client.nextWire server.link.wires = (.lostRequest, wires)) : Attempt peer.replies fuel server role header rest := by
  have ran : ReplicationManager.commit (overheard peer.replies) (fuel + 1) server header =
      .ok (true, setAlive { server with link := { server.link with connected := false, wires } } false) := by
    rw [commit_exchange asking named]
    unfold Client.exchange
    simp only [asking.connected, Bool.not_true, Bool.false_eq_true, if_false, decision]
    rfl
  refine .dies [] ran rfl rfl (List.append_nil _).symm (fun entry member => absurd member List.not_mem_nil) ?_
  unfold Through
  rw [decision]
  exact ⟨fun absurd => absurd.elim, fun both => absurd both.1 not_acked_nil⟩

/-- The request was handled, and the reply got lost. -/
theorem attempt_unheard (asking : Asking server role) (named : ∃ tsn seq, header = commitMessage tsn seq)
    (decision : Client.nextWire server.link.wires = (.lostReply io, wires)) : Attempt peer.replies fuel server role header rest := by
  have called := commit_exchange asking named peer.replies fuel
  unfold Client.exchange at called
  simp only [asking.connected, Bool.not_true, Bool.false_eq_true, if_false, decision] at called
  cases handled : peer.replies server.link.peer.peer.1 io header " " with
  | error halt =>
    refine .halts (fun result ran => ?_) ?_
    · rw [called, overheard_halts handled] at ran
      cases ran
    · unfold Through
      rw [decision]
      simp only [handled]
  | ok sent =>
    obtain ⟨next, packets⟩ := sent
    obtain ⟨after, answered, same, _⟩ := overheard_reads asking.clear handled
    rw [answered] at called
    refine .dies [(header, packets)] called rfl rfl ?_ ?_ ?_
    · show after.peer.2 = _
      rw [same]
      rfl
    · intro entry member
      rw [List.mem_singleton.mp member]
    · unfold Through
      rw [decision, acked_singleton]
      simp only [handled]
      cases packets with
      | nil => simp
      | cons reply more =>
        refine and_congr_left fun _ => ⟨fun ack => ⟨reply, List.mem_cons_self, ack⟩, ?_⟩
        rintro ⟨other, member, ack⟩
        obtain ⟨tsn, seq, rfl⟩ := named
        obtain ⟨rfl, _⟩ := List.cons.inj (peer.alone handled member ack)
        exact ack

/-- A reply that is no ACK is followed by a KILL. When that is lost the commit
counts as done. -/
theorem attempt_refused {link : Link (Socket (π × Transcript))} {reply : Text} {more : List Text} (linked : link.connected = true)
    (called : ReplicationManager.commit (overheard peer.replies) (fuel + 1) server header =
      .ok (turn server (some (Client.readReply reply)) link))
    (seen : link.peer.peer.2 = heard server ++ [(header, reply :: more)]) (unacked : ∀ other ∈ reply :: more, (words other)[0]? ≠ some ("ACK" : Text))
    (through : Through peer.replies (header :: rest) server.link.peer.peer.1 server.link.wires ↔ (Client.nextWire link.wires).1 ≠ .lostRequest) :
    Attempt peer.replies fuel server role header rest := by
  obtain ⟨killed, lost⟩ := turn_refused server (unacked reply List.mem_cons_self) link
  by_cases out : (Client.nextWire link.wires).1 = .lostRequest
  · have unsent : (Client.sendPacket link killPacket).1 = false := by
      rw [← Bool.not_eq_true, sendPacket_sent]
      exact fun both => both.2 out
    rw [lost unsent] at called
    refine .dies [(header, reply :: more)] called rfl rfl ?_ ?_ ?_
    · show (Client.sendPacket link killPacket).2.peer.peer.2 = _
      rw [sendPacket_peer]
      exact seen
    · intro entry member
      rw [List.mem_singleton.mp member]
    · rw [through, acked_singleton]
      refine ⟨fun sent => absurd out sent, ?_⟩
      rintro ⟨⟨other, member, here⟩, _⟩
      exact absurd here (unacked other member)
  · have failed := killed ((sendPacket_sent link killPacket).mpr ⟨linked, out⟩)
    rcases result : turn server (some (Client.readReply reply)) link with ⟨done, final⟩
    rw [result] at called failed
    obtain rfl : done = false := failed
    exact .fails called (through.mpr out)

/-- A reply was read. -/
theorem attempt_answered (asking : Asking server role) (named : ∃ tsn seq, header = commitMessage tsn seq)
    (decision : Client.nextWire server.link.wires = (.up io, wires)) : Attempt peer.replies fuel server role header rest := by
  have called := commit_exchange asking named peer.replies fuel
  unfold Client.exchange at called
  simp only [asking.connected, Bool.not_true, Bool.false_eq_true, if_false, decision] at called
  cases handled : peer.replies server.link.peer.peer.1 io header " " with
  | error halt =>
    refine .halts (fun result ran => ?_) ?_
    · rw [called, overheard_halts handled] at ran
      cases ran
    · unfold Through
      rw [decision]
      simp only [handled]
  | ok sent =>
    obtain ⟨next, packets⟩ := sent
    obtain ⟨after, answered, same, single⟩ := overheard_reads asking.clear handled
    rw [answered] at called
    have seen : after.peer.2 = heard server ++ [(header, packets)] := by
      rw [same]
      rfl
    cases packets with
    | nil =>
      refine .halts (fun result ran => ?_) ?_
      · rw [called] at ran
        cases ran
      · unfold Through
        rw [decision]
        simp only [handled]
    | cons reply more =>
      have alone {other : Text} (member : other ∈ reply :: more) (ack : (words other)[0]? = some ("ACK" : Text)) : reply = other ∧ more = [] := by
        obtain ⟨tsn, seq, rfl⟩ := named
        exact List.cons.inj (peer.alone handled member ack)
      have through : Through peer.replies (header :: rest) server.link.peer.peer.1 server.link.wires ↔
          if (words reply)[0]? = some ("ACK" : Text) then Through peer.replies rest next wires else (Client.nextWire wires).1 ≠ .lostRequest := by
        rw [Through, decision]
        simp only [handled]
      let link : Link (Socket (π × Transcript)) := { server.link with peer := after, connected := true, wires }
      replace called : ReplicationManager.commit (overheard peer.replies) (fuel + 1) server header =
          .ok (turn server (some (Client.readReply reply)) link) := called
      have linked : link.connected = true := rfl
      by_cases ack : (words reply)[0]? = some ("ACK" : Text)
      · obtain ⟨_, rfl⟩ := alone List.mem_cons_self ack
        have taken : turn server (some (Client.readReply reply)) link = (true, { server with link }) := if_pos ack
        rw [taken] at called
        rw [if_pos ack] at through
        refine .acks called ⟨asking.read, asking.backup, asking.alive, asking.empty, linked, single (Nat.le_refl 1)⟩ seen ack ?_
        rw [through, show ({ server with link } : Server (Socket (π × Transcript))).link.peer.peer = after.peer from rfl, same]
      · rw [if_neg ack] at through
        refine attempt_refused linked called seen (fun other member here => ?_) through
        obtain ⟨rfl, _⟩ := alone member here
        exact ack here

theorem commit_attempt (peer : Peer π) (asking : Asking server role) (named : ∃ tsn seq, header = commitMessage tsn seq) (rest : List Text) (fuel : Nat) :
    Attempt peer.replies fuel server role header rest := by
  rcases decision : Client.nextWire server.link.wires with ⟨wire, wires⟩
  cases wire with
  | lostRequest => exact attempt_unasked asking named decision
  | lostReply io => exact attempt_unheard asking named decision
  | up io => exact attempt_answered asking named decision

/-- When the connection comes through, a loop that succeeds has been acknowledged. -/
theorem loop_acked (asking : Asking server role) (named : ∀ header ∈ holder, ∃ tsn seq, header = commitMessage tsn seq)
    (through : Through peer.replies holder server.link.peer.peer.1 server.link.wires) {final : Server (Socket (π × Transcript))}
    (ran : checkCommits (ReplicationManager.commit (overheard peer.replies) (fuel + 1)) holder server = .ok (true, final)) :
    heard server ⊆ heard final ∧ ∀ header ∈ holder, Acked (heard final) header := by
  induction holder generalizing server with
  | nil =>
    cases ran
    exact ⟨List.Subset.refl _, fun header member => absurd member List.not_mem_nil⟩
  | cons header rest ih =>
    rw [checkCommits] at ran
    obtain ⟨⟨done, next⟩, called, ran⟩ := bind_eq_ok.mp ran
    cases commit_attempt peer asking (named header List.mem_cons_self) rest fuel with
    | halts never => exact absurd called (never _)
    | fails again =>
      cases called.symm.trans again
      cases ran
    | dies _ again _ _ seen _ carried =>
      obtain ⟨rfl, rfl⟩ := Prod.mk.inj (Except.ok.inj (called.symm.trans again))
      obtain ⟨acked, rfl⟩ := carried.mp through
      cases ran
      rw [seen]
      refine ⟨List.subset_append_left _ _, fun other member => ?_⟩
      rw [List.mem_singleton.mp member]
      exact acked_append.mpr (Or.inr acked)
    | acks again still seen ack carried =>
      obtain ⟨rfl, rfl⟩ := Prod.mk.inj (Except.ok.inj (called.symm.trans again))
      obtain ⟨grows, acked⟩ := ih still (fun other member => named other (List.mem_cons_of_mem _ member)) (carried.mp through) ran
      rw [seen] at grows
      refine ⟨List.Subset.trans (List.subset_append_left _ _) grows, fun other member => ?_⟩
      rcases List.mem_cons.mp member with rfl | later
      · exact (acked_append.mpr (Or.inr (acked_singleton.mpr ⟨_, List.mem_singleton.mpr rfl, ack⟩))).mono grows
      · exact acked other later

/-- Otherwise it succeeds all the same, and some commit was not acknowledged. -/
theorem loop_unacked (asking : Asking server role) (named : ∀ header ∈ holder, ∃ tsn seq, header = commitMessage tsn seq) (distinct : holder.Nodup)
    (fresh : ∀ header ∈ holder, ¬ Acked (heard server) header)
    (broken : ¬ Through peer.replies holder server.link.peer.peer.1 server.link.wires) (fuel : Nat) :
    ∃ final, checkCommits (ReplicationManager.commit (overheard peer.replies) (fuel + 1)) holder server = .ok (true, final) ∧
      ∃ header ∈ holder, ¬ Acked (heard final) header := by
  induction holder generalizing server with
  | nil => exact absurd trivial broken
  | cons header rest ih =>
    obtain ⟨notLater, distinct⟩ := List.nodup_cons.mp distinct
    have here := fresh header List.mem_cons_self
    rw [checkCommits]
    cases commit_attempt peer asking (named header List.mem_cons_self) rest fuel with
    | halts _ through | fails _ through => exact absurd through broken
    | @dies last told called log dead seen about carried =>
      -- after a failed exchange the rest of the loop asks nobody
      have read : getServerStatus last.log = .ok role := by rw [log, asking.read]
      refine ⟨last, ?_, ?_⟩
      · rw [called, ok_bind]
        exact checkCommits_unlinked read asking.backup dead fuel rest
      · by_cases acked : Acked told header
        · obtain ⟨other, more, rfl⟩ := List.exists_cons_of_ne_nil (fun empty => broken (carried.mpr ⟨acked, empty⟩))
          refine ⟨other, List.mem_cons_of_mem _ List.mem_cons_self, ?_⟩
          rw [seen, acked_append]
          rintro (earlier | ⟨packets, reply, member, _⟩)
          · exact fresh other (List.mem_cons_of_mem _ List.mem_cons_self) earlier
          · have same : other = header := about _ member
            exact notLater (same ▸ List.mem_cons_self)
        · refine ⟨header, List.mem_cons_self, ?_⟩
          rw [seen, acked_append]
          exact fun either => either.elim here acked
    | @acks next reply called still seen _ carried =>
      have later : ∀ other ∈ rest, ¬ Acked (heard next) other := by
        intro other member
        rw [seen, acked_append]
        rintro (earlier | ⟨packets, text, told, _⟩)
        · exact fresh other (List.mem_cons_of_mem _ member) earlier
        · obtain ⟨rfl, _⟩ := Prod.mk.inj (List.mem_singleton.mp told)
          exact notLater member
      obtain ⟨final, ran, other, member, unacked⟩ := ih still (fun other member => named other (List.mem_cons_of_mem _ member)) distinct later
        (fun through => broken (carried.mpr through))
      refine ⟨final, ?_, other, List.mem_cons_of_mem _ member, unacked⟩
      rw [called, ok_bind]
      exact ran

end

theorem connectSocket_watched {π : Type} (late : Nat → Nat) (link : Link π) :
    Client.connectSocket (watchedLink late link) = ((Client.connectSocket link).1, watchedLink late (Client.connectSocket link).2) := by
  unfold Client.connectSocket watchedLink
  cases link.connects with
  | nil => rfl
  | cons => rfl

theorem connectSocket_connected {π : Type} (link : Link π) : (Client.connectSocket link).2.connected = (Client.connectSocket link).1 := by
  unfold Client.connectSocket
  split
  · rfl
  · rfl

section
variable {π : Type} {replies : Replies π} {peer : Peer π} {late : Nat → Nat} {server : Server π} {role : Text} {holder : List Text}

/-- The server as the loop of its check finds it. -/
def opened (late : Nat → Nat) (server : Server π) : Server (Socket (π × Transcript)) :=
  let (up, link) := Client.connectSocket server.link
  if up then setAlive { watched late server with link := watchedLink late link } true else { watched late server with link := watchedLink late link }

theorem openCheck_watched (read : getServerStatus server.log = .ok role) (backup : role ≠ "primary") :
    openCheck (watched late server) = .ok (opened late server) := by
  have status : getServerStatus (watched late server).log = .ok role := read
  unfold openCheck
  rw [status, ok_bind, if_pos backup]
  simp only [watched, connectSocket_watched, pure_eq_ok, opened]

theorem opened_log (late : Nat → Nat) (server : Server π) : (opened late server).log = server.log := by
  unfold opened
  simp only
  split
  · rfl
  · rfl

theorem opened_queue (late : Nat → Nat) (server : Server π) : (opened late server).manager.syncQueue = server.manager.syncQueue := by
  unfold opened
  simp only
  split
  · rfl
  · rfl

theorem opened_link (late : Nat → Nat) (server : Server π) : (opened late server).link = watchedLink late (Client.connectSocket server.link).2 := by
  unfold opened
  simp only
  split
  · rfl
  · rfl

theorem opened_alive (late : Nat → Nat) (server : Server π) : (opened late server).manager.alive = ((Client.connectSocket server.link).1 || server.manager.alive) := by
  unfold opened
  simp only
  split
  next up => rw [up]; rfl
  next down =>
    rw [Bool.not_eq_true] at down
    rw [down]
    rfl

/-- A check off the primary succeeds with its loop. -/
theorem integrityCheck_off (read : getServerStatus server.log = .ok role) (backup : role ≠ "primary") (gathered : getCommits server.log = .ok holder)
    {fuel : Nat} {final : Server (Socket (π × Transcript))} :
    integrityCheck (overheard replies) (fuel + 1) (watched late server) = .ok (true, final) ↔
      ∃ checked, checkCommits (ReplicationManager.commit (overheard replies) fuel) holder.reverse (opened late server) = .ok (true, checked) ∧
        final = if checked.manager.alive then setAlive { checked with link := Client.closeSocket checked.link } false else checked := by
  have status {done : Bool} {checked : Server (Socket (π × Transcript))}
      (check : checkCommits (ReplicationManager.commit (overheard replies) fuel) holder.reverse (opened late server) = .ok (done, checked)) :
      getServerStatus checked.log = .ok role := by
    have off : NotPrimary (opened late server).log := by
      rw [opened_log]
      intro primary
      exact backup (Except.ok.inj (read.symm.trans primary))
    rw [(checkCommits_quiet off check).log, opened_log]
    exact read
  unfold integrityCheck
  rw [openCheck_watched read backup, ok_bind, opened_log, gathered, ok_bind]
  constructor
  · intro ran
    obtain ⟨⟨done, checked⟩, check, ran⟩ := bind_eq_ok.mp ran
    dsimp only at ran
    rw [status check, ok_bind] at ran
    split at ran
    next closes =>
      cases ran
      refine ⟨checked, check, ?_⟩
      rcases closes.2 with failed | alive
      · cases failed
      · rw [if_pos alive]
    next stays =>
      cases ran
      refine ⟨final, check, ?_⟩
      rw [if_neg fun alive => stays ⟨backup, Or.inr alive⟩]
  · rintro ⟨checked, check, rfl⟩
    rw [check, ok_bind]
    dsimp only
    rw [status check, ok_bind]
    by_cases alive : checked.manager.alive = true
    · rw [if_pos ⟨backup, Or.inr alive⟩, if_pos alive]
      rfl
    · have stays : ¬ (role ≠ "primary" ∧ (true = false ∨ checked.manager.alive = true)) := by
        rintro ⟨_, failed | up⟩
        · cases failed
        · exact alive up
      rw [if_neg stays, if_neg alive]
      rfl

theorem earned_iff (gathered : getCommits server.log = .ok holder) {final : Server (Socket (π × Transcript))} :
    Earned server.log final ↔ ∀ header ∈ holder, Acked (heard final) header ∨ (header, (" " : Text)) ∈ final.manager.syncQueue := by
  constructor
  · intro earned header member
    obtain ⟨tsn, record, number, low, found, rfl⟩ := (mem_getCommits gathered).mp member
    exact earned tsn record number low found
  · intro each tsn record number low found
    exact each _ ((mem_getCommits gathered).mpr ⟨tsn, record, number, low, found, rfl⟩)

/-- Off the primary the success of a check is that of its loop, which leaves the
queue as it was. -/
theorem earned_off (read : getServerStatus server.log = .ok role) (backup : role ≠ "primary") (gathered : getCommits server.log = .ok holder) :
    (∀ fuel final, integrityCheck (overheard replies) fuel (watched late server) = .ok (true, final) → Earned server.log final) ↔
      ∀ fuel checked, checkCommits (ReplicationManager.commit (overheard replies) fuel) holder.reverse (opened late server) = .ok (true, checked) →
        ∀ header ∈ holder.reverse, Acked (heard checked) header ∨ (header, (" " : Text)) ∈ server.manager.syncQueue := by
  have off : NotPrimary (opened late server).log := by
    rw [opened_log]
    intro primary
    exact backup (Except.ok.inj (read.symm.trans primary))
  have closed (checked : Server (Socket (π × Transcript))) :
      heard (if checked.manager.alive then setAlive { checked with link := Client.closeSocket checked.link } false else checked) = heard checked ∧
      (if checked.manager.alive then setAlive { checked with link := Client.closeSocket checked.link } false else checked).manager.syncQueue =
        checked.manager.syncQueue := by
    split
    · exact ⟨rfl, rfl⟩
    · exact ⟨rfl, rfl⟩
  constructor
  · intro earns fuel checked check header member
    have earned := earns (fuel + 1) _ ((integrityCheck_off read backup gathered).mpr ⟨checked, check, rfl⟩)
    have each := (earned_iff gathered).mp earned header (List.mem_reverse.mp member)
    rw [(closed checked).1, (closed checked).2, (checkCommits_quiet off check).queue, opened_queue] at each
    exact each
  · intro each fuel final ran
    cases fuel with
    | zero => cases ran
    | succ fuel =>
      obtain ⟨checked, check, rfl⟩ := (integrityCheck_off read backup gathered).mp ran
      rw [earned_iff gathered]
      intro header member
      rw [(closed checked).1, (closed checked).2, (checkCommits_quiet off check).queue, opened_queue]
      exact each fuel checked check header (List.mem_reverse.mpr member)

/-- A loop that has something to do has fuel for it. -/
theorem loop_fuel {fuel : Nat} {header : Text} {rest : List Text} {start checked : Server (Socket (π × Transcript))}
    (ran : checkCommits (ReplicationManager.commit (overheard replies) fuel) (header :: rest) start = .ok (true, checked)) : ∃ less, fuel = less + 1 := by
  cases fuel with
  | zero => cases ran
  | succ fuel => exact ⟨fuel, rfl⟩

/-- An attempt to connect has failed, and the flag of an earlier connection makes
the check ask all the same. -/
theorem unlinked_succeeds (read : getServerStatus server.log = .ok role) (backup : role ≠ "primary") (down : (Client.connectSocket server.link).1 = false)
    (alive : server.manager.alive = true) (empty : server.manager.syncQueue = []) {headers : List Text}
    (named : ∀ header ∈ headers, ∃ tsn seq, header = commitMessage tsn seq) :
    ∃ checked, checkCommits (ReplicationManager.commit (overheard replies) 1) headers (opened late server) = .ok (true, checked) ∧ heard checked = [] := by
  have link := opened_link late server
  have unlinked : (opened late server).link.connected = false := by
    rw [link]
    exact (connectSocket_connected server.link).trans down
  have seen : heard (opened late server) = [] := by
    unfold heard
    rw [link]
    rfl
  cases headers with
  | nil => exact ⟨_, rfl, seen⟩
  | cons header rest =>
    have status : getServerStatus (opened late server).log = .ok role := by rw [opened_log, read]
    have lives : (opened late server).manager.alive = true := by rw [opened_alive, alive, Bool.or_true]
    have drained : (opened late server).manager.syncQueue = [] := by rw [opened_queue, empty]
    have thrown : Client.exchange (overheard replies) (opened late server).link header " " = .ok (none, (opened late server).link) := by
      unfold Client.exchange
      rw [unlinked]
      rfl
    have done := @checkCommits_unlinked _ (overheard replies) (setAlive (opened late server) false) role status backup rfl 0 rest
    refine ⟨setAlive (opened late server) false, ?_, seen⟩
    rw [checkCommits, commit_turn status backup lives drained, sendReceive_named (named header List.mem_cons_self), thrown]
    exact done

/-- With a connection the loop earns its success when it is carried through. -/
theorem linked_iff (read : getServerStatus server.log = .ok role) (backup : role ≠ "primary") (up : (Client.connectSocket server.link).1 = true)
    (empty : server.manager.syncQueue = []) {headers : List Text} (named : ∀ header ∈ headers, ∃ tsn seq, header = commitMessage tsn seq)
    (distinct : headers.Nodup) :
    (∀ fuel checked, checkCommits (ReplicationManager.commit (overheard peer.replies) fuel) headers (opened late server) = .ok (true, checked) →
        ∀ header ∈ headers, Acked (heard checked) header) ↔
      Through peer.replies headers (Client.connectSocket server.link).2.peer (Client.connectSocket server.link).2.wires := by
  have link := opened_link late server
  have asking : Asking (opened late server) role := by
    refine ⟨by rw [opened_log, read], backup, by rw [opened_alive, up, Bool.true_or], by rw [opened_queue, empty], ?_, by rw [link]; rfl⟩
    rw [link]
    exact (connectSocket_connected server.link).trans up
  have same : Through peer.replies headers (opened late server).link.peer.peer.1 (opened late server).link.wires ↔
      Through peer.replies headers (Client.connectSocket server.link).2.peer (Client.connectSocket server.link).2.wires := by
    rw [link]
    rfl
  rw [← same]
  constructor
  · intro each
    by_contra broken
    have unasked : ∀ header ∈ headers, ¬ Acked (heard (opened late server)) header := by
      intro header _
      unfold heard
      rw [link]
      exact not_acked_nil
    obtain ⟨checked, ran, header, member, unacked⟩ := loop_unacked asking named distinct unasked broken 0
    exact unacked (each 1 checked ran header member)
  · intro through fuel checked ran header member
    obtain ⟨first, rest, shape⟩ := List.exists_cons_of_ne_nil (List.ne_nil_of_mem member)
    rw [shape] at ran
    obtain ⟨less, rfl⟩ := loop_fuel ran
    rw [← shape] at ran
    exact (loop_acked asking named through ran).2 header member

theorem covered_iff (peer : Peer π) (late : Nat → Nat) (read : getServerStatus server.log = .ok role) (backup : role ≠ "primary")
    (gathered : getCommits server.log = .ok holder) :
    (∀ fuel checked, checkCommits (ReplicationManager.commit (overheard peer.replies) fuel) holder.reverse (opened late server) = .ok (true, checked) →
        ∀ header ∈ holder.reverse, Acked (heard checked) header ∨ (header, (" " : Text)) ∈ server.manager.syncQueue) ↔
      Covered peer.replies server holder := by
  have status : getServerStatus (opened late server).log = .ok role := by rw [opened_log, read]
  have named : ∀ header ∈ holder.reverse, ∃ tsn seq, header = commitMessage tsn seq := by
    intro header member
    obtain ⟨tsn, record, number, _, _, same⟩ := (mem_getCommits gathered).mp (List.mem_reverse.mp member)
    exact ⟨tsn, _, same⟩
  have distinct : holder.reverse.Nodup := List.nodup_reverse.mpr (getCommits_nodup gathered)
  have alive := opened_alive late server
  unfold Covered
  dsimp only
  split
  next lives =>
    rw [lives] at alive
    by_cases empty : server.manager.syncQueue = []
    · simp only [empty, ne_eq, not_true_eq_false, false_or, List.not_mem_nil, or_false]
      cases up : (Client.connectSocket server.link).1 with
      | true =>
        rw [if_pos rfl]
        exact linked_iff read backup up empty named distinct
      | false =>
        rw [if_neg (by decide)]
        constructor
        · intro each
          by_contra some
          obtain ⟨header, rest, shape⟩ := List.exists_cons_of_ne_nil (List.reverse_eq_nil_iff.not.mpr some)
          have lively : server.manager.alive = true := by rwa [up, Bool.false_or] at lives
          obtain ⟨checked, ran, nothing⟩ := @unlinked_succeeds _ peer.replies late _ _ read backup up lively empty _ named
          have acked := each 1 checked ran header (by rw [shape]; exact List.mem_cons_self)
          rw [nothing] at acked
          exact not_acked_nil acked
        · rintro rfl fuel checked _ header member
          exact absurd member List.not_mem_nil
    · have stuck := opened_queue late server ▸ empty
      simp only [ne_eq, empty, not_false_eq_true, true_or, iff_true]
      intro fuel checked ran header member
      obtain ⟨first, rest, shape⟩ := List.exists_cons_of_ne_nil (List.ne_nil_of_mem member)
      rw [shape, checkCommits, commit_never_returns status backup alive stuck first fuel] at ran
      cases ran
  next dead =>
    rw [Bool.not_eq_true] at dead
    rw [dead] at alive
    constructor
    · intro each header member
      have done := @checkCommits_unlinked _ (overheard peer.replies) (opened late server) role status backup alive 0 holder.reverse
      rcases each 1 _ done header (List.mem_reverse.mpr member) with acked | queued
      · unfold heard at acked
        rw [opened_link] at acked
        exact absurd acked not_acked_nil
      · exact queued
    · intro queued fuel checked _ header member
      exact Or.inr (queued header (List.mem_reverse.mp member))

end

/-- Another server is such a peer. -/
def sessionPeer {π : Type} (answer : Answer π) (fuel : Nat) : Peer (Server π) where
  replies := Session.serve answer fuel Backup.echoed
  alone ran := Sockets.serve_alone echoed_honest ran

/-- A log in which transaction 5 is committed. -/
def committedFive : Log :=
  (∅ : Log).insert 5 ((∅ : Record).insert (-1) ("COMMITTED", "1") |>.insert 0 ("NEW_TXN", "aa") |>.insert 1 ("WRITE 5 1 3", "xx"))

/-- A backup whose primary has the same log. -/
private def returning (wires : List Wire) : Server Backup :=
  System.start ⟨"ip", "80", "dir"⟩ false committedFive (System.start ⟨"ip", "81", "dir"⟩ true committedFive () [] []) wires []

private def otherServer : Peer Backup := sessionPeer Backup.noPeer 0

private theorem returning_role (wires : List Wire) : getServerStatus (returning wires).log = .ok "backup" := serverData_role _ _ _ _ _

private theorem returning_commits (wires : List Wire) : getCommits (returning wires).log = .ok ["COMMIT 5 1 0"] := by
  show getCommits (serverData committedFive "ip" "80" "backup" "dir") = .ok ["COMMIT 5 1 0"]
  decide +kernel

/-- The packet that the primary answers with. -/
private theorem primary_acknowledges : ∃ next reply, otherServer.replies (returning []).link.peer true "COMMIT 5 1 0" " " = .ok (next, [reply]) ∧
    (words reply)[0]? = some ("ACK" : Text) := by
  have acknowledges : (otherServer.replies (returning []).link.peer true "COMMIT 5 1 0" " ").map (fun sent =>
      sent.2.map (fun reply : Text => (words reply)[0]?)) = .ok [some ("ACK" : Text)] := by decide +kernel
  obtain ⟨⟨next, packets⟩, answered⟩ := returned_of_isOk
    (show (otherServer.replies (returning []).link.peer true "COMMIT 5 1 0" " ").isOk by decide +kernel)
  rw [answered] at acknowledges
  obtain ⟨reply, rfl, ack⟩ := List.map_eq_singleton_iff.mp (Except.ok.inj acknowledges)
  exact ⟨next, reply, answered, ack⟩

end TransactionalServer.Proofs.EarnedChecks
