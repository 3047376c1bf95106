import TransactionalServer.Proofs.ManagerFrames

/-! The far end of the replication connection. Whatever a server does, its peer
changes only by handling the requests it is sent. -/

namespace TransactionalServer.Proofs
open ServerTools LogHandler Exec ReplicationManager

variable {π : Type} {answer : Answer π} {fuel : Nat}

/-- A relation between what a peer was and what it is after some requests. -/
structure Asked (answer : Answer π) (related : π → π → Prop) : Prop where
  refl : ∀ peer, related peer peer
  trans : ∀ {first second third}, related first second → related second third → related first third
  asks : ∀ {peer next io header data reply}, answer peer io header data = .ok (next, reply) → related peer next

section
variable {related : π → π → Prop} {link next : Link π} {header data : Text} {server final : Server π}

theorem Asked.exchange (asked : Asked answer related) {reply : Option Text}
    (ran : Client.exchange answer link header data = .ok (reply, next)) : related link.peer next.peer := by
  cases exchange_cases ran with
  | down | lostRequest => exact asked.refl _
  | lostReply _ _ handled | answered _ _ handled => exact asked.asks handled

theorem Asked.sendReceive (asked : Asked answer related) {reply : Option Text}
    (ran : Client.sendReceive answer link header data = .ok (reply, next)) : related link.peer next.peer := by
  obtain ⟨_, _, ran⟩ := bind_eq_ok.mp ran
  exact asked.exchange ran

theorem connectSocket_peer (link : Link π) : (Client.connectSocket link).2.peer = link.peer := by
  unfold Client.connectSocket
  split
  · rfl
  · rfl

theorem sendPacket_peer (link : Link π) (packet : Text) : (Client.sendPacket link packet).2.peer = link.peer := by
  unfold Client.sendPacket
  simp only
  split
  · rfl
  · rfl

theorem enqueue_link (enqueued : enqueue server header data = .ok final) : final.link = server.link := by
  obtain ⟨role, _, rfl⟩ := enqueue_eq_ok.mp enqueued
  split
  · rfl
  · rfl

theorem resend_link {tsn : Int} (ran : resend server tsn = .ok final) : final.link = server.link :=
  @resend_relates π (fun one two => two.link = one.link) (fun _ => rfl) (fun one two => two.trans one)
    (fun _ _ _ _ enqueued => enqueue_link enqueued) _ _ _ ran

theorem Asked.connects (asked : Asked answer related) {link after : Link π} {up : Bool} (attempt : Client.connectSocket link = (up, after)) :
    related link.peer after.peer := by
  have peer := connectSocket_peer link
  rw [attempt] at peer
  rw [show after.peer = link.peer from peer]
  exact asked.refl _

/-- The manager reaches the peer through its requests alone. -/
theorem Asked.moves (asked : Asked answer related) : Moves answer (fun before after => related before.link.peer after.link.peer) where
  refl _ := asked.refl _
  trans := asked.trans
  managed _ _ := asked.refl _
  exchanged _ _ _ _ _ sent := asked.sendReceive sent
  connected _ _ _ attempt := asked.connects attempt
  sent server packet sends link attempt := by
    have peer := sendPacket_peer server.link packet
    rw [attempt] at peer
    rw [show link.peer = server.link.peer from peer]
    exact asked.refl _
  closed _ := asked.refl _
  forgets _ _ attempt := asked.connects attempt

theorem Asked.manager (asked : Asked answer related) (fuel : Nat) :
    (∀ server final, primaryOps answer fuel server = .ok final → related server.link.peer final.link.peer) ∧
      (∀ server header done final, ReplicationManager.commit answer fuel server header = .ok (done, final) →
        related server.link.peer final.link.peer) ∧
      ∀ server done final, integrityCheck answer fuel server = .ok (done, final) → related server.link.peer final.link.peer :=
  asked.moves.manager fuel

end

end TransactionalServer.Proofs
