import TransactionalServer.Proofs.Answers
import TransactionalServer.Proofs.Reserved

/-! A request that is turned down changes nothing: every check of the log comes
before its first change, and every answer that turns down before any packet is queued. -/

namespace TransactionalServer.Proofs.Rejections
open ServerTools LogHandler Exec Session

/-- An ERROR, WARNING or AUTH_FAIL, other than the one of a failed commit. -/
def Rejects (packet : Text) : Prop :=
  (Begins packet "ERROR" ∨ Begins packet "WARNING" ∨ Begins packet "AUTH_FAIL") ∧ ¬ CommitFailed packet

theorem Rejects.begins {packet word : Text} (rejects : Rejects packet) (begins : Begins packet word) :
    word = "ERROR" ∨ word = "WARNING" ∨ word = "AUTH_FAIL" := by
  have only {other : Text} (same : Begins packet other) : word = other := Option.some.inj (begins.symm.trans same)
  exact rejects.1.imp only (fun rest => rest.imp only only)

/-- Whatever a server in either role is sent: when it answers with a rejection
its log, its queue and the rest of its state are as before, and so is its disk. -/
theorem rejected_requests_change_nothing {π : Type} {answer : Answer π} {fuel : Nat} {server : Server π} {env : Env} {auth : Bool}
    {header packet : Text} {payload : Option Text} {handled : Handled π}
    (received : receive answer fuel env server auth header payload = .ok handled) (sent : .send packet ∈ handled.effects)
    (rejects : Rejects packet) : handled.server = server ∧ ∀ disk : Disk, handled.effects.foldl Disk.apply disk = disk := by
  rcases answered_cases received sent with ack | request | settled
  · exact absurd (rejects.begins ack) (by decide)
  · exact absurd (rejects.begins request) (by decide)
  · cases settled with
    | answered same only =>
      refine ⟨same, ?_⟩
      intro disk
      rw [only]
      rfl
    | failed text => exact absurd text rejects.2

/-- A WRITE for a transaction that does not exist. -/
theorem unknown_write_changes_nothing :
    ∃ handled packet, receive Backup.noPeer 0 {} Reserved.freshPrimary false "WRITE 7 1 2" (some "x") = .ok handled ∧
      Effect.send packet ∈ handled.effects ∧ handled.server = Reserved.freshPrimary ∧
      ∀ disk : Disk, handled.effects.foldl Disk.apply disk = disk := by
  obtain ⟨handled, received⟩ := returned_of_isOk
    (show (receive Backup.noPeer 0 {} Reserved.freshPrimary false "WRITE 7 1 2" (some "x")).isOk by decide +kernel)
  have packets : (receive Backup.noPeer 0 {} Reserved.freshPrimary false "WRITE 7 1 2" (some "x")).map (fun handled =>
      handled.effects.filterMap sentPacket) = .ok ["ERROR 7 1 201 24\r\n\r\nTransaction ID not found\r\n".toList] := by decide +kernel
  rw [received] at packets
  have sent := mem_of_sentPacket (Except.ok.inj packets)
  have rejects : Rejects "ERROR 7 1 201 24\r\n\r\nTransaction ID not found\r\n" :=
    ⟨Or.inl (by decide), @not_commitFailed _ "201" (by decide) (by decide)⟩
  exact ⟨handled, _, received, sent, rejected_requests_change_nothing received sent rejects⟩

end TransactionalServer.Proofs.Rejections
