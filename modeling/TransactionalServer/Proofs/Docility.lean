import TransactionalServer.Proofs.Retries
import TransactionalServer.Proofs.Peers
import TransactionalServer.Proofs.Roles
import TransactionalServer.System

/-! Servers off the primary role. Packets, sweeps and connections that come
about leave them there, and what will make them promote themselves too. -/

namespace TransactionalServer.Proofs
open ServerTools LogHandler Exec Session ReplicationManager

variable {π : Type} {answer : Answer π} {fuel : Nat} {server final : Server π} {env : Env} {auth : Bool} {header data : Text}

/-- The server is off the primary role. It is still aimed where it was, or far
from a promotion, or has a KILL on its way. -/
structure Docile (before after : Server π) : Prop where
  role : NotPrimary after.log
  sent : ∀ packet ∈ before.link.outbox, packet ∈ after.link.outbox
  bound : Aimed before after ∨ after.manager.tries ≤ 3 ∨ killPacket ∈ after.link.outbox

theorem Docile.of_aimed (role : NotPrimary final.log) (aimed : Aimed server final) : Docile server final := by
  refine ⟨role, ?_, Or.inl aimed⟩
  intro packet member
  rw [aimed.outbox]
  exact member

theorem Docile.refl (backup : NotPrimary server.log) : Docile server server := .of_aimed backup (.refl _)

theorem Docile.trans {first second third : Server π} (one : Docile first second) (two : Docile second third) : Docile first third := by
  refine ⟨two.role, fun packet member => two.sent packet (one.sent packet member), ?_⟩
  rcases two.bound with aimed | apart
  · rcases one.bound with before | few | killed
    · exact Or.inl (before.trans aimed)
    · refine Or.inr (Or.inl ?_)
      rw [aimed.tries]
      exact few
    · exact Or.inr (Or.inr (two.sent _ killed))
  · exact Or.inr apart

theorem Docile.of_kills (role : NotPrimary final.log) (kills : Kills server final) : Docile server final := by
  refine ⟨role, ?_, Or.inr (Or.inr ?_)⟩
  · intro packet member
    rw [kills.outbox]
    exact List.mem_append_left _ member
  · rw [kills.outbox]
    exact List.mem_append_right _ (List.mem_singleton_self _)

/-- The peer and what the network decides have no part in it. -/
theorem Docile.seen {ρ : Type} {first last : Server ρ} (docile : Docile server final)
    (before : first.manager = server.manager ∧ first.link.outbox = server.link.outbox)
    (after : last.log = final.log ∧ last.manager = final.manager ∧ last.link.outbox = final.link.outbox) : Docile first last := by
  obtain ⟨sameManager, sameOutbox⟩ := before
  obtain ⟨log, manager, outbox⟩ := after
  refine ⟨?_, ?_, ?_⟩
  · rw [log]
    exact docile.role
  · rw [sameOutbox, outbox]
    exact docile.sent
  · rw [outbox, manager]
    refine docile.bound.imp (fun aimed => ⟨⟨?_, ?_⟩, ?_, ?_⟩) id
    · rw [manager, sameManager, aimed.tries]
    · rw [outbox, sameOutbox, aimed.outbox]
    · rw [manager, sameManager, aimed.ip]
    · rw [manager, sameManager, aimed.port]

/-- A demoted server waits for many failures. -/
theorem switchToBackup_docile (switches : switchToBackup server = .ok final) : Docile server final := by
  have role := switchToBackup_notPrimary switches
  rcases switchToBackup_cases switches with ⟨_, rfl⟩ | ⟨_, _, _, _, _, _, rfl⟩
  · exact .refl role
  · refine ⟨role, fun _ member => member, Or.inr (Or.inl ?_)⟩
    show (-10 : Int) ≤ 3
    decide

theorem executes_docile {out : Command π} (backup : NotPrimary server.log) (executes : Executes server env auth header data out) :
    Docile server out.server := by
  have role := executes.notPrimary backup
  cases executes with
  | refused | notAborted | commits | notAdded | read | made | pinged | authenticated => exact .of_aimed role ⟨⟨rfl, rfl⟩, rfl, rfl⟩
  | aborted _ _ _ enqueued | created _ _ _ enqueued | added _ _ _ enqueued | completed _ _ _ _ enqueued =>
    have aimed := enqueue_aimed enqueued
    exact .of_aimed role ⟨⟨aimed.tries, aimed.outbox⟩, aimed.ip, aimed.port⟩
  | demoted _ switches => exact switchToBackup_docile switches

theorem receive_docile {payload : Option Text} {handled : Handled π} (backup : NotPrimary server.log)
    (received : receive answer fuel env server auth header payload = .ok handled) : Docile server handled.server := by
  rcases receive_cases received with ⟨same, _⟩ | ⟨_, out, executes, follows⟩
  · rw [same]
    exact .refl backup
  have docile := executes_docile backup executes
  cases follows with
  | returned | asks | answers => exact docile
  | @concludes done _ _ concludes =>
    cases concludes with
    | acknowledged => exact docile
    | refused primary | exits primary | finishes primary => exact absurd primary docile.role

theorem reached_docile {tick : Tick} (backup : NotPrimary server.log) (up : reaches server = true) (ticks : Ticks tick server final) :
    Docile server final := by
  cases ticks with
  | reached _ kept ends =>
    have role := backup.kept kept
    rcases ends with aimed | kills
    · exact .of_aimed role aimed
    · exact .of_kills role kills
  | failed down =>
    rw [up] at down
    cases down

/-- What happens to a server off the primary role, unless its tick fails to connect. -/
theorem step_docile {event : System.Event} (backup : NotPrimary server.log)
    (connects : ∀ tick, event = .tick tick → reaches server = true) (stepped : System.step answer fuel server event = .ok final) :
    Docile server final := by
  cases step_cases stepped with
  | packet valid drawn received => exact receive_docile backup received
  | sweep swept =>
    exact .of_aimed (timeouts_preserves (fun _ _ _ _ holds sweeps => sweeps.notPrimary holds) backup swept) ⟨⟨rfl, rfl⟩, rfl, rfl⟩
  | save => exact .refl backup
  | tick checked =>
    rcases check_cases checked with ⟨primary, _⟩ | ⟨_, ops⟩
    · exact absurd primary backup
    · exact reached_docile backup (connects _ rfl) (backupOps_cases backup ops)

section
variable {related : π → π → Prop}

theorem switchToBackup_peer (switches : switchToBackup server = .ok final) : final.link.peer = server.link.peer := by
  rcases switchToBackup_cases switches with ⟨_, rfl⟩ | ⟨_, _, _, _, _, _, rfl⟩
  · rfl
  · rfl

theorem executes_peer {out : Command π} (executes : Executes server env auth header data out) : out.server.link.peer = server.link.peer := by
  cases executes with
  | refused | notAborted | commits | notAdded | read | made | pinged | authenticated => rfl
  | aborted _ _ _ enqueued | created _ _ _ enqueued | added _ _ _ enqueued | completed _ _ _ _ enqueued =>
    have link := enqueue_link enqueued
    exact congrArg Link.peer link
  | demoted _ switches => exact switchToBackup_peer switches

theorem Asked.receive (asked : Asked answer related) {payload : Option Text} {handled : Handled π}
    (received : Session.receive answer fuel env server auth header payload = .ok handled) :
    related server.link.peer handled.server.link.peer := by
  rcases receive_cases received with ⟨same, _⟩ | ⟨_, out, executes, follows⟩
  · rw [same]
    exact asked.refl _
  rw [← executes_peer executes]
  cases follows with
  | returned | asks | answers => exact asked.refl _
  | @concludes done _ _ concludes =>
    cases concludes with
    | acknowledged => exact asked.refl _
    | refused _ commits | exits _ commits | finishes _ commits =>
      have asks := (asked.manager fuel).2.1 _ _ _ _ commits
      exact asks

/-- A tick that finds nobody searches for the primary, and asks nobody either. -/
theorem step_searches {tick : Tick} (backup : NotPrimary server.log) (down : reaches server = false)
    (stepped : System.step answer fuel server (.tick tick) = .ok final) : Searches tick server final ∧ final.link.peer = server.link.peer := by
  cases step_cases stepped with
  | tick checked =>
    rcases check_cases checked with ⟨primary, _⟩ | ⟨_, ops⟩
    · exact absurd primary backup
    constructor
    · cases backupOps_cases backup ops with
      | reached up =>
        rw [down] at up
        cases up
      | failed _ searches => exact searches
    · unfold reaches at down
      cases backupOps_steps ops with
      | checks up | pings up =>
        rw [up] at down
        cases down
      | @searches link _ failed searches =>
        have peer := connectSocket_peer (Client.closeSocket server.link)
        rw [failed] at peer
        rw [(searchPrimary_writes searches).1]
        exact peer

theorem Asked.check (asked : Asked answer related) {tick : Tick} (ran : ReplicationManager.check answer fuel tick server = .ok (some final)) :
    related server.link.peer final.link.peer := by
  rcases check_cases ran with ⟨_, ops⟩ | ⟨_, ops⟩
  · exact (asked.manager fuel).1 _ _ ops
  have peer {up : Bool} {link : Link π} (attempt : Client.connectSocket (Client.closeSocket server.link) = (up, link)) :
      link.peer = server.link.peer := by
    have same := connectSocket_peer (Client.closeSocket server.link)
    rw [attempt] at same
    exact same
  cases backupOps_steps ops with
  | checks up _ check =>
    rw [← peer up]
    exact (asked.manager fuel).2.2 _ _ _ check
  | pings up _ _ _ exchanged =>
    rw [← peer up]
    have asks := asked.exchange exchanged
    exact asks
  | searches down searches =>
    rw [← peer down, (searchPrimary_writes searches).1]
    exact asked.refl _

/-- Whatever happens to a server, its peer changes only by what it is asked. -/
theorem Asked.step (asked : Asked answer related) {event : System.Event} (stepped : System.step answer fuel server event = .ok final) :
    related server.link.peer final.link.peer := by
  cases step_cases stepped with
  | packet valid drawn received => exact asked.receive received
  | sweep swept => exact asked.refl _
  | save => exact asked.refl _
  | tick checked => exact asked.check checked

end

end TransactionalServer.Proofs
