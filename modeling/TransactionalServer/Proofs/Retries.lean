import TransactionalServer.Proofs.SessionSteps

/-! The counter of failed attempts, the target of the next one, and the packets
that are sent without waiting for an answer. -/

namespace TransactionalServer.Proofs
open ServerTools LogHandler Exec Session ReplicationManager

variable {π : Type} {answer : Answer π} {fuel : Nat} {server final : Server π} {header data : Text} {done : Bool}

/-- The packet that demotes a primary. -/
def killPacket : Text := Client.genRequest "KILL" "-1" "0" " "

/-- Neither the counter nor what was sent without waiting has changed. -/
structure Calm (before after : Server π) : Prop where
  tries : after.manager.tries = before.manager.tries
  outbox : after.link.outbox = before.link.outbox

/-- The target is still the same. -/
structure Aimed (before after : Server π) : Prop extends Calm before after where
  ip : after.manager.ip = before.manager.ip
  port : after.manager.port = before.manager.port

/-- A KILL was sent. The next attempt is aimed at nobody, and its failure
promotes. -/
structure Kills (before after : Server π) : Prop where
  tries : after.manager.tries = 4
  ip : after.manager.ip = "0.0.0.0"
  port : after.manager.port = "0"
  outbox : after.link.outbox = before.link.outbox ++ [killPacket]

theorem Calm.refl (server : Server π) : Calm server server := ⟨rfl, rfl⟩

theorem Calm.trans {first second third : Server π} (one : Calm first second) (two : Calm second third) : Calm first third :=
  ⟨two.tries.trans one.tries, two.outbox.trans one.outbox⟩

theorem Aimed.refl (server : Server π) : Aimed server server := ⟨.refl _, rfl, rfl⟩

theorem Aimed.trans {first second third : Server π} (one : Aimed first second) (two : Aimed second third) : Aimed first third :=
  ⟨one.toCalm.trans two.toCalm, two.ip.trans one.ip, two.port.trans one.port⟩

theorem Aimed.kills {first second third : Server π} (one : Aimed first second) (two : Kills second third) : Kills first third :=
  ⟨two.tries, two.ip, two.port, by rw [two.outbox, one.outbox]⟩

section
variable {link next : Link π} {reply : Option Text}

theorem exchange_outbox (ran : Client.exchange answer link header data = .ok (reply, next)) : next.outbox = link.outbox := by
  cases exchange_cases ran with
  | down | lostRequest | lostReply | answered => rfl

theorem sendReceive_outbox (ran : Client.sendReceive answer link header data = .ok (reply, next)) : next.outbox = link.outbox := by
  obtain ⟨_, _, ran⟩ := bind_eq_ok.mp ran
  exact exchange_outbox ran

theorem connectSocket_outbox (link : Link π) : (Client.connectSocket link).2.outbox = link.outbox := by
  unfold Client.connectSocket
  split
  · rfl
  · rfl

/-- `sendPacket` adds the packet when it does not throw. -/
theorem sendPacket_outbox (link : Link π) (packet : Text) :
    (Client.sendPacket link packet).2.outbox =
      if (Client.sendPacket link packet).1 = true then link.outbox ++ [packet] else link.outbox := by
  unfold Client.sendPacket
  simp only
  split
  · rfl
  · rfl

end

theorem enqueue_aimed (enqueued : enqueue server header data = .ok final) : Aimed server final := by
  obtain ⟨role, _, rfl⟩ := enqueue_eq_ok.mp enqueued
  split
  · exact ⟨⟨rfl, rfl⟩, rfl, rfl⟩
  · exact .refl _

theorem drain_calm {queue : List (Text × Text)} (ran : drain answer queue server = .ok final) : Calm server final := by
  induction queue generalizing server with
  | nil =>
    cases ran
    exact ⟨rfl, rfl⟩
  | cons packet rest ih =>
    obtain ⟨header, data⟩ := packet
    unfold drain at ran
    obtain ⟨⟨reply, link⟩, sent, ran⟩ := bind_eq_ok.mp ran
    have outbox := sendReceive_outbox sent
    cases reply with
    | none =>
      cases ran
      exact ⟨rfl, outbox⟩
    | some reply =>
      have later := @ih { server with link } ran
      exact ⟨later.tries, later.outbox.trans outbox⟩

theorem resend_calm {tsn : Int} (ran : resend server tsn = .ok final) : Calm server final :=
  resend_relates Calm.refl Calm.trans (fun _ _ _ _ enqueued => (enqueue_aimed enqueued).toCalm) ran

theorem refreshTarget_calm (ran : refreshTarget server = .ok final) : Calm server final := by
  rcases refreshTarget_cases ran with rfl | ⟨_, _, rfl⟩
  · exact .refl _
  · exact ⟨rfl, rfl⟩

theorem openCheck_aimed (ran : openCheck server = .ok final) : Aimed server final := by
  rcases openCheck_cases ran with ⟨_, rfl⟩ | ⟨_, up, link, attempt, rfl⟩
  · exact .refl _
  have outbox := connectSocket_outbox server.link
  rw [attempt] at outbox
  split
  · exact ⟨⟨rfl, outbox⟩, rfl, rfl⟩
  · exact ⟨⟨rfl, outbox⟩, rfl, rfl⟩

/-- The loop of a check, whose commits keep the role. -/
theorem checkCommits_calm {commit : Server π → Text → Exec (Bool × Server π)}
    (calm : ∀ server header done final, IsPrimary server.log → commit server header = .ok (done, final) → Calm server final ∧ IsPrimary final.log)
    {holder : List Text} (primary : IsPrimary server.log) (ran : checkCommits commit holder server = .ok (done, final)) : Calm server final := by
  induction holder generalizing server with
  | nil =>
    cases ran
    exact .refl _
  | cons header rest ih =>
    unfold checkCommits at ran
    obtain ⟨⟨committed, next⟩, returned, ran⟩ := bind_eq_ok.mp ran
    obtain ⟨first, still⟩ := calm _ _ _ _ primary returned
    cases committed with
    | true => exact first.trans (ih still ran)
    | false =>
      cases ran
      exact first

/-- A primary counts no failures and sends nothing without waiting. -/
theorem primary_calm (answer : Answer π) (fuel : Nat) :
    (∀ server final : Server π, IsPrimary server.log → primaryOps answer fuel server = .ok final → Calm server final) ∧
      (∀ (server : Server π) header done final, IsPrimary server.log →
        ReplicationManager.commit answer fuel server header = .ok (done, final) → Calm server final) ∧
      ∀ (server : Server π) done final, IsPrimary server.log → integrityCheck answer fuel server = .ok (done, final) → Calm server final := by
  induction fuel with
  | zero => simp [primaryOps, ReplicationManager.commit, integrityCheck]
  | succ fuel ih =>
    obtain ⟨tick, commits, checks⟩ := ih
    refine ⟨?_, ?_, ?_⟩
    · intro server final primary ran
      cases primaryOps_cases ran with
      | drains _ drained => exact drain_calm drained
      | @fails target link _ refreshed down =>
        have outbox := connectSocket_outbox target.link
        rw [down] at outbox
        exact (refreshTarget_calm refreshed).trans ⟨rfl, outbox⟩
      | @checks target _ link _ _ refreshed up check =>
        have outbox := connectSocket_outbox target.link
        rw [up] at outbox
        have opened : IsPrimary (setAlive { target with link } true).log := by
          show IsPrimary target.log
          rw [(refreshTarget_keeps refreshed).1]
          exact primary
        have later := checks _ _ _ opened check
        exact (refreshTarget_calm refreshed).trans ⟨later.tries, later.outbox.trans outbox⟩
      | idle => exact .refl _
    · intro server header done final primary ran
      obtain ⟨synced, synchronised, round⟩ := commit_round primary ran
      have first := tick _ _ primary synchronised
      have still : IsPrimary synced.log := primary.kept ((manager_keeps answer fuel).1 _ _ synchronised)
      have after {reply : Option Text} {link : Link π} {last : Server π} (calm : Calm { synced with link } last)
          (sent : Client.sendReceive answer synced.link header " " = .ok (reply, link)) : Calm synced last :=
        ⟨calm.tries, calm.outbox.trans (sendReceive_outbox sent)⟩
      apply first.trans
      cases round with
      | away _ enqueued => exact (enqueue_aimed enqueued).toCalm
      | unsynced _ _ again => exact commits _ _ _ _ still again
      | lost _ _ sent enqueued =>
        have calm := (enqueue_aimed enqueued).toCalm
        exact after ⟨calm.tries, calm.outbox⟩ sent
      | acked _ _ sent | refused _ _ sent => exact after (.refl _) sent
      | @resent _ _ queued _ _ _ _ sent _ resends again =>
        have grown : IsPrimary queued.log := by
          rw [resend_log resends]
          exact still
        exact after ((resend_calm resends).trans (commits _ _ _ _ grown again)) sent
      | @created _ _ _ queued _ _ _ _ sent _ _ _ enqueued again =>
        have grown : IsPrimary queued.log := by
          rw [enqueue_log enqueued]
          exact still
        exact after ((enqueue_aimed enqueued).toCalm.trans (commits _ _ _ _ grown again)) sent
    · intro server done final primary ran
      obtain ⟨opened, holder, checked, opens, _, check, ends⟩ := integrityCheck_cases ran
      have still : IsPrimary opened.log := by
        rw [openCheck_log opens]
        exact primary
      have calm : Calm server checked := by
        refine (openCheck_aimed opens).toCalm.trans (checkCommits_calm ?_ still check)
        intro server header done final primary committed
        exact ⟨commits _ _ _ _ primary committed, primary.kept ((manager_keeps answer fuel).2.1 _ _ _ _ committed)⟩
      rcases ends with rfl | ⟨_, rfl⟩
      · exact calm
      · exact ⟨calm.tries, calm.outbox⟩

/-- On a server that is not the primary a commit changes nothing, or it kills
the primary and reports that it failed. -/
theorem backup_commit_cases (backup : NotPrimary server.log) (ran : ReplicationManager.commit answer fuel server header = .ok (done, final)) :
    Aimed server final ∨ (done = false ∧ Kills server final) := by
  induction fuel with
  | zero => cases ran
  | succ fuel ih =>
    cases backup_round backup ran with
    | away => exact Or.inl (.refl _)
    | unsynced _ _ again => exact ih again
    | lost sent | acked sent => exact Or.inl ⟨⟨rfl, sendReceive_outbox sent⟩, rfl, rfl⟩
    | @kills link _ _ sent kill =>
      have packet := sendPacket_outbox link (Client.genRequest "KILL" "-1" "0" " ")
      rw [kill, if_pos rfl, sendReceive_outbox sent] at packet
      exact Or.inr ⟨rfl, rfl, rfl, rfl, packet⟩
    | @unheard link _ _ sent kill =>
      have packet := sendPacket_outbox link (Client.genRequest "KILL" "-1" "0" " ")
      rw [kill, if_neg Bool.false_ne_true, sendReceive_outbox sent] at packet
      exact Or.inl ⟨⟨rfl, packet⟩, rfl, rfl⟩

theorem backup_checkCommits_cases {holder : List Text} (backup : NotPrimary server.log)
    (ran : checkCommits (ReplicationManager.commit answer fuel) holder server = .ok (done, final)) :
    Aimed server final ∨ Kills server final := by
  induction holder generalizing server with
  | nil =>
    cases ran
    exact Or.inl (.refl _)
  | cons header rest ih =>
    unfold checkCommits at ran
    obtain ⟨⟨committed, next⟩, returned, ran⟩ := bind_eq_ok.mp ran
    have still : NotPrimary next.log := backup.kept ((manager_keeps answer fuel).2.1 _ _ _ _ returned)
    rcases backup_commit_cases backup returned with aimed | ⟨rfl, kills⟩
    · cases committed with
      | true => exact (ih still ran).imp aimed.trans aimed.kills
      | false =>
        cases ran
        exact Or.inl aimed
    · cases ran
      exact Or.inr kills

theorem backup_integrityCheck_cases (backup : NotPrimary server.log) (ran : integrityCheck answer fuel server = .ok (done, final)) :
    Aimed server final ∨ Kills server final := by
  cases fuel with
  | zero => cases ran
  | succ fuel =>
    obtain ⟨opened, holder, checked, opens, _, checks, ends⟩ := integrityCheck_cases ran
    have still : NotPrimary opened.log := by
      rw [openCheck_log opens]
      exact backup
    have first := openCheck_aimed opens
    have both := (backup_checkCommits_cases still checks).imp first.trans first.kills
    rcases ends with rfl | ⟨_, rfl⟩
    · exact both
    · exact both.imp (fun aimed => ⟨⟨aimed.tries, aimed.outbox⟩, aimed.ip, aimed.port⟩)
        (fun kills => ⟨kills.tries, kills.ip, kills.port, kills.outbox⟩)

/-- What the first line of primary.txt names, as far as it can be read. -/
def Names (tick : Tick) (ip port : Text) : Prop :=
  ∃ line, tick.primaryTxt = some line ∧ (Fields.split ['|'] line)[1]? = some ip ∧ (Fields.split ['|'] line)[3]? = some port

/-- A failed attempt: the server promotes itself after more than three others,
and then aims at what primary.txt names, unless that is itself. -/
structure Searches (tick : Tick) (before after : Server π) : Prop where
  outbox : after.link.outbox = before.link.outbox
  role : (before.manager.tries ≤ 3 ∧ after.log = before.log ∧ after.manager.tries = before.manager.tries + 1) ∨
    (3 < before.manager.tries ∧ IsPrimary after.log ∧ after.manager.tries = 1)
  target : ∃ ip port, Names tick ip port ∧
    ((getIpThis after.log = .ok ip ∧ getPortThis after.log = .ok port ∧
        after.manager.ip = before.manager.ip ∧ after.manager.port = before.manager.port) ∨
      (¬ (getIpThis after.log = .ok ip ∧ getPortThis after.log = .ok port) ∧ after.manager.ip = ip ∧ after.manager.port = port))

theorem switchToPrimary_leads {tick : Tick} {switched : Server π} (switches : switchToPrimary tick server = .ok (some switched)) :
    IsPrimary switched.log ∧ switched.manager = server.manager ∧ switched.link = server.link := by
  rcases switchToPrimary_cases switches with ⟨primary, rfl⟩ | ⟨_, _, _, _, _, _, rfl⟩
  · exact ⟨primary, rfl, rfl⟩
  · exact ⟨serverData_role _ _ _ _ _, rfl, rfl⟩

theorem searchPrimary_cases {tick : Tick} (ran : searchPrimary tick server = .ok (some final)) : Searches tick server final := by
  obtain ⟨promoted, loaded, promotes, loads, retargets⟩ := searchPrimary_steps ran
  have role : promoted.link = server.link ∧ promoted.manager.ip = server.manager.ip ∧ promoted.manager.port = server.manager.port ∧
      ((server.manager.tries ≤ 3 ∧ promoted.log = server.log ∧ promoted.manager.tries = server.manager.tries) ∨
        (3 < server.manager.tries ∧ IsPrimary promoted.log ∧ promoted.manager.tries = 0)) := by
    rcases promote_cases promotes with ⟨few, rfl⟩ | ⟨many, switched, switches, rfl⟩
    · exact ⟨rfl, rfl, rfl, Or.inl ⟨few, rfl, rfl⟩⟩
    · obtain ⟨primary, manager, link⟩ := switchToPrimary_leads switches
      have sameIp : switched.manager.ip = server.manager.ip := congrArg Manager.ip manager
      have samePort : switched.manager.port = server.manager.port := congrArg Manager.port manager
      exact ⟨link, sameIp, samePort, Or.inr ⟨many, primary, rfl⟩⟩
  obtain ⟨link, sameIp, samePort, role⟩ := role
  have counts {ticked : Server π} (log : ticked.log = promoted.log) (tries : ticked.manager.tries = promoted.manager.tries + 1) :
      (server.manager.tries ≤ 3 ∧ ticked.log = server.log ∧ ticked.manager.tries = server.manager.tries + 1) ∨
        (3 < server.manager.tries ∧ IsPrimary ticked.log ∧ ticked.manager.tries = 1) := by
    rcases role with ⟨few, same, count⟩ | ⟨many, primary, count⟩
    · exact Or.inl ⟨few, log.trans same, by omega⟩
    · exact Or.inr ⟨many, log ▸ primary, by omega⟩
  obtain ⟨line, ip, port, read, first, third, rfl⟩ := loadPrimary_cases loads
  have names : Names tick ip port := ⟨line, read, first, third⟩
  rcases retarget_cases retargets with ⟨ownIp, ownPort, rfl⟩ | ⟨elsewhere, rfl⟩
  · exact ⟨congrArg Link.outbox link, counts rfl rfl, ip, port, names, Or.inl ⟨ownIp, ownPort, sameIp, samePort⟩⟩
  · exact ⟨congrArg Link.outbox link, counts rfl rfl, ip, port, names, Or.inr ⟨elsewhere, rfl, rfl⟩⟩

/-- The outcome of the attempt that a backup's next tick makes. -/
def reaches (server : Server π) : Bool := (Client.connectSocket (Client.closeSocket server.link)).1

/-- The ends of a backup's tick. -/
inductive Ticks (tick : Tick) (before after : Server π) : Prop where
  | reached (up : reaches before = true) (log : LogKept before.log after.log) (ends : Aimed before after ∨ Kills before after)
  | failed (down : reaches before = false) (searches : Searches tick before after)

theorem backupOps_cases {tick : Tick} (backup : NotPrimary server.log) (ran : backupOps answer fuel tick server = .ok (some final)) :
    Ticks tick server final := by
  have outbox := connectSocket_outbox (Client.closeSocket server.link)
  cases backupOps_steps ran with
  | @checks link checked _ up _ check =>
    rw [up] at outbox
    have opened : NotPrimary ({ server with link, manager := { server.manager with backupDidSync := true } } : Server π).log := backup
    have log := (manager_keeps answer fuel).2.2 _ _ _ check
    refine .reached (congrArg Prod.fst up) log ?_
    rcases backup_integrityCheck_cases opened check with aimed | kills
    · exact Or.inl ⟨⟨aimed.tries, aimed.outbox.trans outbox⟩, aimed.ip, aimed.port⟩
    · exact Or.inr ⟨kills.tries, kills.ip, kills.port, kills.outbox.trans (congrArg (· ++ [killPacket]) outbox)⟩
  | pings up _ _ _ exchanged =>
    rw [up] at outbox
    exact .reached (congrArg Prod.fst up) (.refl _) (Or.inl ⟨⟨rfl, (exchange_outbox exchanged).trans outbox⟩, rfl, rfl⟩)
  | searches down searches =>
    rw [down] at outbox
    have searches := searchPrimary_cases searches
    exact .failed (congrArg Prod.fst down) ⟨searches.outbox.trans outbox, searches.role, searches.target⟩

end TransactionalServer.Proofs
