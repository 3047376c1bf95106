import TransactionalServer.Proofs.Replication

/-! What the calls of the replication manager keep. Whatever the network and the
peer do, they change no record and may forget the backup's registration; a
backup's tick writes at most the record of the server itself. -/

namespace TransactionalServer.Proofs
open ServerTools LogHandler Exec ReplicationManager

variable {π : Type} {answer : Answer π} {fuel : Nat}

/-- At most the registration has gone. -/
def LogKept (before after : Log) : Prop := after = before ∨ after = before.erase (-1)

theorem LogKept.refl (log : Log) : LogKept log log := Or.inl rfl

private theorem erase_erase (log : Log) : (log.erase (-1)).erase (-1) = log.erase (-1) := by
  apply Std.ExtTreeMap.ext_getElem?
  intro other
  by_cases same : other = -1
  · subst same
    rw [Std.ExtTreeMap.getElem?_erase_self, Std.ExtTreeMap.getElem?_erase_self]
  · rw [Store.get_erase_other same]

theorem LogKept.trans {first second third : Log} (one : LogKept first second) (two : LogKept second third) : LogKept first third := by
  rcases one with rfl | rfl
  · exact two
  · rcases two with rfl | rfl
    · exact Or.inr rfl
    · exact Or.inr (erase_erase first)

theorem LogKept.other {before after : Log} (kept : LogKept before after) {tsn : Int} (differs : tsn ≠ -1) :
    after[tsn]? = before[tsn]? := by
  rcases kept with rfl | rfl
  · rfl
  · exact Store.get_erase_other differs

theorem IsPrimary.kept {before after : Log} (primary : IsPrimary before) (kept : LogKept before after) : IsPrimary after :=
  primary.of_get (kept.other (by decide))

theorem NotPrimary.kept {before after : Log} (backup : NotPrimary before) (kept : LogKept before after) : NotPrimary after :=
  backup.of_get (kept.other (by decide))

/-- What the packets of a resend have in common, the resend has. -/
theorem resend_relates {related : Server π → Server π → Prop} (refl : ∀ server, related server server)
    (trans : ∀ {first second third}, related first second → related second third → related first third)
    (queues : ∀ server header data final, enqueue server header data = .ok final → related server final) {server final : Server π} {tsn : Int}
    (ran : resend server tsn = .ok final) : related server final := by
  have loop (seqs : List Int) (server : Server π) (ran : seqs.foldlM (fun server seq => do
      enqueue server (← getHeader server.log tsn seq) (← getData server.log tsn seq)) server = .ok final) : related server final := by
    induction seqs generalizing server with
    | nil =>
      cases ran
      exact refl _
    | cons seq seqs ih =>
      rw [List.foldlM_cons] at ran
      obtain ⟨next, enqueued, ran⟩ := bind_eq_ok.mp ran
      obtain ⟨_, _, enqueued⟩ := bind_eq_ok.mp enqueued
      obtain ⟨_, _, enqueued⟩ := bind_eq_ok.mp enqueued
      exact trans (queues _ _ _ _ enqueued) (ih next ran)
  unfold resend at ran
  obtain ⟨bound, _, ran⟩ := bind_eq_ok.mp ran
  split at ran
  · cases ran
  · exact loop _ _ ran

theorem resend_log {server final : Server π} {tsn : Int} (ran : resend server tsn = .ok final) : final.log = server.log :=
  @resend_relates π (fun before after => after.log = before.log) (fun _ => rfl) (fun one two => two.trans one)
    (fun _ _ _ _ enqueued => enqueue_log enqueued) server final tsn ran

/-- What the commits of a check have in common, the check has. -/
theorem checkCommits_relates {related : Server π → Server π → Prop} (refl : ∀ server, related server server)
    (trans : ∀ {first second third}, related first second → related second third → related first third)
    {commit : Server π → Text → Exec (Bool × Server π)}
    (commits : ∀ server header done final, commit server header = .ok (done, final) → related server final) {holder : List Text}
    {server final : Server π} {done : Bool} (ran : checkCommits commit holder server = .ok (done, final)) : related server final := by
  induction holder generalizing server with
  | nil =>
    cases ran
    exact refl _
  | cons header rest ih =>
    unfold checkCommits at ran
    obtain ⟨⟨done, next⟩, committed, ran⟩ := bind_eq_ok.mp ran
    have first := commits _ _ _ _ committed
    cases done with
    | true => exact trans first (ih ran)
    | false =>
      cases ran
      exact first

theorem openCheck_log {server opened : Server π} (ran : openCheck server = .ok opened) : opened.log = server.log := by
  rcases openCheck_cases ran with ⟨_, rfl⟩ | ⟨_, _, _, _, rfl⟩
  · rfl
  · split
    · rfl
    · rfl

/-- A relation that no move of the manager leaves. Its calls then stay in it. -/
structure Moves (answer : Answer π) (related : Server π → Server π → Prop) : Prop where
  refl : ∀ server, related server server
  trans : ∀ {first second third}, related first second → related second third → related first third
  managed : ∀ (server : Server π) manager, related server { server with manager }
  exchanged : ∀ (server : Server π) header data result link, Client.sendReceive answer server.link header data = .ok (result, link) →
    related server { server with link }
  connected : ∀ (server : Server π) up link, Client.connectSocket server.link = (up, link) → related server { server with link }
  sent : ∀ (server : Server π) packet sends link, Client.sendPacket server.link packet = (sends, link) → related server { server with link }
  closed : ∀ server : Server π, related server { server with link := Client.closeSocket server.link }
  forgets : ∀ (server : Server π) link, Client.connectSocket server.link = (false, link) →
    related server { server with link, log := server.log.erase (-1) }

section
variable {related : Server π → Server π → Prop} {server final : Server π}

theorem Moves.enqueue (moves : Moves answer related) {header data : Text} (enqueued : enqueue server header data = .ok final) :
    related server final := by
  obtain ⟨role, _, rfl⟩ := enqueue_eq_ok.mp enqueued
  split
  · exact moves.managed server _
  · exact moves.refl server

theorem Moves.drain (moves : Moves answer related) {queue : List (Text × Text)} (ran : drain answer queue server = .ok final) :
    related server final := by
  induction queue generalizing server with
  | nil =>
    cases ran
    exact moves.managed server _
  | cons packet rest ih =>
    obtain ⟨header, data⟩ := packet
    unfold ReplicationManager.drain at ran
    obtain ⟨⟨reply, link⟩, sent, ran⟩ := bind_eq_ok.mp ran
    have first := moves.exchanged server _ _ _ _ sent
    cases reply with
    | none =>
      cases ran
      exact moves.trans first (moves.managed { server with link } _)
    | some reply => exact moves.trans first (@ih { server with link } ran)

theorem Moves.refreshTarget (moves : Moves answer related) (ran : refreshTarget server = .ok final) : related server final := by
  rcases refreshTarget_cases ran with rfl | ⟨ip, port, rfl⟩
  · exact moves.refl _
  · exact moves.managed server _

theorem Moves.openCheck (moves : Moves answer related) (ran : openCheck server = .ok final) : related server final := by
  rcases openCheck_cases ran with ⟨_, rfl⟩ | ⟨_, up, link, attempt, rfl⟩
  · exact moves.refl _
  · have connected := moves.connected server up link attempt
    split
    · exact moves.trans connected (moves.managed { server with link } _)
    · exact connected

/-- A round of `commit` on a primary, when the calls it makes stay in the relation. -/
theorem Moves.round (moves : Moves answer related) {fuel : Nat}
    (commits : ∀ server header done final, ReplicationManager.commit answer fuel server header = .ok (done, final) → related server final)
    {header : Text} {done : Bool} (round : Round answer fuel server header done final) : related server final := by
  have exchanged {result : Option Text} {link : Link π} (sent : Client.sendReceive answer server.link header " " = .ok (result, link)) :
      related server { server with link } := moves.exchanged server _ _ _ _ sent
  cases round with
  | away _ enqueued => exact moves.enqueue enqueued
  | unsynced _ _ again => exact commits _ _ _ _ again
  | lost _ _ sent enqueued => exact moves.trans (exchanged sent) (moves.trans (moves.enqueue enqueued) (moves.managed _ _))
  | acked _ _ sent | refused _ _ sent => exact exchanged sent
  | resent _ _ sent _ resends again =>
    have queued := resend_relates moves.refl moves.trans (fun _ _ _ _ enqueued => moves.enqueue enqueued) resends
    exact moves.trans (exchanged sent) (moves.trans queued (commits _ _ _ _ again))
  | created _ _ sent _ _ _ enqueued again =>
    exact moves.trans (exchanged sent) (moves.trans (moves.enqueue enqueued) (commits _ _ _ _ again))

/-- One call of `commit`. -/
theorem Moves.commit (moves : Moves answer related) {fuel : Nat}
    (tick : ∀ server final, primaryOps answer fuel server = .ok final → related server final)
    (commits : ∀ server header done final, ReplicationManager.commit answer fuel server header = .ok (done, final) → related server final)
    {header : Text} {done : Bool} (ran : ReplicationManager.commit answer (fuel + 1) server header = .ok (done, final)) : related server final := by
  have exchanged {server : Server π} {result : Option Text} {link : Link π}
      (sent : Client.sendReceive answer server.link header " " = .ok (result, link)) : related server { server with link } :=
    moves.exchanged server _ _ _ _ sent
  by_cases primary : IsPrimary server.log
  · obtain ⟨synced, synchronised, round⟩ := commit_round primary ran
    exact moves.trans (tick _ _ synchronised) (moves.round commits round)
  · cases backup_round primary ran with
    | away => exact moves.refl _
    | unsynced _ _ again => exact commits _ _ _ _ again
    | lost sent => exact moves.trans (exchanged sent) (moves.managed _ _)
    | acked sent => exact exchanged sent
    | @kills link killed _ sent kill =>
      have kills := moves.trans (exchanged sent) (moves.sent { server with link } _ _ _ kill)
      exact moves.trans kills (moves.trans (moves.closed { server with link := killed }) (moves.managed _ _))
    | @unheard link left _ sent kill =>
      have unheard := moves.trans (exchanged sent) (moves.sent { server with link } _ _ _ kill)
      exact moves.trans unheard (moves.managed _ _)

theorem Moves.manager (moves : Moves answer related) (fuel : Nat) :
    (∀ server final, primaryOps answer fuel server = .ok final → related server final) ∧
      (∀ server header done final, ReplicationManager.commit answer fuel server header = .ok (done, final) → related server final) ∧
      ∀ server done final, integrityCheck answer fuel server = .ok (done, final) → related server final := by
  induction fuel with
  | zero => simp [primaryOps, ReplicationManager.commit, integrityCheck]
  | succ fuel ih =>
    obtain ⟨tick, commits, checks⟩ := ih
    refine ⟨?_, fun _ _ _ _ ran => moves.commit tick commits ran, ?_⟩
    · intro server final ran
      cases primaryOps_cases ran with
      | drains _ drained => exact moves.drain drained
      | @fails target link _ refreshed down =>
        have failed := moves.trans (moves.refreshTarget refreshed) (moves.forgets target link down)
        exact moves.trans failed (moves.managed _ _)
      | @checks target _ link _ _ refreshed up check =>
        have opened := moves.trans (moves.refreshTarget refreshed) (moves.connected target _ _ up)
        exact moves.trans opened (moves.trans (moves.managed { target with link } _) (checks _ _ _ check))
      | idle => exact moves.refl _
    · intro server done final ran
      obtain ⟨opened, holder, checked, opens, _, check, ends⟩ := integrityCheck_cases ran
      have checked := moves.trans (moves.openCheck opens) (checkCommits_relates moves.refl moves.trans commits check)
      rcases ends with rfl | ⟨_, rfl⟩
      · exact checked
      · exact moves.trans checked (moves.trans (moves.closed _) (moves.managed _ _))

end

theorem connectSocket_connects {link after : Link π} {up : Bool} (attempt : Client.connectSocket link = (up, after)) :
    ∃ attempts, link.connects = attempts ++ after.connects ∧ (up = false → false ∈ attempts) := by
  unfold Client.connectSocket at attempt
  split at attempt
  next exhausted =>
    cases attempt
    exact ⟨[], rfl, nofun⟩
  next first rest script =>
    cases attempt
    refine ⟨[up], script, ?_⟩
    rintro rfl
    exact List.mem_singleton_self _

theorem sendPacket_connects (link : Link π) (packet : Text) : (Client.sendPacket link packet).2.connects = link.connects := by
  unfold Client.sendPacket
  simp only
  split
  · rfl
  · rfl

theorem Exchange.connects {link after : Link π} {header data : Text} {result : Option Text}
    (exchange : Exchange answer link header data result after) : after.connects = link.connects := by
  cases exchange <;> rfl

/-- The log is the same but for the registration, which goes only with a
connection attempt that fails. -/
def Forgets (before after : Server π) : Prop :=
  ∃ attempts, before.link.connects = attempts ++ after.link.connects ∧
    (after.log = before.log ∨ after.log = before.log.erase (-1) ∧ false ∈ attempts)

theorem Forgets.kept {before after : Server π} (forgets : Forgets before after) : LogKept before.log after.log := by
  obtain ⟨_, _, same⟩ := forgets
  exact same.imp_right And.left

theorem Forgets.trans {first second third : Server π} (one : Forgets first second) (two : Forgets second third) : Forgets first third := by
  obtain ⟨earlier, before, one⟩ := one
  obtain ⟨later, after, two⟩ := two
  refine ⟨earlier ++ later, by rw [before, after, List.append_assoc], ?_⟩
  rcases one with one | ⟨one, failed⟩
  · rw [← one]
    exact two.imp_right fun two => ⟨two.1, List.mem_append_right _ two.2⟩
  · refine Or.inr ⟨?_, List.mem_append_left _ failed⟩
    rcases two with two | ⟨two, _⟩
    · rw [two, one]
    · rw [two, one, erase_erase]

theorem manager_forgets (answer : Answer π) (fuel : Nat) :
    (∀ server final, primaryOps answer fuel server = .ok final → Forgets server final) ∧
      (∀ server header done final, ReplicationManager.commit answer fuel server header = .ok (done, final) → Forgets server final) ∧
      ∀ server done final, integrityCheck answer fuel server = .ok (done, final) → Forgets server final := by
  have same {before after : Server π} (connects : after.link.connects = before.link.connects) (log : after.log = before.log) :
      Forgets before after := ⟨[], connects.symm, Or.inl log⟩
  have moves : Moves answer Forgets :=
    { refl := fun _ => same rfl rfl
      trans := Forgets.trans
      managed := fun _ _ => same rfl rfl
      exchanged := fun _ _ _ _ _ sent => same (sendReceive_cases sent).connects rfl
      connected := fun server up link attempt => by
        obtain ⟨attempts, shape, _⟩ := connectSocket_connects attempt
        exact ⟨attempts, shape, Or.inl rfl⟩
      sent := fun server packet sends link attempt => same (by rw [← sendPacket_connects server.link packet, attempt]) rfl
      closed := fun _ => same rfl rfl
      forgets := fun server link attempt => by
        obtain ⟨attempts, shape, failed⟩ := connectSocket_connects attempt
        exact ⟨attempts, shape, Or.inr ⟨rfl, failed rfl⟩⟩ }
  exact moves.manager fuel

theorem manager_keeps (answer : Answer π) (fuel : Nat) :
    (∀ server final, primaryOps answer fuel server = .ok final → LogKept server.log final.log) ∧
      (∀ server header done final, ReplicationManager.commit answer fuel server header = .ok (done, final) →
        LogKept server.log final.log) ∧
      ∀ server done final, integrityCheck answer fuel server = .ok (done, final) → LogKept server.log final.log := by
  obtain ⟨tick, commits, checks⟩ := manager_forgets answer fuel
  exact ⟨fun _ _ ran => (tick _ _ ran).kept, fun _ _ _ _ ran => (commits _ _ _ _ ran).kept, fun _ _ _ ran => (checks _ _ _ ran).kept⟩

/-- A server that takes the primary role has it already, or rewrites its record. -/
theorem switchToPrimary_cases {tick : Tick} {server switched : Server π} (switches : switchToPrimary tick server = .ok (some switched)) :
    (IsPrimary server.log ∧ switched = server) ∨
      ∃ ip port dir, getIpThis server.log = .ok ip ∧ getPortThis server.log = .ok port ∧ getNetDir server.log = .ok dir ∧
        switched = { server with log := serverData server.log ip port "primary" dir } := by
  unfold switchToPrimary at switches
  obtain ⟨role, read, switches⟩ := bind_eq_ok.mp switches
  split at switches
  next primary =>
    subst primary
    cases switches
    exact Or.inl ⟨read, rfl⟩
  split at switches
  · obtain ⟨ip, readIp, switches⟩ := bind_eq_ok.mp switches
    obtain ⟨port, readPort, switches⟩ := bind_eq_ok.mp switches
    obtain ⟨dir, readDir, same⟩ := bind_eq_ok.mp switches
    cases same
    exact Or.inr ⟨ip, port, dir, readIp, readPort, readDir, rfl⟩
  · cases switches

/-- A backup takes over after more than three failures. -/
theorem promote_cases {tick : Tick} {server promoted : Server π} (ran : promote tick server = .ok (some promoted)) :
    (server.manager.tries ≤ 3 ∧ promoted = server) ∨
      (3 < server.manager.tries ∧ ∃ switched, switchToPrimary tick server = .ok (some switched) ∧
        promoted = { switched with manager := { switched.manager with tries := 0 } }) := by
  unfold promote at ran
  split at ran
  next many =>
    obtain ⟨switched, switches, same⟩ := bind_eq_ok.mp ran
    cases switched with
    | none => cases same
    | some switched =>
      cases same
      exact Or.inr ⟨many, switched, switches, rfl⟩
  next few =>
    cases ran
    exact Or.inl ⟨by omega, rfl⟩

theorem loadPrimary_cases {tick : Tick} {server loaded : Server π} (ran : loadPrimary tick server = .ok (some loaded)) :
    ∃ line ip port, tick.primaryTxt = some line ∧ (Fields.split ['|'] line)[1]? = some ip ∧ (Fields.split ['|'] line)[3]? = some port ∧
      loaded = { server with manager := { server.manager with primIp := ip, primPort := port } } := by
  unfold loadPrimary at ran
  split at ran
  · cases ran
  next line read =>
    obtain ⟨ip, first, ran⟩ := bind_eq_ok.mp ran
    obtain ⟨port, third, same⟩ := bind_eq_ok.mp ran
    cases same
    exact ⟨line, ip, port, read, defined_eq_ok.mp first, defined_eq_ok.mp third, rfl⟩

/-- A server does not aim at itself. -/
theorem retarget_cases {server target : Server π} (ran : retarget server = .ok target) :
    (getIpThis server.log = .ok server.manager.primIp ∧ getPortThis server.log = .ok server.manager.primPort ∧
        target = { server with manager := { server.manager with tries := server.manager.tries + 1, backupDidSync := false } }) ∨
      (¬ (getIpThis server.log = .ok server.manager.primIp ∧ getPortThis server.log = .ok server.manager.primPort) ∧
        target = { server with manager := { server.manager with
          ip := server.manager.primIp, port := server.manager.primPort, tries := server.manager.tries + 1, backupDidSync := false } }) := by
  unfold retarget at ran
  obtain ⟨ip, readIp, ran⟩ := bind_eq_ok.mp ran
  obtain ⟨port, readPort, same⟩ := bind_eq_ok.mp ran
  have self : (server.manager.primIp == ip && server.manager.primPort == port) = true ↔
      getIpThis server.log = .ok server.manager.primIp ∧ getPortThis server.log = .ok server.manager.primPort := by
    rw [readIp, readPort, Bool.and_eq_true, beq_iff_eq, beq_iff_eq, Except.ok.injEq, Except.ok.injEq]
    exact ⟨fun both => ⟨both.1.symm, both.2.symm⟩, fun both => ⟨both.1.symm, both.2.symm⟩⟩
  cases same
  split
  next here => exact Or.inl ⟨(self.mp here).1, (self.mp here).2, rfl⟩
  next elsewhere => exact Or.inr ⟨fun both => elsewhere (self.mpr both), rfl⟩

theorem searchPrimary_steps {tick : Tick} {server next : Server π} (ran : searchPrimary tick server = .ok (some next)) :
    ∃ promoted loaded, promote tick server = .ok (some promoted) ∧
      loadPrimary tick promoted = .ok (some loaded) ∧ retarget loaded = .ok next := by
  unfold searchPrimary at ran
  obtain ⟨promoted, promotes, ran⟩ := bind_eq_ok.mp ran
  cases promoted with
  | none => cases ran
  | some promoted =>
    obtain ⟨loaded, loads, ran⟩ := bind_eq_ok.mp ran
    cases loaded with
    | none => cases ran
    | some loaded =>
      obtain ⟨target, retargets, same⟩ := bind_eq_ok.mp ran
      cases same
      exact ⟨promoted, loaded, promotes, loads, retargets⟩

/-- A search writes into the manager, and the log is that of the promotion. -/
theorem searchPrimary_writes {tick : Tick} {server next : Server π} (ran : searchPrimary tick server = .ok (some next)) :
    next.link = server.link ∧ next.manager.syncQueue = server.manager.syncQueue ∧
      (next.log = server.log ∨ ∃ switched : Server π, switchToPrimary tick server = .ok (some switched) ∧ next.log = switched.log) := by
  obtain ⟨promoted, loaded, promotes, loads, retargets⟩ := searchPrimary_steps ran
  have kept : next.link = promoted.link ∧ next.manager.syncQueue = promoted.manager.syncQueue ∧ next.log = promoted.log := by
    obtain ⟨_, ip, port, _, _, _, rfl⟩ := loadPrimary_cases loads
    rcases retarget_cases retargets with ⟨_, _, rfl⟩ | ⟨_, rfl⟩
    · exact ⟨rfl, rfl, rfl⟩
    · exact ⟨rfl, rfl, rfl⟩
  obtain ⟨link, queue, log⟩ := kept
  rw [link, queue, log]
  rcases promote_cases promotes with ⟨_, rfl⟩ | ⟨_, switched, switches, rfl⟩
  · exact ⟨rfl, rfl, Or.inl rfl⟩
  · rcases switchToPrimary_cases switches with ⟨_, rfl⟩ | ⟨_, _, _, _, _, _, rfl⟩
    · exact ⟨rfl, rfl, Or.inl rfl⟩
    · exact ⟨rfl, rfl, Or.inr ⟨_, switches, rfl⟩⟩

/-- What a tick of the manager does on a backup: it connects and checks, or sends
its PING, or looks for the primary. -/
inductive BackupOps (answer : Answer π) (fuel : Nat) (tick : Tick) (server : Server π) : Server π → Prop where
  | checks {link : Link π} {checked : Server π} {done : Bool} (up : Client.connectSocket (Client.closeSocket server.link) = (true, link))
      (unsynced : (!server.manager.backupDidSync && !server.manager.restarted) = true)
      (check : integrityCheck answer fuel { server with link, manager := { server.manager with backupDidSync := true } } = .ok (done, checked)) :
      BackupOps answer fuel tick server { checked with link := Client.closeSocket checked.link }
  | pings {link after : Link π} {ip port reply : Text} (up : Client.connectSocket (Client.closeSocket server.link) = (true, link))
      (synced : (!server.manager.backupDidSync && !server.manager.restarted) = false)
      (readIp : getIpThis server.log = .ok ip) (readPort : getPortThis server.log = .ok port)
      (exchanged : Client.exchange answer link ("PING -1 0 " ++ iToS (toInt (toInt (ip ++ "|" ++ port).length + 1))) (ip ++ "|" ++ port) =
        .ok (some reply, after)) : BackupOps answer fuel tick server { server with link := Client.closeSocket after }
  | searches {link : Link π} {next : Server π} (down : Client.connectSocket (Client.closeSocket server.link) = (false, link))
      (searches : searchPrimary tick { server with link } = .ok (some next)) : BackupOps answer fuel tick server next

theorem backupOps_steps {tick : Tick} {server next : Server π} (ran : backupOps answer fuel tick server = .ok (some next)) :
    BackupOps answer fuel tick server next := by
  unfold backupOps at ran
  rcases attempt : Client.connectSocket (Client.closeSocket server.link) with ⟨up, link⟩
  rw [attempt] at ran
  cases up with
  | false => exact .searches attempt ran
  | true =>
    obtain ⟨ip, readIp, ran⟩ := bind_eq_ok.mp ran
    obtain ⟨port, readPort, ran⟩ := bind_eq_ok.mp ran
    split at ran
    next unsynced =>
      obtain ⟨⟨done, checked⟩, check, same⟩ := bind_eq_ok.mp ran
      cases same
      exact .checks attempt unsynced check
    next synced =>
      obtain ⟨⟨reply, after⟩, exchanged, ran⟩ := bind_eq_ok.mp ran
      cases reply with
      | none => cases ran
      | some reply =>
        cases ran
        exact .pings attempt (Bool.not_eq_true _ ▸ synced) readIp readPort exchanged

/-- The manager's timer runs the operations of the server's role. -/
theorem check_cases {tick : Tick} {server next : Server π} (ran : check answer fuel tick server = .ok (some next)) :
    (IsPrimary server.log ∧ primaryOps answer fuel server = .ok next) ∨
      (NotPrimary server.log ∧ backupOps answer fuel tick server = .ok (some next)) := by
  unfold check at ran
  obtain ⟨role, read, ran⟩ := bind_eq_ok.mp ran
  split at ran
  next primary =>
    subst primary
    obtain ⟨ticked, ops, same⟩ := bind_eq_ok.mp ran
    cases same
    exact Or.inl ⟨read, ops⟩
  next other =>
    refine Or.inr ⟨?_, ran⟩
    intro primary
    exact other (Except.ok.inj (read.symm.trans primary))

/-- A tick keeps the log, or makes the server the primary under its own name. -/
theorem check_log {tick : Tick} {server next : Server π} (ran : check answer fuel tick server = .ok (some next)) :
    LogKept server.log next.log ∨
      ∃ ip port dir, getIpThis server.log = .ok ip ∧ getPortThis server.log = .ok port ∧ getNetDir server.log = .ok dir ∧
        next.log = serverData server.log ip port "primary" dir := by
  rcases check_cases ran with ⟨_, ops⟩ | ⟨_, ops⟩
  · exact Or.inl ((manager_keeps answer fuel).1 _ _ ops)
  cases backupOps_steps ops with
  | checks _ _ check =>
    have kept := (manager_keeps answer fuel).2.2 _ _ _ check
    exact Or.inl kept
  | pings => exact Or.inl (.refl _)
  | searches _ searches =>
    rcases (searchPrimary_writes searches).2.2 with same | ⟨switched, switches, same⟩
    · exact Or.inl (Or.inl same)
    rw [same]
    rcases switchToPrimary_cases switches with ⟨_, rfl⟩ | ⟨ip, port, dir, readIp, readPort, readDir, rfl⟩
    · exact Or.inl (.refl _)
    · exact Or.inr ⟨ip, port, dir, readIp, readPort, readDir, rfl⟩

end TransactionalServer.Proofs
