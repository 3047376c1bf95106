import TransactionalServer.Proofs.ProcessSteps

/-! A server runs in one of two roles. Packets about transactions, sweeps and
ticks leave it in one, and so does a restart. -/

namespace TransactionalServer.Proofs
open ServerTools LogHandler Exec Session

variable {π : Type} {answer : Answer π} {fuel : Nat} {server : Server π} {env : Env} {auth : Bool} {header data : Text}

/-- The server is the primary or the backup. -/
def Roled (log : Log) : Prop := getServerStatus log = .ok "primary" ∨ getServerStatus log = .ok "backup"

theorem Roled.returns {log : Log} (roled : Roled log) : ∃ role, getServerStatus log = .ok role := by
  rcases roled with primary | backup
  · exact ⟨_, primary⟩
  · exact ⟨_, backup⟩

theorem Roled.of_get {log other : Log} (roled : Roled log) (same : other[(0 : Int)]? = log[(0 : Int)]?) : Roled other := by
  unfold Roled
  rw [getServerStatus_of_get same]
  exact roled

theorem serverData_roled (log : Log) (ip port dir : Text) {role : Text} (either : role = "primary" ∨ role = "backup") :
    Roled (serverData log ip port role dir) := by
  unfold Roled
  rw [serverData_role]
  rcases either with rfl | rfl
  · exact Or.inl rfl
  · exact Or.inr rfl

theorem switchToBackup_roled {switched : Server π} (roled : Roled server.log)
    (switches : ReplicationManager.switchToBackup server = .ok switched) : Roled switched.log := by
  rcases switchToBackup_cases switches with ⟨_, rfl⟩ | ⟨ip, port, dir, _, _, _, rfl⟩
  · exact roled
  · exact serverData_roled _ _ _ _ (Or.inr rfl)

/-- Only a KILL changes the record of the server. -/
theorem Executes.roled {out : Command π} (executes : Executes server env auth header data out) (addressed : Addressed header)
    (drawn : ∀ draw ∈ env.draws, 1 ≤ draw) (roled : Roled server.log) : Roled out.server.log := by
  have kept (replicated : Replicated header) : Roled out.server.log :=
    roled.of_get (executes.frame replicated (by have := addressed replicated; omega))
  cases executes with
  | refused | read | authenticated => exact roled
  | notAborted method | aborted method => exact kept (Or.inl method)
  | commits method => exact kept (Or.inr (Or.inl method))
  | added method | completed method | notAdded method => exact kept (Or.inr (Or.inr (Or.inl method)))
  | made method => exact kept (Or.inr (Or.inr (Or.inr method)))
  | created _ creates _ enqueued =>
    rw [enqueue_log enqueued]
    rcases newTxn_cases creates with ⟨rfl, _⟩ | ⟨_, chosen, _, rfl, _⟩
    · exact roled
    · have positive := drawn _ chosen
      exact roled.of_get (Store.get_insert_other (by omega))
  | pinged _ _ registers => exact roled.of_get (register_frame (by decide) registers)
  | demoted _ switches => exact switchToBackup_roled roled switches

theorem Concludes.roled {io : Bool} {done : Handled π} (concludes : Concludes answer fuel io server auth header done)
    (positive : 1 ≤ getTsn header) (roled : Roled server.log) : Roled done.server.log :=
  roled.of_get (concludes.frame (by omega) (by decide))

theorem receive_roled {payload : Option Text} {handled : Handled π} (addressed : Addressed header) (drawn : ∀ draw ∈ env.draws, 1 ≤ draw)
    (roled : Roled server.log) (ran : receive answer fuel env server auth header payload = .ok handled) : Roled handled.server.log := by
  rcases receive_cases ran with ⟨same, _⟩ | ⟨_, out, executes, follows⟩
  · rw [same]
    exact roled
  · have after := executes.roled addressed drawn roled
    cases follows with
    | returned | asks | answers => exact after
    | @concludes done refused code concludes =>
      have method := executes.committed_method refused code
      have kept : Roled done.server.log := concludes.roled (addressed (Or.inr (method.imp id Or.inl))) after
      exact kept

theorem Sweeps.roled {log after : Log} {key : Int} {erased : Bool} (sweeps : Sweeps log key after erased) (roled : Roled log) : Roled after := by
  by_cases server : key = 0
  · subst server
    have settled {record : Record} {status number : Text} (found : Found log 0 record status number) : Kept status := by
      have read : getServerStatus log = .ok status := found.getStatus
      rcases roled with primary | backup
      · rw [primary, Except.ok.injEq] at read
        exact Or.inr (Or.inr (Or.inr read.symm))
      · rw [backup, Except.ok.injEq] at read
        exact Or.inr (Or.inr (Or.inl read.symm))
    cases sweeps with
    | absent | low | bare | kept => exact roled
    | marked _ found notKept => exact absurd (settled found) notKept
    | removed _ found => exact absurd (settled found) (by decide)
    | waits _ found => exact absurd (settled found) (by decide)
    | dropped _ found => exact absurd (settled found) (by decide)
  · have differs : (0 : Int) ≠ key := Ne.symm server
    cases sweeps with
    | absent | low | bare | kept => exact roled
    | marked => exact roled.of_get (mark_other differs)
    | removed | dropped => exact roled.of_get (Store.get_erase_other differs)
    | waits => exact roled.of_get (Store.get_insert_other differs)

/-- A sweep keeps the primary role, and gives it to no server. -/
theorem Sweeps.primary {log after : Log} {key : Int} {erased : Bool} (sweeps : Sweeps log key after erased) (primary : IsPrimary log) :
    IsPrimary after := by
  obtain ⟨own, role, found⟩ := found_of_getStatus primary
  have other {record : Record} {status number : Text} (there : Found log key record status number) (notPrimary : status ≠ "primary") :
      (0 : Int) ≠ key := by
    rintro rfl
    exact notPrimary (found_unique found there).2.1.symm
  cases sweeps with
  | absent | low | bare | kept => exact primary
  | marked _ there notKept =>
    have differs := other there (fun same => notKept (Or.inr (Or.inr (Or.inr same))))
    exact primary.of_get (mark_other differs)
  | removed _ there => exact primary.of_get (Store.get_erase_other (other there (by decide)))
  | dropped _ there => exact primary.of_get (Store.get_erase_other (other there (by decide)))
  | waits _ there => exact primary.of_get (Store.get_insert_other (other there (by decide)))

theorem Sweeps.notPrimary {log after : Log} {key : Int} {erased : Bool} (backup : NotPrimary log) (sweeps : Sweeps log key after erased) :
    NotPrimary after := by
  cases sweeps with
  | absent | low | bare | kept => exact backup
  | @marked record status =>
    apply backup.mark
    unfold aged
    split <;> decide
  | removed | dropped => exact backup.erase
  | waits _ found =>
    apply backup.insert
    · rw [Store.get_insert_other (by decide)]
      exact found.entry
    · decide

theorem check_roled {tick : ReplicationManager.Tick} {next : Server π} (roled : Roled server.log)
    (ran : ReplicationManager.check answer fuel tick server = .ok (some next)) : Roled next.log := by
  rcases check_log ran with kept | ⟨ip, port, dir, _, _, _, same⟩
  · exact roled.of_get (kept.other (by decide))
  · rw [same]
    exact serverData_roled _ _ _ _ (Or.inl rfl)

/-- Whatever happens to a server, it stays in a role. -/
theorem perform_roled {event : System.Event} {next : Server π} {effects : List Effect} (addressed : AddressedEvent event)
    (roled : Roled server.log) (ran : System.perform answer fuel server event = .ok (some next, effects)) : Roled next.log := by
  cases perform_cases ran with
  | packet valid drawn received => exact receive_roled addressed (fun draw member => (drawn draw member).1) roled received
  | sweep swept => exact timeouts_preserves (fun _ _ _ _ holds sweeps => sweeps.roled holds) roled swept
  | save => exact roled
  | tick checked => exact check_roled roled checked

theorem start_roled (restart : Restart π) (disk : Disk) : Roled (Process.start restart disk).server.log := by
  simp only [Process.start, System.start]
  apply serverData_roled
  split
  · exact Or.inl rfl
  · exact Or.inr rfl

theorem process_roled {process next : Process π} {event : Process.Event π} {effects : List Effect} (addressed : AddressedProcess event)
    (roled : Roled process.server.log) (ran : Process.perform answer fuel process event = .ok (next, effects)) : Roled next.server.log := by
  cases event with
  | event event =>
    obtain ⟨⟨running, had⟩, performed, ran⟩ := bind_eq_ok.mp ran
    obtain ⟨server, runs, same⟩ := bind_eq_ok.mp ran
    cases same
    rw [finished_eq_ok] at runs
    subst runs
    exact perform_roled (onDisk_addressed process.disk addressed) roled performed
  | crash during done restart =>
    cases ran
    exact start_roled restart _

end TransactionalServer.Proofs
