import TransactionalServer.Process
import TransactionalServer.Proofs.LedgerSteps

/-! A process and its disk as runs of the ledger, cut short by crashes. -/

namespace TransactionalServer.Proofs
open ServerTools LogHandler Exec Session Ledger Traces

variable {π : Type} {answer : Answer π} {fuel : Nat} {process next : Process π} {effects : List Effect}

/-- What an event of a process is about. -/
def about : Process.Event π → System.Event
  | .event event => event
  | .crash during _ _ => during

def AddressedProcess (event : Process.Event π) : Prop := AddressedEvent (about event)

theorem AddressedProcess.header {event : Process.Event π} {env : Env} {auth : Bool} {header : Text} {payload : Option Text}
    {valid : validHeader header = true} {drawn : ∀ draw ∈ env.draws, 1 ≤ draw ∧ draw ≤ 100000} (addressed : AddressedProcess event)
    (named : about event = .packet env auth header payload valid drawn) : Addressed header := by
  unfold AddressedProcess at addressed
  rw [named] at addressed
  exact addressed

theorem onDisk_scope (disk : Disk) (event : System.Event) : eventScope (Process.onDisk disk event) = eventScope event := by
  cases event <;> rfl

theorem onDisk_addressed {event : System.Event} (disk : Disk) (addressed : AddressedEvent event) : AddressedEvent (Process.onDisk disk event) := by
  cases event <;> exact addressed

/-- A restart loads every transaction as it was saved. -/
theorem start_transactions (restart : Restart π) (disk : Disk) (tsn : Int) (positive : 1 ≤ tsn) :
    (Process.start restart disk).server.log[tsn]? = disk.saved[tsn]? := by
  simp only [Process.start, System.start, serverData_transactions _ _ _ _ _ positive]

/-- The effects of an event that has not returned are those of a run. -/
theorem reached_acts {server : Server π} {event : System.Event} (addressed : AddressedEvent event) :
    ∃ state, Acts (Act (eventScope event)) ⟨server.log, false⟩ (Process.reached answer fuel server event) state := by
  unfold Process.reached
  split
  next performed =>
    obtain ⟨after, run, _⟩ := perform_runs addressed performed
    exact ⟨_, run⟩
  next =>
    cases event with
    | packet env auth header payload valid drawn =>
      simp only
      split
      next out executed =>
        exact ⟨_, (executeCommand_cases executed).runs addressed (fun draw member => (drawn draw member).1)⟩
      next => exact ⟨_, .done _⟩
    | sweep | save | tick => exact ⟨_, .done _⟩

/-- An event that completes is a whole run. -/
theorem perform_completes {event : System.Event} (addressed : AddressedEvent event)
    (ran : Process.perform answer fuel process (.event event) = .ok (next, effects)) :
    Runs (eventScope event) process.server.log effects next.server.log ∧ next.disk = effects.foldl Disk.apply process.disk := by
  obtain ⟨⟨running, had⟩, performed, ran⟩ := bind_eq_ok.mp ran
  obtain ⟨server, runs, same⟩ := bind_eq_ok.mp ran
  cases same
  obtain ⟨after, run, logs⟩ := perform_runs (onDisk_addressed process.disk addressed) performed
  rw [onDisk_scope, ← logs server (finished_eq_ok.mp runs)] at run
  exact ⟨run, rfl⟩

/-- A crash cuts a run and loses its memory. -/
theorem perform_crashes {during : System.Event} {done : Nat} {restart : Restart π} (addressed : AddressedEvent during)
    (ran : Process.perform answer fuel process (.crash during done restart) = .ok (next, effects)) :
    (∃ state, Acts (Act (eventScope during)) ⟨process.server.log, false⟩ effects state) ∧
      next.disk = effects.foldl Disk.apply process.disk ∧ ∀ tsn : Int, 1 ≤ tsn → next.server.log[tsn]? = next.disk.saved[tsn]? := by
  cases ran
  obtain ⟨last, run⟩ := @reached_acts π answer fuel process.server _ (onDisk_addressed process.disk addressed)
  obtain ⟨state, run⟩ := run.cut done
  rw [onDisk_scope] at run
  exact ⟨⟨state, run⟩, rfl, start_transactions restart _⟩

/-- What every act of an event preserves, and every restart, its step preserves. -/
theorem perform_preserves {event : Process.Event π} (holds : State → Disk → Prop)
    (acts : ∀ before label after disk, holds before disk → Act (eventScope (about event)) before label after →
      holds after (label.elim disk disk.apply))
    (restarts : ∀ reached disk log, holds reached disk → (∀ tsn : Int, 1 ≤ tsn → log[tsn]? = disk.saved[tsn]?) → holds ⟨log, false⟩ disk)
    (addressed : AddressedProcess event) (start : holds ⟨process.server.log, false⟩ process.disk)
    (ran : Process.perform answer fuel process event = .ok (next, effects)) : holds ⟨next.server.log, false⟩ next.disk := by
  cases event with
  | event event =>
    obtain ⟨run, disk⟩ := perform_completes addressed ran
    rw [disk]
    exact run.preserves acts start
  | crash during done restart =>
    obtain ⟨⟨state, run⟩, disk, loaded⟩ := perform_crashes addressed ran
    have cut := run.preserves acts start
    rw [← disk] at cut
    exact restarts state next.disk next.server.log cut loaded

theorem step_performs {event : Process.Event π} (stepped : Process.step answer fuel process event = .ok next) :
    ∃ effects, Process.perform answer fuel process event = .ok (next, effects) := by
  obtain ⟨⟨after, effects⟩, ran, same⟩ := bind_eq_ok.mp stepped
  cases same
  exact ⟨effects, ran⟩

end TransactionalServer.Proofs
