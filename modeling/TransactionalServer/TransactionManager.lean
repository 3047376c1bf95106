import TransactionalServer.Process

/-! The transaction manager (TransactionManager.h, TransactionManager.cpp), and
a server process whose log it looks after. -/

namespace TransactionalServer
open ServerTools LogHandler

/-- `timer_since` is set back when it gets to thirty. -/
structure TransactionManager where
  timerSince : Nat := 0
  below : timerSince < 30 := by decide

namespace TransactionManager

def fresh : TransactionManager := {}

/-- The timer of the manager: the log after it, and what it has saved. -/
def check (manager : TransactionManager) (log : Log) : Exec (TransactionManager × Log × List Effect) := do
  if due : manager.timerSince + 1 = 30 then
    let (log, dangling) ← timeouts log
    -- the loop of the sweep has advanced an iterator that it had erased
    if dangling then
      .error .undefined
    else
      -- the sweep has saved the log already
      return (fresh, log, [.save log, .save log])
  else
    return (⟨manager.timerSince + 1, Nat.lt_of_le_of_ne manager.below due⟩, log, [.save log])

end TransactionManager

structure Timed (π : Type) where
  process : Process π
  manager : TransactionManager := .fresh

namespace Timed

/-- What happens to a process: only its own timer sweeps and saves the log. -/
inductive Event where
  | packet (env : Env) (auth : Bool) (header : Text) (payload : Option Text) (valid : validHeader header = true)
      (drawn : ∀ draw ∈ env.draws, 1 ≤ draw ∧ draw ≤ 100000)
  | tick (tick : ReplicationManager.Tick)
  | check

variable {π : Type} (answer : Answer π) (fuel : Nat)

def step (timed : Timed π) : Event → Exec (Timed π)
  | .packet env auth header payload valid drawn => do
    let process ← Process.step answer fuel timed.process (.event (.packet env auth header payload valid drawn))
    return { timed with process }
  | .tick tick => do
    let process ← Process.step answer fuel timed.process (.event (.tick tick))
    return { timed with process }
  | .check => do
    let (manager, log, effects) ← timed.manager.check timed.process.server.log
    return ⟨⟨{ timed.process.server with log }, effects.foldl Disk.apply timed.process.disk⟩, manager⟩

end Timed
end TransactionalServer
