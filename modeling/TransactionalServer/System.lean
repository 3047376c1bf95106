import TransactionalServer.Session

/-! One server process as a machine: it handles packets, its transaction manager
sweeps and saves the log, and its replication manager runs on a timer. -/

namespace TransactionalServer
open ServerTools LogHandler

/-- The command line of a server. -/
structure Identity where
  ip : Text
  port : Text
  dir : Text

namespace System

/-- What can happen to a running server. A packet comes with the header that
`handle_read` accepted; `randomNum` draws from 1..100000. -/
inductive Event where
  | packet (env : Env) (auth : Bool) (header : Text) (payload : Option Text) (valid : validHeader header = true)
      (drawn : ∀ draw ∈ env.draws, 1 ≤ draw ∧ draw ≤ 100000)
  | sweep
  | save
  | tick (tick : ReplicationManager.Tick)

theorem nothing_drawn : ∀ draw ∈ ([] : List Int), 1 ≤ draw ∧ draw ≤ 100000 := List.forall_mem_nil _

theorem five_drawn : ∀ draw ∈ [(5 : Int)], 1 ≤ draw ∧ draw ≤ 100000 := by decide

variable {π : Type} (answer : Answer π) (fuel : Nat)

/-- The server after an event and what has left its memory meanwhile; `none` is
a process that has exited. A sweep that erases a record is taken to go on with
the next one, where the source advances an iterator that is no longer valid. -/
def perform (server : Server π) : Event → Exec (Option (Server π) × List Effect)
  | .packet env auth header payload _ _ => do
    let handled ← Session.receive answer fuel env server auth header payload
    return (if handled.exited then none else some handled.server, handled.effects)
  | .sweep => do
    let (log, _) ← timeouts server.log
    return (some { server with log }, [.save log])
  | .save => return (some server, [.save server.log])
  | .tick tick => return (← ReplicationManager.check answer fuel tick server, [])

/-- A process that has exited has no next state. -/
def step (server : Server π) (event : Event) : Exec (Server π) := do
  let (next, _) ← perform answer fuel server event
  Exec.finished next

/-- The server that the command line starts on a loaded log. -/
def start (self : Identity) (primary : Bool) (loaded : Log) (peer : π) (wires : List Wire) (connects : List Bool) : Server π :=
  { log := serverData loaded self.ip self.port (if primary then "primary" else "backup") self.dir,
    link := { peer, wires, connects } }

end System
end TransactionalServer
