import Mathlib.Logic.Function.Basic
import TransactionalServer.Connection
import TransactionalServer.Process

/-! The process at its sockets. One thread runs the handlers of the acceptor
(Server.cpp), of the sessions (Session.cpp) and of the daemons. While a session
reads the rest of a payload, it runs nothing else. -/

namespace TransactionalServer
open ServerTools LogHandler

/-- A session that has been started. `auth` says whether `doAuth` has stored the
address of its peer. -/
structure Accepted where
  conn : Connection := { segments := [] }
  auth : Bool := false

namespace Connection

def arrive (conn : Connection) (bytes : Text) : Connection := { conn with segments := conn.segments ++ [bytes] }

/-- A header has come, and less than its payload. -/
def lacksPayload (conn : Connection) : Bool :=
  (Segments.readUntil hasBlankLine conn.b conn.segments).isSome && conn.handleRead.isNone

end Connection

namespace Session

/-- What `handle_read` does with what it has parsed. -/
def handleEvent {π : Type} (answer : Answer π) (fuel : Nat) (env : Env) (server : Server π) (auth : Bool) : Event → Exec (Handled π)
  | .execute header data => dispatch answer fuel env server auth header data
  | .needsData header => do
    return { server, effects := [.send (← genAnswerStr "ERROR" header "204" "Method requires data.")], auth }
  | .invalidHeader => do
    let error ← genAnswerStr "ERROR" "a -1 0 0" "204" "Header is invalid or orphaned data (invalid op with data)"
    return { server, effects := [.send error], auth }
  | .endOfStream => do
    let error ← genAnswerStr "ERROR" "a -2 0 0" "204" "Issue parsing packet [case: end of stream]"
    return { server, effects := [.send error], auth }

end Session

structure IoService (π : Type) where
  process : Process π
  /-- The open sessions, by their sockets. -/
  sessions : Nat → Option Accepted := fun _ => none
  /-- The socket from which the thread reads a payload. -/
  reading : Option Nat := none

namespace IoService

/-- A handler that the thread runs, or bytes that arrive from the network. -/
inductive Action where
  | accept (socket : Nat)
  | arrive (socket : Nat) (bytes : Text)
  | read (socket : Nat) (env : Env) (drawn : ∀ draw ∈ env.draws, 1 ≤ draw ∧ draw ≤ 100000)
  | close (socket : Nat)
  | sweep
  | save
  | tick (tick : ReplicationManager.Tick)

/-- A crash comes while a handler runs, after so many of its effects. -/
inductive Event (π : Type) where
  | action (action : Action)
  | crash (during : Action) (done : Nat) (restart : Restart π)

/-- What the thread is busy with. -/
def Event.during {π : Type} : Event π → Action
  | .action busy | .crash busy _ _ => busy

variable {π : Type}

def setSession (io : IoService π) (socket : Nat) (session : Option Accepted) : IoService π :=
  { io with sessions := Function.update io.sessions socket session }

def setServer (io : IoService π) (server : Server π) : IoService π := { io with process := { io.process with server } }

/-- Whether the thread can take this up. -/
def free (io : IoService π) : Action → Bool
  | .arrive _ _ => true
  | .read socket _ _ | .close socket => io.reading.all (· = socket)
  | _ => io.reading.isNone

/-- Packets read the data files of this disk. -/
def onDisk (io : IoService π) (env : Env) : Env := { env with files := io.process.disk.files }

variable (answer : Answer π) (fuel : Nat)

/-- A round of a session, or the wait for one. -/
def read (io : IoService π) (socket : Nat) (env : Env) : Exec (Option (IoService π) × List Effect) :=
  match io.sessions socket with
  | none => return (some io, [])
  | some session =>
    match session.conn.handleRead with
    | none => return (some { io with reading := if session.conn.lacksPayload then some socket else none }, [])
    | some (event, conn) => do
      let handled ← Session.handleEvent answer fuel (io.onDisk env) io.process.server session.auth event
      let next := (io.setServer handled.server).setSession socket (some ⟨conn, handled.auth⟩)
      return (if handled.exited then none else some { next with reading := none }, handled.effects)

def daemon (io : IoService π) (event : System.Event) : Exec (Option (IoService π) × List Effect) := do
  let (next, effects) ← System.perform answer fuel io.process.server event
  return (next.map io.setServer, effects)

/-- The memory after an action, and what has left it meanwhile. -/
def perform (io : IoService π) : Action → Exec (Option (IoService π) × List Effect)
  | .accept socket => return (some (io.setSession socket (some {})), [])
  | .arrive socket bytes =>
    let session := (io.sessions socket).map fun session => { session with conn := session.conn.arrive bytes }
    return (some (io.setSession socket session), [])
  | .read socket env _ => io.read answer fuel socket env
  -- the session is deleted, or its payload read has thrown and nothing starts it again
  | .close socket => return (some { io.setSession socket none with reading := none }, [])
  | .sweep => io.daemon answer fuel .sweep
  | .save => io.daemon answer fuel .save
  | .tick tick => io.daemon answer fuel (.tick tick)

/-- A commit that waits for its backup has had the effects of `executeCommand`. -/
def begun (io : IoService π) : Action → List Effect
  | .read socket env _ =>
    match io.sessions socket with
    | none => []
    | some session =>
      match session.conn.handleRead with
      | some (.execute header data, _) =>
        match Session.executeCommand (io.onDisk env) io.process.server session.auth (parse header) header data with
        | .ok out => out.effects
        | .error _ => []
      | _ => []
  | _ => []

/-- The effects of an action, as far as it gets. -/
def reached (io : IoService π) (action : Action) : List Effect :=
  match io.perform answer fuel action with
  | .ok (_, effects) => effects
  | .error _ => io.begun action

/-- After a crash all connections are gone. -/
def step (io : IoService π) (event : Event π) : Exec (IoService π) :=
  if io.free event.during then
    match event with
    | .action action => do
      let (next, effects) ← io.perform answer fuel action
      let next ← Exec.finished next
      return { next with process := { next.process with disk := effects.foldl Disk.apply io.process.disk } }
    | .crash during done restart =>
      let effects := (io.reached answer fuel during).take done
      return { process := Process.start restart (effects.foldl Disk.apply io.process.disk) }
  else
    .error .running

end IoService
end TransactionalServer
