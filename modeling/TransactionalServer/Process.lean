import TransactionalServer.System

/-! A server process and its disk. A crash loses the memory; the next start
loads the last saved log (the constructor of `LogHandler`). -/

namespace TransactionalServer
open ServerTools LogHandler

/-- What one call of `writeFile` has put into the stream of its file. -/
structure Append where
  tsn : Int
  path : Text
  lines : List Text
  deriving DecidableEq

/-- The last saved log, the data files of the first start and every append since.
`room` says of one append after the other whether the file system takes it:
`writeFile` looks neither at the stream nor at `pubsync` and `fdatasync`. What the
script does not decide is taken. -/
structure Disk where
  saved : Log
  existing : Text → Option Text := fun _ => none
  appended : List Append := []
  room : List Bool := []

namespace Disk

def apply (disk : Disk) : Effect → Disk
  | .save log => { disk with saved := log }
  | .append tsn path lines => { disk with appended := disk.appended ++ [⟨tsn, path, lines⟩] }
  | .send _ => disk

/-- `file << getData(tsn, seq) + "\n"` for every line. -/
def contents (appends : List Append) : Text := appends.flatMap fun append => append.lines.flatMap (· ++ "\n".toList)

def taken : List Bool → List Append → List Append
  | [], appends => appends
  | _, [] => []
  | takes :: room, append :: appends => if takes then append :: taken room appends else taken room appends

def written (disk : Disk) : List Append := taken disk.room disk.appended

/-- The log is saved under a name that is no data file's. -/
def IsDataFile (path : Text) : Prop := path ≠ ".server.log"

instance (path : Text) : Decidable (IsDataFile path) := inferInstanceAs (Decidable (path ≠ _))

/-- A data file as `readFile` opens it. `writeFile` makes an empty one first. -/
def files (disk : Disk) (path : Text) : Option Text :=
  match disk.existing path, disk.appended.filter (·.path = path) with
  | none, [] => none
  | old, _ => some (old.getD [] ++ contents (disk.written.filter (·.path = path)))

/-- The file system takes whatever is written. -/
def Takes (disk : Disk) : Prop := ∀ takes ∈ disk.room, takes = true

end Disk

structure Process (π : Type) where
  server : Server π
  disk : Disk

/-- What a server is started with, and the peer and network it then meets. -/
structure Restart (π : Type) where
  self : Identity
  primary : Bool
  peer : π
  wires : List Wire := []
  connects : List Bool := []

namespace Process

/-- A crash comes while an event is handled, after so many of its effects, and
is followed by a restart. -/
inductive Event (π : Type) where
  | event (event : System.Event)
  | crash (during : System.Event) (done : Nat) (restart : Restart π)

/-- Packets read the data files of this disk. -/
def onDisk (disk : Disk) : System.Event → System.Event
  | .packet env auth header payload valid drawn => .packet { env with files := disk.files } auth header payload valid drawn
  | event => event

variable {π : Type}

/-- A server that is started on a disk. -/
def start (restart : Restart π) (disk : Disk) : Process π :=
  ⟨System.start restart.self restart.primary disk.saved restart.peer restart.wires restart.connects, disk⟩

variable (answer : Answer π) (fuel : Nat)

/-- The effects of an event, as far as it gets. A commit that waits for its
backup has had the effects of `executeCommand`. -/
def reached (server : Server π) (event : System.Event) : List Effect :=
  match System.perform answer fuel server event with
  | .ok (_, effects) => effects
  | .error _ =>
    match event with
    | .packet env auth header payload _ _ =>
      match Session.executeCommand env server auth (parse header) header (payload.getD " ") with
      | .ok out => out.effects
      | .error _ => []
    | _ => []

/-- The process after an event, and the effects that the event has had. -/
def perform (process : Process π) : Event π → Exec (Process π × List Effect)
  | .event event => do
    let (next, effects) ← System.perform answer fuel process.server (onDisk process.disk event)
    let server ← Exec.finished next
    return (⟨server, effects.foldl Disk.apply process.disk⟩, effects)
  | .crash during done restart =>
    let effects := (reached answer fuel process.server (onDisk process.disk during)).take done
    return (start restart (effects.foldl Disk.apply process.disk), effects)

def step (process : Process π) (event : Event π) : Exec (Process π) := return (← perform answer fuel process event).1

end Process
end TransactionalServer
