import TransactionalServer.Backup
import TransactionalServer.System

/-! Two servers that replicate to each other and find each other through one
primary.txt. A server that waits for an answer handles nothing else meanwhile,
so that a call back to it does not return. -/

namespace TransactionalServer
open ServerTools LogHandler

inductive Side where
  | left
  | right
  deriving DecidableEq

def Side.other : Side → Side
  | .left => .right
  | .right => .left

/-- The two command lines. An address is a field of a line of primary.txt. -/
structure Setup where
  ip : Side → Text
  port : Side → Text
  dir : Text
  distinct : ip .left ≠ ip .right ∨ port .left ≠ port .right
  clean : ∀ side, Fields.Clean ['|', '\n'] (ip side) ∧ Fields.Clean ['|', '\n'] (port side)

def Setup.self (setup : Setup) (side : Side) : Identity := ⟨setup.ip side, setup.port side, setup.dir⟩

/-- What the network does with the requests that one server makes. -/
structure Network where
  wires : List Wire := []
  connects : List Bool := []

/-- The servers, and the first line of primary.txt in each directory. -/
structure Pair where
  servers : Side → Server Unit
  primaryTxt : Text → Option Text

namespace Pair

/-- What can happen to the pair. A delivery is of a packet that was sent without
waiting for an answer. -/
inductive Event where
  | happens (side : Side) (event : System.Event) (mine theirs : Network)
  | delivery (sender : Side)

/-- The line that names the primary, as `getline` reads it. -/
def line (ip port : Text) : Text := (Client.firstLine ("IP: |" ++ ip ++ "|\tport: |" ++ port ++ "|\n")).1

def isPrimary {π : Type} (server : Server π) : Bool := getServerStatus server.log = .ok "primary"

/-- The server is aimed at the other one. -/
def aimed (setup : Setup) (pair : Pair) (side : Side) : Bool :=
  (pair.servers side).manager.ip == setup.ip side.other && (pair.servers side).manager.port == setup.port side.other

/-- The outcomes of the attempts to connect: off the primary role the other
server accepts, and nobody else listens. A primary connects to any address that
was registered. -/
def attempts (setup : Setup) (pair : Pair) (side : Side) (network : Network) : List Bool :=
  if isPrimary (pair.servers side) then network.connects
  else if aimed setup pair side then []
  else [false]

/-- One server with the other at the far end of its connection. -/
def facing (setup : Setup) (pair : Pair) (side : Side) (mine theirs : Network) : Server Backup :=
  let server := pair.servers side
  let peer := pair.servers side.other
  { log := server.log, manager := server.manager,
    link := {
      peer := { peer with link := { peer.link with wires := theirs.wires, connects := theirs.connects } },
      connected := server.link.connected, wires := mine.wires, connects := attempts setup pair side mine,
      outbox := server.link.outbox } }

/-- The server without its peer. -/
def apart (server : Server Backup) : Server Unit :=
  { log := server.log, manager := server.manager, link := { server.link with peer := () } }

/-- How one server handles a request of the other, on the session that AUTH opened. -/
def answer (fuel : Nat) : Answer Backup := fun server io header data => do
  let (header, payload) ← Backup.echoed header data
  let handled ← Session.receive Backup.noPeer fuel { io } server true header payload
  if handled.exited then
    .error .running
  else
    return (handled.server, Backup.firstPacket handled.effects)

/-- The next tick finds nobody and takes over. -/
def promotes (setup : Setup) (pair : Pair) (side : Side) : Bool :=
  !isPrimary (pair.servers side) && !aimed setup pair side && 3 < (pair.servers side).manager.tries

/-- A tick that promotes writes primary.txt before it reads the file. -/
def publish (setup : Setup) (pair : Pair) (side : Side) : System.Event → Exec Pair
  | .tick _ => do
    if promotes setup pair side then
      let text := line (← getIpThis (pair.servers side).log) (← getPortThis (pair.servers side).log)
      let own ← getNetDir (pair.servers side).log
      return { pair with primaryTxt := fun dir => if dir = own then some text else pair.primaryTxt dir }
    else
      return pair
  | .packet _ _ _ _ _ _ | .sweep | .save => return pair

/-- A tick reads primary.txt in the directory of its server. -/
def onFile (pair : Pair) (side : Side) : System.Event → Exec System.Event
  | .tick tick => return .tick { tick with primaryTxt := pair.primaryTxt (← getNetDir (pair.servers side).log) }
  | event => return event

def step (setup : Setup) (fuel : Nat) (pair : Pair) : Event → Exec Pair
  | .happens side event mine theirs => do
    let pair ← publish setup pair side event
    let next ← System.step (answer fuel) fuel (facing setup pair side mine theirs) (← onFile pair side event)
    return { pair with servers := fun other => if other = side then apart next else next.link.peer }
  | .delivery sender =>
    match (pair.servers sender).link.outbox with
    | [] => return pair
    | packet :: outbox => do
      let server := pair.servers sender
      let handled ← Session.receive Backup.noPeer fuel {} (pair.servers sender.other) true (packet.takeWhile (· ≠ '\r')) none
      return { pair with
        servers := fun side => if side = sender then { server with link := { server.link with outbox } } else handled.server }

/-- The pair as it is started, one server with -m. -/
def start (setup : Setup) (main : Side) (loaded : Side → Log) (files : Text → Option Text) : Pair where
  servers := fun side => System.start (setup.self side) (side = main) (loaded side) () [] []
  primaryTxt := fun dir => if dir = setup.dir then some (line (setup.ip main) (setup.port main)) else files dir

end Pair
end TransactionalServer
