import TransactionalServer.LogHandler

/-! The client side of the connection to the other server (Client.h,
Client.cpp). The network decides each exchange; a script lists its decisions. -/

namespace TransactionalServer
open ServerTools

/-- The fate of one request. `io` is the outcome of the file append the peer
makes while it handles the request. -/
inductive Wire where
  | up (io : Bool)
  | lostRequest
  | lostReply (io : Bool)
  deriving DecidableEq, Repr

/-- The peer, the socket and the decisions still to come. A script that has run
out goes on with working exchanges and connections. -/
structure Link (π : Type) where
  peer : π
  connected : Bool := false
  wires : List Wire := []
  connects : List Bool := []
  /-- Packets sent without waiting for an answer. -/
  outbox : List Text := []

/-- How the peer handles one echoed packet: its new state, and the reply that
`sendReceive` reads. -/
abbrev Answer (π : Type) := π → Bool → Text → Text → Exec (π × Option Text)

namespace Client

def genRequest (method txn seq data : Text) : Text :=
  let toRet := method ++ " " ++ txn ++ " " ++ seq ++ " "
  if data = " " then toRet ++ "0" ++ "\r\n\r\n\r\n"
  else toRet ++ iToS (toInt (toInt data.length + 1)) ++ "\r\n\r\n" ++ data ++ "\n"

/-- The header line of `genEcho`. -/
def echoHeader (header data : Text) : Exec Text :=
  match fields header with
  | method :: tsn :: seq :: _ =>
    return method ++ " " ++ tsn ++ " " ++ seq ++ " " ++
      if data.length < 2 then ("0" : Text) else iToS (toInt (toInt data.length + 1))
  | _ => .error .undefined

def genEcho (header data : Text) : Exec Text := do
  let line ← echoHeader header data
  if data.length < 2 then
    return line ++ "\r\n\r\n\r\n"
  else
    return line ++ "\r\n\r\n" ++ data ++ "\n"

def firstLine (text : Text) : Text × Text :=
  (text.takeWhile (· ≠ '\n'), (text.dropWhile (· ≠ '\n')).drop 1)

/-- The string `sendReceive` returns for one reply: its first and third line. -/
def readReply (reply : Text) : Text :=
  let (header, rest) := firstLine reply
  let (_, rest) := firstLine rest
  header ++ "\t\t\t" ++ (firstLine rest).1

variable {π : Type}

/-- The next decision of the network. -/
def nextWire : List Wire → Wire × List Wire
  | [] => (.up true, [])
  | wire :: rest => (wire, rest)

/-- One packet with this header and data, and what `sendReceive` returns for it;
without a result the call threw. A peer that sends no reply keeps the caller
waiting. -/
def exchange (answer : Answer π) (link : Link π) (header data : Text) : Exec (Option Text × Link π) := do
  if !link.connected then
    return (none, link)
  let (wire, wires) := nextWire link.wires
  match wire with
  | .lostRequest => return (none, { link with connected := false, wires })
  | .lostReply io =>
    let (peer, _) ← answer link.peer io header data
    return (none, { link with peer, connected := false, wires })
  | .up io =>
    let (peer, reply) ← answer link.peer io header data
    let reply ← Exec.finished reply
    return (some (readReply reply), { link with peer, wires })

/-- `sendReceive(genEcho(header, data))`. -/
def sendReceive (answer : Answer π) (link : Link π) (header data : Text) : Exec (Option Text × Link π) := do
  let _ ← genEcho header data
  exchange answer link header data

/-- `sendPacket`; the flag is false when it threw. -/
def sendPacket (link : Link π) (packet : Text) : Bool × Link π :=
  let (wire, wires) := nextWire link.wires
  if link.connected && wire ≠ .lostRequest then
    (true, { link with wires, outbox := link.outbox ++ [packet] })
  else
    (false, { link with connected := false, wires })

/-- A connection attempt, with the AUTH packet that opens the peer's session. -/
def connectSocket (link : Link π) : Bool × Link π :=
  match link.connects with
  | [] => (true, { link with connected := true })
  | up :: connects => (up, { link with connected := up, connects })

def closeSocket (link : Link π) : Link π := { link with connected := false }

end Client
end TransactionalServer
