import TransactionalServer.IoService
import TransactionalServer.Receiving
import TransactionalServer.Standby

/-! A replication connection in bytes. The client writes a request and reads one
reply; at the other end a session takes the request off its socket. The network
cuts both as it likes. -/

namespace TransactionalServer
open ServerTools

/-- One request of the client, and how the bytes in each direction are cut. `io`
is the outcome of the file append that the other end makes meanwhile. -/
structure Call where
  header : Text
  data : Text
  io : Bool := true
  pieces : Text → List Text
  cut : Text → List Text
  whole : ∀ bytes, (pieces bytes).flatten = bytes ∧ (cut bytes).flatten = bytes

/-- The two ends of a connection. The client has not read all that came for it. -/
structure Conversation where
  unread : List Text := []
  far : IoService Unit

namespace Conversation

/-- What has been written on the socket. -/
def written (effects : List Effect) : Text :=
  (effects.filterMap fun
    | .send packet => some packet
    | _ => none).flatten

/-- These pieces arrive, and the session is run once. -/
def deliver (socket : Nat) (pieces : List Text) (env : Env) (drawn : ∀ draw ∈ env.draws, 1 ≤ draw ∧ draw ≤ 100000) (far : IoService Unit) :
    Exec (Text × IoService Unit) := do
  let arrived ← pieces.foldlM (fun far piece => far.step Backup.noPeer 0 (.action (.arrive socket piece))) far
  let (_, effects) ← arrived.perform Backup.noPeer 0 (.read socket env drawn)
  return (written effects, ← arrived.step Backup.noPeer 0 (.action (.read socket env drawn)))

/-- `connectSocket`: a new session, and AUTH on it. -/
def connect (socket : Nat) (pieces : Text → List Text) (far : IoService Unit) : Exec Conversation := do
  let accepted ← far.step Backup.noPeer 0 (.action (.accept socket))
  let (_, far) ← deliver socket (pieces (Client.genRequest "AUTH" "-1" "0" " ")) {} System.nothing_drawn accepted
  return { far }

/-- `sendReceive(genEcho(header, data))`: what it returns, and the ends after it. -/
def sendReceive (socket : Nat) (conversation : Conversation) (call : Call) : Exec (Text × Conversation) := do
  let packet ← Client.genEcho call.header call.data
  let (reply, far) ← deliver socket (call.pieces packet) { io := call.io } System.nothing_drawn conversation.far
  let (result, unread) ← Exec.finished (Client.receiveReply (conversation.unread ++ call.cut reply))
  return (result, { unread, far })

def sendReceives (socket : Nat) (conversation : Conversation) : List Call → Exec (List Text × Conversation)
  | [] => return ([], conversation)
  | call :: calls => do
    let (result, conversation) ← sendReceive socket conversation call
    let (results, conversation) ← sendReceives socket conversation calls
    return (result :: results, conversation)

end Conversation
end TransactionalServer
