import TransactionalServer.ReplicationManager

/-! What a session does with a packet that `handle_read` has taken off the
stream (Session.cpp). -/

namespace TransactionalServer
open ServerTools LogHandler Exec

/-- What the outside decides while one packet is handled: the outcome of the
server's own file append, the random draws, and the files as they are read. -/
structure Env where
  io : Bool := true
  draws : List Int := []
  files : Text → Option Text := fun _ => none

namespace Session

/-- The result of `executeCommand`. `auth` says whether the session has sent
AUTH: `isAuth` compares the address that AUTH stored with the peer's own. -/
structure Command (π : Type) where
  server : Server π
  effects : List Effect := []
  auth : Bool
  ret : Bool
  error : Text := []

/-- A handled packet. After `exited` the process is gone. -/
structure Handled (π : Type) where
  server : Server π
  effects : List Effect
  auth : Bool
  exited : Bool := false

variable {π : Type} (answer : Answer π)

/-- The result of a log operation, as the command sees it. -/
def ofOutcome (server : Server π) (auth : Bool) (outcome : LogHandler.Outcome) : Command π :=
  { server := { server with log := outcome.log }, effects := outcome.effects, auth,
    ret := outcome.ret, error := outcome.code }

/-- Whether the command is refused: not AUTH, no earlier AUTH, not the primary. -/
def unauthorized (server : Server π) (auth : Bool) (i : Nat) : Exec Bool := do
  if i ≠ 8 && !auth then
    return (← getServerStatus server.log) != ("primary" : Text)
  else
    return false

/-- The registration that PING makes when there is none. -/
def register (log : Log) (data : Text) : Exec Log :=
  if !backupRegistered log then backupServerData log data else .ok log

def executeCommand (env : Env) (server : Server π) (auth : Bool) (i : Nat) (header data : Text) :
    Exec (Command π) := do
  if ← unauthorized server auth i then
    return { server, auth, ret := false, error := ← genAnswerStr "AUTH_FAIL" header "321" "Not authorized" }
  match i with
  | 1 => -- ABORT
    let out := ofOutcome server auth (← LogHandler.abort server.log header)
    if out.ret then
      let ack ← genAnswerStr "ACK" header "0" "Aborted"
      return { out with server := ← ReplicationManager.enqueue out.server header data, effects := [.send ack] }
    else
      return out
  | 2 => -- NEW_TXN
    let (log, effects, tsn) ← newTxn server.log data env.draws
    if tsn = 0 then
      return { server, auth, ret := false, error := ← genAnswerStr "ERROR" header "205" "Invalid file name." }
    let ack : Text := "ACK\t" ++ iToS tsn ++ "\t0" ++ "\t0" ++ "\t0" ++ "\r\n\r\n\r\n"
    let server ← ReplicationManager.enqueue { server with log } ("MAKE_TXN " ++ iToS tsn ++ " 0 0 0") data
    return { server, effects := effects ++ [.send ack], auth, ret := true }
  | 3 => -- COMMIT
    let out := ofOutcome server auth (← LogHandler.commit server.log header env.io)
    if out.ret then
      return { out with server := ← ReplicationManager.enqueue out.server header data }
    else
      return out
  | 4 => -- READ
    match readFile env.files data with
    | some content =>
      return { server, effects := [.send (← genAnswerStr "ACK" header "0" content)], auth, ret := true }
    | none => return { server, auth, ret := false, error := ← genAnswerStr "ERROR" header "206" "File not found" }
  | 5 => -- WRITE
    let out := ofOutcome server auth (← addLogEntry server.log header data env.io)
    if out.ret then
      let ack ← genAnswerStr "ACK" header "0" " "
      return { out with
        server := ← ReplicationManager.enqueue out.server header data, effects := out.effects ++ [.send ack] }
    else if out.error = "committed" then
      return { out with server := ← ReplicationManager.enqueue out.server header data }
    else
      return out
  | 6 => -- MAKE_TXN
    let (log, effects, _) := makeTxn server.log data (getTsn header)
    let ack ← genAnswerStr "ACK" header "0" "Created"
    return { server := { server with log }, effects := effects ++ [.send ack], auth, ret := true }
  | 7 => -- PING
    let ack ← genAnswerStr "ACK" header "200" " "
    let log ← register server.log data
    return { server := { server with log }, effects := [.send ack], auth, ret := true }
  | 8 => -- AUTH
    return { server, auth := true, ret := true }
  | 9 => -- KILL
    return { server := ← ReplicationManager.switchToBackup server, auth, ret := true }
  | _ => return { server, auth, ret := false, error := ← genAnswerStr "ERROR" header "204" "Invalid method" }

/-- The packets of `sendACK_RESEND`: the last missing number first. -/
def sendAckResend (log : Log) (tsn : Int) : Exec (List Effect) := do
  let (_, stack) ← canCommit log tsn (← getStatusData log tsn) []
  stack.reverse.mapM fun seq => do
    return .send (← genAnswerStr "ACK_RESEND" ("empty\t" ++ iToS tsn ++ "\t" ++ iToS seq ++ "\t") "0" " ")

/-- The COMMIT header that `doCommit` generates for the backup. -/
def commitMessage (tsn seq : Int) : Text := "COMMIT " ++ iToS tsn ++ " " ++ iToS seq ++ " 0"

def doCommit (fuel : Nat) (io : Bool) (server : Server π) (auth : Bool) (header : Text) : Exec (Handled π) := do
  let ackMsg ← genAnswerStr "ACK" header "0" "Committed successfully."
  if (← getServerStatus server.log) = "primary" then
    let seq ← getStatusData server.log (getTsn header)
    let message := commitMessage (getTsn header) (if seq = 0 then getSeq header else seq)
    let (replicated, server) ← ReplicationManager.commit answer fuel server message
    if replicated then
      let tsn := getTsn header
      let (written, appended) ← writeFile server.log tsn io
      if written then
        let log ← changeStatus server.log tsn "COMMITTED"
        return { server := { server with log }, effects := appended ++ [.save log, .send ackMsg], auth }
      else
        return { server, effects := [], auth, exited := true }
    else
      return { server, effects := [.send (← genAnswerStr "ERROR" header "205" "commit fail, i/o error")], auth }
  else
    return { server, effects := [.send ackMsg], auth }

/-- `executeCommand` and what `handle_read` makes of its result. -/
def dispatch (fuel : Nat) (env : Env) (server : Server π) (auth : Bool) (header data : Text) :
    Exec (Handled π) := do
  let out ← executeCommand env server auth (parse header) header data
  if out.ret then
    return { server := out.server, effects := out.effects, auth := out.auth }
  else if out.error = "incomplete" then
    let packets ← sendAckResend out.server.log (getTsn header)
    return { server := out.server, effects := out.effects ++ packets, auth := out.auth }
  else if out.error = "committed" then
    let done ← doCommit answer fuel env.io out.server out.auth header
    return { done with effects := out.effects ++ done.effects }
  else
    return { server := out.server, effects := out.effects ++ [.send out.error], auth := out.auth }

/-- A packet with its payload, or without one. -/
def receive (fuel : Nat) (env : Env) (server : Server π) (auth : Bool) (header : Text) (payload : Option Text) :
    Exec (Handled π) := do
  match payload with
  | some data => dispatch answer fuel env server auth header data
  | none =>
    if needsData header then
      return { server, effects := [.send (← genAnswerStr "ERROR" header "204" "Method requires data.")], auth }
    else
      dispatch answer fuel env server auth header " "

end Session
end TransactionalServer
