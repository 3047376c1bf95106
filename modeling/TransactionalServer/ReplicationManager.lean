import TransactionalServer.Client

/-! The replication manager (ReplicationManager.h, ReplicationManager.cpp). The
calls re-enter each other, so each takes fuel; `running` is a call that has not
returned within it. -/

namespace TransactionalServer
open ServerTools LogHandler Exec

/-- The manager's own fields. `ip` and `port` are the client's target. -/
structure Manager where
  alive : Bool := false
  triedConnect : Bool := true
  syncQueue : List (Text × Text) := []
  tries : Int := 0
  backupDidSync : Bool := false
  restarted : Bool := false
  primIp : Text := []
  primPort : Text := []
  ip : Text := "0.0.0.0"
  port : Text := "0"

/-- One server process, with the far end of its replication connection. -/
structure Server (π : Type) where
  log : Log
  manager : Manager := {}
  link : Link π

namespace ReplicationManager

variable {π : Type} (answer : Answer π)

def enqueue (server : Server π) (header data : Text) : Exec (Server π) := do
  if (← getServerStatus server.log) = "primary" then
    return { server with manager := { server.manager with
      syncQueue := server.manager.syncQueue ++ [(header, data)] } }
  else
    return server

def setAlive (server : Server π) (alive : Bool) : Server π :=
  { server with manager := { server.manager with alive } }

def changeConnection (server : Server π) (ip port : Text) : Server π :=
  { server with manager := { server.manager with ip, port } }

/-- The loop of `primaryOps` over a queue with this front. A packet leaves the
queue only after its reply was read. -/
def drain : List (Text × Text) → Server π → Exec (Server π)
  | [], server => return { server with manager := { server.manager with syncQueue := [] } }
  | (header, data) :: rest, server => do
    let (reply, link) ← Client.sendReceive answer server.link header data
    match reply with
    | some _ => drain rest { server with link }
    | none =>
      return { server with
        link, manager := { server.manager with alive := false, syncQueue := (header, data) :: rest } }

/-- `for(seq = 1; seq != getStatusData(tsn)+1; seq++) enqueue(...)`. -/
def resend (server : Server π) (tsn : Int) : Exec (Server π) := do
  let bound ← getStatusData server.log tsn
  if bound < 0 then
    .error .undefined
  else
    (Int.range 1 (bound + 1)).foldlM (fun server seq => do
      enqueue server (← getHeader server.log tsn seq) (← getData server.log tsn seq)) server

/-- The loop of `integrityCheck`: the commits still in `holder`, last first. -/
def checkCommits (commit : Server π → Text → Exec (Bool × Server π)) :
    List Text → Server π → Exec (Bool × Server π)
  | [], server => return (true, server)
  | header :: rest, server => do
    let (done, server) ← commit server header
    if done then
      checkCommits commit rest server
    else
      return (false, server)

/-- After a failed attempt the registered address may have changed. -/
def refreshTarget (server : Server π) : Exec (Server π) := do
  if server.manager.triedConnect then
    return changeConnection server (← getIpBackup server.log) (← getPortBackup server.log)
  else
    return server

/-- A backup connects before it checks; a primary is connected already. -/
def openCheck (server : Server π) : Exec (Server π) := do
  if (← getServerStatus server.log) ≠ ("primary" : Text) then
    let (up, link) := Client.connectSocket server.link
    return if up then setAlive { server with link } true else { server with link }
  else
    return server

mutual

def primaryOps : Nat → Server π → Exec (Server π)
  | 0, _ => .error .running
  | fuel + 1, server => do
    if server.manager.alive && !server.manager.syncQueue.isEmpty then
      drain answer server.manager.syncQueue server
    else if !server.manager.alive && backupRegistered server.log then
      let server ← refreshTarget server
      let (up, link) := Client.connectSocket server.link
      let server := setAlive { server with link } up
      if !up then
        let log ← deleteBackup server.log
        return { server with log, manager := { server.manager with triedConnect := true } }
      else
        let (_, server) ← integrityCheck fuel server
        return server
    else
      return server

def commit : Nat → Server π → Text → Exec (Bool × Server π)
  | 0, _, _ => .error .running
  | fuel + 1, server, header => do
    let primary := (← getServerStatus server.log) == ("primary" : Text)
    let server ← (if primary then primaryOps fuel server else .ok server)
    let tsn := getTsn header
    if server.manager.alive && server.manager.syncQueue.isEmpty then
      let (result, link) ← Client.sendReceive answer server.link header " "
      let server := { server with link }
      match result with
      | none =>
        -- the connection failed: commit locally and leave the packet to the queue
        let server ← enqueue server header " "
        return (true, setAlive server false)
      | some result =>
        let strs := Fields.split [' '] result
        if strs[0]? = some ("ACK" : Text) then
          return (true, server)
        else if !primary then
          let (sent, link) := Client.sendPacket server.link (Client.genRequest "KILL" "-1" "0" " ")
          let server := { server with link }
          if sent then
            let server := changeConnection { server with link := Client.closeSocket server.link } "0.0.0.0" "0"
            return (false, { server with manager := { server.manager with tries := 4, restarted := true } })
          else
            let server ← enqueue server header " "
            return (true, setAlive server false)
        else if strs[0]? = some ("ACK_RESEND" : Text) then
          commit fuel (← resend server tsn) header
        else if strs[0]? = some ("ERROR" : Text) then
          if (← defined strs[3]?) = ("201" : Text) then
            let server ← enqueue server ("MAKE_TXN " ++ iToS tsn ++ " -1 0") (← getFileName server.log tsn)
            commit fuel server header
          else
            return (false, server)
        else
          return (false, server)
    else if server.manager.alive && !server.manager.syncQueue.isEmpty then
      commit fuel server header
    else
      let server ← enqueue server header " "
      return (true, server)

def integrityCheck : Nat → Server π → Exec (Bool × Server π)
  | 0, _ => .error .running
  | fuel + 1, server => do
    let server ← openCheck server
    let holder ← getCommits server.log
    let (done, server) ← checkCommits (commit fuel) holder.reverse server
    let status ← getServerStatus server.log
    if status ≠ ("primary" : Text) ∧ (done = false ∨ server.manager.alive) then
      return (done, setAlive { server with link := Client.closeSocket server.link } false)
    else
      return (done, server)

end

def switchToBackup (server : Server π) : Exec (Server π) := do
  if (← getServerStatus server.log) = "backup" then
    return server
  else
    let server := changeConnection { server with link := Client.closeSocket server.link } "0.0.0.0" "0"
    let log := serverData server.log (← getIpThis server.log) (← getPortThis server.log) "backup"
      (← getNetDir server.log)
    return { server with log, manager := { server.manager with tries := -10 } }

/-- What the outside decides while the manager's timer runs: the first line of
primary.txt, when it can be read, and whether it can be written. -/
structure Tick where
  primaryTxt : Option Text := none
  writable : Bool := true

/-- `none` is a process that has exited. -/
def switchToPrimary (tick : Tick) (server : Server π) : Exec (Option (Server π)) := do
  if (← getServerStatus server.log) = "primary" then
    return some server
  else if tick.writable then
    let log := serverData server.log (← getIpThis server.log) (← getPortThis server.log) "primary" (← getNetDir server.log)
    return some { server with log }
  else
    return none

def loadPrimary (tick : Tick) (server : Server π) : Exec (Option (Server π)) :=
  match tick.primaryTxt with
  | none => return none
  | some line => do
    let strs := Fields.split ['|'] line
    let primIp ← defined strs[1]?
    let primPort ← defined strs[3]?
    return some { server with manager := { server.manager with primIp, primPort } }

/-- After some failures the backup takes over. -/
def promote (tick : Tick) (server : Server π) : Exec (Option (Server π)) := do
  if server.manager.tries > 3 then
    match ← switchToPrimary tick server with
    | some server => return some { server with manager := { server.manager with tries := 0 } }
    | none => return none
  else
    return some server

/-- The target that `loadPrimary` found, unless it is the server itself. -/
def retarget (server : Server π) : Exec (Server π) := do
  let self := server.manager.primIp == (← getIpThis server.log) && server.manager.primPort == (← getPortThis server.log)
  let server := if self then server else changeConnection server server.manager.primIp server.manager.primPort
  return { server with manager := { server.manager with tries := server.manager.tries + 1, backupDidSync := false } }

/-- The tick of a backup that could not reach its primary. -/
def searchPrimary (tick : Tick) (server : Server π) : Exec (Option (Server π)) := do
  match ← promote tick server with
  | none => return none
  | some server =>
    match ← loadPrimary tick server with
    | none => return none
    | some server => return some (← retarget server)

def backupOps (fuel : Nat) (tick : Tick) (server : Server π) : Exec (Option (Server π)) := do
  let (up, link) := Client.connectSocket (Client.closeSocket server.link)
  let server := { server with link }
  if up then
    let info := (← getIpThis server.log) ++ "|" ++ (← getPortThis server.log)
    if !server.manager.backupDidSync && !server.manager.restarted then
      let (_, server) ← integrityCheck answer fuel { server with manager := { server.manager with backupDidSync := true } }
      return some { server with link := Client.closeSocket server.link }
    else
      let (reply, link) ← Client.exchange answer server.link ("PING -1 0 " ++ iToS (toInt (toInt info.length + 1))) info
      match reply with
      | none => return none -- nobody catches the exception
      | some _ => return some { server with link := Client.closeSocket link }
  else
    searchPrimary tick server

/-- The timer of the manager. -/
def check (fuel : Nat) (tick : Tick) (server : Server π) : Exec (Option (Server π)) := do
  if (← getServerStatus server.log) = "primary" then
    return some (← primaryOps answer fuel server)
  else
    backupOps answer fuel tick server

end ReplicationManager
end TransactionalServer
