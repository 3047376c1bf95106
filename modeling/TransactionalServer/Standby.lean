import TransactionalServer.Backup
import TransactionalServer.Process

/-! A backup with its own disk at the far end of a replication connection. -/

namespace TransactionalServer

abbrev Standby := Process Unit

namespace Standby

/-- `Backup.answer`, and what the packet does to the disk. -/
def answer (arrival : Backup.Arrival) : Answer Standby := fun standby io header data => do
  let (header, payload) ← arrival header data
  let handled ← Session.receive Backup.noPeer 0 { io, files := standby.disk.files } standby.server true header payload
  return (⟨handled.server, handled.effects.foldl Disk.apply standby.disk⟩, Backup.firstPacket handled.effects)

/-- The standby after a packet has reached it, its own file append succeeding. -/
def deliver (arrival : Backup.Arrival) (standby : Standby) (packet : Text × Text) : Exec Standby :=
  return (← answer arrival standby true packet.1 packet.2).1

/-- The standby once its primary has gone. So many attempts to connect find nobody. -/
def orphaned (attempts : Nat) (standby : Standby) : Standby :=
  { standby with server.link.connects := List.replicate attempts false }

end Standby

namespace Process

/-- A primary and its backup, each started on its own disk. -/
def replicas (own other : Identity) (disk copy : Disk) (wires : List Wire) (connects : List Bool) : Process Standby :=
  start { self := own, primary := true, peer := start { self := other, primary := false, peer := () } copy, wires, connects } disk

end Process
end TransactionalServer
