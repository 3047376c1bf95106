import TransactionalServer.Socket
import TransactionalServer.System

/-! A primary and its backup, each with its own transaction manager. The backup
may sweep between any two packets it handles. -/

namespace TransactionalServer
open ServerTools LogHandler

/-- A backup and how often it sweeps before each packet to come. `met` are the
ids whose MAKE_TXN found a record that was still alive; `parted` is set once a
COMMIT has found several writes missing. -/
structure Clocked where
  backup : Backup
  sweeps : List Nat := []
  met : List Int := []
  parted : Bool := false

namespace Clocked

/-- A sweep that erases a record is taken to go on with the next one, where the
source advances an iterator that is no longer valid. -/
def sweep (log : Log) : Nat → Exec Log
  | 0 => return log
  | times + 1 => do
    let (log, _) ← timeouts log
    sweep log times

/-- An expired record takes no packet and goes with the next sweep. -/
def alive (log : Log) (tsn : Int) : Bool :=
  match getStatus log tsn with
  | .ok status => status != ("EXPIRED" : Text)
  | .error _ => false

/-- `makeTxn` keeps a record that is already there, and `executeCommand` answers
"Created" all the same. -/
def meets (log : Log) (header : Text) : Bool := parse header == 6 && alive log (getTsn header)

/-- A COMMIT that asks for several writes: each is asked for in a packet of its own. -/
def parts (log : Log) (header : Text) : Bool :=
  parse header == 3 && decide (1 ≤ getSeq header) &&
    match getStatus log (getTsn header), getStatusData log (getTsn header), canCommit log (getTsn header) (getSeq header) [] with
    | .ok status, .ok number, .ok (_, stack) =>
      status != ("COMMITTED" : Text) && status != ("EXPIRED" : Text) && (status != ("WAITING" : Text) || number == getSeq header) &&
        decide (2 ≤ stack.length)
    | _, _, _ => false

def replies (arrival : Backup.Arrival) : Replies Clocked := fun clocked io header data => do
  let log ← sweep clocked.backup.log (clocked.sweeps.headD 0)
  let (backup, packets) ← Backup.replies arrival { clocked.backup with log } io header data
  let met := if meets log header then getTsn header :: clocked.met else clocked.met
  return ({ backup, sweeps := clocked.sweeps.tail, met, parted := clocked.parted || parts log header }, packets)

/-- What happens on the primary, and a sweep of the backup. -/
inductive Event where
  | primary (event : System.Event)
  | backupSweep

def step (arrival : Backup.Arrival) (fuel : Nat) (server : Server (Socket Clocked)) : Event → Exec (Server (Socket Clocked))
  | .primary event => System.step (Socket.answer (replies arrival)) fuel server event
  | .backupSweep => do
    let log ← sweep server.link.peer.peer.backup.log 1
    return { server with link.peer.peer.backup.log := log }

end Clocked
end TransactionalServer
