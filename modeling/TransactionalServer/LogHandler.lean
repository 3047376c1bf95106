import TransactionalServer.ServerTools
import Std.Data.ExtTreeMap.Basic
import Mathlib.Data.Int.Range

/-! The transaction log and its operations (LogHandler.h, LogHandler.cpp).
An accessor dereferences `find` without a check, so a missing entry leaves it
undefined. Operations return the log in memory and what they did outside it. -/

namespace TransactionalServer

abbrev LogPair := Text × Text

/-- Entry -1 holds (status, number), entry 0 (marker, file name), entry `seq`
the packet that wrote it. -/
abbrev Record := Std.ExtTreeMap Int LogPair compare

abbrev Log := Std.ExtTreeMap Int Record compare

/-- What leaves the process memory. A crash keeps the effects before it. -/
inductive Effect where
  | save (log : Log)
  | append (tsn : Int) (path : Text) (lines : List Text)
  | send (packet : Text)

namespace LogHandler
open ServerTools Exec

structure Outcome where
  log : Log
  effects : List Effect
  ret : Bool
  code : Text

/-- An operation that only answers. -/
def Outcome.reply (log : Log) (code : Text) : Outcome := ⟨log, [], false, code⟩

def pair (log : Log) (tsn seq : Int) : Exec LogPair := do
  let record ← defined log[tsn]?
  defined record[seq]?

def getFileName (log : Log) (tsn : Int) : Exec Text := return (← pair log tsn 0).2

def getData (log : Log) (tsn seq : Int) : Exec Text := return (← pair log tsn seq).2

def getHeader (log : Log) (tsn seq : Int) : Exec Text := return (← pair log tsn seq).1

def getStatus (log : Log) (tsn : Int) : Exec Text := return (← pair log tsn (-1)).1

def getPortThis (log : Log) : Exec Text := return (← pair log 0 0).2

def getIpThis (log : Log) : Exec Text := return (← pair log 0 0).1

/-- `getStatus()` without an argument: the role this server runs in. -/
def getServerStatus (log : Log) : Exec Text := return (← pair log 0 (-1)).1

def getNetDir (log : Log) : Exec Text := return (← pair log 0 (-1)).2

def getStatusZ (log : Log) (tsn : Int) : Exec Text := return (← pair log tsn 0).1

def getStatusData (log : Log) (tsn : Int) : Exec Int := return atoi (← pair log tsn (-1)).2

/-- Assignment through a dereferenced iterator. -/
def update (log : Log) (tsn seq : Int) (change : LogPair → LogPair) : Exec Log := do
  let record ← defined log[tsn]?
  let old ← defined record[seq]?
  return log.insert tsn (record.insert seq (change old))

def changeStatus (log : Log) (tsn : Int) (status : Text) : Exec Log :=
  update log tsn (-1) fun old => (status, old.2)

def changeStatusZ (log : Log) (tsn : Int) (status : Text) : Exec Log :=
  update log tsn 0 fun old => (status, old.2)

def changeStatusData (log : Log) (tsn : Int) (data : Text) : Exec Log :=
  update log tsn (-1) fun old => (old.1, data)

def deleteBackup (log : Log) : Exec Log := do
  let _ ← defined log[(-1 : Int)]?
  return log.erase (-1)

def backupRegistered (log : Log) : Bool := log.contains (-1)

def getIpBackup (log : Log) : Exec Text := return (← pair log (-1) 0).1

def getPortBackup (log : Log) : Exec Text := return (← pair log (-1) 0).2

/-- One turn of the scan: the numbers between the last key and this one. -/
def scanKey (state : Int × List Int) (key : Int) : Int × List Int :=
  (key, if state.1 ≠ key - 1 then state.2 ++ Int.range (state.1 + 1) key else state.2)

def canCommit (log : Log) (tsn commitSeq : Int) (fetch : List Int) : Exec (Bool × List Int) := do
  let record ← defined log[tsn]?
  let (current, fetch) := record.keys.foldl scanKey (-1, fetch)
  let fetch := if current < commitSeq then fetch ++ (Int.range current commitSeq).map (· + 1) else fetch
  return (fetch.isEmpty && commitSeq != 0, fetch)

/-- The data of 1..n. A negative bound is never met before a lookup fails. -/
def committedLines (log : Log) (tsn bound : Int) : Exec (List Text) :=
  if bound < 0 then .error .undefined else (Int.range 1 (bound + 1)).mapM (getData log tsn)

/-- `io` says whether the file could be opened. Nobody looks whether the lines
then get there, so the append is what the stream is given. -/
def writeFile (log : Log) (tsn : Int) (io : Bool) : Exec (Bool × List Effect) := do
  let path ← getFileName log tsn
  if io then
    let lines ← committedLines log tsn (← getStatusData log tsn)
    return (true, [.append tsn path lines])
  else
    return (false, [])

/-- `getline` until the end of the file; `none` is a file that cannot be opened
or has no line. -/
def readFile (files : Text → Option Text) (path : Text) : Option Text :=
  match files path with
  | none => none
  | some [] => none
  | some content => if content.getLast? = some '\n' then some content else some (content ++ "\n")

def commit (log : Log) (header : Text) (io : Bool) : Exec Outcome := do
  let tsn := getTsn header
  if !log.contains tsn then
    return .reply log (← genAnswerStr "ERROR" header "201" "Transaction ID not found")
  let status ← getStatus log tsn
  let number ← getStatusData log tsn
  if status = "COMMITTED" ∧ number = getSeq header then
    return .reply log (← genAnswerStr "ACK" header "0" "Already committed")
  if status = "EXPIRED" then
    return .reply log (← genAnswerStr "ERROR" header "220" "Transaction expired, please start a new one.")
  if (status = "WAITING" ∨ status = "COMMITTED") ∧ number ≠ getSeq header then
    return .reply log (← genAnswerStr "ERROR" header "202"
      "Transaction was previously committed with a different sequence number")
  if getSeq header < 1 then
    return .reply log (← genAnswerStr "WARNING" header "404" "Nothing to commit, request ignored")
  let (ready, _) ← canCommit log tsn (getSeq header) []
  if ready then
    let log ← changeStatus log tsn "WRITING"
    let log ← changeStatusData log tsn (iToS (getSeq header))
    if (← getServerStatus log) = "primary" then
      -- the primary waits for its backup; Session.doCommit goes on from here
      return { log, effects := [.save log], ret := false, code := "committed" }
    let (written, appended) ← writeFile log tsn io
    if written then
      let final ← changeStatus log tsn "COMMITTED"
      return { log := final, effects := .save log :: appended ++ [.save final], ret := false, code := "committed" }
    else
      let code ← genAnswerStr "ERROR" header "205" "commit fail, i/o error"
      let final ← changeStatus log tsn "WAITING"
      return { log := final, effects := .save log :: appended ++ [.save final], ret := false, code }
  else
    let log ← changeStatus log tsn "WAITING"
    let log ← changeStatusData log tsn (iToS (getSeq header))
    return { log, effects := [.save log], ret := false, code := "incomplete" }

def addLogEntry (log : Log) (header data : Text) (io : Bool) : Exec Outcome := do
  let tsn := getTsn header
  if getSeq header < 1 then
    return .reply log (← genAnswerStr "ERROR" header "204" "Sequence number invalid: must be 1 or larger")
  if !log.contains tsn then
    return .reply log (← genAnswerStr "ERROR" header "201" "Transaction ID not found")
  let status ← getStatus log tsn
  if status = "COMMITTED" then
    return .reply log (← genAnswerStr "ERROR" header "202" "Transaction was previously committed")
  if status = "EXPIRED" then
    return .reply log (← genAnswerStr "ERROR" header "220" "Transaction expired, please start a new one.")
  let record ← defined log[tsn]?
  if record.contains (getSeq header) then
    return .reply log (← genAnswerStr "WARNING" header "301" "SeqNum for current tsnID already received, ignored")
  let number ← getStatusData log tsn
  if status = "WAITING" ∧ number < getSeq header then
    return .reply log (← genAnswerStr "ERROR" header "202"
      "Sequence number for write is higher than pending commit. Ignored.")
  let log := log.insert tsn (record.insertIfNew (getSeq header) (header, data))
  if status = "WAITING" then
    let (ready, _) ← canCommit log tsn number []
    if ready then
      commit log ("empty\t" ++ iToS tsn ++ "\t" ++ iToS number ++ "\t0\t") io
    else
      return { log, effects := [], ret := true, code := [] }
  else
    return { log := ← changeStatus log tsn "ACTIVE", effects := [], ret := true, code := [] }

def portablePosixName (name : Text) : Bool :=
  !name.isEmpty && name.all (fun char => char.isAlphanum || char ∈ ['.', '_', '-'])

/-- A record as `newTxn` and `makeTxn` insert it under an id without one. -/
def freshRecord (data : Text) : Record :=
  (∅ : Record).insertIfNew (-1) ("ACTIVE", "0") |>.insertIfNew 0 ("NEW_TXN", data)

/-- `draws` is what `randomNum(100000)` yields; the loop takes the first id that
is not in the log and goes on while there is none. -/
def newTxn (log : Log) (data : Text) (draws : List Int) : Exec (Log × List Effect × Int) := do
  if !portablePosixName data then
    return (log, [], 0)
  let rn ← finished (draws.find? (fun id => !log.contains id))
  let log := log.insert rn (freshRecord data)
  return (log, [.save log], rn)

def makeTxn (log : Log) (data : Text) (txn : Int) : Log × List Effect × Bool :=
  if !log.contains txn then
    let log := log.insert txn (freshRecord data)
    (log, [.save log], true)
  else
    (log, [], false)

def serverData (log : Log) (ip port primary netDir : Text) : Log :=
  (log.erase 0).insert 0 ((∅ : Record).insertIfNew (-1) (primary, netDir) |>.insertIfNew 0 (ip, port))

/-- `operator[]` makes the record when there is none; without a '|' in the data
`strs[1]` is past the end. -/
def backupServerData (log : Log) (data : Text) : Exec Log :=
  match Fields.split ['|'] data with
  | ip :: port :: _ => .ok (log.insert (-1) ((log[(-1 : Int)]?.getD ∅).insertIfNew 0 (ip, port)))
  | _ => .error .undefined

def abort (log : Log) (header : Text) : Exec Outcome := do
  let tsn := getTsn header
  if !log.contains tsn then
    return .reply log (← genAnswerStr "ERROR" header "201" "Transaction ID not found")
  let status ← getStatus log tsn
  if status = "COMMITTED" then
    return .reply log (← genAnswerStr "ERROR" header "202" "Transaction was previously committed")
  if status = "EXPIRED" then
    return .reply log (← genAnswerStr "ERROR" header "220" "Transaction expired.")
  return { log := log.erase tsn, effects := [], ret := true, code := [] }

/-- One turn of the sweep. The flag says that the turn erased the element the
iterator stands on, from which the loop then advances. -/
def sweepRecord (log : Log) (key : Int) : Exec (Log × Bool) := do
  match log[key]? with
  | none => return (log, false)
  | some record =>
    if key < 0 then
      return (log, false)
    match record[(-1 : Int)]? with
    | none => return (log, false)
    | some (status, _) =>
      if status = "ACTIVE" then
        return (← changeStatus log key "FLAG", false)
      else if status = "FLAG" then
        return (← changeStatus log key "EXPIRED", false)
      else if status = "EXPIRED" then
        return (log.erase key, true)
      else if status = "COMMITTED" then
        return (log, false)
      else if status = "WAITING" then
        let marker ← getStatusZ log key
        if marker = "FLAG" then
          return (← changeStatusZ log key "EXPIRED", false)
        else if marker = "EXPIRED" then
          return (log.erase key, true)
        else
          return (← changeStatusZ log key "FLAG", false)
      else if status = "WRITING" ∨ status = "backup" ∨ status = "primary" then
        return (log, false)
      else
        return (← changeStatus log key "FLAG", false)

/-- The sweep visits the keys in order and saves the log. The flag says whether
some turn advanced from an erased element; the log is the one of a loop that
goes on with the next key. -/
def timeouts (log : Log) : Exec (Log × Bool) :=
  log.keys.foldlM (fun (log, dangling) key => do
    let (log, erased) ← sweepRecord log key
    return (log, dangling || erased)) (log, false)

def getCommits (log : Log) : Exec (List Text) :=
  (log.keys.filter (0 ≤ ·)).foldlM (fun holder key => do
    let record ← defined log[key]?
    match record[(-1 : Int)]? with
    | none => return holder
    | some (status, _) =>
      if status = "COMMITTED" then
        return holder ++ ["COMMIT " ++ iToS key ++ " " ++ iToS (← getStatusData log key) ++ " 0"]
      else
        return holder) []

end LogHandler
end TransactionalServer
