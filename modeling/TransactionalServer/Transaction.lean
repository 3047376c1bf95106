import TransactionalServer.ServerTools
import Mathlib.Data.Int.Range
import Mathlib.Data.Set.Basic
import Mathlib.Logic.Function.Basic

/-! What a transaction is for, apart from how the log keeps it. It collects numbered
lines in any order, waits for those that a commit still lacks, and gives its lines
to its file when none is missing. Every transaction is a machine of its own. -/

namespace TransactionalServer

/-- How often a sweep has passed by. -/
inductive Age where
  | young
  | flagged
  | expired
  deriving DecidableEq

def Age.older : Age → Option Age
  | young => some flagged
  | flagged => some expired
  | expired => none

/-- The numbers of lines and commits. -/
abbrev Number := {number : Int // 1 ≤ number}

/-- What a transaction does. Only one that collects lines ages with its phase. -/
inductive Phase where
  | collecting (age : Age)
  | waiting (number : Number)
  | writing (number : Number)
  | committed (number : Number)
  deriving DecidableEq

namespace Phase

/-- The number of a commit that lacks nothing. -/
def settled : Phase → Option Number
  | collecting _ | waiting _ => none
  | writing number | committed number => some number

/-- A line that nobody has waited for makes a transaction young again. -/
def reopened : Phase → Phase
  | waiting number => waiting number
  | collecting _ | writing _ | committed _ => collecting .young

def finished : Phase → Phase
  | writing number => committed number
  | phase => phase

theorem reopened_settled (phase : Phase) : phase.reopened.settled = none := by
  cases phase <;> rfl

theorem finished_settled (phase : Phase) : phase.finished.settled = phase.settled := by
  cases phase <;> rfl

end Phase

structure Transaction where
  phase : Phase
  /-- The age that waiting has given it. Later phases keep it. -/
  waited : Age
  path : Text
  lines : Number → Option Text
  whole : ∀ number, phase.settled = some number → ∀ seq, seq ≤ number → lines seq ≠ none

namespace Transaction

structure Verdict where
  method : Text
  code : Text
  message : Text

inductive Reply where
  | verdict (verdict : Verdict)
  /-- About the commit that was waited for. -/
  | verdictOn (number : Number) (verdict : Verdict)
  /-- The numbers that are still missing. -/
  | asksFor (numbers : Set Number)
  /-- The id of a transaction that was created. -/
  | names

inductive Request where
  | create (path : Text)
  | copy (path : Text)
  | write (seq : Int) (data : Text)
  | commit (seq : Int)
  | abort
  deriving DecidableEq

/-- How a commit ends that lacks nothing: its lines reach the file, they do not, or
the other server refuses. -/
inductive Ending where
  | appended
  | failed
  | refused
  deriving DecidableEq

structure Turn where
  next : Option Transaction
  reply : Option Reply := none
  /-- The file and the lines that it has got. -/
  appended : Option (Text × List Text) := none

/-- A commit lacks the numbers up to its own and those below a line that has come. -/
def missing (transaction : Transaction) (number : Number) : Set Number :=
  {seq | transaction.lines seq = none ∧ (seq ≤ number ∨ ∃ above, seq < above ∧ transaction.lines above ≠ none)}

theorem present_of_complete {transaction : Transaction} {number : Number} (complete : transaction.missing number = ∅) (seq : Number)
    (below : seq ≤ number) : transaction.lines seq ≠ none := by
  intro absent
  have lacked : seq ∈ transaction.missing number := ⟨absent, Or.inl below⟩
  rw [complete] at lacked
  exact lacked

def fresh (path : Text) : Transaction where
  phase := .collecting .young
  waited := .young
  path
  lines _ := none
  whole := nofun

def collect (transaction : Transaction) (age : Age) : Transaction :=
  { transaction with phase := .collecting age, whole := nofun }

def waitFor (transaction : Transaction) (number : Number) : Transaction :=
  { transaction with phase := .waiting number, whole := nofun }

def enter (transaction : Transaction) (number : Number) (complete : transaction.missing number = ∅) : Transaction where
  __ := transaction
  phase := .writing number
  whole _ same := Option.some.inj same ▸ present_of_complete complete

/-- The lines of a transaction that writes have reached its file. -/
def finish (transaction : Transaction) : Transaction where
  __ := transaction
  phase := transaction.phase.finished
  whole := transaction.phase.finished_settled ▸ transaction.whole

/-- A line for the first time. -/
def add (transaction : Transaction) (seq : Number) (data : Text) : Transaction where
  phase := transaction.phase.reopened
  waited := transaction.waited
  path := transaction.path
  lines := Function.update transaction.lines seq (some data)
  whole _ settled := nomatch transaction.phase.reopened_settled.symm.trans settled

/-- The lines up to a number, in order. -/
def block (transaction : Transaction) (number : Number) : List Text :=
  (Int.range 1 (number + 1)).filterMap fun seq => if high : 1 ≤ seq then transaction.lines ⟨seq, high⟩ else none

def linger (transaction : Transaction) (waited : Age) : Transaction := { transaction with waited }

/-- What a sweep makes of it. -/
def aged (transaction : Transaction) : Option Transaction :=
  match transaction.phase with
  | .collecting age => age.older.map transaction.collect
  | .waiting _ => transaction.waited.older.map transaction.linger
  | .writing _ | .committed _ => some transaction

def tell (next : Option Transaction) (method code message : Text) : Turn := { next, reply := some (.verdict ⟨method, code, message⟩) }

noncomputable section
open Classical

/-- A commit of this number. `failure` is told when the lines do not reach the file. -/
def attempt (transaction : Transaction) (number : Number) (failure : Reply) (ending : Ending) : Turn :=
  if complete : transaction.missing number = ∅ then
    let writing := transaction.enter number complete
    match ending with
    | .appended =>
      { tell (some writing.finish) "ACK" "0" "Committed successfully." with
        appended := some (transaction.path, transaction.block number) }
    | .failed => { next := some (transaction.waitFor number), reply := some failure }
    | .refused => tell (some writing) "ERROR" "205" "commit fail, i/o error"
  else
    { next := some (transaction.waitFor number), reply := some (.asksFor (transaction.missing number)) }

def commit (transaction : Transaction) (seq : Int) (ending : Ending) : Turn :=
  let attempted :=
    if high : 1 ≤ seq then transaction.attempt ⟨seq, high⟩ (.verdict ⟨"ERROR", "205", "commit fail, i/o error"⟩) ending
    else tell (some transaction) "WARNING" "404" "Nothing to commit, request ignored"
  let other := tell (some transaction) "ERROR" "202" "Transaction was previously committed with a different sequence number"
  match transaction.phase with
  | .committed number => if number = seq then tell (some transaction) "ACK" "0" "Already committed" else other
  | .collecting .expired => tell (some transaction) "ERROR" "220" "Transaction expired, please start a new one."
  | .waiting number => if number = seq then attempted else other
  | .collecting _ | .writing _ => attempted

/-- A line that has not come yet. It may be the one that a commit has waited for. -/
def accept (transaction : Transaction) (seq : Number) (data : Text) (ending : Ending) : Turn :=
  let added := transaction.add seq data
  match transaction.phase with
  | .waiting number =>
    if number.val < seq.val then
      tell (some transaction) "ERROR" "202" "Sequence number for write is higher than pending commit. Ignored."
    else if added.missing number = ∅ then
      added.attempt number (.verdictOn number ⟨"ERROR", "205", "commit fail, i/o error"⟩) ending
    else
      tell (some added) "ACK" "0" " "
  | _ => tell (some added) "ACK" "0" " "

def write (transaction : Transaction) (seq : Number) (data : Text) (ending : Ending) : Turn :=
  match transaction.phase with
  | .committed _ => tell (some transaction) "ERROR" "202" "Transaction was previously committed"
  | .collecting .expired => tell (some transaction) "ERROR" "220" "Transaction expired, please start a new one."
  | _ =>
    if transaction.lines seq = none then transaction.accept seq data ending
    else tell (some transaction) "WARNING" "301" "SeqNum for current tsnID already received, ignored"

def abort (transaction : Transaction) : Turn :=
  match transaction.phase with
  | .committed _ => tell (some transaction) "ERROR" "202" "Transaction was previously committed"
  | .collecting .expired => tell (some transaction) "ERROR" "220" "Transaction expired."
  | _ => tell none "ACK" "0" "Aborted"

/-- A request of a transaction, or of nothing. -/
def handle (slot : Option Transaction) (ending : Ending) : Request → Turn
  | .create path => { next := some (slot.getD (fresh path)), reply := some .names }
  | .copy path => tell (some (slot.getD (fresh path))) "ACK" "0" "Created"
  | .write seq data =>
    if high : 1 ≤ seq then
      slot.elim (tell none "ERROR" "201" "Transaction ID not found") fun transaction => transaction.write ⟨seq, high⟩ data ending
    else tell slot "ERROR" "204" "Sequence number invalid: must be 1 or larger"
  | .commit seq => slot.elim (tell none "ERROR" "201" "Transaction ID not found") fun transaction => transaction.commit seq ending
  | .abort => slot.elim (tell none "ERROR" "201" "Transaction ID not found") abort

/-- What an event is to a transaction. -/
inductive Input where
  | request (request : Request) (ending : Ending)
  | sweep
  | nothing

def react (slot : Option Transaction) : Input → Turn
  | .request request ending => handle slot ending request
  | .sweep => { next := slot.bind aged }
  | .nothing => { next := slot }

end
end Transaction
end TransactionalServer
