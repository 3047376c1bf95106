import TransactionalServer.Library.Exec
import TransactionalServer.Library.Decimal
import TransactionalServer.Library.Fields

/-! Header parsing and answer packets (ServerTools.cpp). -/

namespace TransactionalServer

/-- A `std::string`: a sequence of bytes, one character each. -/
abbrev Text := List Char

instance : Coe String Text := ⟨String.toList⟩

namespace ServerTools

/-- `boost::split(strs, s, boost::is_any_of("\t "))`. -/
def fields (s : Text) : List Text := Fields.split ['\t', ' '] s

def methodMap : List (Text × Nat) :=
  [("ABORT", 1), ("NEW_TXN", 2), ("COMMIT", 3), ("READ", 4), ("WRITE", 5), ("MAKE_TXN", 6), ("PING", 7),
    ("AUTH", 8), ("KILL", 9)]

def parse (s : Text) : Nat :=
  match fields s with
  | [] => 0
  | method :: _ => (methodMap.lookup method).getD 0

def validHeader (s : Text) : Bool := (fields s).length == 4

def needsData (s : Text) : Bool :=
  match parse s with
  | 2 | 4 | 5 | 6 | 7 => true
  | _ => false

/-- The value a C++ `int` keeps of a `size_t` or of an overflowing sum. -/
def toInt (value : Int) : Int := Decimal.wrap 32 value

def iToS (i : Int) : Text := Decimal.render i

/-- `boost::lexical_cast<int>`: the whole text is a number in the range of `int`. -/
def lexicalCast (s : Text) : Option Int :=
  (Decimal.parse? s).filter (fun value => -2147483648 ≤ value ∧ value < 2147483648)

/-- `atoi` as `(int) strtol(s, NULL, 10)`, with a 64-bit `long`. -/
def atoi (s : Text) : Int :=
  toInt (max (-9223372036854775808) (min 9223372036854775807 (Decimal.prefixValue s)))

def getBytes (s : Text) : Int :=
  match (fields s)[3]? with
  | none => -100
  | some length => atoi length

def getBytesResponse (s : Text) : Int :=
  match (fields s)[4]? with
  | none => -100
  | some length => atoi length

def getSeq (s : Text) : Int :=
  match (fields s)[2]? with
  | none => -100
  | some seq => (lexicalCast seq).getD (-100)

def getTsn (s : Text) : Int :=
  match (fields s)[1]? with
  | none => -100
  | some tsn => (lexicalCast tsn).getD (-100)

def dataAttached (s : Text) : Bool :=
  match parse s with
  | 2 | 4 | 5 | 6 | 7 => getBytes s > 0
  | _ => false

/-- With fewer than three fields the source writes `strs[2]` past the end of
the vector, so there is no answer. -/
def genAnswerStr (method header code errString : Text) : Exec Text :=
  match fields header with
  | _ :: tsn :: seq :: _ =>
    let answer := method ++ " " ++ tsn ++ " " ++ seq ++ " " ++ code ++ " "
    if errString = " " then
      return answer ++ "0" ++ "\r\n\r\n\r\n"
    else
      return answer ++ iToS (toInt errString.length) ++ "\r\n\r\n" ++ errString ++ "\r\n"
  | _ => .error .undefined

end ServerTools
end TransactionalServer
