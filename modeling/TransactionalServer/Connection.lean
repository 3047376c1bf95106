import TransactionalServer.Library.Segments
import TransactionalServer.ServerTools

/-! One connection of a session as a byte stream: `start` and the parsing part
of `handle_read` (Session.cpp). -/

namespace TransactionalServer
open ServerTools

/-- A `std::istream` over a buffer. It stays good until a read meets the end. -/
structure IStream where
  buf : Text
  good : Bool := true

/-- `std::getline`: the line, the stream after it, and whether it succeeded. A
stream that is no longer good leaves the string as it was. -/
def getline (is : IStream) (str : Text) : Text × IStream × Bool :=
  if !is.good then
    (str, is, false)
  else if is.buf.isEmpty then
    ([], { is with good := false }, false)
  else
    match is.buf.dropWhile (· ≠ '\n') with
    | [] => (is.buf, ⟨[], false⟩, true)
    | _ :: rest => (is.buf.takeWhile (· ≠ '\n'), ⟨rest, true⟩, true)

/-- Whether "\r\n\r\n" occurs in the text. -/
def hasBlankLine : Text → Bool
  | [] => false
  | char :: rest => List.isPrefixOf "\r\n\r\n".toList (char :: rest) || hasBlankLine rest

/-- The buffers `b` and `c` of a session, and the segments still to arrive. -/
structure Connection where
  b : Text := []
  c : Text := []
  segments : List Text

/-- What `handle_read` makes of one packet. -/
inductive Event where
  | execute (header data : Text)
  | needsData (header : Text)
  | invalidHeader
  | endOfStream
  deriving DecidableEq

namespace Connection

def removeCR (line : Text) : Text := line.filter (· ≠ '\r')

/-- `while(header.size() < 8)`. Every successful `getline` takes at least one
byte, so the length of the buffer is fuel enough. -/
def skipShort : Nat → Text → IStream → Option (Text × IStream)
  | 0, _, _ => none
  | fuel + 1, header, is =>
    if 8 ≤ header.length then
      some (header, is)
    else
      let (line, is, ok) := getline is header
      if ok then skipShort fuel (removeCR line) is else none

/-- `total - bytes_transferred` is a `size_t`. -/
def completionCondition (error : Bool) (transferred : Nat) (total : Int) : Nat :=
  if error then 0 else ((total - transferred) % 18446744073709551616).toNat

/-- One round of `start` and `handle_read`; `none` is a session that waits for
more bytes. -/
def handleRead (conn : Connection) : Option (Event × Connection) := do
  let (b, segments) ← Segments.readUntil hasBlankLine conn.b conn.segments
  let (line, is, _) := getline ⟨b, true⟩ []
  match skipShort (b.length + 1) (removeCR line) is with
  | none => some (.endOfStream, { conn with b := [], segments })
  | some (header, is) =>
    if !validHeader header then
      some (.invalidHeader, { conn with b := is.buf, segments })
    else
      let (fragment, is, _) := getline is []
      let (fragment, is, _) := getline is fragment
      let pre := toInt fragment.length
      if dataAttached header then
        if getBytes header ≠ toInt (pre + 1) then
          let request := completionCondition false 0 (toInt (getBytes header - pre))
          let (bytes, segments) ← Segments.take request segments
          let (dataStream, cs, _) := getline ⟨conn.c ++ bytes, true⟩ []
          some (.execute header (fragment ++ dataStream), { b := is.buf, c := cs.buf, segments })
        else
          some (.execute header fragment, { conn with b := is.buf, segments })
      else if needsData header then
        some (.needsData header, { conn with b := is.buf, segments })
      else
        some (.execute header " ", { conn with b := is.buf, segments })

/-- At most `rounds` rounds on a connection: the packets processed, in order. -/
def serve : Nat → Connection → List Event × Connection
  | 0, conn => ([], conn)
  | rounds + 1, conn =>
    match handleRead conn with
    | none => ([], conn)
    | some (event, conn) =>
      let (events, conn) := serve rounds conn
      (event :: events, conn)

end Connection
end TransactionalServer
