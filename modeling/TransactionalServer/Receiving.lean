import TransactionalServer.Connection

/-! The reading half of `Client::sendReceive` on a byte stream (Client.cpp). Its
buffer is local: what a call has read and not used is gone, what it has not read
stays on the socket for the next call. -/

namespace TransactionalServer.Client
open ServerTools

/-- Whether "\r\n" occurs in the text. -/
def hasLineEnd : Text → Bool
  | [] => false
  | char :: rest => List.isPrefixOf "\r\n".toList (char :: rest) || hasLineEnd rest

/-- What one call returns and leaves on the socket; `none` is a call that waits. -/
def receiveReply (segments : List Text) : Option (Text × List Text) := do
  let (b, segments) ← Segments.readUntil hasBlankLine [] segments
  let (header, is, _) := getline ⟨b, true⟩ []
  let (data, is, _) := getline is []
  if getBytesResponse header > 0 then
    let (rest, segments) ← Segments.readUntil hasLineEnd is.buf segments
    let (data, _, _) := getline { is with buf := rest } data
    some (header ++ "\t\t\t" ++ data, segments)
  else
    let (data, _, _) := getline is data
    some (header ++ "\t\t\t" ++ data, segments)

/-- One call after the other, each after its own reply has been sent. A call that
waits is the last. -/
def receiveReplies : List Text → List (List Text) → List (Text × List Text)
  | _, [] => []
  | left, arriving :: later =>
    match receiveReply (left ++ arriving) with
    | none => []
    | some (result, left) => (result, left) :: receiveReplies left later

end TransactionalServer.Client
