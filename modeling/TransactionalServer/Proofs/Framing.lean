import TransactionalServer.Proofs.Lines
import TransactionalServer.Proofs.Headers

/-! Packets on a byte stream. One round of a session takes exactly the first
packet, wherever the stream was cut, and leaves at most a line end behind. -/

namespace TransactionalServer.Proofs.Framing
open ServerTools Connection

/-- A header of one known method and three fields on one line. -/
structure HeaderOk (header : Text) : Prop where
  valid : validHeader header = true
  known : parse header ≠ 0
  noCR : '\r' ∉ header
  noLF : '\n' ∉ header
  size : 8 ≤ header.length

/-- A payload packet announces its payload and the line feed after it. -/
def Attached (header : Text) : Option Text → Prop
  | some data => needsData header = true ∧ '\n' ∉ data ∧ getBytes header = data.length + 1
  | none => getBytes header = 0

structure Packet where
  header : Text
  payload : Option Text
  headerOk : HeaderOk header
  attached : Attached header payload

/-- The bytes after the blank line. -/
def tail : Option Text → Text
  | some data => data ++ "\n".toList
  | none => "\r\n".toList

def Packet.bytes (packet : Packet) : Text := packet.header ++ ("\r\n\r\n".toList ++ tail packet.payload)

/-- What a session does with the packet; a method that needs data and comes
without is refused. -/
def Packet.event (packet : Packet) : Event :=
  match packet.payload with
  | some data => .execute packet.header data
  | none => if needsData packet.header then .needsData packet.header else .execute packet.header " "

theorem dataAttached_eq (header : Text) : dataAttached header = (needsData header && decide (getBytes header > 0)) := by
  unfold dataAttached needsData
  split <;> simp

/-- Leftover line ends are skipped and the header is read without its CR. -/
theorem header_found {junk header : Text} (leftover : Leftover junk) (ok : HeaderOk header) (rest str : Text) :
    let b := junk ++ (header ++ '\r' :: '\n' :: rest)
    skipShort (b.length + 1) (removeCR (getline ⟨b, true⟩ str).1) (getline ⟨b, true⟩ str).2.1 =
      some (header, ⟨rest, true⟩) := by
  have noLF : '\n' ∉ header ++ ['\r'] := by simpa using ok.noLF
  have line (old : Text) : getline ⟨header ++ '\r' :: '\n' :: rest, true⟩ old = (header ++ ['\r'], ⟨rest, true⟩, true) := by
    simpa using getline_line noLF rest old
  have stripped := removeCR_line ok.noCR
  cases leftover with
  | none =>
    simp only [List.nil_append, line, stripped]
    simp [skipShort, ok.size]
  | lf =>
    have blank : getline ⟨['\n'] ++ (header ++ '\r' :: '\n' :: rest), true⟩ str =
        ([], ⟨header ++ '\r' :: '\n' :: rest, true⟩, true) := rfl
    simp only [blank]
    simp [skipShort, removeCR.eq_1 [], line, stripped, ok.size]
  | crlf =>
    have blank : getline ⟨['\r', '\n'] ++ (header ++ '\r' :: '\n' :: rest), true⟩ str =
        (['\r'], ⟨header ++ '\r' :: '\n' :: rest, true⟩, true) := rfl
    have empty : removeCR ['\r'] = [] := rfl
    simp only [blank, empty]
    simp [skipShort, line, stripped, ok.size]

/-- The state between two rounds: what the last packet left, then `rest`. -/
structure Between (conn : Connection) (rest : Text) : Prop where
  carried : conn.c = []
  stream : ∃ junk, Leftover junk ∧ conn.b ++ conn.segments.flatten = junk ++ rest

/-- The buffer of a round that has found the header of the first packet. -/
theorem read_header {conn : Connection} {packet : Packet} {rest : Text} (between : Between conn (packet.bytes ++ rest)) :
    ∃ junk extra segments, Leftover junk ∧
      Segments.readUntil hasBlankLine conn.b conn.segments =
        some (junk ++ (packet.header ++ ("\r\n\r\n".toList ++ extra)), segments) ∧
      extra ++ segments.flatten = tail packet.payload ++ rest := by
  obtain ⟨junk, leftover, stream⟩ := between.stream
  have nonempty : packet.header ≠ [] := by
    intro empty
    simpa [empty] using packet.headerOk.size
  have shape : conn.b ++ conn.segments.flatten =
      junk ++ (packet.header ++ ("\r\n\r\n".toList ++ (tail packet.payload ++ rest))) := by
    rw [stream, Packet.bytes]
    simp only [List.append_assoc]
  have present : hasBlankLine (conn.b ++ conn.segments.flatten) = true := by
    rw [shape, hasBlankLine_leftover leftover packet.headerOk.noCR nonempty]
    rfl
  obtain ⟨b, segments, read⟩ := Segments.readUntil_finishes hasBlankLine conn.b conn.segments present
  obtain ⟨found, _, same⟩ := Segments.readUntil_sound read
  have inside : b <+: junk ++ (packet.header ++ ("\r\n\r\n".toList ++ (tail packet.payload ++ rest))) :=
    ⟨segments.flatten, same.trans shape⟩
  obtain ⟨extra, rfl, _⟩ := header_complete leftover packet.headerOk.noCR nonempty inside found
  refine ⟨junk, extra, segments, leftover, read, ?_⟩
  have whole := same.trans shape
  simpa only [List.append_assoc, List.append_cancel_left_eq] using whole

/-- What follows the blank line decides the round. -/
theorem round_found {conn : Connection} {header junk extra : Text} {segments : List Text} (ok : HeaderOk header)
    (leftover : Leftover junk)
    (read : Segments.readUntil hasBlankLine conn.b conn.segments =
      some (junk ++ (header ++ ("\r\n\r\n".toList ++ extra)), segments)) {fragment left : Text} {good got : Bool}
    (line : getline ⟨extra, true⟩ ['\r'] = (fragment, ⟨left, good⟩, got)) :
    handleRead conn =
      let pre := toInt fragment.length
      if dataAttached header then
        if getBytes header ≠ toInt (pre + 1) then do
          let request := completionCondition false 0 (toInt (getBytes header - pre))
          let (bytes, segments) ← Segments.take request segments
          let (dataStream, cs, _) := getline ⟨conn.c ++ bytes, true⟩ []
          some (.execute header (fragment ++ dataStream), { b := left, c := cs.buf, segments })
        else
          some (.execute header fragment, { conn with b := left, segments })
      else if needsData header then
        some (.needsData header, { conn with b := left, segments })
      else
        some (.execute header " ", { conn with b := left, segments }) := by
  have found := header_found leftover ok ('\r' :: '\n' :: extra) []
  have blank : getline ⟨'\r' :: '\n' :: extra, true⟩ [] = (['\r'], ⟨extra, true⟩, true) := rfl
  have bytes : junk ++ (header ++ ("\r\n\r\n".toList ++ extra)) =
      junk ++ (header ++ '\r' :: '\n' :: '\r' :: '\n' :: extra) := rfl
  rw [bytes] at read
  simp only [handleRead, read, Option.bind_eq_bind, Option.bind_some, found, ok.valid, blank, line,
    Bool.not_true, Bool.false_eq_true, if_false]

/-- A piece of a line is read whole. -/
theorem getline_piece {piece : Text} (oneLine : '\n' ∉ piece) (str : Text) :
    ∃ ok, getline ⟨piece, true⟩ str = (piece, ⟨[], false⟩, ok) := by
  by_cases empty : piece = []
  · subst empty
    exact ⟨false, rfl⟩
  · exact ⟨true, getline_end oneLine empty str⟩

theorem round_bare {conn : Connection} {packet : Packet} {rest : Text} (bare : packet.payload = none)
    (between : Between conn (packet.bytes ++ rest)) :
    ∃ next, handleRead conn = some (packet.event, next) ∧ Between next rest := by
  obtain ⟨junk, extra, segments, leftover, read, stream⟩ := read_header between
  have length : getBytes packet.header = 0 := by simpa [Attached, bare] using packet.attached
  have detached : dataAttached packet.header = false := by simp [dataAttached_eq, length]
  replace stream : extra ++ segments.flatten = '\r' :: '\n' :: rest := by rw [stream, bare]; rfl
  have finish {left : Text} {line : Text} {good ok : Bool}
      (fragment : getline ⟨extra, true⟩ ['\r'] = (line, ⟨left, good⟩, ok))
      (remains : ∃ junk, Leftover junk ∧ left ++ segments.flatten = junk ++ rest) :
      ∃ next, handleRead conn = some (packet.event, next) ∧ Between next rest := by
    refine ⟨{ conn with b := left, segments }, ?_, ⟨between.carried, remains⟩⟩
    rw [round_found packet.headerOk leftover read fragment]
    simp only [detached, Bool.false_eq_true, if_false, Packet.event, bare]
    split <;> rfl
  rcases extra with _ | ⟨first, extra⟩
  · exact finish rfl ⟨_, .crlf, stream⟩
  · obtain ⟨rfl, second⟩ := List.cons_eq_cons.mp stream
    rcases extra with _ | ⟨first, extra⟩
    · exact finish rfl ⟨_, .lf, second⟩
    · obtain ⟨rfl, third⟩ := List.cons_eq_cons.mp second
      exact finish rfl ⟨_, .none, third⟩

/-- The length field, less what is already read, as the code computes it. -/
private theorem request_eq {header data piece post : Text} (length : getBytes header = data.length + 1)
    (whole : data = piece ++ post) :
    completionCondition false 0 (toInt (getBytes header - toInt piece.length)) = post.length + 1 := by
  have bound := (getBytes_isInt header).2
  have parts : data.length = piece.length + post.length := by rw [whole, List.length_append]
  have read : toInt piece.length = piece.length := toInt_of_isInt (by constructor <;> omega)
  have left : toInt (getBytes header - piece.length) = post.length + 1 := by
    rw [toInt_of_isInt (by constructor <;> omega)]
    omega
  simp only [completionCondition, Bool.false_eq_true, if_false, read, left]
  omega

theorem round_payload {conn : Connection} {packet : Packet} {data rest : Text} (payload : packet.payload = some data)
    (between : Between conn (packet.bytes ++ rest)) :
    ∃ next, handleRead conn = some (packet.event, next) ∧ Between next rest := by
  obtain ⟨junk, extra, segments, leftover, read, stream⟩ := read_header between
  obtain ⟨needed, oneLine, length⟩ : Attached packet.header (some data) := payload ▸ packet.attached
  have bound := (getBytes_isInt packet.header).2
  have attached : dataAttached packet.header = true := by simp [dataAttached_eq, needed, length]
  have event : packet.event = .execute packet.header data := by simp [Packet.event, payload]
  have complete : getBytes packet.header = toInt (toInt data.length + 1) := by
    have size : IsInt data.length := by constructor <;> omega
    rw [toInt_of_isInt size, toInt_of_isInt (by constructor <;> omega)]
    exact length
  replace stream : extra ++ segments.flatten = data ++ '\n' :: rest := by
    rw [stream, payload, tail, List.append_assoc]
    rfl
  rcases List.append_eq_append_iff.mp stream with ⟨post, whole, left⟩ | ⟨more, whole, left⟩
  · -- the buffer ends inside the payload
    have piece : '\n' ∉ extra := fun member => oneLine (whole ▸ List.mem_append_left _ member)
    obtain ⟨ok, fragment⟩ := getline_piece piece ['\r']
    rw [round_found packet.headerOk leftover read fragment, event]
    by_cases all : post = []
    · subst all
      rw [List.append_nil] at whole
      subst whole
      refine ⟨{ conn with b := [], segments }, ?_, ⟨between.carried, _, .lf, by simpa using left⟩⟩
      simp only [attached, if_true, complete, ne_eq, not_true_eq_false, if_false]
    · have some : post.length ≠ 0 := fun zero => all (List.length_eq_zero_iff.mp zero)
      have parts : data.length = extra.length + post.length := by rw [whole, List.length_append]
      have wanted : getBytes packet.header ≠ toInt (toInt extra.length + 1) := by
        have size : IsInt extra.length := by constructor <;> omega
        rw [toInt_of_isInt size, toInt_of_isInt (by constructor <;> omega)]
        omega
      have size : segments.flatten = (post ++ ['\n']) ++ rest := by simpa using left
      obtain ⟨later, taken, remains⟩ := Segments.take_exact (post.length + 1) segments (by simp [size])
      have count : post.length + 1 = (post ++ ['\n']).length := by simp
      rw [size, count, List.take_left] at taken
      rw [size, count, List.drop_left] at remains
      have last : '\n' ∉ post := fun member => oneLine (whole ▸ List.mem_append_right _ member)
      have line : getline ⟨post ++ ['\n'], true⟩ [] = (post, ⟨[], true⟩, true) := getline_line last [] []
      refine ⟨{ b := [], c := [], segments := later }, ?_, ⟨rfl, [], .none, by simpa using remains⟩⟩
      rw [← count] at taken
      simp only [attached, if_true, wanted, ne_eq, not_false_eq_true, request_eq length whole, taken, between.carried,
        List.nil_append, line, Option.bind_eq_bind, Option.bind_some, whole]
  · -- the buffer holds at least one byte after the payload, or ends with it
    rcases more with _ | ⟨first, more⟩
    · rw [List.append_nil] at whole
      subst whole
      obtain ⟨ok, fragment⟩ := getline_piece oneLine ['\r']
      rw [round_found packet.headerOk leftover read fragment, event]
      refine ⟨{ conn with b := [], segments }, ?_, ⟨between.carried, _, .lf, by simpa using left.symm⟩⟩
      simp only [attached, if_true, complete, ne_eq, not_true_eq_false, if_false]
    · obtain ⟨rfl, left⟩ := List.cons_eq_cons.mp left
      subst whole
      rw [round_found packet.headerOk leftover read (getline_line oneLine more ['\r']), event]
      refine ⟨{ conn with b := more, segments }, ?_, ⟨between.carried, [], .none, by simpa using left.symm⟩⟩
      simp only [attached, if_true, complete, ne_eq, not_true_eq_false, if_false]

/-- One round takes the first packet and leaves at most its line end behind. -/
theorem round_takes_packet {conn : Connection} {packet : Packet} {rest : Text}
    (between : Between conn (packet.bytes ++ rest)) :
    ∃ next, handleRead conn = some (packet.event, next) ∧ Between next rest := by
  cases payload : packet.payload with
  | none => exact round_bare payload between
  | some data => exact round_payload payload between

theorem round_waits {conn : Connection} (between : Between conn []) : handleRead conn = none := by
  obtain ⟨junk, leftover, stream⟩ := between.stream
  rw [List.append_nil] at stream
  have waits : Segments.readUntil hasBlankLine conn.b conn.segments = none :=
    Segments.readUntil_waits (fun _ inside => leftover_silent leftover (stream ▸ inside))
  simp only [handleRead, waits, Option.bind_eq_bind, Option.bind_none]

/-- Rounds on a stream of packets, from any state between two rounds. -/
theorem serve_between {packets : List Packet} {conn : Connection} {rounds : Nat}
    (between : Between conn (packets.map Packet.bytes).flatten) (enough : packets.length ≤ rounds) :
    (serve rounds conn).1 = packets.map Packet.event := by
  induction packets generalizing conn rounds with
  | nil =>
    cases rounds with
    | zero => rfl
    | succ rounds => simp only [serve, round_waits between, List.map_nil]
  | cons packet packets ih =>
    cases rounds with
    | zero => simp at enough
    | succ rounds =>
      obtain ⟨next, round, after⟩ := round_takes_packet between
      have later := ih after (Nat.le_of_succ_le_succ enough)
      simp only [serve, round, later, List.map_cons]

def newTxnPacket : Packet :=
  { header := "NEW_TXN 0 0 3", payload := some "ab".toList,
    headerOk := ⟨by decide, by decide, by decide, by decide, by decide⟩, attached := ⟨by decide, by decide, by decide⟩ }

def abortPacket : Packet :=
  { header := "ABORT 5 0 0", payload := none,
    headerOk := ⟨by decide, by decide, by decide, by decide, by decide⟩, attached := show getBytes "ABORT 5 0 0" = 0 by decide +kernel }

end TransactionalServer.Proofs.Framing
