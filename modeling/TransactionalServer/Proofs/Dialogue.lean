import TransactionalServer.Conversation
import TransactionalServer.Proofs.Echo
import TransactionalServer.Proofs.FileAgreement
import TransactionalServer.Proofs.PlainReplies
import TransactionalServer.Proofs.Transcripts

/-! A replication connection in bytes and in packets. However both directions are
cut, the client is told what the answers to its packets say, and the other process
does what the packets make it do. -/

namespace TransactionalServer.Proofs.Dialogue
open ServerTools LogHandler Exec Session Conversation Framing Echo Decoding OneReply PlainReplies

/-- A session whose connection has brought so much more. -/
structure Brings (socket : Nat) (far : IoService Unit) (standby : Standby) (auth : Bool) (rest : Text) : Prop where
  process : far.process = standby
  free : far.reading = none
  session : ∃ conn, far.sessions socket = some ⟨conn, auth⟩ ∧ Between conn rest

section
variable {socket : Nat} {far next : IoService Unit} {standby : Standby} {auth : Bool} {rest bytes : Text} {packet : Packet} {env : Env}
  {server : Server Unit} {handled : Handled Unit}

theorem Between.arrive {conn : Connection} (between : Between conn rest) (bytes : Text) : Between (conn.arrive bytes) (rest ++ bytes) := by
  obtain ⟨junk, leftover, stream⟩ := between.stream
  refine ⟨between.carried, junk, leftover, ?_⟩
  show conn.b ++ (conn.segments ++ [bytes]).flatten = junk ++ (rest ++ bytes)
  rw [List.flatten_append, ← List.append_assoc, stream, List.append_assoc]
  simp

theorem Brings.arrive (brings : Brings socket far standby auth rest) (bytes : Text) :
    ∃ next, far.step Backup.noPeer 0 (.action (.arrive socket bytes)) = .ok next ∧ Brings socket next standby auth (rest ++ bytes) := by
  obtain ⟨conn, opened, between⟩ := brings.session
  refine ⟨far.setSession socket (some ⟨conn.arrive bytes, auth⟩), ?_, brings.process, brings.free, _, ?_, Between.arrive between bytes⟩
  · simp only [IoService.step, IoService.free, IoService.Event.during, if_true, IoService.perform, opened]
    rfl
  · simp only [IoService.setSession, Function.update_self]

theorem Brings.arrives (brings : Brings socket far standby auth rest) (pieces : List Text) :
    ∃ next, pieces.foldlM (fun far piece => far.step Backup.noPeer 0 (.action (.arrive socket piece))) far = .ok next ∧
      Brings socket next standby auth (rest ++ pieces.flatten) := by
  induction pieces generalizing far rest with
  | nil => exact ⟨far, rfl, by simpa using brings⟩
  | cons piece pieces ih =>
    obtain ⟨middle, arrives, later⟩ := brings.arrive piece
    obtain ⟨next, others, last⟩ := ih later
    refine ⟨next, ?_, ?_⟩
    · rw [List.foldlM_cons, arrives, ok_bind, others]
    · rw [List.flatten_cons, ← List.append_assoc]
      exact last

/-- A session handles a packet of the stream as `receive` does. -/
theorem handleEvent_packet (packet : Packet) :
    handleEvent Backup.noPeer 0 env server auth packet.event = receive Backup.noPeer 0 env server auth packet.header packet.payload := by
  unfold Packet.event receive
  cases packet.payload with
  | some data => rfl
  | none =>
    by_cases needed : needsData packet.header = true
    · simp only [needed, if_true]
      rfl
    · simp only [needed, Bool.false_eq_true, if_false]
      rfl

/-- A packet that has come is handled in one round. -/
theorem Brings.reads (brings : Brings socket far standby auth (packet.bytes ++ rest)) (drawn : ∀ draw ∈ env.draws, 1 ≤ draw ∧ draw ≤ 100000)
    (received : receive Backup.noPeer 0 { env with files := standby.disk.files } standby.server auth packet.header packet.payload = .ok handled)
    (runs : handled.exited = false) :
    ∃ after next, far.perform Backup.noPeer 0 (.read socket env drawn) = .ok (some after, handled.effects) ∧
      far.step Backup.noPeer 0 (.action (.read socket env drawn)) = .ok next ∧
        Brings socket next ⟨handled.server, handled.effects.foldl Disk.apply standby.disk⟩ handled.auth rest := by
  obtain ⟨conn, opened, between⟩ := brings.session
  obtain ⟨left, round, later⟩ := round_takes_packet between
  have files : far.onDisk env = { env with files := standby.disk.files } := by rw [IoService.onDisk, brings.process]
  have handles : handleEvent Backup.noPeer 0 (far.onDisk env) far.process.server auth packet.event = .ok handled := by
    rw [handleEvent_packet, files, brings.process]
    exact received
  have performed : far.perform Backup.noPeer 0 (.read socket env drawn) =
      .ok (some { (far.setServer handled.server).setSession socket (some ⟨left, handled.auth⟩) with reading := none }, handled.effects) := by
    simp only [IoService.perform, IoService.read, opened, round, handles, ok_bind, runs, Bool.false_eq_true, if_false, pure_eq_ok]
  have free : far.free (.read socket env drawn) = true := by
    rw [IoService.free, brings.free]
    rfl
  let after : IoService Unit :=
    ⟨⟨handled.server, handled.effects.foldl Disk.apply standby.disk⟩, Function.update far.sessions socket (some ⟨left, handled.auth⟩), none⟩
  refine ⟨_, after, performed, ?_, ?_⟩
  · rw [IoService.step, IoService.Event.during, if_pos free]
    simp only [performed, ok_bind, Exec.finished_some, pure_eq_ok, IoService.setServer, IoService.setSession, brings.process]
    rfl
  · exact ⟨rfl, rfl, left, Function.update_self _ _ _, later⟩

end

/-- No reply that announces nothing is parted behind its blank line. -/
def Gathers (call : Call) : Prop :=
  ∀ reply : Reply, 0 < reply.announced ∨ Cut.Together ⟨reply, call.cut reply.bytes, (call.whole _).2⟩

/-- A request that its packet carries, and that one packet answers. -/
structure Fits (standby : Standby) (call : Call) : Prop where
  replicated : Replicated call.header
  shape : ∃ method tsn seq, Shape call.header call.data method tsn seq
  size : call.data.length < 2147483647
  used : needsData call.header = true ∨ call.data.length < 2
  once : ¬ LacksSeveral standby.server.log call.header
  gathers : Gathers call

/-- The client is told of the same reply. -/
def Tells (result word : Text) : Prop := (replyWords result).take 4 = (replyWords word).take 4

/-- A conversation in packets. -/
inductive Exchanges : Link Standby → List Call → List Text → Link Standby → Prop where
  | done {link : Link Standby} : Exchanges link [] [] link
  | turn {link next final : Link Standby} {call : Call} {calls : List Call} {word : Text} {words : List Text} (fits : Fits link.peer call)
      (script : (Client.nextWire link.wires).1 = .up call.io)
      (sent : Client.sendReceive (Standby.answer Backup.echoed) link call.header call.data = .ok (some word, next))
      (later : Exchanges next calls words final) : Exchanges link (call :: calls) (word :: words) final

section
variable {π : Type} {answer : Answer π} {fuel : Nat} {server : Server π} {env : Env} {header text : Text} {payload : Option Text}
  {handled : Handled π}

theorem firstPacket_replies (effects : List Effect) : Backup.firstPacket effects = (replies effects).head? := List.head?_filterMap.symm

theorem written_replies (effects : List Effect) : written effects = (replies effects).flatten := by
  apply congrArg List.flatten
  apply List.filterMap_congr
  intro effect _
  cases effect with
  | send | save | append => rfl

/-- AUTH is not answered. -/
theorem receive_auth {auth : Bool} (method : parse header = 8) :
    receive answer fuel env server auth header none = .ok { server, effects := [], auth := true } := by
  have unneeded : needsData header = false := by simp only [needsData, method]
  have free : unauthorized server auth 8 = .ok false := rfl
  simp only [receive, unneeded, Bool.false_eq_true, if_false, dispatch, executeCommand, method, free, ok_bind, if_true, pure_eq_ok]

/-- The packet that the client reads is all of the answer. -/
theorem receive_writes (backup : NotPrimary server.log) (replicated : Replicated header) (once : ¬ LacksSeveral server.log header)
    (ran : receive answer fuel env server true header payload = .ok handled) (first : Backup.firstPacket handled.effects = some text) :
    replies handled.effects = [text] := by
  have one := receive_once replicated once ran (receive_stays backup ran)
  obtain ⟨packet, only⟩ := List.length_eq_one_iff.mp one
  rw [firstPacket_replies, only] at first
  cases first
  exact only

end

section
variable {socket : Nat} {far : IoService Unit} {standby : Standby} {conversation : Conversation} {link next : Link Standby} {call : Call}
  {word : Text}

/-- What a delivery gives back: the bytes that the session has written. -/
theorem Brings.delivers {auth : Bool} {packet : Packet} {handled : Handled Unit} (brings : Brings socket far standby auth [])
    (pieces : List Text) (whole : pieces.flatten = packet.bytes) (env : Env) (drawn : ∀ draw ∈ env.draws, 1 ≤ draw ∧ draw ≤ 100000)
    (received : receive Backup.noPeer 0 { env with files := standby.disk.files } standby.server auth packet.header packet.payload = .ok handled)
    (runs : handled.exited = false) :
    ∃ next, deliver socket pieces env drawn far = .ok (written handled.effects, next) ∧
      Brings socket next ⟨handled.server, handled.effects.foldl Disk.apply standby.disk⟩ handled.auth [] := by
  obtain ⟨arrived, arrives, later⟩ := brings.arrives pieces
  rw [whole, List.nil_append, ← List.append_nil packet.bytes] at later
  obtain ⟨after, next, performed, stepped, last⟩ := later.reads drawn received runs
  refine ⟨next, ?_, last⟩
  simp only [deliver, arrives, ok_bind, performed, stepped, pure_eq_ok]

/-- The reply that the client reads off the socket. -/
theorem reply_tells {unread : List Text} {reply : Reply} (clear : unread.flatten = []) (gathers : Gathers call) :
    ∃ result rest, Client.receiveReply (unread ++ call.cut reply.bytes) = some (result, rest) ∧ rest.flatten = [] ∧
      Tells result (Client.readReply reply.bytes) := by
  obtain ⟨result, rest, call', words, clears⟩ := receiveReply_reads clear ⟨reply, call.cut reply.bytes, (call.whole _).2⟩
  refine ⟨result, rest, call', clears.mpr (gathers reply), ?_⟩
  obtain ⟨first, tsn, seq, others, last, shape, told⟩ := words
  obtain ⟨first', tsn', seq', others', tail, shape', bytes⟩ := genAnswerStr_shape reply.built
  have same := shape.symm.trans shape'
  simp only [List.cons.injEq] at same
  obtain ⟨_, rfl, rfl, _⟩ := same
  have tsnOk : Fixed tsn := field_fixed reply.headerLine (by simp [shape])
  have seqOk : Fixed seq := field_fixed reply.headerLine (by simp [shape])
  have read : ∃ rest, Fields.split [' '] (Client.readReply reply.bytes) = reply.method :: tsn :: seq :: reply.code :: rest := by
    rw [bytes]
    exact readReply_words reply.methodOk.word tsnOk.word seqOk.word reply.codeOk.word
  obtain ⟨_, read⟩ := read
  rw [Tells, replyWords, replyWords, told, read]
  rfl

/-- One request in bytes is the request in packets. -/
theorem Brings.turn (brings : Brings socket conversation.far link.peer true []) (clear : conversation.unread.flatten = [])
    (backup : NotPrimary link.peer.server.log) (fits : Fits link.peer call) (script : (Client.nextWire link.wires).1 = .up call.io)
    (sent : Client.sendReceive (Standby.answer Backup.echoed) link call.header call.data = .ok (some word, next)) :
    ∃ result after, sendReceive socket conversation call = .ok (result, after) ∧ Tells result word ∧ after.unread.flatten = [] ∧
      Brings socket after.far next.peer true [] ∧ NotPrimary next.peer.server.log := by
  obtain ⟨method, tsn, seq, shape⟩ := fits.shape
  obtain ⟨packet, encoded, echoed, _⟩ := echoed_is_taken shape fits.size fits.used
  have parsed := (echoed_honest.same _ _ _ _ echoed)
  have replicated : Replicated packet.header := by
    rw [Replicated, parsed.1]
    exact fits.replicated
  have once : ¬ LacksSeveral link.peer.server.log packet.header := by
    rw [LacksSeveral, parsed.1, parsed.2.1, parsed.2.2.1]
    exact fits.once
  cases sendReceive_cases sent with
  | @answered io wires peer text _ decided ran =>
  have io : io = call.io := by
    rw [decided] at script
    exact Wire.up.inj script
  rw [io, Standby.answer, echoed, ok_bind] at ran
  obtain ⟨handled, received, same⟩ := bind_eq_ok.mp ran
  simp only [pure_eq_ok, Except.ok.injEq, Prod.mk.injEq] at same
  obtain ⟨rfl, first⟩ := same
  obtain ⟨far, delivered, later⟩ := brings.delivers (call.pieces packet.bytes) (call.whole _).1 { io := call.io }
    System.nothing_drawn received (receive_stays backup received)
  have only := receive_writes backup replicated once received first
  rw [written_replies, only, List.flatten_singleton] at delivered
  obtain ⟨reply, rfl⟩ := receive_plain ⟨packet.headerOk.noCR, packet.headerOk.noLF⟩ replicated received (mem_of_sentPacket only)
  obtain ⟨result, unread, read, nothing, tells⟩ := reply_tells clear fits.gathers
  refine ⟨result, { unread, far }, ?_, tells, nothing, ?_, receive_notPrimary backup received⟩
  · simp only [sendReceive, encoded, ok_bind, delivered, read, Exec.finished_some, pure_eq_ok]
  · have auth := Transcripts.handleEvent_auth ((handleEvent_packet packet).trans received)
    rw [ite_self] at auth
    rw [auth] at later
    exact later

end

def authPacket : Packet :=
  { header := "AUTH -1 0 0", payload := none,
    headerOk := ⟨by decide, by decide, by decide, by decide, by decide⟩, attached := show getBytes "AUTH -1 0 0" = 0 by decide +kernel }

section
variable {socket : Nat} {far : IoService Unit} {standby : Standby} {conversation : Conversation} {link final : Link Standby}
  {calls : List Call} {words : List Text}

/-- AUTH opens a session that is authorized, and changes nothing else. -/
theorem connect_authorizes (socket : Nat) (process : far.process = standby) (free : far.reading = none) {pieces : Text → List Text}
    (whole : ∀ bytes, (pieces bytes).flatten = bytes) :
    ∃ opened, connect socket pieces far = .ok opened ∧ opened.unread.flatten = [] ∧ Brings socket opened.far standby true [] := by
  have accepted : far.step Backup.noPeer 0 (.action (.accept socket)) = .ok (far.setSession socket (some {})) := by
    simp only [IoService.step, IoService.Event.during, IoService.free, free, Option.isNone_none, if_true, IoService.perform, ok_bind,
      Exec.finished_some, pure_eq_ok]
    rfl
  have brings : Brings socket (far.setSession socket (some {})) standby false [] :=
    ⟨process, free, { segments := [] }, Function.update_self _ _ _, rfl, [], .none, rfl⟩
  have encoded : Client.genRequest "AUTH" "-1" "0" " " = authPacket.bytes := by decide
  have method : parse authPacket.header = 8 := by decide
  have received : receive Backup.noPeer 0 { files := standby.disk.files } standby.server false authPacket.header authPacket.payload =
      .ok { server := standby.server, effects := [], auth := true } := receive_auth method
  obtain ⟨next, delivered, later⟩ := brings.delivers (pieces authPacket.bytes) (whole _) {} System.nothing_drawn received rfl
  refine ⟨{ far := next }, ?_, rfl, later⟩
  simp only [connect, accepted, ok_bind, encoded, delivered, pure_eq_ok]

theorem Exchanges.in_bytes (exchanges : Exchanges link calls words final) (brings : Brings socket conversation.far link.peer true [])
    (clear : conversation.unread.flatten = []) (backup : NotPrimary link.peer.server.log) :
    ∃ results after, sendReceives socket conversation calls = .ok (results, after) ∧ List.Forall₂ Tells results words ∧
      after.unread.flatten = [] ∧ after.far.process = final.peer := by
  induction exchanges generalizing conversation with
  | done => exact ⟨[], conversation, rfl, .nil, clear, brings.process⟩
  | turn fits script sent _ ih =>
    obtain ⟨result, middle, turned, tells, nothing, later, still⟩ := brings.turn clear backup fits script sent
    obtain ⟨results, after, others, told, last⟩ := ih later nothing still
    refine ⟨result :: results, after, ?_, .cons tells told, last⟩
    simp only [sendReceives, turned, ok_bind, others, pure_eq_ok]

/-- A replication connection is in bytes what it is in packets, wherever the bytes
are cut: the client is told of the same replies, none of their bytes is left over,
and the backup and its disk come out the same. -/
theorem conversations_are_packet_conversations (exchanges : Exchanges link calls words final) (backup : NotPrimary link.peer.server.log)
    (process : far.process = link.peer) (free : far.reading = none) {pieces : Text → List Text}
    (whole : ∀ bytes, (pieces bytes).flatten = bytes) (socket : Nat) :
    ∃ opened results after, connect socket pieces far = .ok opened ∧ sendReceives socket opened calls = .ok (results, after) ∧
      List.Forall₂ Tells results words ∧ after.unread.flatten = [] ∧ after.far.process = final.peer := by
  obtain ⟨opened, connected, nothing, brings⟩ := connect_authorizes socket process free whole
  obtain ⟨results, after, sent, told⟩ := exchanges.in_bytes brings nothing backup
  exact ⟨opened, results, after, connected, sent, told⟩

end

/-- Replies that come in one piece are not parted. -/
theorem gathers_whole {call : Call} (one : ∀ bytes, call.cut bytes = [bytes]) : Gathers call := by
  intro reply
  obtain ⟨line, tsn, seq, first⟩ := reply_line reply
  apply Or.inr
  intro arrived inside late
  have piece : arrived <+: [reply.bytes] := one reply.bytes ▸ inside
  cases arrived with
  | nil =>
    have length := congrArg List.length first.bytes
    have four : ("\r\n\r\n".toList : Text).length = 4 := by decide
    simp only [List.length_append, four] at length
    simp only [List.flatten_nil, List.length_nil] at late
    omega
  | cons whole rest =>
    obtain ⟨rfl, nothing⟩ := List.cons_prefix_cons.mp piece
    rw [List.prefix_nil.mp nothing, List.flatten_singleton]

private def bytewise (bytes : Text) : List Text := bytes.map fun byte => [byte]

private theorem bytewise_whole (bytes : Text) : (bytewise bytes).flatten = bytes := by
  rw [bytewise, ← List.flatMap_def, List.flatMap_singleton']

/-- The requests come byte by byte and the replies at once. -/
private def request (header data : Text) : Call :=
  { header, data, pieces := bytewise, cut := fun bytes => [bytes], whole := fun bytes => ⟨bytewise_whole bytes, List.flatten_singleton⟩ }

private def told : Link Standby := { peer := ⟨toldOfFive, { saved := toldOfFive.log }⟩, connected := true }

private def inPackets : Exec (Option Text × Link Standby × Option Text × Link Standby) := do
  let (first, link) ← Client.sendReceive (Standby.answer Backup.echoed) told "COMMIT 5 1 0" " "
  let (second, final) ← Client.sendReceive (Standby.answer Backup.echoed) link "WRITE 5 1 3" "xx"
  return (first, link, second, final)

private theorem commit_shape : Shape "COMMIT 5 1 0" " " "COMMIT" "5" "1" :=
  ⟨⟨["0"], by decide⟩, by decide, by decide, by decide, by decide⟩

private theorem write_shape : Shape "WRITE 5 1 3" "xx" "WRITE" "5" "1" :=
  ⟨⟨["3"], by decide⟩, by decide, by decide, by decide, by decide⟩

/-- A COMMIT that asks for its one write, and the write that completes it. -/
theorem bytewise_commit_is_its_packets : ∃ opened results after,
    connect 7 bytewise { process := told.peer } = .ok opened ∧
      sendReceives 7 opened [request "COMMIT 5 1 0" " ", request "WRITE 5 1 3" "xx"] = .ok (results, after) ∧
        results.map (fun result => (replyWords result).take 4) =
            ([["ACK_RESEND", "5", "1", "0"], ["ACK", "5", "1", "0"]] : List (List Text)) ∧
          after.unread.flatten = [] ∧ after.far.process.disk.appended.length = 1 := by
  have words : inPackets.map (fun run => (run.1, run.2.2.1)) =
      .ok (some "ACK_RESEND 5 1 0 0\r\t\t\t\r", some "ACK 5 1 0 23\r\t\t\tCommitted successfully.\r") := by decide +kernel
  have wires : inPackets.map (fun run => (run.2.1.wires, run.2.2.2.peer.disk.appended.length)) = .ok ([], 1) := by decide +kernel
  obtain ⟨⟨first, link, second, final⟩, ran⟩ := returned_of_isOk (show inPackets.isOk by decide +kernel)
  rw [ran] at words wires
  obtain ⟨rfl, rfl⟩ := Prod.mk.inj (Except.ok.inj words)
  obtain ⟨script, appended⟩ := Prod.mk.inj (Except.ok.inj wires)
  obtain ⟨⟨_, _⟩, asked, ran⟩ := bind_eq_ok.mp ran
  obtain ⟨⟨_, _⟩, written, same⟩ := bind_eq_ok.mp ran
  cases same
  have asks : Fits told.peer (request "COMMIT 5 1 0" " ") := by
    refine ⟨Or.inr (Or.inl (by decide)), ⟨_, _, _, commit_shape⟩, by decide, Or.inr (by decide), ?_, gathers_whole fun _ => rfl⟩
    intro lacks
    obtain ⟨_, _, record, _, _, found, _, several⟩ := lacks
    have here : record = freshRecord "aa" := by
      have inLog := found.inLog
      rw [show getTsn (request "COMMIT 5 1 0" " ").header = 5 by decide] at inLog
      exact (Option.some.inj (Std.ExtTreeMap.getElem?_insert_self.symm.trans inLog)).symm
    rw [here] at several
    exact absurd several (by decide +kernel)
  have completes : Fits link.peer (request "WRITE 5 1 3" "xx") := by
    refine ⟨Or.inr (Or.inr (Or.inl (by decide))), ⟨_, _, _, write_shape⟩, by decide, Or.inl (by decide), ?_, gathers_whole fun _ => rfl⟩
    intro lacks
    exact absurd lacks.1 (by decide)
  have exchanges := Exchanges.turn asks rfl asked (.turn completes (by rw [script]; rfl) written .done)
  have backup : NotPrimary told.peer.server.log := by
    have read : getServerStatus told.peer.server.log = .ok "backup" := by decide +kernel
    intro primary
    exact absurd (read.symm.trans primary) (by decide)
  have idle : ({ process := told.peer } : IoService Unit).reading = none := rfl
  obtain ⟨opened, results, after, connected, sent, tells, nothing, process⟩ :=
    conversations_are_packet_conversations exchanges backup rfl idle bytewise_whole 7
  refine ⟨opened, results, after, connected, sent, ?_, nothing, ?_⟩
  · cases tells with
    | cons one others =>
    cases others with
    | cons two others =>
    cases others with
    | nil =>
    rw [List.map_cons, List.map_cons, List.map_nil, one, two]
    decide
  · rw [process]
    exact appended

end TransactionalServer.Proofs.Dialogue
