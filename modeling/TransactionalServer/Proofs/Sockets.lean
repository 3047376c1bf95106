import TransactionalServer.Socket
import TransactionalServer.Proofs.Delivery
import TransactionalServer.Proofs.PlainReplies

/-! A client that may read the reply to an earlier request. The peer handles every
request all the same, and nothing is read that it has not written. -/

namespace TransactionalServer.Proofs.Sockets
open ServerTools LogHandler Exec Session ReplicationManager OneReply PlainReplies

section
variable {π : Type} {replies : Replies π} {socket next : Socket π} {io : Bool} {header data text : Text} {peer : π} {own : List Text}

/-- A request that is answered: the client reads a packet. -/
theorem answer_reads (handled : replies socket.peer io header data = .ok (peer, own)) (answered : own ≠ []) :
    ∃ reply unread, Inbox.take (socket.late 0) (socket.unread ++ own) = some (reply, unread) ∧
      Socket.answer replies socket io header data = .ok (⟨peer, unread, fun read => socket.late (read + 1)⟩, some reply) := by
  have waiting : socket.unread ++ own ≠ [] := fun empty => answered (List.append_eq_nil_iff.mp empty).2
  obtain ⟨reply, unread, taken⟩ := @Inbox.take_returns _ (socket.late 0) _ waiting
  refine ⟨reply, unread, taken, ?_⟩
  simp only [Socket.answer, handled, ok_bind, taken, pure_eq_ok]

/-- The peer handles every request. A single packet is read when nothing was left over. -/
theorem answer_peer {reply : Option Text} (ran : Socket.answer replies socket io header data = .ok (next, reply)) :
    ∃ own, replies socket.peer io header data = .ok (next.peer, own) ∧
      (socket.unread = [] → ∀ text, own = [text] → next.unread = [] ∧ reply = some text) := by
  unfold Socket.answer at ran
  obtain ⟨⟨peer, own⟩, handled, ran⟩ := bind_eq_ok.mp ran
  simp only at ran
  split at ran
  next taken =>
    cases ran
    refine ⟨own, handled, fun nothing text alone => ?_⟩
    rw [nothing, alone, List.nil_append, Inbox.take_alone] at taken
    cases taken
  next first unread taken =>
    cases ran
    refine ⟨own, handled, fun nothing text alone => ?_⟩
    rw [nothing, alone, List.nil_append, Inbox.take_alone] at taken
    cases taken
    exact ⟨rfl, rfl⟩

/-- Nothing is left over, and packets that are written together are read together. -/
structure Prompt {π : Type} (socket : Socket π) : Prop where
  nothing : socket.unread = []
  together : socket.late = fun _ => 0

/-- Only the first packet is ever seen. -/
theorem Prompt.answer {reply : Option Text} (prompt : Prompt socket) (ran : Socket.answer replies socket io header data = .ok (next, reply)) :
    Prompt next ∧ ∃ own, replies socket.peer io header data = .ok (next.peer, own) ∧ reply = own.head? := by
  unfold Socket.answer at ran
  obtain ⟨⟨peer, own⟩, handled, ran⟩ := bind_eq_ok.mp ran
  rw [prompt.nothing, prompt.together] at ran
  cases own with
  | nil =>
    cases ran
    exact ⟨⟨rfl, rfl⟩, [], handled, rfl⟩
  | cons first rest =>
    simp only [List.nil_append, Inbox.take_prompt] at ran
    cases ran
    exact ⟨⟨rfl, rfl⟩, _, handled, rfl⟩

end

section
variable {π : Type}

/-- What the requests of a queue make of the peer, its own file appends succeeding. -/
def delivered (replies : Replies π) (queue : List (Text × Text)) (peer : π) : Exec π :=
  queue.foldlM (fun peer packet => Prod.fst <$> replies peer true packet.1 packet.2) peer

/-- A peer that answers the requests of a kind, each with a packet or more. -/
structure Answers (replies : Replies π) (keeps : π → Prop) (fits : Text × Text → Prop) : Prop where
  echoes : ∀ packet peer next own, fits packet → replies peer true packet.1 packet.2 = .ok (next, own) →
    ∃ echo, Client.genEcho packet.1 packet.2 = .ok echo
  answers : ∀ packet peer next own, fits packet → keeps peer → replies peer true packet.1 packet.2 = .ok (next, own) → own ≠ [] ∧ keeps next

variable {replies : Replies π} {keeps : π → Prop} {fits : Text × Text → Prop} {queue : List (Text × Text)}

theorem delivered_cons {packet : Text × Text} {peer after : π} (ran : delivered replies (packet :: queue) peer = .ok after) :
    ∃ next own, replies peer true packet.1 packet.2 = .ok (next, own) ∧ delivered replies queue next = .ok after := by
  rw [delivered, List.foldlM_cons] at ran
  obtain ⟨next, handled, ran⟩ := bind_eq_ok.mp ran
  cases here : replies peer true packet.1 packet.2 with
  | error halt =>
    rw [here] at handled
    cases handled
  | ok sent =>
    rw [here] at handled
    cases handled
    exact ⟨sent.1, sent.2, rfl, ran⟩

/-- Over a working connection a queue is drained by handling its packets in order.
What is left over then was left before, or written for one of them. -/
theorem Answers.drains (answers : Answers replies keeps fits) {server : Server (Socket π)} {after : π} (works : Works server.link)
    (fit : ∀ packet ∈ queue, fits packet) (start : keeps server.link.peer.peer) (ran : delivered replies queue server.link.peer.peer = .ok after) :
    ∃ final written, drain (Socket.answer replies) queue server = .ok final ∧ final.log = server.log ∧
      final.manager = { server.manager with syncQueue := [] } ∧ Works final.link ∧ final.link.peer.peer = after ∧ keeps after ∧
      final.link.peer.unread.Sublist (server.link.peer.unread ++ written) ∧
      ∀ text ∈ written, ∃ packet ∈ queue, ∃ peer next own, keeps peer ∧ replies peer true packet.1 packet.2 = .ok (next, own) ∧ text ∈ own := by
  induction queue generalizing server with
  | nil =>
    cases ran
    exact ⟨_, [], rfl, rfl, rfl, works, rfl, start, by simp, fun _ member => absurd member List.not_mem_nil⟩
  | cons packet rest ih =>
    have here := fit packet List.mem_cons_self
    obtain ⟨next, own, handled, ran⟩ := delivered_cons ran
    obtain ⟨answered, kept⟩ := answers.answers packet _ _ _ here start handled
    obtain ⟨reply, unread, taken, reads⟩ := answer_reads handled answered
    obtain ⟨link, sent, peer, still⟩ := works.sendReceive (answers.echoes packet _ _ _ here handled) reads
    have later := @ih { server with link } still (fun other member => fit other (List.mem_cons_of_mem _ member))
      (by simpa only [peer] using kept) (by simpa only [peer] using ran)
    obtain ⟨final, written, drained, log, manager, last, same, holds, left, told⟩ := later
    refine ⟨final, own ++ written, ?_, log, manager, last, same, holds, ?_, ?_⟩
    · simp only [drain, sent, ok_bind]
      exact drained
    · obtain ⟨others, shape, sublist⟩ := Inbox.take_eq_some taken
      simp only [peer] at left
      rw [← List.append_assoc, shape]
      exact left.trans ((sublist.trans (List.sublist_cons_self _ _)).append_right _)
    · intro text member
      rcases List.mem_append.mp member with mine | later
      · exact ⟨packet, List.mem_cons_self, _, next, own, start, handled, mine⟩
      · obtain ⟨other, inside, more⟩ := told text later
        exact ⟨other, List.mem_cons_of_mem _ inside, more⟩

end

section
variable {arrival : Backup.Arrival} {backup next : Backup} {io : Bool} {header data : Text} {own : List Text}

/-- `answer` is told of the first of the packets. -/
theorem answer_of_replies (ran : Backup.replies arrival backup io header data = .ok (next, own)) :
    Backup.answer arrival backup io header data = .ok (next, own.head?) := by
  unfold Backup.replies Session.serve at ran
  obtain ⟨⟨arrived, payload⟩, arrives, ran⟩ := bind_eq_ok.mp ran
  obtain ⟨handled, received, same⟩ := bind_eq_ok.mp ran
  cases same
  simp only [Backup.answer, arrives, received, ok_bind, pure_eq_ok]
  exact congrArg (fun reply => Except.ok (handled.server, reply)) List.head?_filterMap.symm

theorem replies_of_answer {text : Text} (ran : Backup.answer arrival backup io header data = .ok (next, some text)) :
    ∃ rest, Backup.replies arrival backup io header data = .ok (next, text :: rest) := by
  unfold Backup.answer at ran
  obtain ⟨⟨arrived, payload⟩, arrives, ran⟩ := bind_eq_ok.mp ran
  obtain ⟨handled, received, same⟩ := bind_eq_ok.mp ran
  obtain ⟨rfl, first⟩ := Prod.mk.inj (Except.ok.inj same)
  have ran : Backup.replies arrival backup io header data = .ok (handled.server, OneReply.replies handled.effects) := by
    simp only [Backup.replies, Session.serve, arrives, received, ok_bind, pure_eq_ok]
    rfl
  have head : (OneReply.replies handled.effects).head? = some text := List.head?_filterMap.trans first
  obtain ⟨rest, shape⟩ := List.head?_eq_some_iff.mp head
  exact ⟨rest, by rw [ran, shape]⟩

theorem delivered_backup (arrival : Backup.Arrival) (queue : List (Text × Text)) (backup : Backup) :
    delivered (Backup.replies arrival) queue backup = queue.foldlM (Backup.deliver arrival) backup := by
  unfold delivered
  congr 1
  funext backup packet
  unfold Backup.deliver Backup.replies Session.serve Backup.answer
  cases arrival packet.1 packet.2 with
  | error halt => rfl
  | ok arrived =>
    obtain ⟨header, payload⟩ := arrived
    simp only [ok_bind]
    cases receive Backup.noPeer 0 { io := true } backup true header payload with
    | error halt => rfl
    | ok handled => rfl

/-- A backup writes one packet unless a COMMIT lacks several writes. -/
theorem replies_alone (honest : Honest arrival) (notPrimary : NotPrimary backup.log) (replicated : Replicated header) (once : ¬ LacksSeveral backup.log header)
    (ran : Backup.replies arrival backup io header data = .ok (next, own)) : ∃ text, own = [text] := by
  unfold Backup.replies Session.serve at ran
  obtain ⟨⟨arrived, payload⟩, arrives, ran⟩ := bind_eq_ok.mp ran
  obtain ⟨handled, received, same⟩ := bind_eq_ok.mp ran
  cases same
  obtain ⟨method, tsn, seq, _, _⟩ := honest.same _ _ _ _ arrives
  have stillOnce : ¬ LacksSeveral backup.log arrived := by rwa [LacksSeveral, method, tsn, seq]
  exact List.length_eq_one_iff.mp (receive_once (by rwa [Replicated, method]) stillOnce received (receive_stays notPrimary received))

/-- The packets for a queued request are verdicts, or all ask for writes. -/
theorem replies_kinds (honest : Honest arrival) (lines : ∀ arrived payload, arrival header data = .ok (arrived, payload) → OneLine arrived)
    (replicated : Replicated header) (ran : Backup.replies arrival backup io header data = .ok (next, own)) :
    (∀ text ∈ own, Verdict backup.log (getTsn header) text) ∨ parse header = 3 ∧ ∀ text ∈ own, AsksWrite text := by
  unfold Backup.replies Session.serve at ran
  obtain ⟨⟨arrived, payload⟩, arrives, ran⟩ := bind_eq_ok.mp ran
  obtain ⟨handled, received, same⟩ := bind_eq_ok.mp ran
  cases same
  obtain ⟨method, tsn, _, _, _⟩ := honest.same _ _ _ _ arrives
  have sent (text : Text) (member : text ∈ OneReply.replies handled.effects) : .send text ∈ handled.effects := by
    obtain ⟨effect, inside, packet⟩ := List.mem_filterMap.mp member
    cases effect with
    | send other =>
      cases packet
      exact inside
    | save | append => cases packet
  rcases receive_verdicts (lines _ _ arrives) (by rwa [Replicated, method]) received with verdicts | ⟨commits, asks⟩
  · exact Or.inl fun text member => tsn ▸ verdicts text (sent text member)
  · exact Or.inr ⟨method ▸ commits, fun text member => asks text (sent text member)⟩

end

section
variable {text : Text} {log : Log} {tsn : Int}

/-- What `commit` looks for in the words of a reply. -/
def asksWrite (text : Text) : Bool := (replyWords (Client.readReply text))[0]? == some ("ACK_RESEND" : Text)

def asksTransaction (text : Text) : Bool :=
  (replyWords (Client.readReply text))[0]? == some ("ERROR" : Text) && (replyWords (Client.readReply text))[3]? == some ("201" : Text)

theorem reply_words (reply : Decoding.Reply) : ∃ second third rest,
    replyWords (Client.readReply reply.bytes) = reply.method :: second :: third :: reply.code :: rest := by
  obtain ⟨first, tsn, seq, rest, tail, shape, same⟩ := genAnswerStr_shape reply.built
  have tsnOk : Decoding.Fixed tsn := Decoding.field_fixed reply.headerLine (by simp [shape])
  have seqOk : Decoding.Fixed seq := Decoding.field_fixed reply.headerLine (by simp [shape])
  obtain ⟨others, words⟩ := readReply_words reply.methodOk.word tsnOk.word seqOk.word reply.codeOk.word
  rw [same]
  exact ⟨tsn, seq, others, words⟩

theorem asksWrite_iff (reply : Decoding.Reply) : asksWrite reply.bytes = true ↔ reply.method = "ACK_RESEND" := by
  obtain ⟨second, third, rest, words⟩ := reply_words reply
  rw [asksWrite, words]
  simp

theorem asksTransaction_iff (reply : Decoding.Reply) : asksTransaction reply.bytes = true ↔ reply.method = "ERROR" ∧ reply.code = "201" := by
  obtain ⟨second, third, rest, words⟩ := reply_words reply
  rw [asksTransaction, words]
  simp

theorem Verdict.noWrite (verdict : Verdict log tsn text) : asksWrite text = false := by
  obtain ⟨reply, rfl, other, _⟩ := verdict
  rw [← Bool.not_eq_true, asksWrite_iff]
  exact other

/-- A record that is there is not asked for. -/
theorem Verdict.noTransaction (verdict : Verdict log tsn text) (present : log[tsn]? ≠ none) : asksTransaction text = false := by
  obtain ⟨reply, rfl, _, absent⟩ := verdict
  rw [← Bool.not_eq_true, asksTransaction_iff]
  exact fun asks => present (absent asks.1 asks.2)

theorem AsksWrite.noTransaction (asks : AsksWrite text) : asksTransaction text = false := by
  obtain ⟨reply, rfl, method⟩ := asks
  rw [← Bool.not_eq_true, asksTransaction_iff, method]
  exact fun both => absurd both.1 (by decide)

end

section
variable {π : Type} {answer : Answer π} {fuel : Nat} {arrival : Backup.Arrival} {server next : Server π} {io : Bool} {tsn seq : Int} {packets : List Text}
  {text : Text}

/-- The ACK to a COMMIT is all of its answer. -/
theorem serve_alone (honest : Honest arrival) (ran : Session.serve answer fuel arrival server io (commitMessage tsn seq) " " = .ok (next, packets))
    (member : text ∈ packets) (ack : (replyWords (Client.readReply text))[0]? = some ("ACK" : Text)) : packets = [text] := by
  unfold Session.serve at ran
  rw [honest.bare, ok_bind] at ran
  obtain ⟨handled, received, same⟩ := bind_eq_ok.mp ran
  cases same
  obtain ⟨effect, inside, packet⟩ := List.mem_filterMap.mp member
  have sent : .send text ∈ handled.effects := by
    cases effect with
    | send other =>
      cases packet
      exact inside
    | save | append => cases packet
  rcases commit_alone (commitMessage_parse tsn seq) received sent with ⟨reply, rfl, asks⟩ | alone
  · obtain ⟨second, third, rest, words⟩ := reply_words reply
    rw [words, List.getElem?_cons_zero, Option.some.injEq, asks] at ack
    exact absurd ack (by decide)
  · exact alone

end

end TransactionalServer.Proofs.Sockets
