import TransactionalServer.Proofs.Repairs

/-! The retry of a replicated commit returns exactly when the backup's record has no
gap above the number. A reply to an earlier request may be read for one of its
own, but those run out. -/

namespace TransactionalServer.Proofs.RetryTermination
open ServerTools LogHandler Exec Session ReplicationManager CommitDecision Sockets PlainReplies Repairs

/-- Packets reach the backup unchanged; its replies wait in the socket. -/
abbrev ask : Answer (Socket Backup) := Socket.answer (Backup.replies Backup.unchanged)

/-- The call of the retry returns. -/
def Returns (server : Server (Socket Backup)) (tsn seq : Int) : Prop :=
  ∃ fuel result, ReplicationManager.commit ask fuel server (commitMessage tsn seq) = .ok result

/-- A primary that has sent what was queued and has a commit to replicate. -/
structure Drained (server : Server (Socket Backup)) (tsn seq : Int) (record : Record) : Prop where
  primary : IsPrimary server.log
  alive : server.manager.alive = true
  empty : server.manager.syncQueue = []
  works : Works server.link
  committing : Committing server.log tsn seq record
  serves : Serves server.link.peer.peer.log tsn
  plain : ∀ text ∈ server.link.peer.unread, Plain text

/-- The COMMIT is sent and a reply is read. -/
structure Turn (server : Server (Socket Backup)) (link : Link (Socket Backup)) (tsn seq : Int) (reply : Text) (own : List Text) : Prop where
  sent : Client.sendReceive ask server.link (commitMessage tsn seq) " " = .ok (some (Client.readReply reply), link)
  works : Works link
  serves : Serves link.peer.peer.log tsn
  responds : Responds server.link.peer.peer.log link.peer.peer.log tsn seq own
  counts : ∀ kind : Text → Bool, link.peer.unread.countP kind + (if kind reply then 1 else 0) ≤ server.link.peer.unread.countP kind + own.countP kind
  reply : Plain reply
  left : ∀ text ∈ link.peer.unread, Plain text

/-- The replies of this kind that are still to be read. -/
def pending (kind : Text → Bool) (link : Link (Socket Backup)) : Nat := link.peer.unread.countP kind

section
variable {server final : Server (Socket Backup)} {link : Link (Socket Backup)} {tsn seq : Int} {record : Record} {reply : Text} {own : List Text}

theorem returns_of_round {fuel : Nat} {done : Bool} {synced : Server (Socket Backup)} (primary : IsPrimary server.log)
    (alive : server.manager.alive = true) (drained : drain ask server.manager.syncQueue server = .ok synced)
    (round : Round ask (fuel + 1) synced (commitMessage tsn seq) done final) : Returns server tsn seq := by
  have synchronised : primaryOps ask (fuel + 1) server = .ok synced := by
    rw [primaryOps_alive alive]
    exact drained
  exact ⟨fuel + 2, _, commit_of_round primary synchronised round⟩

/-- A call that starts with sending its queue goes on as one that finds it sent. -/
theorem returns_of_drained (primary : IsPrimary server.log) (alive : server.manager.alive = true)
    (drained : drain ask server.manager.syncQueue server = .ok final) (settled : Drained final tsn seq record) (later : Returns final tsn seq) :
    Returns server tsn seq := by
  obtain ⟨fuel, ⟨done, last⟩, ran⟩ := later
  cases fuel with
  | zero => simp [ReplicationManager.commit] at ran
  | succ fuel =>
    obtain ⟨synced, synchronised, round⟩ := commit_round settled.primary ran
    cases fuel with
    | zero => simp [primaryOps] at synchronised
    | succ fuel =>
      rw [primaryOps_alive settled.alive, settled.empty, drain_empty settled.empty] at synchronised
      cases synchronised
      exact returns_of_round primary alive drained round

end

namespace Drained

variable {server : Server (Socket Backup)} {link : Link (Socket Backup)} {tsn seq : Int} {record : Record} {reply : Text} {own : List Text}

theorem range (drained : Drained server tsn seq record) : IsInt seq := by
  obtain ⟨_, number, _, _, same⟩ := drained.committing.found
  exact same ▸ atoi_isInt _

theorem tsnRange (drained : Drained server tsn seq record) (high : 1 ≤ seq) : IsInt tsn := by
  obtain ⟨_, _, write⟩ := drained.committing.writes 1 (by omega) high
  exact write.tsn ▸ getTsn_isInt _

/-- The backup handles the COMMIT, and some reply is read. -/
theorem asks (drained : Drained server tsn seq record) (positive : 1 ≤ tsn) (high : 1 ≤ seq) :
    ∃ link reply own, Turn server link tsn seq reply own := by
  obtain ⟨after, own, handled, answered, serves, responds⟩ :=
    commit_responds drained.serves (drained.tsnRange high) drained.range positive high
  obtain ⟨reply, unread, taken, reads⟩ := answer_reads handled answered
  obtain ⟨link, sent, peer, works⟩ := drained.works.sendReceive (unchanged_honest.echoes _ _ _ _ (unchanged_honest.bare tsn seq)) reads
  have plain (text : Text) (member : text ∈ server.link.peer.unread ++ own) : Plain text :=
    (List.mem_append.mp member).elim (drained.plain text) (responds.plain text)
  obtain ⟨first, rest⟩ := Inbox.mem_of_take taken
  refine ⟨link, reply, own, sent, works, by rw [peer]; exact serves, by rw [peer]; exact responds, ?_, plain reply first, ?_⟩
  · intro kind
    rw [peer, ← List.countP_append]
    exact Inbox.count_of_take taken
  · rw [peer]
    exact fun text member => plain text (rest text member)

/-- The writes that a resend queues. -/
theorem resends (drained : Drained server tsn seq record) (high : 1 ≤ seq) (link : Link (Socket Backup)) :
    ∃ packets, resend { server with link } tsn = .ok (Server.queued { server with link } packets) ∧
      List.Forall₂ (fun number packet => WriteOf tsn number packet.1) (Int.range 1 (seq + 1)) packets := by
  obtain ⟨status, number, found, _, same⟩ := drained.committing.found
  obtain ⟨packets, mapped⟩ := mapM_ok (fun wanted member => ⟨_, (drained.committing.read member).choose_spec.1⟩)
  have bound : getStatusData server.log tsn = .ok seq := by rw [found.getStatusData, same]
  exact ⟨packets, resend_returns drained.primary bound (by omega) mapped, drained.committing.packets mapped⟩

/-- The call returns on any reply that asks for nothing, and else when it does with
what it then queues. -/
theorem returns (drained : Drained server tsn seq record) (high : 1 ≤ seq) (turn : Turn server link tsn seq reply own)
    (resent : asksWrite reply = true → ∀ packets, List.Forall₂ (fun number packet => WriteOf tsn number packet.1) (Int.range 1 (seq + 1)) packets →
      Returns (Server.queued { server with link } packets) tsn seq)
    (created : asksTransaction reply = true → ∀ file, Returns (Server.queued { server with link } [(creation tsn, file)]) tsn seq) :
    Returns server tsn seq := by
  have same := commitMessage_getTsn (drained.tsnRange high) seq
  have drain : drain ask server.manager.syncQueue server = .ok server := by rw [drained.empty, drain_empty drained.empty]
  have again {queued : Server (Socket Backup)} (later : Returns queued tsn seq)
      (round : ∀ fuel done final, ReplicationManager.commit ask fuel queued (commitMessage tsn seq) = .ok (done, final) →
        Round ask fuel server (commitMessage tsn seq) done final) : Returns server tsn seq := by
    obtain ⟨fuel, ⟨done, final⟩, ran⟩ := later
    cases fuel with
    | zero => simp [ReplicationManager.commit] at ran
    | succ fuel => exact returns_of_round drained.primary drained.alive drain (round _ _ _ ran)
  obtain ⟨shape, rfl⟩ := turn.reply
  obtain ⟨second, third, rest, words⟩ := reply_words shape
  have first : (replyWords (Client.readReply shape.bytes))[0]? = some shape.method := by rw [words]; rfl
  have fourth : (replyWords (Client.readReply shape.bytes))[3]? = some shape.code := by rw [words]; rfl
  by_cases ack : shape.method = "ACK"
  · have acked : Round ask (0 + 1) server (commitMessage tsn seq) true { server with link } :=
      .acked drained.alive drained.empty turn.sent (by rw [first, ack])
    exact returns_of_round drained.primary drained.alive drain acked
  by_cases resend : shape.method = "ACK_RESEND"
  · obtain ⟨packets, ran, writes⟩ := drained.resends high link
    apply again (resent ((asksWrite_iff shape).mpr resend) packets writes)
    intro fuel done final ran'
    exact .resent drained.alive drained.empty turn.sent (by rw [first, resend]) (by rw [same]; exact ran) ran'
  by_cases missing : shape.method = "ERROR" ∧ shape.code = "201"
  · obtain ⟨⟨marker, file⟩, inRecord⟩ := drained.committing.file
    obtain ⟨status, number, found, _⟩ := drained.committing.found
    have named : getFileName server.log (getTsn (commitMessage tsn seq)) = .ok file := by
      rw [same]
      simp only [getFileName, pair_eq_ok.mpr ⟨record, found.inLog, inRecord⟩, ok_bind, pure_eq_ok]
    apply again (created ((asksTransaction_iff shape).mpr missing) file)
    intro fuel done final ran
    have stillPrimary : IsPrimary ({ server with link } : Server (Socket Backup)).log := drained.primary
    have enqueued := enqueue_queued stillPrimary ("MAKE_TXN " ++ iToS (getTsn (commitMessage tsn seq)) ++ " -1 0") file
    refine .created drained.alive drained.empty turn.sent (by rw [first, missing.1]) (by rw [fourth, missing.2]) named enqueued ?_
    rw [same]
    exact ran
  · have refused : Round ask (0 + 1) server (commitMessage tsn seq) false { server with link } := by
      refine .refused drained.alive drained.empty turn.sent ?_ ?_ ?_
      · rw [first]
        exact fun word => ack (Option.some.inj word)
      · rw [first]
        exact fun word => resend (Option.some.inj word)
      · intro word
        rw [first, Option.some.injEq] at word
        exact ⟨_, fourth, fun code => missing ⟨word, code⟩⟩
    exact returns_of_round drained.primary drained.alive drain refused

/-- What a round has queued is sent at the start of the next one. Verdicts on what
the backup holds then are not of the kind. -/
theorem next {phase : Log → Prop} {fits : Text × Text → Prop} {packets : List (Text × Text)} {after : Backup}
    (drained : Drained server tsn seq record) (turn : Turn server link tsn seq reply own)
    (answers : Answers (Backup.replies Backup.unchanged) (Keeps phase tsn) fits)
    (verdicts : ∀ packet, fits packet → ∀ backup next own, Backup.replies Backup.unchanged backup true packet.1 packet.2 = .ok (next, own) →
      ∀ text ∈ own, Verdict backup.log tsn text)
    (fit : ∀ packet ∈ packets, fits packet) (holds : phase link.peer.peer.log)
    (ran : packets.foldlM (Backup.deliver Backup.unchanged) link.peer.peer = .ok after) :
    ∃ final, Drained final tsn seq record ∧ final.link.peer.peer = after ∧ phase after.log ∧
      (Returns final tsn seq → Returns (Server.queued { server with link } packets) tsn seq) ∧
      ∀ kind : Text → Bool, (∀ log text, phase log → Verdict log tsn text → kind text = false) → pending kind final.link ≤ pending kind link := by
  have queue : (Server.queued { server with link } packets).manager.syncQueue = packets := by
    simp only [Server.queued, drained.empty, List.nil_append]
  have delivered : Sockets.delivered (Backup.replies Backup.unchanged) packets link.peer.peer = .ok after := by
    rw [delivered_backup]
    exact ran
  obtain ⟨final, written, sent, log, manager, works, peer, ⟨serves, still⟩, left, told⟩ :=
    @Answers.drains _ _ _ _ _ answers (Server.queued { server with link } packets) after turn.works fit ⟨turn.serves, holds⟩ delivered
  have verdict (text : Text) (member : text ∈ written) : ∃ log, phase log ∧ Verdict log tsn text := by
    obtain ⟨packet, inside, backup, next, own, keeps, replied, here⟩ := told text member
    exact ⟨backup.log, keeps.2, verdicts packet (fit packet inside) backup next own replied text here⟩
  have plain (text : Text) (member : text ∈ final.link.peer.unread) : Plain text := by
    rcases List.mem_append.mp (left.subset member) with before | later
    · exact turn.left text before
    · obtain ⟨log, _, verdict⟩ := verdict text later
      exact verdict.plain
  have settled : Drained final tsn seq record := by
    refine ⟨?_, ?_, by rw [manager], works, ?_, by rw [peer]; exact serves, plain⟩
    · rw [IsPrimary, log]
      exact drained.primary
    · rw [manager]
      exact drained.alive
    · rw [log]
      exact drained.committing
  refine ⟨final, settled, peer, still, returns_of_drained drained.primary drained.alive (queue.symm ▸ sent) settled, ?_⟩
  intro kind never
  have none : written.countP kind = 0 := by
    rw [List.countP_eq_zero]
    intro text member
    obtain ⟨log, holds, verdict⟩ := verdict text member
    rw [never log text holds verdict]
    exact Bool.false_ne_true
  calc pending kind final.link ≤ (link.peer.unread ++ written).countP kind := left.countP_le
    _ = pending kind link := by rw [List.countP_append, none, Nat.add_zero]; rfl

/-- A resend keeps what its writes keep. -/
theorem resent {phase : Log → Prop} {packets : List (Text × Text)} (drained : Drained server tsn seq record) (positive : 1 ≤ tsn)
    (turn : Turn server link tsn seq reply own) (survives : Survives phase tsn seq) (holds : phase link.peer.peer.log)
    (writes : List.Forall₂ (fun number packet => WriteOf tsn number packet.1) (Int.range 1 (seq + 1)) packets) :
    ∃ final, Drained final tsn seq record ∧ phase final.link.peer.peer.log ∧
      packets.foldlM (Backup.deliver Backup.unchanged) link.peer.peer = .ok final.link.peer.peer ∧
      (Returns final tsn seq → Returns (Server.queued { server with link } packets) tsn seq) ∧
      ∀ kind : Text → Bool, (∀ log text, phase log → Verdict log tsn text → kind text = false) → pending kind final.link ≤ pending kind link := by
  have fit (packet : Text × Text) (member : packet ∈ packets) : Resent tsn seq packet := by
    obtain ⟨number, inside, write⟩ := write_of_mem writes member
    have range := Int.mem_range_iff.mp inside
    exact ⟨number, by omega, by omega, write⟩
  obtain ⟨after, ran, _⟩ := writes_deliver positive turn.serves fit
  obtain ⟨final, settled, rfl, still, later⟩ :=
    drained.next turn (writes_answers positive survives) (fun _ write _ _ _ => write_verdicts positive write) fit holds ran
  exact ⟨final, settled, still, ran, later⟩

/-- A creation keeps a record that is there, and makes a missing one. -/
theorem created (drained : Drained server tsn seq record) (positive : 1 ≤ tsn) (high : 1 ≤ seq)
    (turn : Turn server link tsn seq reply own) (file : Text) :
    ∃ final, Drained final tsn seq record ∧
      (link.peer.peer.log[tsn]? = none → final.link.peer.peer.log[tsn]? = some (freshRecord file)) ∧
      (link.peer.peer.log[tsn]? ≠ none → final.link.peer.peer.log = link.peer.peer.log) ∧
      (Returns final tsn seq → Returns (Server.queued { server with link } [(creation tsn, file)]) tsn seq) ∧
      (link.peer.peer.log[tsn]? ≠ none → ∀ kind : Text → Bool, (∀ text, Verdict link.peer.peer.log tsn text → kind text = false) →
        pending kind final.link ≤ pending kind link) := by
  have tsnRange := drained.tsnRange high
  obtain ⟨after, text, answered, _, fresh, same⟩ := creation_returns tsnRange positive turn.serves file
  have ran : [(creation tsn, file)].foldlM (Backup.deliver Backup.unchanged) link.peer.peer = .ok { link.peer.peer with log := after } := by
    rw [List.foldlM_cons, Backup.deliver, answered]
    rfl
  have survives (log later : Log) (holds : link.peer.peer.log[tsn]? ≠ none → log = link.peer.peer.log) (kept : log[tsn]? ≠ none → later = log)
      (present : link.peer.peer.log[tsn]? ≠ none) : later = link.peer.peer.log := by
    obtain rfl := holds present
    exact kept present
  obtain ⟨final, settled, peer, _, later, counts⟩ := drained.next turn (creation_answers tsnRange positive survives)
    (fun packet same _ _ _ ran => creation_verdicts tsnRange (same ▸ ran)) (fun packet member => by rw [List.mem_singleton.mp member])
    (fun _ => rfl) ran
  refine ⟨final, settled, ?_, ?_, later, fun present kind never => counts kind (fun log text holds => holds present ▸ never text)⟩
  · rw [peer]
    exact fresh
  · rw [peer]
    exact same

/-- A reply of the kind is one less to be read. -/
theorem fewer {kind : Text → Bool} (turn : Turn server link tsn seq reply own) (asked : kind reply = true) (others : ∀ text ∈ own, kind text = false) :
    pending kind link < pending kind server.link := by
  have counts := turn.counts kind
  have none : own.countP kind = 0 := by
    rw [List.countP_eq_zero]
    intro text member
    rw [others text member]
    exact Bool.false_ne_true
  rw [asked, if_pos rfl, none, Nat.add_zero] at counts
  exact counts

/-- What `commit` answers with packets of its own. -/
def asksMore (text : Text) : Bool := asksWrite text || asksTransaction text

theorem verdict_asks {log : Log} {text : Text} (verdict : Verdict log tsn text) (present : log[tsn]? ≠ none) : asksMore text = false := by
  rw [asksMore, Verdict.noWrite verdict, Verdict.noTransaction verdict present]
  rfl

variable (positive : 1 ≤ tsn) (high : 1 ≤ seq)
include positive high

/-- The backup refuses or acknowledges the COMMIT for good; the requests that are
left over are answered in vain until none is left. -/
theorem returns_closed (drained : Drained server tsn seq record) (closed : Closed server.link.peer.peer.log tsn seq) : Returns server tsn seq := by
  induction waiting : pending asksMore server.link using Nat.strong_induction_on generalizing server with
  | _ count ih =>
    subst waiting
    obtain ⟨link, reply, own, turn⟩ := drained.asks positive high
    obtain ⟨still, verdicts⟩ := turn.responds.closed closed
    have fewer (asked : asksMore reply = true) : pending asksMore link < pending asksMore server.link :=
      fewer turn asked (fun text member => verdict_asks (verdicts text member) closed.present)
    apply drained.returns high turn
    · intro asked packets writes
      obtain ⟨final, settled, closed, _, later, counts⟩ := drained.resent positive turn (closed_survives tsn seq) still writes
      have left := counts asksMore (fun log text closed verdict => verdict_asks verdict closed.present)
      exact later (ih _ (left.trans_lt (fewer (by rw [asksMore, asked, Bool.true_or]))) settled closed rfl)
    · intro asked file
      obtain ⟨final, settled, _, same, later, counts⟩ := drained.created positive high turn file
      have left := counts still.present asksMore (fun text verdict => verdict_asks verdict still.present)
      exact later (ih _ (left.trans_lt (fewer (by rw [asksMore, asked, Bool.or_true]))) settled (by rwa [same still.present]) rfl)

theorem returns_of_closed (drained : Drained server tsn seq record) (turn : Turn server link tsn seq reply own)
    (closed : Closed link.peer.peer.log tsn seq) : Returns server tsn seq := by
  apply drained.returns high turn
  · intro _ packets writes
    obtain ⟨final, settled, closed, _, later, _⟩ := drained.resent positive turn (closed_survives tsn seq) closed writes
    exact later (settled.returns_closed positive high closed)
  · intro _ file
    obtain ⟨final, settled, _, same, later, _⟩ := drained.created positive high turn file
    exact later (settled.returns_closed positive high (by rwa [same closed.present]))

/-- The first resend commits the record; requests to create it are left over ones. -/
theorem returns_repairable (drained : Drained server tsn seq record) (repairable : Repairable server.link.peer.peer.log tsn seq) :
    Returns server tsn seq := by
  induction waiting : pending asksTransaction server.link using Nat.strong_induction_on generalizing server with
  | _ count ih =>
    subst waiting
    obtain ⟨link, reply, own, turn⟩ := drained.asks positive high
    cases turn.responds with
    | decided _ outcome =>
      rcases outcome with ⟨absent, _⟩ | closed
      · exact absurd absent repairable.present
      · exact drained.returns_of_closed positive high turn closed
    | @waits waiting status number found allowed gaps marked asks =>
      obtain ⟨other, _, _, here, _, dense⟩ := repairable
      obtain ⟨rfl, _⟩ := found_unique here found
      apply drained.returns high turn
      · intro _ packets writes
        have survives : Survives (fun _ => True) tsn seq := fun _ _ _ _ _ _ => trivial
        obtain ⟨final, settled, _, ran, later, _⟩ := drained.resent positive turn survives trivial writes
        have towards := marked_towards drained.range high (drained.serves.whole _ found.inLog) found dense gaps
        rw [← marked] at towards
        obtain ⟨repaired, again, _, committed⟩ := writes_commit positive turn.serves writes
          (fun wanted member => by have := Int.mem_range_iff.mp member; omega) towards
        obtain rfl := Except.ok.inj (ran.symm.trans again)
        exact later (settled.returns_closed positive high (closed_of_committed committed))
      · intro asked file
        have still : Repairable link.peer.peer.log tsn seq := marked ▸ marked_repairable drained.range high dense
        obtain ⟨final, settled, _, same, later, counts⟩ := drained.created positive high turn file
        have left := counts still.present asksTransaction (fun text verdict => Verdict.noTransaction verdict still.present)
        have fewer := fewer turn asked (fun text member => AsksWrite.noTransaction (asks text member))
        exact later (ih _ (left.trans_lt fewer) settled (by rwa [same still.present]) rfl)

/-- The first creation makes the record; requests for writes are left over ones. -/
theorem returns_absent (drained : Drained server tsn seq record) (absent : server.link.peer.peer.log[tsn]? = none) : Returns server tsn seq := by
  induction waiting : pending asksWrite server.link using Nat.strong_induction_on generalizing server with
  | _ count ih =>
    subst waiting
    obtain ⟨link, reply, own, turn⟩ := drained.asks positive high
    cases turn.responds with
    | waits found =>
      rw [found.inLog] at absent
      cases absent
    | decided verdicts outcome =>
      rcases outcome with ⟨_, same⟩ | closed
      swap
      · exact drained.returns_of_closed positive high turn closed
      have still : link.peer.peer.log[tsn]? = none := by rw [same, absent]
      apply drained.returns high turn
      · intro asked packets writes
        obtain ⟨final, settled, still, _, later, counts⟩ := drained.resent positive turn (absent_survives tsn seq) still writes
        have left := counts asksWrite (fun log text _ verdict => Verdict.noWrite verdict)
        have fewer := fewer turn asked (fun text member => Verdict.noWrite (verdicts text member))
        exact later (ih _ (left.trans_lt fewer) settled still rfl)
      · intro _ file
        obtain ⟨final, settled, fresh, _, later, _⟩ := drained.created positive high turn file
        exact later (settled.returns_repairable positive high (fresh_repairable high (fresh still)))

theorem returns_of_not_stuck (drained : Drained server tsn seq record) (repairable : ¬ Stuck server.link.peer.peer.log tsn seq) :
    Returns server tsn seq := by
  cases inLog : server.link.peer.peer.log[tsn]? with
  | none => exact drained.returns_absent positive high inLog
  | some backup =>
    rcases phases drained.serves (by rw [inLog]; exact Option.some_ne_none _) repairable with closed | repairable
    · exact drained.returns_closed positive high closed
    · exact drained.returns_repairable positive high repairable

end Drained

/-- A stuck record, before a client that sees only the first of several packets. -/
structure Holding (tsn seq : Int) (socket : Socket Backup) : Prop where
  prompt : Prompt socket
  backup : NotPrimary socket.peer.log
  whole : Whole socket.peer.log tsn
  stuck : Stuck socket.peer.log tsn seq

section
variable {server : Server (Socket Backup)} {link after : Link (Socket Backup)} {socket next : Socket Backup} {tsn seq : Int} {record : Record}
  {packet : Text × Text} {io : Bool} {reply result : Option Text}

theorem Holding.write (holding : Holding tsn seq socket) (write : Resent tsn seq packet)
    (handled : ask socket io packet.1 packet.2 = .ok (next, reply)) : Holding tsn seq next := by
  obtain ⟨number, low, below, write⟩ := write
  obtain ⟨prompt, own, replied, rfl⟩ := holding.prompt.answer handled
  obtain ⟨backup, whole, stuck⟩ := writes_keep_stuck write low below ⟨holding.backup, holding.whole, holding.stuck⟩ (answer_of_replies replied)
  exact ⟨prompt, backup, whole, stuck⟩

/-- The backup has all that is sent again. -/
theorem Holding.drained {server settled : Server (Socket Backup)} {tsn seq : Int} {packets : List (Text × Text)}
    (holding : Holding tsn seq server.link.peer) (up : Up server.link) (writes : ∀ packet ∈ packets, Resent tsn seq packet)
    (drained : drain ask packets server = .ok settled) : Holding tsn seq settled.link.peer := by
  refine (drain_up up ?_ holding drained).2.2.2
  intro packet member socket io next reply holds answered
  exact holds.write (writes packet member) answered

/-- The COMMIT is answered with a request for writes. -/
theorem Holding.commit (holding : Holding tsn seq link.peer) (up : Up link) (tsnRange : IsInt tsn) (range : IsInt seq) (positive : 1 ≤ tsn) (high : 1 ≤ seq)
    (sent : Client.sendReceive ask link (commitMessage tsn seq) " " = .ok (result, after)) :
    Up after ∧ Holding tsn seq after.peer ∧ ∃ text, result = some text ∧ (replyWords text)[0]? = some "ACK_RESEND".toList := by
  obtain ⟨io, text, handled, rfl, still⟩ := up.sendReceive sent
  obtain ⟨prompt, own, replied, head⟩ := holding.prompt.answer handled
  have answered := answer_of_replies replied
  obtain ⟨settled, word, code, reply, settles, peer, given, reads⟩ :=
    answer_commit_cases unchanged_honest holding.backup tsnRange range high positive answered
  obtain rfl : text = reply := Option.some.inj (head.trans given)
  obtain ⟨third, others, words⟩ := reads.words
  obtain ⟨rfl, stuck⟩ := stuck_settles holding.stuck holding.whole range high settles
  obtain ⟨_, _, _, _, _, handles, again, _⟩ := answer_handles unchanged_honest holding.backup (Or.inr (Or.inl (commitMessage_parse tsn seq))) answered
  have whole : Whole after.peer.peer.log tsn := by
    rw [again]
    exact handles.whole holding.whole
  have stuck : Stuck after.peer.peer.log tsn seq := by rwa [peer]
  exact ⟨still, ⟨prompt, answer_notPrimary holding.backup answered, whole, stuck⟩, _, rfl, by rw [replyWords, words]; rfl⟩

/-- A stuck record is asked for again in every round. -/
theorem stuck_never_returns {fuel : Nat} {result : Bool × Server (Socket Backup)} (primary : IsPrimary server.log) (alive : server.manager.alive = true)
    (up : Up server.link) (positive : 1 ≤ tsn) (high : 1 ≤ seq) (committing : Committing server.log tsn seq record)
    (stuck : ∀ settled, drain ask server.manager.syncQueue server = .ok settled → Holding tsn seq settled.link.peer) :
    ReplicationManager.commit ask fuel server (commitMessage tsn seq) ≠ .ok result := by
  intro ran
  obtain ⟨done, final⟩ := result
  induction fuel generalizing server with
  | zero => simp [ReplicationManager.commit] at ran
  | succ fuel ih =>
    obtain ⟨_, first, write⟩ := committing.writes 1 (by omega) high
    have tsnRange : IsInt tsn := write.tsn ▸ getTsn_isInt _
    obtain ⟨status, number, found, _, same⟩ := committing.found
    have range : IsInt seq := same ▸ atoi_isInt _
    obtain ⟨synced, synchronised, round⟩ := commit_round primary ran
    have drained : drain ask server.manager.syncQueue server = .ok synced := by
      cases fuel with
      | zero => simp [primaryOps] at synchronised
      | succ fuel => rwa [primaryOps_alive alive] at synchronised
    obtain ⟨log, manager, up, _⟩ := drain_up up (fun _ _ _ _ _ _ _ _ => trivial) trivial drained
    have stillAlive : synced.manager.alive = true := by
      rw [manager]
      exact alive
    have asked {link : Link (Socket Backup)} {result : Option Text}
        (sent : Client.sendReceive ask synced.link (commitMessage tsn seq) " " = .ok (result, link)) :=
      (stuck synced drained).commit up tsnRange range positive high sent
    have word {link : Link (Socket Backup)} {result : Text}
        (sent : Client.sendReceive ask synced.link (commitMessage tsn seq) " " = .ok (some result, link)) :
        (replyWords result)[0]? = some "ACK_RESEND".toList := by
      obtain ⟨_, _, text, same, word⟩ := asked sent
      rwa [Option.some.inj same]
    cases round with
    | away down =>
      rw [stillAlive] at down
      cases down
    | unsynced _ pending =>
      rw [manager] at pending
      exact pending rfl
    | lost _ _ sent =>
      obtain ⟨_, _, _, same, _⟩ := asked sent
      cases same
    | acked _ _ sent ack =>
      rw [word sent, Option.some.injEq] at ack
      exact absurd ack (by decide)
    | created _ _ sent error =>
      rw [word sent, Option.some.injEq] at error
      exact absurd error (by decide)
    | refused _ _ sent _ notResend => exact notResend (word sent)
    | @resent link result queued _ _ _ empty sent _ resends again =>
      obtain ⟨after, holding, _⟩ := asked sent
      have stillPrimary : IsPrimary ({ synced with link } : Server (Socket Backup)).log := by
        rw [IsPrimary, log]
        exact primary
      obtain ⟨bound, packets, number, _, mapped, rfl⟩ := resend_queued stillPrimary resends
      have stillCommitting : Committing synced.log tsn seq record := log ▸ committing
      have bounded : bound = seq := by
        rw [commitMessage_getTsn tsnRange] at number
        have read := found.getStatusData
        rw [same, ← log] at read
        exact Except.ok.inj (number.symm.trans read)
      subst bounded
      have writes := stillCommitting.packets (commitMessage_getTsn tsnRange bound ▸ mapped)
      refine @ih (Server.queued { synced with link } packets) stillPrimary stillAlive after stillCommitting ?_ again
      intro settled drained
      have queue : (Server.queued { synced with link } packets).manager.syncQueue = packets := by
        simp only [Server.queued, empty, List.nil_append]
      rw [queue] at drained
      refine @Holding.drained (Server.queued { synced with link } packets) settled _ _ packets holding after ?_ drained
      intro packet member
      obtain ⟨wanted, inside, write⟩ := write_of_mem writes member
      have range := Int.mem_range_iff.mp inside
      exact ⟨wanted, by omega, by omega, write⟩

end

/-- A queued packet: its header was read as one line. -/
def Queued (packet : Text × Text) : Prop := Replicated packet.1 ∧ OneLine packet.1

section
variable {packet : Text × Text} {backup next : Backup} {io : Bool} {own : List Text}

theorem Queued.arrives (queued : Queued packet) {arrived : Text} {payload : Option Text}
    (sent : Backup.unchanged packet.1 packet.2 = .ok (arrived, payload)) : OneLine arrived := by
  obtain ⟨line, echoed, same⟩ := bind_eq_ok.mp sent
  cases same
  refine oneLine_echo ?_ echoed
  intro field member
  have inside := Fields.split_mem (List.mem_of_mem_take member)
  exact ⟨fun char => queued.2.1 (inside _ char).1, fun char => queued.2.2 (inside _ char).1⟩

theorem Queued.plain (queued : Queued packet) (ran : Backup.replies Backup.unchanged backup io packet.1 packet.2 = .ok (next, own)) :
    ∀ text ∈ own, Plain text := by
  rcases replies_kinds unchanged_honest (fun _ _ => queued.arrives) queued.1 ran with verdicts | ⟨_, asks⟩
  · exact fun text member => Verdict.plain (verdicts text member)
  · exact fun text member => AsksWrite.plain (asks text member)

theorem queued_answers : Answers (Backup.replies Backup.unchanged) (fun backup => NotPrimary backup.log) Queued := by
  constructor
  · intro packet backup next own _ handled
    obtain ⟨⟨_, _⟩, sent, _⟩ := bind_eq_ok.mp handled
    exact unchanged_honest.echoes _ _ _ _ sent
  · intro packet backup next own queued notPrimary handled
    have first := answer_of_replies handled
    obtain ⟨_, _, _, text, _, _, _, head⟩ := answer_handles unchanged_honest notPrimary queued.1 first
    refine ⟨?_, answer_notPrimary notPrimary first⟩
    rintro rfl
    cases head

end

section
variable {server : Server Backup} {after : Backup} {unread : List Text} {late : Nat → Nat} {tsn seq : Int} {record : Record}

/-- What was queued before is sent first. -/
theorem queue_drains (connected : Connected server) (works : Works server.link) (committing : Committing server.log tsn seq record)
    (queued : ∀ packet ∈ server.manager.syncQueue, Queued packet)
    (delivered : server.manager.syncQueue.foldlM (Backup.deliver Backup.unchanged) server.link.peer = .ok after)
    (serves : Serves after.log tsn) (plain : ∀ text ∈ unread, Plain text) :
    ∃ final, drain ask server.manager.syncQueue (server.onSocket unread late) = .ok final ∧ final.link.peer.peer = after ∧
      Drained final tsn seq record := by
  have ran : Sockets.delivered (Backup.replies Backup.unchanged) server.manager.syncQueue server.link.peer = .ok after := by
    rw [delivered_backup]
    exact delivered
  have stillWorks : Works (server.onSocket unread late).link := ⟨works.connected, works.answered⟩
  obtain ⟨final, written, sent, log, manager, works, peer, _, left, told⟩ :=
    @Answers.drains _ _ _ _ _ queued_answers (server.onSocket unread late) after stillWorks queued connected.backup ran
  refine ⟨final, sent, peer, ?_, ?_, by rw [manager], works, ?_, by rw [peer]; exact serves, ?_⟩
  · rw [IsPrimary, log]
    exact connected.primary
  · rw [manager]
    exact connected.alive
  · rw [log]
    exact committing
  · intro text member
    rcases List.mem_append.mp (left.subset member) with before | later
    · exact plain text before
    · obtain ⟨packet, inside, _, _, _, _, replied, here⟩ := told text later
      exact (queued packet inside).plain replied text here

/-- With a working connection the retry of a commit returns, whichever replies are
read for its requests, exactly when the backup's record of the transaction is not
one that a COMMIT passes and that has a gap above the number. -/
theorem retry_returns_exactly_without_gap_above (connected : Connected server) (works : Works server.link) (positive : 1 ≤ tsn)
    (high : 1 ≤ seq) (committing : Committing server.log tsn seq record) (queued : ∀ packet ∈ server.manager.syncQueue, Queued packet)
    (delivered : server.manager.syncQueue.foldlM (Backup.deliver Backup.unchanged) server.link.peer = .ok after)
    (serves : Serves after.log tsn) :
    (∀ unread late, (∀ text ∈ unread, Plain text) → Returns (server.onSocket unread late) tsn seq) ↔ ¬ Stuck after.log tsn seq := by
  constructor
  · intro always stuck
    -- the replies to a COMMIT are read together
    obtain ⟨fuel, result, ran⟩ := always [] (fun _ => 0) (fun _ member => absurd member List.not_mem_nil)
    have up : Up (server.onSocket [] (fun _ => 0)).link := ⟨connected.up.connected, connected.up.answered⟩
    refine stuck_never_returns connected.primary connected.alive up positive high committing ?_ ran
    intro settled drained
    obtain ⟨final, sent, peer, ready⟩ := @queue_drains _ _ [] (fun _ => 0) _ _ _ connected works committing queued delivered serves
      (fun _ member => absurd member List.not_mem_nil)
    obtain rfl := Except.ok.inj (sent.symm.trans drained)
    obtain ⟨_, _, _, prompt⟩ := @drain_up _ _ _ _ _ Prompt up (fun _ _ _ _ _ _ holds handled => (holds.answer handled).1) ⟨rfl, rfl⟩ sent
    exact ⟨prompt, ready.serves.backup, ready.serves.whole, by rwa [peer]⟩
  · intro repairable unread late plain
    obtain ⟨final, sent, peer, settled⟩ := @queue_drains _ _ unread late _ _ _ connected works committing queued delivered serves plain
    have later : Returns final tsn seq := settled.returns_of_not_stuck positive high (by rwa [peer])
    exact returns_of_drained connected.primary connected.alive sent settled later

end

/-- A primary that writes transaction 5 with one write, before a backup whose
record of it holds other numbers. -/
def writingPrimary (backup : Record) : Server Backup :=
  { log := mark (serverData ∅ "127.0.0.1" "8080" "primary" "net") 5 ((freshRecord "file").insert 1 ("WRITE 5 1 3", "ab")) "WRITING" "1",
    manager := { alive := true },
    link := { connected := true,
              peer := { log := (serverData ∅ "127.0.0.1" "8081" "backup" "net").insert 5 backup, link := { peer := () } } } }

section
variable (backup : Record)

private theorem writingPrimary_role : getServerStatus (writingPrimary backup).link.peer.log = .ok "backup" := by
  have same : (writingPrimary backup).link.peer.log[(0 : Int)]? = (serverData ∅ "127.0.0.1" "8081" "backup" "net")[(0 : Int)]? :=
    Store.get_insert_other (by decide)
  rw [getServerStatus_of_get same, serverData_role]

private theorem writingPrimary_notPrimary : NotPrimary (writingPrimary backup).link.peer.log := by
  intro primary
  rw [writingPrimary_role] at primary
  exact absurd primary (by decide)

private theorem writingPrimary_connected : Connected (writingPrimary backup) := by
  refine ⟨?_, rfl, ⟨rfl, fun wire member => absurd member List.not_mem_nil⟩, writingPrimary_notPrimary backup⟩
  have same : (writingPrimary backup).log[(0 : Int)]? = (serverData ∅ "127.0.0.1" "8080" "primary" "net")[(0 : Int)]? :=
    mark_other (by decide)
  rw [IsPrimary, getServerStatus_of_get same, serverData_role]

private theorem writingPrimary_committing : ∃ record, Committing (writingPrimary backup).log 5 1 record := by
  refine ⟨_, ⟨_, _, mark_found _ _ _ _ _, Or.inl rfl, by decide⟩, ⟨("NEW_TXN", "file"), ?_⟩, ?_⟩
  · rw [Store.get_insert_other (by decide), Store.get_insert_other (by decide), freshRecord_eq, twoEntries_file]
  · intro number low high
    obtain rfl : number = 1 := by omega
    refine ⟨("WRITE 5 1 3", "ab"), ?_, by decide, by decide, by decide⟩
    rw [Store.get_insert_other (by decide), Std.ExtTreeMap.getElem?_insert_self]

private theorem writingPrimary_serves (whole : WholeRecord backup) : Serves (writingPrimary backup).link.peer.log 5 := by
  refine ⟨writingPrimary_notPrimary backup, ⟨_, writingPrimary_role backup⟩, ?_⟩
  intro record inLog
  have here : (writingPrimary backup).link.peer.log[(5 : Int)]? = some backup := Std.ExtTreeMap.getElem?_insert_self
  rw [here, Option.some.injEq] at inLog
  exact inLog ▸ whole

end

/-- A backup's record with the second write and without the first. -/
def secondOnly : Record := (freshRecord "file").insert 2 ("WRITE 5 2 3", "cd")

/-- A reply that was written for an earlier request. -/
def stale : Decoding.Reply where
  method := "WARNING"
  header := "WRITE 4 1 3"
  code := "301"
  message := "SeqNum for current tsnID already received, ignored"
  bytes := "WARNING 4 1 301 50\r\n\r\nSeqNum for current tsnID already received, ignored\r\n"
  built := by decide
  methodOk := ⟨by decide, by decide⟩
  codeOk := ⟨by decide, by decide⟩
  headerLine := by decide
  messageLine := by decide

/-- The backup asks for write 1, which it then has. The replies may come at once,
or each after the next request. -/
theorem resend_below_the_number_returns : Returns ((writingPrimary secondOnly).onSocket [] (fun _ => 0)) 5 1 ∧
    Returns ((writingPrimary secondOnly).onSocket [stale.bytes] (fun _ => 1)) 5 1 := by
  obtain ⟨record, committing⟩ := writingPrimary_committing secondOnly
  have whole : WholeRecord secondOnly := (twoEntries_whole _ _).insert (by decide) _
  have dense : ¬ Stuck (writingPrimary secondOnly).link.peer.log 5 1 := by
    rintro ⟨record, status, number, found, _, gap⟩
    have here : (writingPrimary secondOnly).link.peer.log[(5 : Int)]? = some secondOnly := Std.ExtTreeMap.getElem?_insert_self
    obtain rfl := Option.some.inj (here.symm.trans found.inLog)
    apply gap
    intro number key above before member
    rcases (mem_insert_iff _).mp member with rfl | member
    · omega
    · rcases mem_twoEntries member with rfl | rfl
      · omega
      · omega
  have returns := (retry_returns_exactly_without_gap_above (writingPrimary_connected _) ⟨rfl, fun wire member => absurd member List.not_mem_nil⟩
    (by decide) (by decide) committing (fun packet member => absurd member List.not_mem_nil) rfl (writingPrimary_serves _ whole)).mpr dense
  exact ⟨returns _ _ (fun text member => absurd member List.not_mem_nil), returns _ _ (List.forall_mem_singleton.mpr ⟨stale, rfl⟩)⟩

/-- A backup's record with the writes 1 and 3. -/
def firstAndThird : Record := ((freshRecord "file").insert 1 ("WRITE 5 1 3", "ab")).insert 3 ("WRITE 5 3 3", "ef")

private theorem firstAndThird_whole : WholeRecord firstAndThird :=
  ((twoEntries_whole _ _).insert (by decide) _).insert (by decide) _

private theorem firstAndThird_stuck : Stuck (writingPrimary firstAndThird).link.peer.log 5 1 := by
  have entry : firstAndThird[(-1 : Int)]? = some ("ACTIVE".toList, "0".toList) := by
    rw [firstAndThird, Store.get_insert_other (by decide), Store.get_insert_other (by decide), freshRecord_eq, twoEntries_status]
  refine ⟨firstAndThird, "ACTIVE", "0", ⟨Std.ExtTreeMap.getElem?_insert_self, entry⟩,
    ⟨by decide, by decide, fun waiting => absurd waiting (by decide)⟩, ?_⟩
  intro dense
  have second := dense 2 3 (by decide) (by decide) ((mem_insert_iff _).mpr (Or.inl rfl))
  rcases (mem_insert_iff _).mp second with same | second
  · exact absurd same (by decide)
  rcases (mem_insert_iff _).mp second with same | second
  · exact absurd same (by decide)
  exact absurd (mem_twoEntries second) (by decide)

/-- The primary commits transaction 5 with its only write; the backup also holds
write 3 and asks for write 2 for ever. -/
theorem gap_above_the_number_is_asked_for_again :
    ∃ record, Connected (writingPrimary firstAndThird) ∧ Works (writingPrimary firstAndThird).link ∧
      Committing (writingPrimary firstAndThird).log 5 1 record ∧ ¬ Returns ((writingPrimary firstAndThird).onSocket [] (fun _ => 0)) 5 1 := by
  obtain ⟨record, committing⟩ := writingPrimary_committing firstAndThird
  have up : Up ((writingPrimary firstAndThird).onSocket [] (fun _ => 0)).link := ⟨rfl, fun wire member => absurd member List.not_mem_nil⟩
  refine ⟨record, writingPrimary_connected _, ⟨rfl, fun wire member => absurd member List.not_mem_nil⟩, committing, ?_⟩
  rintro ⟨fuel, result, ran⟩
  refine stuck_never_returns (writingPrimary_connected firstAndThird).primary rfl up (by decide) (by decide) committing ?_ ran
  rintro settled ⟨⟩
  exact ⟨⟨rfl, rfl⟩, writingPrimary_notPrimary _, (writingPrimary_serves _ firstAndThird_whole).whole, firstAndThird_stuck⟩

end TransactionalServer.Proofs.RetryTermination
