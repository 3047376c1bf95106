import TransactionalServer.Proofs.Peers
import TransactionalServer.Proofs.Sockets

/-! The integrity check of a primary. A commit that could not be sent stays in
the queue, and a new connection is checked before anything else is sent. -/

namespace TransactionalServer.Proofs.EarnedChecks
open ServerTools LogHandler Exec Session ReplicationManager Sockets

/-- The requests that a peer has handled, each with all that it wrote. -/
abbrev Transcript := List (Text × List Text)

/-- The words of a reply as `commit` splits them. -/
def words (reply : Text) : List Text := Fields.split [' '] (Client.readReply reply)

/-- The peer answered this request with ACK. -/
def Acked (seen : Transcript) (header : Text) : Prop :=
  ∃ packets reply, (header, packets) ∈ seen ∧ reply ∈ packets ∧ (words reply)[0]? = some ("ACK" : Text)

/-- A reply to a COMMIT that neither takes it nor asks for what is missing. -/
structure Refuses (reply : Text) : Prop where
  ack : (words reply)[0]? ≠ some ("ACK" : Text)
  resend : (words reply)[0]? ≠ some ("ACK_RESEND" : Text)
  absent : ¬ ((words reply)[0]? = some ("ERROR" : Text) ∧ (words reply)[3]? = some ("201" : Text))

/-- Every request was answered with one packet, and no COMMIT was refused. -/
structure Complies (seen : Transcript) : Prop where
  single : ∀ header packets, (header, packets) ∈ seen → ∃ reply, packets = [reply]
  accepts : ∀ header reply, (header, [reply]) ∈ seen → parse header = 3 → ¬ Refuses reply

section
variable {seen later : Transcript} {header : Text}

theorem Acked.mono (acked : Acked seen header) (grows : seen ⊆ later) : Acked later header := by
  obtain ⟨packets, reply, member, rest⟩ := acked
  exact ⟨packets, reply, grows member, rest⟩

theorem Complies.earlier (complies : Complies later) (grows : seen ⊆ later) : Complies seen :=
  ⟨fun header packets member => complies.single header packets (grows member), fun header reply member => complies.accepts header reply (grows member)⟩

end

section
variable {π : Type}

/-- The same peer, which keeps a transcript. -/
def recorded (replies : Replies π) : Replies (π × Transcript) := fun peer io header data => do
  let (next, packets) ← replies peer.1 io header data
  return ((next, peer.2 ++ [(header, packets)]), packets)

/-- What a client reads of its replies. -/
abbrev overheard (replies : Replies π) : Answer (Socket (π × Transcript)) := Socket.answer (recorded replies)

def heard (server : Server (Socket (π × Transcript))) : Transcript := server.link.peer.peer.2

/-- The transcript has grown. While there is one packet for each request, none is left over. -/
structure Continues (before after : Socket (π × Transcript)) : Prop where
  grows : before.peer.2 ⊆ after.peer.2
  clear : Complies after.peer.2 → before.unread = [] → after.unread = []

end

section
variable {π : Type} {replies : Replies π} {link next : Link (Socket (π × Transcript))} {header data : Text}

theorem recorded_eq_ok {peer after : π × Transcript} {io : Bool} {packets : List Text}
    (ran : recorded replies peer io header data = .ok (after, packets)) :
    replies peer.1 io header data = .ok (after.1, packets) ∧ after.2 = peer.2 ++ [(header, packets)] := by
  obtain ⟨⟨next, sent⟩, answered, same⟩ := bind_eq_ok.mp ran
  cases same
  exact ⟨answered, rfl⟩

theorem overheard_continues (replies : Replies π) : Asked (overheard replies) Continues where
  refl _ := ⟨List.Subset.refl _, fun _ clear => clear⟩
  trans one two := ⟨List.Subset.trans one.grows two.grows, fun complies clear => two.clear complies (one.clear (complies.earlier two.grows) clear)⟩
  asks ran := by
    obtain ⟨packets, replied, reads⟩ := answer_peer ran
    have grown := (recorded_eq_ok replied).2
    refine ⟨?_, fun complies clear => ?_⟩
    · rw [grown]
      exact List.subset_append_left _ _
    · rw [grown] at complies
      obtain ⟨reply, alone⟩ := complies.single _ packets (List.mem_append_right _ (List.mem_singleton.mpr rfl))
      exact (reads clear reply alone).1

/-- With nothing left over the caller reads the reply to its own request. -/
theorem sendReceive_recorded {text : Text} (clear : link.peer.unread = []) (complies : Complies next.peer.peer.2)
    (ran : Client.sendReceive (overheard replies) link header data = .ok (some text, next)) :
    ∃ reply, text = Client.readReply reply ∧ (header, [reply]) ∈ next.peer.peer.2 := by
  cases sendReceive_cases ran with
  | @answered _ _ socket reply _ _ handled =>
    obtain ⟨packets, replied, reads⟩ := answer_peer handled
    have member : (header, packets) ∈ socket.peer.2 := by
      rw [(recorded_eq_ok replied).2]
      exact List.mem_append_right _ (List.mem_singleton.mpr rfl)
    obtain ⟨own, rfl⟩ := complies.single header packets member
    obtain rfl := Option.some.inj (reads clear own rfl).2
    exact ⟨reply, rfl, member⟩

end

/-- What the check of this log asks about. -/
def Asks (log : Log) (header : Text) : Prop :=
  ∃ tsn record number, 0 ≤ tsn ∧ Found log tsn record "COMMITTED" number ∧ header = commitMessage tsn (atoi number)

theorem Asks.kept {before after : Log} (kept : LogKept before after) {header : Text} : Asks after header ↔ Asks before header := by
  constructor
  · rintro ⟨tsn, record, number, low, found, same⟩
    exact ⟨tsn, record, number, low, found.moved (kept.other (by omega)).symm, same⟩
  · rintro ⟨tsn, record, number, low, found, same⟩
    exact ⟨tsn, record, number, low, found.moved (kept.other (by omega)), same⟩

section
variable {π : Type}

/-- These commits are acknowledged, or queued while there is no connection. -/
def Ready (asked : Text → Prop) (server : Server (Socket (π × Transcript))) : Prop :=
  ∀ header, asked header → Acked (heard server) header ∨ (server.manager.alive = false ∧ (header, (" " : Text)) ∈ server.manager.syncQueue)

/-- A primary that has made some of its commits ready. -/
structure Standing (asked : Text → Prop) (server : Server (Socket (π × Transcript))) : Prop where
  primary : IsPrimary server.log
  clear : server.link.peer.unread = []
  ready : Ready asked server
  asks : ∀ header, asked header → Asks server.log header

/-- While the peer complies, the calls of a primary keep what has been made ready. -/
def TickKeeps (replies : Replies π) (fuel : Nat) : Prop :=
  ∀ (asked : Text → Prop) server final, Standing asked server → primaryOps (overheard replies) fuel server = .ok final → Complies (heard final) →
    Ready asked final

/-- A commit becomes ready too. -/
def CommitKeeps (replies : Replies π) (fuel : Nat) : Prop :=
  ∀ (asked : Text → Prop) server header done final, Standing asked server → Asks server.log header →
    ReplicationManager.commit (overheard replies) fuel server header = .ok (done, final) → Complies (heard final) →
      done = true ∧ Standing (fun other => asked other ∨ other = header) final

/-- A check makes all of them ready. -/
def CheckKeeps (replies : Replies π) (fuel : Nat) : Prop :=
  ∀ server done final, IsPrimary server.log → server.link.peer.unread = [] → integrityCheck (overheard replies) fuel server = .ok (done, final) →
    Complies (heard final) → done = true ∧ Ready (Asks server.log) final

end

section
variable {π : Type} {replies : Replies π} {fuel : Nat} {server synced final : Server (Socket (π × Transcript))} {header data : Text} {done : Bool}
  {asked : Text → Prop} {link : Link (Socket (π × Transcript))}

/-- Over a standing connection all of them are acknowledged. -/
theorem Ready.acked (ready : Ready asked server) (alive : server.manager.alive = true) (header : Text) (member : asked header) :
    Acked (heard server) header := by
  rcases ready header member with acked | ⟨dead, _⟩
  · exact acked
  · rw [alive] at dead
    cases dead

theorem ready_of_acked (acked : ∀ header, asked header → Acked (heard server) header) (grows : heard server ⊆ heard final) : Ready asked final :=
  fun header member => Or.inl ((acked header member).mono grows)

theorem Standing.moved (standing : Standing asked server) (kept : LogKept server.log final.log) (continues : Continues server.link.peer final.link.peer)
    (complies : Complies (heard final)) (ready : Ready asked final) : Standing asked final :=
  ⟨standing.primary.kept kept, continues.clear complies standing.clear, ready, fun header member => (Asks.kept kept).mpr (standing.asks header member)⟩

/-- Another commit is ready. -/
theorem Standing.also (standing : Standing asked server) (asks : Asks server.log header)
    (here : Acked (heard server) header ∨ (server.manager.alive = false ∧ (header, (" " : Text)) ∈ server.manager.syncQueue)) :
    Standing (fun other => asked other ∨ other = header) server := by
  refine ⟨standing.primary, standing.clear, ?_, ?_⟩
  · rintro other (member | rfl)
    · exact standing.ready other member
    · exact here
  · rintro other (member | rfl)
    · exact standing.asks other member
    · exact asks

/-- A request over a standing connection. -/
theorem Standing.sent (standing : Standing asked server) (alive : server.manager.alive = true) {result : Option Text}
    (sent : Client.sendReceive (overheard replies) server.link header data = .ok (result, link)) (complies : Complies link.peer.peer.2) :
    Standing asked { server with link } := by
  have continues := (overheard_continues replies).sendReceive sent
  exact @Standing.moved _ _ { server with link } _ standing (.refl _) continues complies (ready_of_acked (standing.ready.acked alive) continues.grows)

/-- A packet joins the queue of a primary. -/
theorem Standing.enqueued (standing : Standing asked server) (enqueued : enqueue server header data = .ok final) : Standing asked final := by
  obtain rfl := Except.ok.inj ((enqueue_primary standing.primary header data).symm.trans enqueued)
  refine ⟨standing.primary, standing.clear, fun other member => ?_, standing.asks⟩
  exact (standing.ready other member).imp id (fun waits => ⟨waits.1, List.mem_append_left _ waits.2⟩)

/-- The connection is gone, but what was acknowledged was acknowledged. -/
theorem Standing.dies (standing : Standing asked server) : Standing asked (setAlive server false) :=
  ⟨standing.primary, standing.clear, fun other member => (standing.ready other member).imp id (fun waits => ⟨rfl, waits.2⟩), standing.asks⟩

/-- Off the connection a commit waits in the queue. -/
theorem Standing.waits (standing : Standing asked server) (asks : Asks server.log header) (enqueued : enqueue server header " " = .ok final)
    (dead : final.manager.alive = false) : Standing (fun other => asked other ∨ other = header) final := by
  have later := standing.enqueued enqueued
  obtain rfl := Except.ok.inj ((enqueue_primary standing.primary header _).symm.trans enqueued)
  exact later.also asks (Or.inr ⟨dead, List.mem_append_right _ (List.mem_singleton.mpr rfl)⟩)

/-- A resend of an acknowledged past. -/
theorem Standing.resent {tsn : Int} (standing : Standing asked server) (ran : resend server tsn = .ok final) : Standing asked final :=
  @resend_relates _ (fun one two => Standing asked one → Standing asked two) (fun _ standing => standing) (fun one two standing => two (one standing))
    (fun _ _ _ _ enqueued standing => standing.enqueued enqueued) _ _ _ ran standing

theorem tick_keeps (checks : CheckKeeps replies fuel) : TickKeeps replies (fuel + 1) := by
  intro asked server final standing ran complies
  cases primaryOps_cases ran with
  | drains alive drained =>
    exact ready_of_acked (standing.ready.acked alive) ((overheard_continues replies).moves.drain drained).grows
  | @fails target link _ refreshed down =>
    obtain ⟨_, sameLink, queue⟩ := refreshTarget_keeps refreshed
    have peer := connectSocket_peer target.link
    rw [down, sameLink] at peer
    have same : link.peer = server.link.peer := peer
    intro header member
    rcases standing.ready header member with acked | ⟨_, queued⟩
    · left
      show Acked link.peer.peer.2 header
      rw [same]
      exact acked
    · right
      refine ⟨rfl, ?_⟩
      show (header, _) ∈ target.manager.syncQueue
      rwa [queue]
  | @checks target _ link _ _ refreshed up check =>
    -- the new connection is checked before anything else is sent
    obtain ⟨sameLog, sameLink, _⟩ := refreshTarget_keeps refreshed
    have peer := connectSocket_peer target.link
    rw [up, sameLink] at peer
    have same : link.peer = server.link.peer := peer
    have opened : IsPrimary (setAlive { target with link } true).log := by
      show IsPrimary target.log
      rw [sameLog]
      exact standing.primary
    have clear : (setAlive { target with link } true).link.peer.unread = [] := by
      show link.peer.unread = []
      rw [same]
      exact standing.clear
    obtain ⟨_, all⟩ := checks _ _ _ opened clear check complies
    intro header member
    refine all header ?_
    show Asks target.log header
    rw [sameLog]
    exact standing.asks header member
  | idle => exact standing.ready

/-- What a primary does about a commit once its queue has been sent. -/
theorem round_keeps (commits : CommitKeeps replies fuel) (standing : Standing asked synced) (asks : Asks synced.log header)
    (round : Round (overheard replies) fuel synced header done final) (complies : Complies (heard final)) :
    done = true ∧ Standing (fun other => asked other ∨ other = header) final := by
  have continues := overheard_continues replies
  have sends {result : Option Text} {link : Link (Socket (π × Transcript))} (alive : synced.manager.alive = true)
      (sent : Client.sendReceive (overheard replies) synced.link header " " = .ok (result, link)) (rest : link.peer.peer.2 ⊆ heard final) :
      Standing asked { synced with link } := standing.sent alive sent (complies.earlier rest)
  cases round with
  | away dead enqueued =>
    refine ⟨rfl, standing.waits asks enqueued ?_⟩
    obtain rfl := Except.ok.inj ((enqueue_primary standing.primary header _).symm.trans enqueued)
    exact dead
  | unsynced _ _ ran => exact commits asked _ _ _ _ standing asks ran complies
  | @lost link queued alive _ sent enqueued =>
    have same := enqueue_link enqueued
    have still := sends alive sent (by show link.peer.peer.2 ⊆ queued.link.peer.peer.2; rw [same]; exact List.Subset.refl _)
    have later := still.enqueued enqueued
    obtain rfl := Except.ok.inj ((enqueue_primary still.primary header _).symm.trans enqueued)
    exact ⟨rfl, later.dies.also asks (Or.inr ⟨rfl, List.mem_append_right _ (List.mem_singleton.mpr rfl)⟩)⟩
  | @acked link _ alive _ sent ack =>
    obtain ⟨reply, rfl, member⟩ := sendReceive_recorded standing.clear complies sent
    have still := sends alive sent (List.Subset.refl _)
    exact ⟨rfl, still.also asks (Or.inl ⟨_, reply, member, List.mem_singleton.mpr rfl, ack⟩)⟩
  | resent alive _ sent _ resends ran =>
    have later := ((continues.manager fuel).2.1 _ _ _ _ ran).grows
    rw [resend_link resends] at later
    have still := (sends alive sent later).resent resends
    exact commits asked _ _ _ _ still (by rwa [resend_log resends]) ran complies
  | created alive _ sent _ _ _ enqueued ran =>
    have later := ((continues.manager fuel).2.1 _ _ _ _ ran).grows
    rw [enqueue_link enqueued] at later
    have still := (sends alive sent later).enqueued enqueued
    exact commits asked _ _ _ _ still (by rwa [enqueue_log enqueued]) ran complies
  | refused _ _ sent notAck notResend notMissing =>
    obtain ⟨reply, rfl, member⟩ := sendReceive_recorded standing.clear complies sent
    obtain ⟨_, _, _, _, _, rfl⟩ := asks
    refine absurd ⟨notAck, notResend, ?_⟩ (complies.accepts _ reply member (commitMessage_parse _ _))
    rintro ⟨error, missing⟩
    obtain ⟨code, reads, other⟩ := notMissing error
    exact other (Option.some.inj (reads.symm.trans missing))

theorem commit_keeps (tick : TickKeeps replies fuel) (commits : CommitKeeps replies fuel) : CommitKeeps replies (fuel + 1) := by
  intro asked server header done final standing asks ran complies
  have continues := overheard_continues replies
  obtain ⟨synced, synchronised, round⟩ := commit_round standing.primary ran
  have kept := (manager_keeps (overheard replies) fuel).1 _ _ synchronised
  have later := continues.moves.round (continues.manager fuel).2.1 round
  have soFar := complies.earlier later.grows
  have still := standing.moved kept ((continues.manager fuel).1 _ _ synchronised) soFar (tick asked _ _ standing synchronised soFar)
  exact round_keeps commits still ((Asks.kept kept).mpr asks) round complies

/-- The loop of a check, whose commits succeed unless the peer has refused one. -/
theorem checkCommits_keeps (commits : CommitKeeps replies fuel) {holder : List Text} (standing : Standing asked server)
    (todo : ∀ header ∈ holder, Asks server.log header)
    (ran : checkCommits (ReplicationManager.commit (overheard replies) fuel) holder server = .ok (done, final)) (complies : Complies (heard final)) :
    done = true ∧ Standing (fun other => asked other ∨ other ∈ holder) final := by
  induction holder generalizing server asked with
  | nil =>
    cases ran
    refine ⟨rfl, standing.primary, standing.clear, fun header member => standing.ready header ?_, fun header member => standing.asks header ?_⟩
    · simpa using member
    · simpa using member
  | cons header rest ih =>
    unfold checkCommits at ran
    obtain ⟨⟨committed, next⟩, returned, ran⟩ := bind_eq_ok.mp ran
    have moves := ((overheard_continues replies).manager fuel).2.1
    have later : Continues next.link.peer final.link.peer := by
      cases committed with
      | true =>
        exact @checkCommits_relates _ (fun one two => Continues one.link.peer two.link.peer) (fun _ => (overheard_continues replies).refl _)
          (overheard_continues replies).trans _ moves _ _ _ _ ran
      | false =>
        cases ran
        exact (overheard_continues replies).refl _
    obtain ⟨rfl, still⟩ := commits asked _ _ _ _ standing (todo header List.mem_cons_self) returned (complies.earlier later.grows)
    have kept := (manager_keeps (overheard replies) fuel).2.1 _ _ _ _ returned
    obtain ⟨all, last⟩ := ih still (fun other member => (Asks.kept kept).mpr (todo other (List.mem_cons_of_mem _ member))) ran
    refine ⟨all, last.primary, last.clear, fun other member => last.ready other ?_, fun other member => last.asks other ?_⟩
    · simpa only [List.mem_cons, or_assoc] using member
    · simpa only [List.mem_cons, or_assoc] using member

theorem check_keeps (commits : CommitKeeps replies fuel) : CheckKeeps replies (fuel + 1) := by
  intro server done final primary clear ran complies
  obtain ⟨opened, holder, checked, opening, gathered, check, ends⟩ := integrityCheck_cases ran
  rcases openCheck_cases opening with ⟨_, rfl⟩ | ⟨backup, _⟩
  case inr => exact absurd primary backup
  have last : IsPrimary checked.log := primary.kept
    (@checkCommits_relates _ (fun one two => LogKept one.log two.log) (fun _ => .refl _) (fun one two => one.trans two) _
      (manager_keeps (overheard replies) fuel).2.1 _ _ _ _ check)
  rcases ends with rfl | ⟨backup, _⟩
  case inr => exact absurd last backup
  have asks (header : Text) : header ∈ holder.reverse ↔ Asks opened.log header := List.mem_reverse.trans (mem_getCommits gathered)
  have standing : Standing (fun _ => False) opened := ⟨primary, clear, fun _ absurd => absurd.elim, fun _ absurd => absurd.elim⟩
  obtain ⟨all, still⟩ := checkCommits_keeps commits standing (fun header member => (asks header).mp member) check complies
  exact ⟨all, fun header member => still.ready header (Or.inr ((asks header).mpr member))⟩

theorem primary_keeps (replies : Replies π) (fuel : Nat) : TickKeeps replies fuel ∧ CommitKeeps replies fuel ∧ CheckKeeps replies fuel := by
  induction fuel with
  | zero =>
    refine ⟨?_, ?_, ?_⟩
    · intro asked server final _ ran
      simp [primaryOps] at ran
    · intro asked server header done final _ _ ran
      simp [ReplicationManager.commit] at ran
    · intro server done final _ _ ran
      simp [integrityCheck] at ran
  | succ fuel ih =>
    obtain ⟨tick, commits, checks⟩ := ih
    exact ⟨tick_keeps checks, commit_keeps tick commits, check_keeps commits⟩

end

end TransactionalServer.Proofs.EarnedChecks
