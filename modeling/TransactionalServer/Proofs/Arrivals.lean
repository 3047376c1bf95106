import TransactionalServer.IoService
import TransactionalServer.Proofs.Framing

/-! Rounds on a connection to which bytes still arrive. What has been read stays
read, and the rounds so far are the first ones of the whole stream. -/

namespace TransactionalServer.Proofs.Arrivals
open ServerTools Connection Framing

variable {conn next last : Connection} {event : Event} {events : List Event} {rounds : Nat}

/-- What a round hands to the session. -/
def Proper : Event → Prop
  | .execute header _ => validHeader header = true
  | .needsData header => validHeader header = true ∧ needsData header = true
  | .invalidHeader | .endOfStream => True

/-- A round that has ended stays as it was, and keeps the session in order. -/
theorem handleRead_grows (round : conn.handleRead = some (event, next)) (bytes : Text) :
    Proper event ∧ (conn.arrive bytes).handleRead = some (event, next.arrive bytes) := by
  unfold handleRead at round ⊢
  obtain ⟨⟨b, segments⟩, read, round⟩ := Option.bind_eq_some_iff.mp round
  have further : Segments.readUntil hasBlankLine (conn.arrive bytes).b (conn.arrive bytes).segments = some (b, segments ++ [bytes]) :=
    Segments.readUntil_grows read [bytes]
  rw [further]
  simp only [Option.bind_eq_bind, Option.bind_some] at round ⊢
  split at round
  next =>
    cases round
    exact ⟨trivial, rfl⟩
  next header is _ =>
    cases valid : validHeader header with
    | false =>
      rw [valid, Bool.not_false, if_pos rfl] at round
      cases round
      exact ⟨trivial, by simp only [Bool.not_false, if_true]; rfl⟩
    | true =>
      rw [valid, Bool.not_true, if_neg Bool.false_ne_true] at round
      simp only [Bool.not_true, Bool.false_eq_true, if_false]
      by_cases attached : dataAttached header = true
      · rw [if_pos attached] at round ⊢
        split at round
        next lacks =>
          obtain ⟨⟨payload, rest⟩, taken, round⟩ := Option.bind_eq_some_iff.mp round
          cases round
          refine ⟨valid, ?_⟩
          rw [if_pos lacks, Segments.take_grows taken [bytes]]
          rfl
        next complete =>
          cases round
          exact ⟨valid, if_neg complete⟩
      · rw [if_neg attached] at round ⊢
        split at round
        next needed =>
          cases round
          exact ⟨⟨valid, needed⟩, if_pos needed⟩
        next unneeded =>
          cases round
          exact ⟨valid, if_neg unneeded⟩

/-- So many rounds have each found something. -/
def Served (rounds : Nat) (conn : Connection) (events : List Event) (last : Connection) : Prop :=
  serve rounds conn = (events, last) ∧ events.length = rounds

theorem serve_round (round : conn.handleRead = some (event, next)) :
    serve (rounds + 1) conn = (event :: (serve rounds next).1, (serve rounds next).2) := by
  simp only [serve, round]

theorem Served.first (served : Served (rounds + 1) conn events last) :
    ∃ event next later, conn.handleRead = some (event, next) ∧ events = event :: later ∧ Served rounds next later last := by
  obtain ⟨ran, all⟩ := served
  cases round : conn.handleRead with
  | none =>
    simp only [serve, round] at ran
    obtain ⟨rfl, _⟩ := Prod.mk.inj ran
    cases all
  | some found =>
    obtain ⟨event, next⟩ := found
    rw [serve_round round] at ran
    obtain ⟨rfl, rfl⟩ := Prod.mk.inj ran
    exact ⟨event, next, _, rfl, rfl, rfl, Nat.succ.inj all⟩

theorem Served.grows (served : Served rounds conn events last) (bytes : Text) :
    Served rounds (conn.arrive bytes) events (last.arrive bytes) := by
  induction rounds generalizing conn events with
  | zero =>
    obtain ⟨ran, all⟩ := served
    obtain ⟨rfl, rfl⟩ := Prod.mk.inj ran
    exact ⟨rfl, rfl⟩
  | succ rounds ih =>
    obtain ⟨event, next, later, round, rfl, rest⟩ := served.first
    obtain ⟨ran, all⟩ := ih rest
    refine ⟨?_, congrArg Nat.succ all⟩
    rw [serve_round (handleRead_grows round bytes).2, ran]

theorem Served.another (served : Served rounds conn events last) (round : last.handleRead = some (event, next)) :
    Served (rounds + 1) conn (events ++ [event]) next := by
  induction rounds generalizing conn events with
  | zero =>
    obtain ⟨ran, all⟩ := served
    obtain ⟨rfl, rfl⟩ := Prod.mk.inj ran
    exact ⟨serve_round round, rfl⟩
  | succ rounds ih =>
    obtain ⟨first, middle, later, here, rfl, rest⟩ := served.first
    obtain ⟨ran, all⟩ := ih rest
    refine ⟨?_, congrArg Nat.succ all⟩
    rw [serve_round here, ran]
    rfl

/-- More rounds begin with these. -/
theorem Served.begins (served : Served rounds conn events last) {total : Nat} (fewer : rounds ≤ total) :
    events = (serve total conn).1.take rounds := by
  induction rounds generalizing conn events total with
  | zero =>
    rw [List.take_zero]
    exact List.length_eq_zero_iff.mp served.2
  | succ rounds ih =>
    obtain ⟨event, next, later, round, rfl, rest⟩ := served.first
    obtain ⟨total, rfl⟩ := Nat.exists_eq_add_of_le' (Nat.lt_of_lt_of_le (Nat.succ_pos rounds) fewer)
    rw [serve_round round, List.take_succ_cons, ← ih rest (Nat.le_of_succ_le_succ fewer)]

/-- The rounds on the beginning of a stream of packets are its first packets. -/
theorem Served.packets {segments : List Text} (served : Served rounds { segments } events last) {packets : List Packet}
    (begins : segments.flatten <+: (packets.map Packet.bytes).flatten) : events = (packets.take rounds).map Packet.event := by
  obtain ⟨rest, stream⟩ := begins
  have whole : Between { segments := segments ++ [rest] } (packets.map Packet.bytes).flatten := by
    refine ⟨rfl, [], .none, ?_⟩
    rw [← stream]
    simp only [List.flatten_append, List.flatten_cons, List.flatten_nil, List.append_nil, List.nil_append]
  have all := serve_between whole (Nat.le_max_right rounds packets.length)
  rw [List.map_take, ← all]
  exact (served.grows rest).begins (Nat.le_max_left rounds packets.length)

theorem Served.rests (served : Served rounds conn events last) (waits : last.handleRead = none) (more : Nat) :
    serve (rounds + more) conn = (events, last) := by
  induction rounds generalizing conn events with
  | zero =>
    obtain ⟨ran, all⟩ := served
    obtain ⟨rfl, rfl⟩ := Prod.mk.inj ran
    rw [Nat.zero_add]
    cases more with
    | zero => rfl
    | succ more => simp only [serve, waits]
  | succ rounds ih =>
    obtain ⟨event, next, later, round, rfl, rest⟩ := served.first
    rw [Nat.succ_add, serve_round round, ih rest]

/-- A session that waits at the end of a stream of packets has found them all. -/
theorem Served.complete {segments : List Text} (served : Served rounds { segments } events last) (waits : last.handleRead = none)
    {packets : List Packet} (stream : segments.flatten = (packets.map Packet.bytes).flatten) : events = packets.map Packet.event := by
  have whole : Between { segments } (packets.map Packet.bytes).flatten := ⟨rfl, [], .none, stream⟩
  have all := serve_between whole (Nat.le_add_left packets.length rounds)
  rw [served.rests waits] at all
  exact all

end TransactionalServer.Proofs.Arrivals
