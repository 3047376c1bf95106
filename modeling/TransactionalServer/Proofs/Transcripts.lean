import TransactionalServer.Library.Refinement
import TransactionalServer.Proofs.Arrivals
import TransactionalServer.Proofs.Redelivery

/-! The sockets of a process and its packets. Whatever bytes arrive, in whatever
pieces and on however many connections, the process does what the packets make it
do that its sessions take off their streams. -/

namespace TransactionalServer.Proofs.Transcripts
open ServerTools LogHandler Exec Session IoService Refinement Arrivals

/-- What has happened at the sockets. -/
inductive Entry (π : Type) where
  | accepted (socket : Nat)
  | arrived (socket : Nat) (bytes : Text)
  | found (socket : Nat) (env : Env) (auth : Bool) (event : TransactionalServer.Event)
      (drawn : ∀ draw ∈ env.draws, 1 ≤ draw ∧ draw ≤ 100000)
  | closed (socket : Nat)
  | daemon (event : System.Event)
  | crashed (during : System.Event) (done : Nat) (restart : Restart π)

/-- The packet that a round has found. -/
def packet (env : Env) (auth : Bool) (drawn : ∀ draw ∈ env.draws, 1 ≤ draw ∧ draw ≤ 100000) :
    TransactionalServer.Event → Option System.Event
  | .execute header data => if valid : validHeader header = true then some (.packet env auth header (some data) valid drawn) else none
  | .needsData header => if valid : validHeader header = true then some (.packet env auth header none valid drawn) else none
  | .invalidHeader | .endOfStream => none

section
variable {π : Type}

/-- An entry as the process sees it. -/
def Entry.packets : Entry π → List (Process.Event π)
  | .found _ env auth event drawn => (packet env auth drawn event).toList.map .event
  | .daemon event => [.event event]
  | .crashed during done restart => [.crash during done restart]
  | .accepted _ | .arrived _ _ | .closed _ => []

/-- What an action comes to. -/
def entry (io : IoService π) : Action → Option (Entry π)
  | .accept socket => some (.accepted socket)
  | .arrive socket bytes => some (.arrived socket bytes)
  | .read socket env drawn => do
    let session ← io.sessions socket
    let (event, _) ← session.conn.handleRead
    return .found socket env session.auth event drawn
  | .close socket => some (.closed socket)
  | .sweep => some (.daemon .sweep)
  | .save => some (.daemon .save)
  | .tick tick => some (.daemon (.tick tick))

/-- What the process is busy with during an action. -/
def about (io : IoService π) (action : Action) : Option System.Event :=
  match entry io action with
  | some (.found _ env auth event drawn) => packet env auth drawn event
  | some (.daemon event) => some event
  | _ => none

def record (io : IoService π) : IoService.Event π → List (Entry π)
  | .action action => (entry io action).toList
  | .crash during done restart =>
    match about io during with
    | some event => [.crashed event done restart]
    | none => [.crashed .save 0 restart]

def authenticates : TransactionalServer.Event → Bool
  | .execute header _ => parse header = 8
  | _ => false

/-- Whether an entry leaves a connection authorized. -/
def attest (socket : Nat) (auth : Bool) : Entry π → Bool
  | .accepted other | .closed other => if other = socket then false else auth
  | .found other _ _ event _ => if other = socket ∧ authenticates event then true else auth
  | .crashed _ _ _ => false
  | .arrived _ _ | .daemon _ => auth

/-- Whether AUTH has come on a connection since it was accepted. -/
def authorized (socket : Nat) (entries : List (Entry π)) : Bool := entries.foldl (attest socket) false

/-- Every packet counts as authorized exactly after AUTH on its own connection. -/
def Attested (entries : List (Entry π)) : Prop :=
  ∀ (k socket : Nat) (env : Env) (auth : Bool) (event : TransactionalServer.Event) (drawn : ∀ draw ∈ env.draws, 1 ≤ draw ∧ draw ≤ 100000),
    entries[k]? = some (.found socket env auth event drawn) → auth = authorized socket (entries.take k)

/-- What has arrived on a connection since it was accepted, and what its rounds have found. -/
structure Heard where
  segments : List Text := []
  events : List TransactionalServer.Event := []

def hear (socket : Nat) (heard : Heard) : Entry π → Heard
  | .accepted other => if other = socket then {} else heard
  | .arrived other bytes => if other = socket then { heard with segments := heard.segments ++ [bytes] } else heard
  | .found other _ _ event _ => if other = socket then { heard with events := heard.events ++ [event] } else heard
  | .closed _ | .daemon _ | .crashed _ _ _ => heard

def heard (socket : Nat) (entries : List (Entry π)) : Heard := entries.foldl (hear socket) {}

end

section
variable {π : Type} {answer : Answer π} {fuel : Nat} {server : Server π} {env : Env} {auth : Bool} {header data : Text}
  {handled : Handled π} {event : TransactionalServer.Event} {io next : IoService π}

theorem dispatch_auth (ran : dispatch answer fuel env server auth header data = .ok handled) :
    handled.auth = if parse header = 8 then true else auth := by
  obtain ⟨out, executed, follows⟩ := dispatch_cases ran
  have stored : out.auth = if parse header = 8 then true else auth := by
    by_cases method : parse header = 8
    · rw [method] at executed
      cases executed
      exact (if_pos method).symm
    · rw [if_neg method]
      cases executeCommand_cases executed with
      | authenticated other => exact absurd other method
      | refused | read | notAborted | aborted | created | commits | added | completed | notAdded | made | pinged | demoted => rfl
  cases follows with
  | returned | asks | answers => exact stored
  | concludes _ _ concludes =>
    cases concludes with
    | acknowledged | refused | exits | finishes => exact stored

theorem handleEvent_auth (ran : handleEvent answer fuel env server auth event = .ok handled) :
    handled.auth = if authenticates event then true else auth := by
  cases event with
  | execute header data =>
    simp only [authenticates, decide_eq_true_eq]
    exact dispatch_auth ran
  | needsData | invalidHeader | endOfStream =>
    obtain ⟨error, _, same⟩ := bind_eq_ok.mp ran
    cases same
    rfl

/-- A session handles a packet as `receive` does. -/
theorem handleEvent_packet (π : Type) {drawn : ∀ draw ∈ env.draws, 1 ≤ draw ∧ draw ≤ 100000} {asked : System.Event} (proper : Proper event)
    (found : packet env auth drawn event = some asked) : ∃ header payload valid, asked = .packet env auth header payload valid drawn ∧
      ∀ (answer : Answer π) fuel files server,
        handleEvent answer fuel files server auth event = receive answer fuel files server auth header payload := by
  cases event with
  | execute header data =>
    have valid : validHeader header = true := proper
    rw [packet, dif_pos valid] at found
    cases found
    exact ⟨header, some data, valid, rfl, fun _ _ _ _ => rfl⟩
  | needsData header =>
    rw [packet, dif_pos proper.1] at found
    cases found
    refine ⟨header, none, proper.1, rfl, fun _ _ _ _ => ?_⟩
    rw [receive, if_pos proper.2]
    rfl
  | invalidHeader | endOfStream => cases found

/-- A packet that is no request is answered. -/
theorem handleEvent_malformed {drawn : ∀ draw ∈ env.draws, 1 ≤ draw ∧ draw ≤ 100000} (proper : Proper event)
    (none' : packet env auth drawn event = none) {files : Env} (ran : handleEvent answer fuel files server auth event = .ok handled) :
    handled.server = server ∧ ∃ error, handled.effects = [.send error] := by
  cases event with
  | execute other data =>
    have proper : validHeader other = true := proper
    rw [packet, dif_pos proper] at none'
    cases none'
  | needsData other =>
    rw [packet, dif_pos proper.1] at none'
    cases none'
  | invalidHeader | endOfStream =>
    obtain ⟨error, _, same⟩ := bind_eq_ok.mp ran
    cases same
    exact ⟨rfl, error, rfl⟩

theorem process_performs {process : Process π} {event : System.Event} {after : Server π} {effects : List Effect}
    (performed : System.perform answer fuel process.server (Process.onDisk process.disk event) = .ok (some after, effects)) :
    [Process.Event.event event].foldlM (Process.step answer fuel) process = .ok ⟨after, effects.foldl Disk.apply process.disk⟩ := by
  rw [List.foldlM_cons, Process.step, Process.perform, performed]
  rfl

/-- A read meets no session, waits, or hands on what its round has found. -/
inductive Reads (answer : Answer π) (fuel : Nat) (io : IoService π) (socket : Nat) (env : Env) : IoService π → List Effect → Prop where
  | gone (closed : io.sessions socket = none) : Reads answer fuel io socket env io []
  | waits {session : Accepted} (opened : io.sessions socket = some session) (waits : session.conn.handleRead = none) :
      Reads answer fuel io socket env { io with reading := if session.conn.lacksPayload then some socket else none } []
  | hands {session : Accepted} {event : TransactionalServer.Event} {conn : Connection} {handled : Handled π}
      (opened : io.sessions socket = some session) (round : session.conn.handleRead = some (event, conn))
      (ran : handleEvent answer fuel (io.onDisk env) io.process.server session.auth event = .ok handled) (goes : handled.exited = false) :
      Reads answer fuel io socket env
        { (io.setServer handled.server).setSession socket (some ⟨conn, handled.auth⟩) with reading := none } handled.effects

theorem read_cases {socket : Nat} {effects : List Effect} (ran : io.read answer fuel socket env = .ok (some next, effects)) :
    Reads answer fuel io socket env next effects := by
  unfold IoService.read at ran
  cases opened : io.sessions socket with
  | none =>
    rw [opened] at ran
    cases ran
    exact .gone opened
  | some session =>
    rw [opened] at ran
    cases round : session.conn.handleRead with
    | none =>
      simp only [round] at ran
      cases ran
      exact .waits opened round
    | some found =>
      obtain ⟨event, conn⟩ := found
      simp only [round] at ran
      obtain ⟨handled, handles, same⟩ := bind_eq_ok.mp ran
      obtain ⟨goes, rfl⟩ := Prod.mk.inj (Except.ok.inj same)
      split at goes
      next => cases goes
      next still =>
        cases goes
        exact .hands opened round handles (eq_false_of_ne_true still)

theorem entry_gone {socket : Nat} {drawn : ∀ draw ∈ env.draws, 1 ≤ draw ∧ draw ≤ 100000} (closed : io.sessions socket = none) :
    entry io (.read socket env drawn) = none := by
  rw [entry, closed]
  rfl

theorem entry_waits {socket : Nat} {session : Accepted} {drawn : ∀ draw ∈ env.draws, 1 ≤ draw ∧ draw ≤ 100000}
    (opened : io.sessions socket = some session) (waits : session.conn.handleRead = none) : entry io (.read socket env drawn) = none := by
  simp only [entry, opened, Option.bind_eq_bind, Option.bind_some, waits, Option.bind_none]

theorem entry_found {socket : Nat} {session : Accepted} {conn : Connection} {drawn : ∀ draw ∈ env.draws, 1 ≤ draw ∧ draw ≤ 100000}
    (opened : io.sessions socket = some session) (round : session.conn.handleRead = some (event, conn)) :
    entry io (.read socket env drawn) = some (.found socket env session.auth event drawn) := by
  simp only [entry, opened, Option.bind_eq_bind, Option.bind_some, round]
  rfl

theorem read_runs {socket : Nat} {drawn : ∀ draw ∈ env.draws, 1 ≤ draw ∧ draw ≤ 100000} {effects : List Effect}
    (ran : io.read answer fuel socket env = .ok (some next, effects)) :
    ((record io (.action (.read socket env drawn))).flatMap Entry.packets).foldlM (Process.step answer fuel) io.process =
      .ok { next.process with disk := effects.foldl Disk.apply io.process.disk } := by
  cases read_cases ran with
  | gone closed =>
    rw [record, entry_gone closed]
    rfl
  | waits opened waits =>
    rw [record, entry_waits opened waits]
    rfl
  | @hands session event conn handled opened round handles goes =>
    have proper := (handleRead_grows round []).1
    rw [record, entry_found opened round, Option.toList_some, List.flatMap_singleton, Entry.packets]
    cases asked : packet env session.auth drawn event with
    | none =>
      obtain ⟨same, error, sent⟩ := handleEvent_malformed proper asked handles
      rw [sent]
      simp only [setSession, setServer, same]
      rfl
    | some asked' =>
      obtain ⟨header, payload, valid, rfl, received⟩ := handleEvent_packet π proper asked
      rw [received] at handles
      apply process_performs
      simp only [System.perform, Process.onDisk]
      rw [show ({ env with files := io.process.disk.files } : Env) = io.onDisk env from rfl, handles, ok_bind, goes]
      rfl

theorem daemon_runs {event : System.Event} {effects : List Effect} (unread : Process.onDisk io.process.disk event = event)
    (ran : io.daemon answer fuel event = .ok (some next, effects)) :
    [Process.Event.event event].foldlM (Process.step answer fuel) io.process =
      .ok { next.process with disk := effects.foldl Disk.apply io.process.disk } := by
  obtain ⟨⟨running, had⟩, performed, same⟩ := bind_eq_ok.mp ran
  obtain ⟨goes, rfl⟩ := Prod.mk.inj (Except.ok.inj same)
  obtain ⟨after, rfl, rfl⟩ := Option.map_eq_some_iff.mp goes
  apply process_performs
  rw [unread]
  exact performed

theorem action_runs {action : Action} {effects : List Effect} (ran : io.perform answer fuel action = .ok (some next, effects)) :
    ((record io (.action action)).flatMap Entry.packets).foldlM (Process.step answer fuel) io.process =
      .ok { next.process with disk := effects.foldl Disk.apply io.process.disk } := by
  cases action with
  | accept | arrive | close =>
    cases ran
    rfl
  | read => exact read_runs ran
  | sweep | save | tick => exact daemon_runs rfl ran

def OfDaemon : System.Event → Prop
  | .packet .. => False
  | .sweep | .save | .tick _ => True

theorem daemon_reaches {asked : System.Event} (own : OfDaemon asked) :
    Process.reached answer fuel io.process.server asked =
      match io.daemon answer fuel asked with
      | .ok (_, effects) => effects
      | .error _ => [] := by
  unfold Process.reached IoService.daemon
  cases System.perform answer fuel io.process.server asked with
  | ok performed => rfl
  | error halt =>
    cases asked with
    | packet => exact own.elim
    | sweep | save | tick => rfl

/-- A packet that is cut off has had the same effects. -/
theorem packet_reaches {socket : Nat} {session : Accepted} {conn : Connection} {drawn : ∀ draw ∈ env.draws, 1 ≤ draw ∧ draw ≤ 100000}
    {asked : System.Event} (opened : io.sessions socket = some session) (round : session.conn.handleRead = some (event, conn)) (found : packet env session.auth drawn event = some asked) :
    Process.reached answer fuel io.process.server (Process.onDisk io.process.disk asked) = io.reached answer fuel (.read socket env drawn) := by
  have proper := (handleRead_grows round []).1
  obtain ⟨header, payload, valid, rfl, received⟩ := handleEvent_packet π proper found
  have same : ({ env with files := io.process.disk.files } : Env) = io.onDisk env := rfl
  simp only [Process.reached, Process.onDisk, System.perform, IoService.reached, IoService.perform, IoService.read, opened, round,
    received, same]
  cases handles : receive answer fuel (io.onDisk env) io.process.server session.auth header payload with
  | ok handled => rfl
  | error halt =>
    cases event with
    | execute other data =>
      have proper : validHeader other = true := proper
      rw [packet, dif_pos proper] at found
      cases found
      simp only [error_bind, IoService.begun, opened, round]
      rfl
    | needsData other =>
      rw [packet, dif_pos proper.1] at found
      cases found
      -- the refusal of a packet without its data always returns
      obtain ⟨text, made⟩ := answerable_genAnswerStr (answerable_of_valid valid) "ERROR" "204" "Method requires data."
      rw [receive, if_pos proper.2, made] at handles
      cases handles
    | invalidHeader | endOfStream => cases found

theorem reached_about {action : Action} {asked : System.Event} (busy : about io action = some asked) :
    Process.reached answer fuel io.process.server (Process.onDisk io.process.disk asked) = io.reached answer fuel action := by
  cases action with
  | accept | arrive | close => cases busy
  | read socket env drawn =>
    cases opened : io.sessions socket with
    | none =>
      rw [about, entry_gone opened] at busy
      cases busy
    | some session =>
      cases round : session.conn.handleRead with
      | none =>
        rw [about, entry_waits opened round] at busy
        cases busy
      | some found =>
        rw [about, entry_found opened round] at busy
        exact packet_reaches opened round busy
  | sweep | save | tick =>
    cases busy
    exact daemon_reaches trivial

/-- An action that hands nothing on has had no effect on the disk. -/
theorem reached_idle {action : Action} (idle : about io action = none) :
    ∀ effect ∈ io.reached answer fuel action, ∃ text, effect = .send text := by
  cases action with
  | accept | arrive | close => exact List.forall_mem_nil _
  | sweep | save | tick => cases idle
  | read socket env drawn =>
    cases opened : io.sessions socket with
    | none =>
      simp only [IoService.reached, IoService.perform, IoService.read, opened]
      exact List.forall_mem_nil _
    | some session =>
      cases round : session.conn.handleRead with
      | none =>
        simp only [IoService.reached, IoService.perform, IoService.read, opened, round]
        exact List.forall_mem_nil _
      | some found =>
        obtain ⟨event, conn⟩ := found
        have idle : packet env session.auth drawn event = none := by
          rw [about, entry_found opened round] at idle
          exact idle
        have proper := (handleRead_grows round []).1
        simp only [IoService.reached, IoService.perform, IoService.read, opened, round]
        cases handles : handleEvent answer fuel (io.onDisk env) io.process.server session.auth event with
        | ok handled =>
          obtain ⟨_, error, sent⟩ := handleEvent_malformed proper idle handles
          show ∀ effect ∈ handled.effects, _
          rw [sent]
          exact List.forall_mem_singleton.mpr ⟨error, rfl⟩
        | error halt =>
          simp only [error_bind, IoService.begun, opened, round]
          cases event with
          | execute header data =>
            have valid : validHeader header = true := proper
            rw [packet, dif_pos valid] at idle
            cases idle
          | needsData | invalidHeader | endOfStream => exact List.forall_mem_nil _

/-- An action ends, or a crash ends all connections. -/
theorem socket_step_cases {happens : IoService.Event π} (stepped : IoService.step answer fuel io happens = .ok next) :
    io.free happens.during = true ∧
      ((∃ action after effects, happens = .action action ∧ io.perform answer fuel action = .ok (some after, effects) ∧
          next = { after with process := { after.process with disk := effects.foldl Disk.apply io.process.disk } }) ∨
        ∃ during done restart, happens = .crash during done restart ∧
          next = { process := Process.start restart (((io.reached answer fuel during).take done).foldl Disk.apply io.process.disk) }) := by
  unfold IoService.step at stepped
  split at stepped
  next free =>
    refine ⟨free, ?_⟩
    cases happens with
    | action action =>
      obtain ⟨⟨running, effects⟩, performed, stepped⟩ := bind_eq_ok.mp stepped
      obtain ⟨after, goes, same⟩ := bind_eq_ok.mp stepped
      cases finished_eq_ok.mp goes
      cases same
      exact Or.inl ⟨action, after, effects, rfl, performed, rfl⟩
    | crash during done restart =>
      cases stepped
      exact Or.inr ⟨during, done, restart, rfl, rfl⟩
  next => cases stepped

theorem step_runs {happens : IoService.Event π} (stepped : IoService.step answer fuel io happens = .ok next) :
    ((record io happens).flatMap Entry.packets).foldlM (Process.step answer fuel) io.process = .ok next.process := by
  obtain ⟨_, ⟨action, after, effects, rfl, performed, rfl⟩ | ⟨during, done, restart, rfl, rfl⟩⟩ := socket_step_cases stepped
  · exact action_runs performed
  · cases busy : about io during with
    | some asked =>
      rw [record, busy, ← reached_about busy]
      rfl
    | none =>
      have untouched : ((io.reached answer fuel during).take done).foldl Disk.apply io.process.disk = io.process.disk :=
        Redelivery.apply_sends (fun effect member => reached_idle busy effect (List.mem_of_mem_take member)) _
      rw [record, busy, untouched]
      rfl

/-- An open session is where the history of its connection has brought it. -/
structure Reflects (socket : Nat) (past : List (Entry π)) (session : Accepted) : Prop where
  auth : session.auth = authorized socket past
  served : Served (heard socket past).events.length { segments := (heard socket past).segments } (heard socket past).events session.conn

structure Tracks (past : List (Entry π)) (io : IoService π) : Prop where
  attested : Attested past
  opened : ∀ socket session, io.sessions socket = some session → Reflects socket past session

theorem authorized_append (socket : Nat) (past : List (Entry π)) (entry : Entry π) :
    authorized socket (past ++ [entry]) = attest socket (authorized socket past) entry := by
  rw [authorized, List.foldl_append]
  rfl

theorem heard_append (socket : Nat) (past : List (Entry π)) (entry : Entry π) :
    heard socket (past ++ [entry]) = hear socket (heard socket past) entry := by
  rw [heard, List.foldl_append]
  rfl

/-- An entry about something else changes nothing for a connection. -/
theorem Reflects.apart {socket : Nat} {past : List (Entry π)} {entry : Entry π} {session : Accepted} (reflects : Reflects socket past session)
    (auth : attest socket (authorized socket past) entry = authorized socket past)
    (heard' : hear socket (heard socket past) entry = heard socket past) : Reflects socket (past ++ [entry]) session := by
  obtain ⟨authorized', served⟩ := reflects
  constructor
  · rw [authorized_append, auth]
    exact authorized'
  · rw [heard_append, heard']
    exact served

theorem Attested.append {past : List (Entry π)} {entry : Entry π} (attested : Attested past)
    (own : ∀ socket env auth event drawn, entry = .found socket env auth event drawn → auth = authorized socket past) :
    Attested (past ++ [entry]) := by
  intro k socket env auth event drawn at_k
  by_cases early : k < past.length
  · rw [List.getElem?_append_left early] at at_k
    rw [List.take_append_of_le_length (Nat.le_of_lt early)]
    exact attested k socket env auth event drawn at_k
  · have late := Nat.le_of_not_lt early
    rw [List.getElem?_append_right late] at at_k
    have here : k = past.length := by
      have inside := (List.getElem?_eq_some_iff.mp at_k).1
      rw [List.length_singleton] at inside
      omega
    subst here
    rw [Nat.sub_self] at at_k
    rw [List.take_left]
    exact own socket env auth event drawn (Option.some.inj at_k)

theorem Tracks.unchanged {past : List (Entry π)} (tracks : Tracks past io) (same : next.sessions = io.sessions) : Tracks past next :=
  ⟨tracks.attested, fun socket session opened => tracks.opened socket session (same ▸ opened)⟩

/-- An entry about one connection, and what it has made of its session. -/
theorem Tracks.append {past : List (Entry π)} {entry : Entry π} (socket : Nat) (tracks : Tracks past io)
    (own : ∀ other env auth event drawn, entry = .found other env auth event drawn → auth = authorized other past)
    (others : ∀ other, other ≠ socket → next.sessions other = io.sessions other ∧
      attest other (authorized other past) entry = authorized other past ∧ hear other (heard other past) entry = heard other past)
    (here : ∀ session, next.sessions socket = some session → Reflects socket (past ++ [entry]) session) : Tracks (past ++ [entry]) next := by
  refine ⟨tracks.attested.append own, ?_⟩
  intro other session opened
  by_cases same : other = socket
  · subst same
    exact here session opened
  · obtain ⟨kept, auth, heard'⟩ := others other same
    exact (tracks.opened other session (kept ▸ opened)).apart auth heard'

theorem setSession_other {socket other : Nat} (differs : other ≠ socket) (session : Option Accepted) :
    (io.setSession socket session).sessions other = io.sessions other := by
  unfold setSession
  exact Function.update_of_ne differs _ _

theorem setSession_own (socket : Nat) (session : Option Accepted) : (io.setSession socket session).sessions socket = session := by
  unfold setSession
  exact Function.update_self _ _ _

theorem Tracks.accept {past : List (Entry π)} (tracks : Tracks past io) (socket : Nat) :
    Tracks (past ++ [.accepted socket]) (io.setSession socket (some {})) := by
  refine tracks.append socket ?_ ?_ ?_
  · intro other env auth event drawn same
    cases same
  · intro other differs
    exact ⟨setSession_other differs _, if_neg (Ne.symm differs), if_neg (Ne.symm differs)⟩
  · intro session opened
    rw [setSession_own] at opened
    cases opened
    have fresh : heard socket (past ++ [.accepted socket]) = {} := by
      rw [heard_append]
      exact if_pos rfl
    refine ⟨?_, ?_⟩
    · rw [authorized_append]
      exact (if_pos rfl).symm
    · rw [fresh]
      exact ⟨rfl, rfl⟩

theorem Tracks.arrive {past : List (Entry π)} (tracks : Tracks past io) (socket : Nat) (bytes : Text) :
    Tracks (past ++ [.arrived socket bytes])
      (io.setSession socket ((io.sessions socket).map fun session => { session with conn := session.conn.arrive bytes })) := by
  refine tracks.append socket ?_ ?_ ?_
  · intro other env auth event drawn same
    cases same
  · intro other differs
    exact ⟨setSession_other differs _, rfl, if_neg (Ne.symm differs)⟩
  · intro session opened
    rw [setSession_own] at opened
    obtain ⟨before, open', rfl⟩ := Option.map_eq_some_iff.mp opened
    obtain ⟨auth, served⟩ := tracks.opened socket before open'
    have grown : heard socket (past ++ [.arrived socket bytes]) =
        { heard socket past with segments := (heard socket past).segments ++ [bytes] } := by
      rw [heard_append]
      exact if_pos rfl
    refine ⟨?_, ?_⟩
    · rw [authorized_append]
      exact auth
    · rw [grown]
      exact served.grows bytes

theorem Tracks.close {past : List (Entry π)} (tracks : Tracks past io) (socket : Nat) :
    Tracks (past ++ [.closed socket]) { io.setSession socket none with reading := none } := by
  refine tracks.append socket ?_ ?_ ?_
  · intro other env auth event drawn same
    cases same
  · intro other differs
    exact ⟨setSession_other differs none, if_neg (Ne.symm differs), rfl⟩
  · intro session opened
    rw [show ({ io.setSession socket none with reading := none } : IoService π).sessions socket = none from setSession_own socket none] at opened
    cases opened

/-- A round hands on what it has found, and may be the one that authorizes. -/
theorem Tracks.found {past : List (Entry π)} {socket : Nat} {session : Accepted} {conn : Connection}
    {drawn : ∀ draw ∈ env.draws, 1 ≤ draw ∧ draw ≤ 100000} (tracks : Tracks past io) (opened : io.sessions socket = some session)
    (round : session.conn.handleRead = some (event, conn)) (sets : auth = if authenticates event then true else session.auth)
    (others : ∀ other, other ≠ socket → next.sessions other = io.sessions other) (own : next.sessions socket = some ⟨conn, auth⟩) :
    Tracks (past ++ [.found socket env session.auth event drawn]) next := by
  have reflects := tracks.opened socket session opened
  refine tracks.append socket ?_ ?_ ?_
  · intro other env auth event drawn same
    cases same
    exact reflects.auth
  · intro other differs
    exact ⟨others other differs, if_neg (fun both => differs both.1.symm), if_neg (Ne.symm differs)⟩
  · intro after here
    rw [own] at here
    cases here
    have grown : heard socket (past ++ [.found socket env session.auth event drawn]) =
        { heard socket past with events := (heard socket past).events ++ [event] } := by
      rw [heard_append]
      exact if_pos rfl
    refine ⟨?_, ?_⟩
    · rw [authorized_append, sets, reflects.auth, attest]
      simp only [true_and]
    · rw [grown, List.length_append, List.length_singleton]
      exact reflects.served.another round

theorem Tracks.read {past : List (Entry π)} {socket : Nat} {drawn : ∀ draw ∈ env.draws, 1 ≤ draw ∧ draw ≤ 100000} {effects : List Effect}
    (tracks : Tracks past io) (ran : io.read answer fuel socket env = .ok (some next, effects)) :
    Tracks (past ++ (entry io (.read socket env drawn)).toList) next := by
  cases read_cases ran with
  | gone closed =>
    rw [entry_gone closed, Option.toList_none, List.append_nil]
    exact tracks
  | waits opened waits =>
    rw [entry_waits opened waits, Option.toList_none, List.append_nil]
    exact tracks.unchanged rfl
  | hands opened round handles =>
    rw [entry_found opened round, Option.toList_some]
    exact tracks.found opened round (handleEvent_auth handles) (fun other differs => setSession_other differs _) (setSession_own socket _)

theorem Tracks.daemon {past : List (Entry π)} {asked : System.Event} {effects : List Effect} (tracks : Tracks past io)
    (ran : io.daemon answer fuel asked = .ok (some next, effects)) : Tracks (past ++ [.daemon asked]) next := by
  obtain ⟨⟨running, had⟩, _, same⟩ := bind_eq_ok.mp ran
  obtain ⟨goes, rfl⟩ := Prod.mk.inj (Except.ok.inj same)
  obtain ⟨after, rfl, rfl⟩ := Option.map_eq_some_iff.mp goes
  refine ⟨tracks.attested.append ?_, ?_⟩
  · intro other env auth event drawn same
    cases same
  · intro other session opened
    exact (tracks.opened other session opened).apart rfl rfl

theorem Tracks.action {past : List (Entry π)} {action : Action} {effects : List Effect} (tracks : Tracks past io)
    (ran : io.perform answer fuel action = .ok (some next, effects)) : Tracks (past ++ (entry io action).toList) next := by
  cases action with
  | accept socket =>
    cases ran
    exact tracks.accept socket
  | arrive socket bytes =>
    cases ran
    exact tracks.arrive socket bytes
  | read => exact tracks.read ran
  | close socket =>
    cases ran
    exact tracks.close socket
  | sweep | save | tick => exact tracks.daemon ran

/-- Every step continues the history of its sockets. -/
theorem Tracks.step {past : List (Entry π)} {happens : IoService.Event π} (tracks : Tracks past io)
    (stepped : IoService.step answer fuel io happens = .ok next) : Tracks (past ++ record io happens) next := by
  obtain ⟨_, ⟨action, after, effects, rfl, performed, rfl⟩ | ⟨during, done, restart, rfl, rfl⟩⟩ := socket_step_cases stepped
  · exact (tracks.action performed).unchanged rfl
  · have crashed (asked : System.Event) (done : Nat) (disk : Disk) :
        Tracks (past ++ [.crashed asked done restart]) { process := Process.start restart disk } := by
      refine ⟨tracks.attested.append ?_, ?_⟩
      · intro other env auth event drawn same
        cases same
      · intro other session opened
        cases opened
    rw [record]
    split
    · exact crashed _ _ _
    · exact crashed _ _ _

theorem run_tracks {process : Process π} {final : IoService π} {events : List (IoService.Event π)}
    (ran : events.foldlM (IoService.step answer fuel) { process } = .ok final) :
    Tracks (transcript (IoService.step answer fuel) record { process } events) final := by
  have fresh : Tracks [] ({ process } : IoService π) := ⟨fun _ _ _ _ _ _ absent => (by cases absent), fun _ _ opened => (by cases opened)⟩
  exact transcript_preserves (fun _ _ _ _ tracks stepped => Tracks.step tracks stepped) fresh ran

/-- A process at its sockets does what its packets make it do. Each packet counts
as authorized exactly after AUTH on its own connection. -/
theorem socket_runs_are_packet_runs {process : Process π} {final : IoService π} {events : List (IoService.Event π)}
    (ran : events.foldlM (IoService.step answer fuel) { process } = .ok final) :
    let entries := transcript (IoService.step answer fuel) record { process } events
    (entries.flatMap Entry.packets).foldlM (Process.step answer fuel) process = .ok final.process ∧ Attested entries :=
  ⟨transcript_runs (fun _ _ _ stepped => step_runs stepped) ran, (run_tracks ran).attested⟩

/-- However the connections are interleaved and their bytes are cut, the rounds of
one find the first packets of its own stream, each once and in order, and all of
them once the stream has come and the session waits. -/
theorem connections_are_read_in_order {process : Process π} {final : IoService π} {events : List (IoService.Event π)} {socket : Nat}
    {session : Accepted} {own : Heard} {packets : List Framing.Packet}
    (ran : events.foldlM (IoService.step answer fuel) { process } = .ok final) (opened : final.sessions socket = some session)
    (history : own = heard socket (transcript (IoService.step answer fuel) record { process } events))
    (begins : own.segments.flatten <+: (packets.map Framing.Packet.bytes).flatten) :
    own.events = (packets.take own.events.length).map Framing.Packet.event ∧
      (own.segments.flatten = (packets.map Framing.Packet.bytes).flatten → session.conn.handleRead = none →
        own.events = packets.map Framing.Packet.event) := by
  have served := ((run_tracks ran).opened socket session opened).served
  rw [← history] at served
  exact ⟨served.packets begins, fun stream waits => served.complete waits stream⟩

end

private def lonely : Process Unit := Process.start { self := ⟨"ip", "80", "dir"⟩, primary := true, peer := () } { saved := ∅ }

private def twoConnections : List (IoService.Event Unit) :=
  [.accept 0, .accept 1, .arrive 1 "NEW_TXN 0 0 3\r\n", .read 1 {} System.nothing_drawn, .arrive 0 "AUTH 0 0 0\r\n\r\n\r\n",
    .arrive 1 "\r\na", .read 0 {} System.nothing_drawn, .save, .read 1 { draws := [5] } System.five_drawn, .arrive 1 "b",
    .arrive 1 "\nABORT 5 0 0\r\n\r\n\r", .read 1 { draws := [5] } System.five_drawn, .read 1 {} System.nothing_drawn, .arrive 1 "\n"].map .action

private def run : Exec (IoService Unit) := twoConnections.foldlM (IoService.step Backup.noPeer 0) { process := lonely }

example : run.map (fun io => ((io.sessions 0).map (·.auth), (io.sessions 1).map (·.auth), io.reading)) = .ok (some true, some false, none) := by
  decide +kernel

theorem interleaved_connections_are_a_packet_run : ∃ final, run = .ok final ∧
    let entries := transcript (IoService.step Backup.noPeer 0) record { process := lonely } twoConnections
    (entries.flatMap Entry.packets).foldlM (Process.step Backup.noPeer 0) lonely = .ok final.process ∧ Attested entries := by
  obtain ⟨final, ran⟩ := returned_of_isOk (show run.isOk by decide +kernel)
  exact ⟨final, ran, socket_runs_are_packet_runs ran⟩

/-- The second connection has brought a creation and an abort, in five pieces. -/
theorem interleaved_packets_are_found :
    (heard 1 (transcript (IoService.step Backup.noPeer 0) record { process := lonely } twoConnections)).events =
      [Framing.newTxnPacket, Framing.abortPacket].map Framing.Packet.event := by
  obtain ⟨final, ran⟩ := returned_of_isOk (show run.isOk by decide +kernel)
  have waits : run.map (fun io => (io.sessions 1).map fun session => session.conn.handleRead.isNone) = .ok (some true) := by decide +kernel
  rw [ran] at waits
  obtain ⟨session, opened, waits⟩ := Option.map_eq_some_iff.mp (Except.ok.inj waits)
  have stream : (heard 1 (transcript (IoService.step Backup.noPeer 0) record { process := lonely } twoConnections)).segments.flatten =
      ([Framing.newTxnPacket, Framing.abortPacket].map Framing.Packet.bytes).flatten := by decide +kernel
  exact (connections_are_read_in_order ran opened rfl ⟨[], by rw [List.append_nil, stream]⟩).2 stream (Option.isNone_iff_eq_none.mp waits)

end TransactionalServer.Proofs.Transcripts
