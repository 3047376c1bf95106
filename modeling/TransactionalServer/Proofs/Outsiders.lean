import TransactionalServer.Proofs.Transcripts

/-! Connections that have not sent AUTH. While the process is no primary, it goes
on as if nobody were on them, whatever bytes they bring. -/

namespace TransactionalServer.Proofs.Outsiders
open ServerTools LogHandler Exec Session IoService Refinement Arrivals Transcripts

section
variable {π : Type} (outside : Nat → Bool)

/-- The process without these connections. -/
def expel (io : IoService π) : IoService π :=
  { process := io.process
    sessions := fun socket => if outside socket then none else io.sessions socket
    reading := io.reading.filter (!outside ·) }

def concerns : Action → Bool
  | .accept socket | .arrive socket _ | .read socket _ _ | .close socket => outside socket
  | .sweep | .save | .tick _ => false

/-- What remains of a run when nobody is on these connections. -/
def remains : IoService.Event π → Bool
  | .action action => !concerns outside action
  | .crash _ _ _ => true

/-- When these connections are read, the process is no primary and AUTH has not come on them. -/
def Unheard (io : IoService π) : Action → Prop
  | .read socket _ _ => outside socket = true → NotPrimary io.process.server.log ∧ (io.sessions socket).all (!·.auth) = true
  | _ => True

instance (io : IoService π) : ∀ action, Decidable (Unheard outside io action)
  | .read socket _ _ => inferInstanceAs (Decidable (outside socket = true → ¬ _ ∧ _ = true))
  | .accept _ | .arrive _ _ | .close _ | .sweep | .save | .tick _ => .isTrue trivial

end

section
variable {π : Type} {answer : Answer π} {fuel : Nat} {server : Server π} {env : Env} {auth : Bool} {header data : Text}
  {handled : Handled π} {found : TransactionalServer.Event} {io next : IoService π} {outside : Nat → Bool} {socket : Nat}

theorem only_authenticates (backup : NotPrimary server.log) {method : Nat} (free : unauthorized server false method = .ok false) : method = 8 := by
  by_contra other
  simp only [unauthorized, ne_eq, other, not_false_eq_true, decide_true, Bool.not_false, Bool.and_self, if_true] at free
  obtain ⟨status, read, same⟩ := bind_eq_ok.mp free
  have primary : status = "primary".toList := by simpa using same
  exact backup (primary ▸ read)

theorem outside_command {out : Command π} (backup : NotPrimary server.log)
    (ran : executeCommand env server false (parse header) header data = .ok out) : out.effects = [] := by
  cases checked : unauthorized server false (parse header) with
  | error halt =>
    simp only [executeCommand, checked, error_bind, reduceCtorEq] at ran
  | ok refused =>
    cases refused with
    | true =>
      simp only [executeCommand, checked, ok_bind, if_true] at ran
      obtain ⟨error, _, same⟩ := bind_eq_ok.mp ran
      cases same
      rfl
    | false =>
      rw [only_authenticates backup checked] at ran
      cases ran
      rfl

/-- A backup answers a packet from outside, or notes that AUTH has come. -/
theorem outside_packet {payload : Option Text} (backup : NotPrimary server.log)
    (ran : receive answer fuel env server false header payload = .ok handled) :
    handled.server = server ∧ handled.exited = false ∧ ∀ effect ∈ handled.effects, ∃ text, effect = .send text := by
  rcases receive_cases ran with ⟨same, goes, _, text, _, sent⟩ | ⟨executed, out, executes, follows⟩
  · rw [sent]
    exact ⟨same, goes, List.forall_mem_singleton.mpr ⟨text, rfl⟩⟩
  have method := only_authenticates backup executed.authorized
  have other {number : Nat} (same : parse header = number) (differs : number ≠ 8) : False := differs (same.symm.trans method)
  cases executes with
  | refused _ refusal =>
    obtain rfl := follows.of_refused rfl refusal.answered.ne_codes
    exact ⟨rfl, rfl, List.forall_mem_singleton.mpr ⟨_, rfl⟩⟩
  | authenticated =>
    obtain rfl := follows.of_done rfl
    exact ⟨rfl, rfl, List.forall_mem_nil _⟩
  | read same | notAborted same | aborted same | created same | commits same | added same | completed same | notAdded same | made same
  | pinged same | demoted same => exact (other same (by decide)).elim

theorem outside_event (proper : Proper found) (backup : NotPrimary server.log)
    (ran : handleEvent answer fuel env server false found = .ok handled) :
    handled.server = server ∧ handled.exited = false ∧ ∀ effect ∈ handled.effects, ∃ text, effect = .send text := by
  cases found with
  | execute header data =>
    have received : receive answer fuel env server false header (some data) = .ok handled := ran
    exact outside_packet backup received
  | needsData | invalidHeader | endOfStream =>
    obtain ⟨error, _, same⟩ := bind_eq_ok.mp ran
    cases same
    exact ⟨rfl, rfl, List.forall_mem_singleton.mpr ⟨error, rfl⟩⟩

theorem unheard_session {session : Accepted} {drawn : ∀ draw ∈ env.draws, 1 ≤ draw ∧ draw ≤ 100000}
    (unheard : Unheard outside io (.read socket env drawn)) (out : outside socket = true) (opened : io.sessions socket = some session) :
    NotPrimary io.process.server.log ∧ session.auth = false := by
  obtain ⟨backup, unknown⟩ := unheard out
  rw [opened] at unknown
  exact ⟨backup, by simpa using unknown⟩

theorem expel_congr (process : next.process = io.process) (sessions : ∀ other, outside other = false → next.sessions other = io.sessions other)
    (reading : next.reading.filter (!outside ·) = io.reading.filter (!outside ·)) : expel outside next = expel outside io := by
  have same : (fun other => if outside other then none else next.sessions other) = fun other => if outside other then none else io.sessions other := by
    funext other
    cases out : outside other with
    | true => rfl
    | false => exact sessions other out
  rw [expel, expel, process, reading, same]

theorem setSession_inside (out : outside socket = true) (session : Option Accepted) (other : Nat) (inn : outside other = false) :
    (io.setSession socket session).sessions other = io.sessions other := by
  refine setSession_other (fun same => ?_) session
  rw [same, out] at inn
  cases inn

theorem nobody_reads {reading : Option Nat} (out : outside socket = true) (free : reading.all (· = socket) = true) :
    reading.filter (!outside ·) = none := by
  cases reading with
  | none => rfl
  | some other =>
    obtain rfl : other = socket := by simpa using free
    simp [Option.filter, out]

/-- What happens on an outside connection leaves the rest as it was. -/
theorem outside_hidden {event : IoService.Event π} (hidden : remains outside event = false) (unheard : Unheard outside io event.during)
    (stepped : IoService.step answer fuel io event = .ok next) : expel outside next = expel outside io := by
  obtain ⟨free, ⟨action, after, effects, rfl, performed, rfl⟩ | ⟨during, done, restart, rfl, rfl⟩⟩ := socket_step_cases stepped
  swap
  · cases hidden
  have out : concerns outside action = true := by simpa [remains] using hidden
  cases action with
  | accept socket =>
    cases performed
    exact expel_congr rfl (setSession_inside out _) rfl
  | arrive socket bytes =>
    cases performed
    exact expel_congr rfl (setSession_inside out _) rfl
  | close socket =>
    cases performed
    exact expel_congr rfl (setSession_inside out _) (nobody_reads out free).symm
  | read socket env drawn =>
    cases read_cases performed with
    | gone => rfl
    | @waits session opened waits =>
      refine expel_congr rfl (fun _ _ => rfl) ?_
      rw [nobody_reads out free]
      apply nobody_reads out
      split
      · exact decide_eq_true rfl
      · rfl
    | @hands session event conn handled opened round ran =>
      obtain ⟨backup, unknown⟩ := unheard_session unheard out opened
      rw [unknown] at ran
      obtain ⟨same, _, sends⟩ := outside_event (handleRead_grows round []).1 backup ran
      refine expel_congr ?_ (setSession_inside out _) (nobody_reads out free).symm
      rw [Redelivery.apply_sends sends]
      simp only [setSession, setServer, same]
  | sweep | save | tick => cases out

theorem free_inside {action : Action} (free : io.free action = true) : (expel outside io).free action = true := by
  have fewer (here : Nat → Bool) (all : io.reading.all here = true) : (io.reading.filter (!outside ·)).all here = true := by
    cases reading : io.reading with
    | none => rfl
    | some other =>
      rw [reading] at all
      cases out : outside other with
      | true => simp [Option.filter, out]
      | false => simpa [Option.filter, out] using all
  have idle (nobody : io.reading.isNone = true) : (io.reading.filter (!outside ·)).isNone = true := by
    rw [Option.isNone_iff_eq_none.mp nobody]
    rfl
  cases action with
  | arrive => rfl
  | read | close => exact fewer _ free
  | accept | sweep | save | tick => exact idle free

theorem sessions_inside (inn : outside socket = false) : (expel outside io).sessions socket = io.sessions socket := by
  rw [expel]
  exact if_neg (ne_true_of_eq_false inn)

theorem expel_setSession (inn : outside socket = false) (session : Option Accepted) :
    expel outside (io.setSession socket session) = (expel outside io).setSession socket session := by
  have same : (fun other => if outside other then none else Function.update io.sessions socket session other) =
      Function.update (fun other => if outside other then none else io.sessions other) socket session := by
    funext other
    by_cases here : other = socket
    · subst here
      rw [Function.update_self, Function.update_self]
      exact if_neg (ne_true_of_eq_false inn)
    · rw [Function.update_of_ne here, Function.update_of_ne here]
  rw [expel, setSession, setSession, expel, same]

theorem expel_done (inn : outside socket = false) (session : Option Accepted) :
    expel outside { io.setSession socket session with reading := none } =
      { (expel outside io).setSession socket session with reading := none } := by
  have same : expel outside (io.setSession socket session) = (expel outside io).setSession socket session := expel_setSession inn session
  exact congrArg (fun io : IoService π => { io with reading := none }) same

theorem read_inside (inn : outside socket = false) :
    (expel outside io).read answer fuel socket env = (io.read answer fuel socket env).map fun out => (out.1.map (expel outside), out.2) := by
  have here : (expel outside io).sessions socket = io.sessions socket := sessions_inside inn
  cases opened : io.sessions socket with
  | none =>
    simp only [IoService.read, here, opened]
    rfl
  | some session =>
    cases round : session.conn.handleRead with
    | none =>
      have waits : (if session.conn.lacksPayload then some socket else none).filter (!outside ·) =
          if session.conn.lacksPayload then some socket else none := by
        split
        · simp [Option.filter, inn]
        · rfl
      simp only [IoService.read, here, opened, round]
      exact congrArg (fun reading => Except.ok (some { expel outside io with reading }, [])) waits.symm
    | some found =>
      obtain ⟨event, conn⟩ := found
      simp only [IoService.read, here, opened, round]
      show handleEvent answer fuel (io.onDisk env) io.process.server session.auth event >>= _ = _
      cases handleEvent answer fuel (io.onDisk env) io.process.server session.auth event with
      | error halt => rfl
      | ok handled =>
        cases exited : handled.exited with
        | true => simp only [ok_bind, exited, if_true, pure_eq_ok, Except.map, Option.map_none]
        | false =>
          simp only [ok_bind, exited, Bool.false_eq_true, if_false, pure_eq_ok, Except.map, Option.map_some]
          rw [expel_done inn]
          rfl

/-- What happens elsewhere does not see the outside connections. -/
theorem perform_inside {action : Action} (inn : concerns outside action = false) :
    (expel outside io).perform answer fuel action =
      (io.perform answer fuel action).map fun out => (out.1.map (expel outside), out.2) := by
  cases action with
  | accept socket => simp only [IoService.perform, pure_eq_ok, Except.map, Option.map_some, expel_setSession inn]
  | arrive socket bytes => simp only [IoService.perform, pure_eq_ok, Except.map, Option.map_some, expel_setSession inn, sessions_inside inn]
  | close socket => simp only [IoService.perform, pure_eq_ok, Except.map, Option.map_some, expel_done inn]
  | read socket env drawn => exact read_inside inn
  | sweep | save | tick =>
    simp only [IoService.perform, IoService.daemon]
    show System.perform answer fuel io.process.server _ >>= _ = _
    cases System.perform answer fuel io.process.server _ with
    | error halt => rfl
    | ok performed =>
      obtain ⟨running, effects⟩ := performed
      cases running with
      | none => rfl
      | some after => rfl

theorem begun_inside {action : Action} (inn : concerns outside action = false) : (expel outside io).begun action = io.begun action := by
  cases action with
  | read socket env drawn =>
    have here : (expel outside io).sessions socket = io.sessions socket := sessions_inside inn
    simp only [IoService.begun, here]
    rfl
  | accept | arrive | close | sweep | save | tick => rfl

theorem reached_inside {action : Action} (inn : concerns outside action = false) :
    (expel outside io).reached answer fuel action = io.reached answer fuel action := by
  rw [IoService.reached, IoService.reached, perform_inside inn, begun_inside inn]
  cases io.perform answer fuel action with
  | ok performed => rfl
  | error halt => rfl

/-- A crash while an outside connection is served cuts nothing but answers. -/
theorem reached_outside {action : Action} (out : concerns outside action = true) (unheard : Unheard outside io action) :
    ∀ effect ∈ io.reached answer fuel action, ∃ text, effect = .send text := by
  cases action with
  | sweep | save | tick => cases out
  | accept | arrive | close => exact List.forall_mem_nil _
  | read socket env drawn =>
    cases opened : io.sessions socket with
    | none =>
      simp only [IoService.reached, IoService.perform, IoService.read, opened]
      exact List.forall_mem_nil _
    | some session =>
      obtain ⟨backup, unknown⟩ := unheard_session unheard out opened
      cases round : session.conn.handleRead with
      | none =>
        simp only [IoService.reached, IoService.perform, IoService.read, opened, round]
        exact List.forall_mem_nil _
      | some found =>
        obtain ⟨event, conn⟩ := found
        simp only [IoService.reached, IoService.perform, IoService.read, IoService.begun, opened, round, unknown]
        cases handles : handleEvent answer fuel (io.onDisk env) io.process.server false event with
        | ok handled => exact (outside_event (handleRead_grows round []).1 backup handles).2.2
        | error halt =>
          cases event with
          | execute header data =>
            simp only [error_bind]
            split
            next out executed =>
              rw [outside_command backup executed]
              exact List.forall_mem_nil _
            next => exact List.forall_mem_nil _
          | needsData | invalidHeader | endOfStream => exact List.forall_mem_nil _

/-- Nobody is left on an outside connection. -/
theorem expelled_reached {action : Action} (out : concerns outside action = true) : (expel outside io).reached answer fuel action = [] := by
  cases action with
  | sweep | save | tick => cases out
  | accept | arrive | close => rfl
  | read socket env drawn =>
    have gone : (expel outside io).sessions socket = none := if_pos out
    simp only [IoService.reached, IoService.perform, IoService.read, gone]
    rfl

theorem expel_bare (process : Process π) : expel outside { process } = { process } := by
  simp only [expel, ite_self, Option.filter_none]

/-- The rest of the process runs as it would without the outside connections. -/
theorem outside_visible {event : IoService.Event π} (visible : remains outside event = true) (unheard : Unheard outside io event.during)
    (stepped : IoService.step answer fuel io event = .ok next) : IoService.step answer fuel (expel outside io) event = .ok (expel outside next) := by
  obtain ⟨free, ⟨action, after, effects, rfl, performed, rfl⟩ | ⟨during, done, restart, rfl, rfl⟩⟩ := socket_step_cases stepped
  · have inn : concerns outside action = false := by simpa [remains] using visible
    rw [IoService.step, if_pos (free_inside free)]
    simp only [perform_inside inn, performed]
    rfl
  · rw [IoService.step, if_pos (free_inside free), expel_bare]
    show Except.ok _ = Except.ok _
    cases side : concerns outside during with
    | false =>
      rw [reached_inside side]
      rfl
    | true =>
      have nobody : (expel outside io).reached answer fuel during = [] := expelled_reached side
      have untouched : ((io.reached answer fuel during).take done).foldl Disk.apply io.process.disk = io.process.disk :=
        Redelivery.apply_sends (fun effect member => reached_outside side unheard effect (List.mem_of_mem_take member)) _
      rw [nobody, untouched, List.take_nil]
      rfl

/-- Whatever bytes come on connections without AUTH, a process that is no primary
when they are read does what it would do without them. -/
theorem outsiders_are_not_heard {process : Process π} {final : IoService π} {events : List (IoService.Event π)}
    (unheard : Along (IoService.step answer fuel) (fun io event => Unheard outside io event.during) { process } events)
    (ran : events.foldlM (IoService.step answer fuel) { process } = .ok final) :
    (events.filter (remains outside)).foldlM (IoService.step answer fuel) { process } = .ok (expel outside final) := by
  have purged := purged_run (fun _ _ _ hidden allowed stepped => outside_hidden hidden allowed stepped)
    (fun _ _ _ visible allowed stepped => outside_visible visible allowed stepped) unheard ran
  rw [expel_bare] at purged
  exact purged

end

private def standby : Process Unit := Process.start { self := ⟨"ip", "80", "dir"⟩, primary := false, peer := () } { saved := ∅ }

/-- The first connection tries to demote and to write, and stops in the middle of a packet. -/
private def intruded : List (IoService.Event Unit) :=
  [.accept 0, .accept 1, .arrive 0 "KILL 0 0 0\r\n\r\n\r\n", .arrive 1 "AUTH 0 0 0\r\n\r\n\r\nMAKE_TXN 5 0 3\r\n\r\na",
    .read 0 {} System.nothing_drawn, .read 1 {} System.nothing_drawn, .read 1 {} System.nothing_drawn, .arrive 0 "WRITE 5 1 3\r\n\r\nxx\n",
    .arrive 1 "b\n", .read 1 {} System.nothing_drawn, .read 0 {} System.nothing_drawn, .sweep, .arrive 0 "WRITE 5 1 9\r\n\r\nxx",
    .read 0 {} System.nothing_drawn].map .action

private def intrusion : Exec (IoService Unit) := intruded.foldlM (IoService.step Backup.noPeer 0) { process := standby }

example : intrusion.map (fun io => (io.process.server.log.contains 5, io.reading)) = .ok (true, some 0) := by decide +kernel

theorem intruder_is_not_heard : ∃ final, intrusion = .ok final ∧
    (intruded.filter (remains (· = 0))).foldlM (IoService.step Backup.noPeer 0) { process := standby } = .ok (expel (· = 0) final) := by
  obtain ⟨final, ran⟩ := returned_of_isOk (show intrusion.isOk by decide +kernel)
  exact ⟨final, ran, outsiders_are_not_heard (by decide +kernel) ran⟩

end TransactionalServer.Proofs.Outsiders
