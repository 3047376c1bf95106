import TransactionalServer.Proofs.Durability

/-! An aborted transaction stays away, as long as every crash finds it gone from
the saved log: ABORT itself does not save. -/

namespace TransactionalServer.Proofs.AbortFinality
open ServerTools LogHandler Exec Session Ledger Traces Completeness FileContents Immutability

variable {π : Type} {answer : Answer π} {fuel : Nat} {process next : Process π} {event : Process.Event π} {effects : List Effect} {tsn : Int}

/-- A crash finds the transaction gone from the saved log. -/
def SavedSince (answer : Answer π) (fuel : Nat) (tsn : Int) (process : Process π) : Process.Event π → Prop
  | .event _ => True
  | .crash during done _ =>
    (((Process.reached answer fuel process.server (Process.onDisk process.disk during)).take done).foldl Disk.apply process.disk).saved[tsn]? = none

/-- No NEW_TXN or MAKE_TXN creates the transaction. -/
def NotCreated (answer : Answer π) (fuel : Nat) (tsn : Int) (process : Process π) (event : Process.Event π) : Prop :=
  (eventScope (about event)).creates tsn → ∀ next, Process.step answer fuel process event = .ok next → next.server.log[tsn]? = none

/-- The appends of one transaction. -/
def appendsOf (tsn : Int) (disk : Disk) : List Append := disk.appended.filter (·.tsn = tsn)

/-- No event both creates and commits. -/
theorem scope_apart (event : System.Event) {created committed : Int} : (eventScope event).creates created → ¬ (eventScope event).commits committed := by
  intro creates commits
  cases event with
  | packet env auth header payload valid drawn =>
    obtain ⟨method, _⟩ := commits
    rcases creates with create | ⟨make, _⟩
    · rw [create] at method
      exact absurd method (by decide)
    · rw [make] at method
      exact absurd method (by decide)
  | sweep => exact creates
  | save => exact creates
  | tick => exact creates

/-- The transaction has no more appends than before, and it is not in memory
unless the event may have created it. -/
structure Gone (granted : Scope) (tsn : Int) (appended : List Append) (state : State) (disk : Disk) : Prop where
  appends : appendsOf tsn disk = appended
  absent : ¬ granted.creates tsn → state.log[tsn]? = none

theorem Gone.act {granted : Scope} {appended : List Append} {before next : State} {label : Option Effect} {disk : Disk}
    (gone : Gone granted tsn appended before disk) (positive : 1 ≤ tsn) (apart : granted.creates tsn → ∀ other, ¬ granted.commits other)
    (act : Act granted before label next) : Gone granted tsn appended next (label.elim disk disk.apply) := by
  refine ⟨?_, fun created => act_keeps_absent positive (gone.absent created) created act⟩
  cases act with
  | move => exact gone.appends
  | send => exact gone.appends
  | save => exact gone.appends
  | @append log written record _ _ _ _ _ allowed found =>
    have differs : written ≠ tsn := by
      intro same
      subst same
      have absent := gone.absent fun created => apart created written allowed
      rw [found.inLog] at absent
      cases absent
    simp only [appendsOf, Option.elim_some, Disk.apply, List.filter_append, List.filter_cons, differs, decide_false, Bool.false_eq_true, if_false,
      List.filter_nil, List.append_nil]
    exact gone.appends

/-- A step that does not create the transaction leaves it absent and unwritten. -/
theorem step_absent {appended : List Append} (positive : 1 ≤ tsn) (absent : process.server.log[tsn]? = none)
    (appends : appendsOf tsn process.disk = appended) (addressed : AddressedProcess event) (saved : SavedSince answer fuel tsn process event)
    (notCreated : NotCreated answer fuel tsn process event) (stepped : Process.step answer fuel process event = .ok next) :
    next.server.log[tsn]? = none ∧ appendsOf tsn next.disk = appended := by
  obtain ⟨effects, performed⟩ := step_performs stepped
  have start : Gone (eventScope (about event)) tsn appended ⟨process.server.log, false⟩ process.disk := ⟨appends, fun _ => absent⟩
  have acts (before : State) (label : Option Effect) (after : State) (disk : Disk)
      (gone : Gone (eventScope (about event)) tsn appended before disk) (act : Act (eventScope (about event)) before label after) :
      Gone (eventScope (about event)) tsn appended after (label.elim disk disk.apply) :=
    gone.act positive (fun created _ => scope_apart (about event) created) act
  cases event with
  | event event =>
    obtain ⟨run, disk⟩ := perform_completes addressed performed
    have gone := run.preserves acts start
    rw [← disk] at gone
    refine ⟨?_, gone.appends⟩
    by_cases created : (eventScope event).creates tsn
    · exact notCreated created next stepped
    · exact gone.absent created
  | crash during done restart =>
    obtain ⟨⟨state, run⟩, disk, loaded⟩ := perform_crashes addressed performed
    have gone := run.preserves acts start
    rw [← disk] at gone
    refine ⟨?_, gone.appends⟩
    rw [loaded tsn positive, disk]
    cases performed
    exact saved

/-- A COMMIT or WRITE of a transaction that is not in the log is refused. -/
theorem refused_of_absent {env : Env} {auth : Bool} {header : Text} {payload : Option Text} {server : Server π} {handled : Handled π}
    (absent : server.log[getTsn header]? = none) (method : parse header = 3 ∨ parse header = 5)
    (ran : receive answer fuel env server auth header payload = .ok handled) :
    handled.server = server ∧ ∃ packet, Refusal header packet ∧ handled.effects = [.send packet] := by
  have missing {record : Record} {status number : Text} (found : Found server.log (getTsn header) record status number) : False := by
    rw [found.inLog] at absent
    cases absent
  rcases receive_cases ran with ⟨same, _, _, packet, refusal, effects⟩ | ⟨executed, out, executes, follows⟩
  · exact ⟨same, packet, refusal, effects⟩
  have answers {out : Command π} (refusal : Refusal header out.error) (refused : out.ret = false) (same : out.server = server)
      (nothing : out.effects = []) (follows : Follows answer fuel env.io header out handled) :
      handled.server = server ∧ ∃ packet, Refusal header packet ∧ handled.effects = [.send packet] := by
    obtain rfl := follows.of_refused refused refusal.answered.ne_codes
    refine ⟨same, out.error, refusal, ?_⟩
    rw [nothing]
    rfl
  cases executes with
  | refused _ refusal => exact answers refusal rfl rfl rfl follows
  | commits _ commits =>
    cases commits with
    | absent _ text => exact answers ⟨_, _, _, Or.inl rfl, text⟩ rfl rfl rfl follows
    | already found | expired found | otherNumber found | nothing found | incomplete found | primary found | written found | failed found =>
      exact (missing found).elim
  | notAdded _ adds =>
    cases adds with
    | absent _ _ text => exact answers ⟨_, _, _, Or.inl rfl, text⟩ rfl rfl rfl follows
    | low _ text => exact answers ⟨_, _, _, Or.inl rfl, text⟩ rfl rfl rfl follows
    | committed _ found | expired _ found | duplicate _ found | above _ found | kept _ found | completes _ found | added _ found =>
      exact (missing found).elim
  | added _ adds kept =>
    cases adds with
    | absent | low => cases kept
    | committed _ found | expired _ found | duplicate _ found | above _ found | kept _ found | completes _ found | added _ found =>
      exact (missing found).elim
  | completed _ adds _ code =>
    cases adds with
    | absent _ _ text => exact absurd code (Answered.ne_codes ⟨_, _, _, text⟩).2
    | low _ text => exact absurd code (Answered.ne_codes ⟨_, _, _, text⟩).2
    | committed _ found | expired _ found | duplicate _ found | above _ found | kept _ found | completes _ found | added _ found =>
      exact (missing found).elim
  | read same | notAborted same | aborted same | created same | made same | pinged same | authenticated same | demoted same =>
    rw [same] at method
    exact absurd method (by decide)

/-- From any state: after an ABORT that was answered with an ACK, and as long as
every crash finds the transaction gone from the saved log and nothing creates it,
its COMMITs and WRITEs are refused and none of its data is appended. -/
theorem acknowledged_aborts_are_final {after : List (Process.Event π)} {final : Process π} {env : Env} {auth : Bool} {header packet : Text}
    {payload : Option Text} {valid : validHeader header = true} {drawn : ∀ draw ∈ env.draws, 1 ≤ draw ∧ draw ≤ 100000}
    (addressed : ∀ one ∈ event :: after, AddressedProcess one) (named : about event = .packet env auth header payload valid drawn)
    (method : parse header = 1) (performed : Process.perform answer fuel process event = .ok (next, effects)) (sent : .send packet ∈ effects)
    (ack : Acknowledges packet) (saved : Along (Process.step answer fuel) (SavedSince answer fuel (getTsn header)) process (event :: after))
    (notCreated : Along (Process.step answer fuel) (NotCreated answer fuel (getTsn header)) next after)
    (ran : after.foldlM (Process.step answer fuel) next = .ok final) :
    final.server.log[getTsn header]? = none ∧ appendsOf (getTsn header) final.disk = appendsOf (getTsn header) process.disk ∧
      ∀ (env : Env) (auth : Bool) (later : Text) (payload : Option Text) (handled : Handled π), getTsn later = getTsn header →
        parse later = 3 ∨ parse later = 5 → receive answer fuel env final.server auth later payload = .ok handled →
        handled.server = final.server ∧ ∃ packet, Refusal later packet ∧ handled.effects = [.send packet] := by
  have here : AddressedProcess event := addressed event List.mem_cons_self
  have positive : 1 ≤ getTsn header := here.header named (Or.inl method)
  obtain ⟨handled, received, rfl, disk, memory⟩ := acknowledged_step named here (Or.inl method) performed sent ack
  obtain ⟨effects, erased⟩ := abort_acknowledged method received sent ack
  have same : next.disk = process.disk := by
    rw [disk, effects]
    rfl
  have absent : next.server.log[getTsn header]? = none := by
    cases event with
    | event =>
      rw [memory, erased]
      exact Std.ExtTreeMap.getElem?_erase_self
    | crash =>
      obtain ⟨restarted, _⟩ := Prod.mk.inj (Except.ok.inj performed)
      rw [memory _ positive, ← restarted]
      exact saved.1
  have stepped : Process.step answer fuel process event = .ok next := by
    simp only [Process.step, performed, ok_bind, pure_eq_ok]
  have last : final.server.log[getTsn header]? = none ∧ appendsOf (getTsn header) final.disk = appendsOf (getTsn header) process.disk := by
    refine run_preserves (fun current => current.server.log[getTsn header]? = none ∧
        appendsOf (getTsn header) current.disk = appendsOf (getTsn header) process.disk) ?_
      (((along_of_forall (fun one member => addressed one (List.mem_cons_of_mem _ member)) next).and (saved.2 next stepped)).and notCreated)
      ⟨absent, by rw [same]⟩ ran
    intro current one following gone allowed stepped
    exact step_absent positive gone.1 gone.2 allowed.1.1 allowed.1.2 allowed.2 stepped
  refine ⟨last.1, last.2, ?_⟩
  intro env auth later payload handled names method received
  exact refused_of_absent (names ▸ last.1) method received

/-- A client aborts transaction 5. -/
def abortFive : System.Event := .packet {} false "ABORT 5 0 0" none (Eq.refl true) System.nothing_drawn

theorem abortFive_addressed : AddressedEvent abortFive := fun _ => by decide

/-- The server after the packets that the abort follows. -/
def writtenFive : List (Process.Event Unit) := [.event createFive, .event writeFive, .event .save]

/-- What the client is answered. -/
def aborted : Text := "ACK 5 0 0 7\r\n\r\nAborted\r\n"

theorem abort_is_answered : ∃ process next effects,
    writtenFive.foldlM (Process.step Backup.noPeer 2) (fresh alone fun _ => none) = .ok process ∧
      Process.perform Backup.noPeer 2 process (.event abortFive) = .ok (next, effects) ∧ .send aborted ∈ effects := by
  obtain ⟨process, reached⟩ : ∃ process, writtenFive.foldlM (Process.step Backup.noPeer 2) (fresh alone fun _ => none) = .ok process :=
    returned_of_isOk (by decide +kernel)
  have seen : (writtenFive.foldlM (Process.step Backup.noPeer 2) (fresh alone fun _ => none)).map
      (fun process => (Process.perform Backup.noPeer 2 process (.event abortFive)).map fun ran => ran.2.filterMap sentPacket) =
      .ok (.ok [aborted]) := by decide +kernel
  rw [reached] at seen
  replace seen : (Process.perform Backup.noPeer 2 process (.event abortFive)).map (fun ran => ran.2.filterMap sentPacket) = .ok [aborted] :=
    Except.ok.inj seen
  cases performed : Process.perform Backup.noPeer 2 process (.event abortFive) with
  | error halt =>
    rw [performed] at seen
    cases seen
  | ok ran =>
    rw [performed] at seen
    exact ⟨process, ran.1, ran.2, reached, performed, mem_of_sentPacket (Except.ok.inj seen)⟩

/-- The log is saved after the ABORT and before the crash: the COMMIT is refused. -/
theorem saved_abort_is_final : ∃ (final : Process Unit) (handled : Handled Unit) (packet : Text), final.server.log[(5 : Int)]? = none ∧
    receive Backup.noPeer 2 {} final.server false "COMMIT 5 1 0" none = .ok handled ∧ Refusal "COMMIT 5 1 0" packet ∧
      handled.effects = [.send packet] := by
  obtain ⟨process, next, effects, reached, performed, sent⟩ := abort_is_answered
  have stepped : Process.step Backup.noPeer 2 process (.event abortFive) = .ok next := by
    simp only [Process.step, performed, ok_bind, pure_eq_ok]
  have seen : ((writtenFive ++ [Process.Event.event abortFive]).foldlM (Process.step Backup.noPeer 2) (fresh alone fun _ => none) >>= fun next =>
      Process.step Backup.noPeer 2 next (.event .save)).map (fun process => process.disk.saved.contains 5) = .ok false := by decide +kernel
  have answered : ((writtenFive ++ [Process.Event.event abortFive]).foldlM (Process.step Backup.noPeer 2) (fresh alone fun _ => none) >>= fun next =>
      [.event .save, .crash .save 0 alone].foldlM (Process.step Backup.noPeer 2) next).map
        (fun final => (receive Backup.noPeer 2 {} final.server false "COMMIT 5 1 0" none).isOk) = .ok true := by decide +kernel
  rw [List.foldlM_append, reached, ok_bind, List.foldlM_cons, stepped, ok_bind, List.foldlM_nil, pure_eq_ok, ok_bind] at seen answered
  obtain ⟨final, ran⟩ : ∃ final, [Process.Event.event .save, .crash .save 0 alone].foldlM (Process.step Backup.noPeer 2) next = .ok final :=
    ⟨_, rfl⟩
  rw [ran] at answered
  obtain ⟨handled, received⟩ := returned_of_isOk (Except.ok.inj answered)
  have addressed : ∀ one ∈ ([.event abortFive, .event .save, .crash .save 0 alone] : List (Process.Event Unit)), AddressedProcess one := by
    intro one member
    simp only [List.mem_cons, List.not_mem_nil, or_false] at member
    rcases member with rfl | rfl | rfl
    · exact abortFive_addressed
    · exact trivial
    · exact trivial
  have saved : Along (Process.step Backup.noPeer 2) (SavedSince Backup.noPeer 2 (getTsn "ABORT 5 0 0")) process
      [.event abortFive, .event .save, .crash .save 0 alone] := by
    refine ⟨trivial, fun one here => ⟨trivial, fun two there => ⟨?_, fun _ _ => trivial⟩⟩⟩
    obtain rfl := Except.ok.inj (stepped.symm.trans here)
    rw [there] at seen
    exact Std.ExtTreeMap.getElem?_eq_none_of_contains_eq_false (Except.ok.inj seen)
  have notCreated : Along (Process.step Backup.noPeer 2) (NotCreated Backup.noPeer 2 (getTsn "ABORT 5 0 0")) next
      [.event .save, .crash .save 0 alone] :=
    ⟨fun created => created.elim, fun _ _ => ⟨fun created => created.elim, fun _ _ => trivial⟩⟩
  obtain ⟨absent, _, refused⟩ := acknowledged_aborts_are_final addressed rfl (by decide) performed sent (by decide) saved notCreated ran
  obtain ⟨_, packet, refusal, effects⟩ := refused {} false "COMMIT 5 1 0" none handled (by decide) (by decide) received
  exact ⟨final, handled, packet, absent, received, refusal, effects⟩

/-- A crash before the next save brings the transaction back: its COMMIT is
accepted and its line is appended. -/
theorem crashed_abort_is_forgotten : ∃ process next final effects,
    writtenFive.foldlM (Process.step Backup.noPeer 2) (fresh alone fun _ => none) = .ok process ∧
      Process.perform Backup.noPeer 2 process (.event abortFive) = .ok (next, effects) ∧ .send aborted ∈ effects ∧ Acknowledges aborted ∧
      [.crash .save 0 alone, .event commitFive].foldlM (Process.step Backup.noPeer 2) next = .ok final ∧
      appendsOf 5 next.disk = [] ∧ appendsOf 5 final.disk = [⟨5, "aa", ["xx"]⟩] := by
  obtain ⟨process, next, effects, reached, performed, sent⟩ := abort_is_answered
  have stepped : Process.step Backup.noPeer 2 process (.event abortFive) = .ok next := by
    simp only [Process.step, performed, ok_bind, pure_eq_ok]
  have seen : ((writtenFive ++ [Process.Event.event abortFive]).foldlM (Process.step Backup.noPeer 2) (fresh alone fun _ => none) >>= fun next =>
      ([.crash .save 0 alone, .event commitFive].foldlM (Process.step Backup.noPeer 2) next).map
        fun final => (appendsOf 5 next.disk, appendsOf 5 final.disk)) = .ok ([], [⟨5, "aa", ["xx"]⟩]) := by decide +kernel
  rw [List.foldlM_append, reached, ok_bind, List.foldlM_cons, stepped, ok_bind, List.foldlM_nil, pure_eq_ok, ok_bind] at seen
  cases ran : [.crash .save 0 alone, .event commitFive].foldlM (Process.step Backup.noPeer 2) next with
  | error halt =>
    rw [ran] at seen
    cases seen
  | ok final =>
    rw [ran] at seen
    obtain ⟨before, after⟩ := Prod.mk.inj (Except.ok.inj seen)
    exact ⟨process, next, final, effects, reached, performed, sent, by decide, ran, before, after⟩

end TransactionalServer.Proofs.AbortFinality
