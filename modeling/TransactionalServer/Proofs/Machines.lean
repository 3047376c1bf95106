import TransactionalServer.Library.Refinement
import TransactionalServer.Proofs.Turns

/-! The server is a product of independent machines, one for each transaction. What
it does with the record of one, what it sends about it and what it appends to its
file, the machine of that transaction says from the events that are about it. -/

namespace TransactionalServer.Proofs.Machines
open ServerTools LogHandler Exec Session Transaction Portrayal Turns FileContents SweepIndependence

/-- What a packet that is executed asks of a transaction. NEW_TXN is about the id
that it draws. -/
def requested (tsn : Int) (log : Log) (env : Env) (header data : Text) : Option Request :=
  match parse header with
  | 1 => if getTsn header = tsn then some .abort else none
  | 2 =>
    match newTxn log data env.draws with
    | .ok (_, _, id) => if id = tsn then some (.create data) else none
    | .error _ => none
  | 3 => if getTsn header = tsn then some (.commit (getSeq header)) else none
  | 5 => if getTsn header = tsn then some (.write (getSeq header) data) else none
  | 6 => if getTsn header = tsn then some (.copy data) else none
  | _ => none

/-- What a server shows of a turn, and has of it. -/
structure Performs (tsn : Int) (header : Text) (turn : Turn) (log : Log) (effects : List Effect) : Prop where
  replied : ∀ reply, turn.reply = some reply → Carries tsn header reply (effects.filterMap sentPacket)
  appended : appends effects = turn.appended.toList.map fun block => ⟨tsn, block.1, block.2⟩
  holds : Holds log tsn turn.next

/-- What an event is to a transaction. -/
def inputOf {π : Type} (tsn : Int) (server : Server π) (ending : Ending) : System.Event → Input
  | .packet env auth header payload _ _ =>
    if unauthorized server auth (parse header) = .ok false ∧ (needsData header = true → payload ≠ none) then
      match requested tsn server.log env header (payload.getD " ") with
      | some request => .request request ending
      | none => .nothing
    else .nothing
  | .sweep => .sweep
  | .save | .tick _ => .nothing

def headerOf : System.Event → Text
  | .packet _ _ header _ _ _ => header
  | .sweep | .save | .tick _ => []

def ioOf : System.Event → Bool
  | .packet env _ _ _ _ _ => env.io
  | .sweep | .save | .tick _ => true

/-- An event of the server beside a turn of the machine: the packets it sends about
the transaction and the lines it appends for it are what the turn says. -/
def Seen {π : Type} (answer : Answer π) (fuel : Nat) (tsn : Int) (server : Server π) (event : System.Event) (next : Server π) (input : Input)
    (turn : Turn) : Prop :=
  ∃ ending effects, Ends server.log (ioOf event) ending ∧ input = inputOf tsn server ending event ∧
    System.perform answer fuel server event = .ok (some next, effects) ∧
    (∀ reply, turn.reply = some reply → Carries tsn (headerOf event) reply (effects.filterMap sentPacket)) ∧
    (appends effects).filter (·.tsn = tsn) = turn.appended.toList.map fun block => ⟨tsn, block.1, block.2⟩

section
variable {π : Type} {answer : Answer π} {fuel : Nat} {server : Server π} {env : Env} {auth : Bool} {header data : Text} {tsn : Int}
  {out : Outcome} {turn : Ending → Turn} {command : Command π} {handled : Handled π} {transaction : Transaction} {number : Number}

theorem appends_sends {effects : List Effect} (sends : ∀ effect ∈ effects, ∃ packet, effect = .send packet) : appends effects = [] := by
  rw [List.eq_nil_iff_forall_not_mem]
  intro append member
  obtain ⟨packet, same⟩ := sends _ (mem_appends.mp member)
  cases same

/-- The requests for what a waiting transaction lacks. -/
theorem resend_carries {log : Log} {packets : List Effect} (holds : Holds log tsn (some (transaction.waitFor number)))
    (ran : sendAckResend log tsn = .ok packets) :
    Carries tsn header (.asksFor (transaction.missing number)) (packets.filterMap sentPacket) := by
  obtain ⟨record, inLog, keeps⟩ := holds
  obtain ⟨text, entry, kept⟩ := keeps.status
  have found : Found log tsn record "WAITING" text := ⟨inLog, entry⟩
  unfold sendAckResend at ran
  simp only [found.getStatusData, canCommit_of_get inLog, ok_bind, kept number rfl] at ran
  have packed : ∀ {asked : List Int} {packets : List Effect},
      asked.mapM (fun seq => do return Effect.send (← genAnswerStr "ACK_RESEND" (resendHeader tsn seq) "0" " ")) = .ok packets →
        asked.mapM (fun seq => genAnswerStr "ACK_RESEND" (resendHeader tsn seq) "0" " ") = .ok (packets.filterMap sentPacket) := by
    intro asked
    induction asked with
    | nil =>
      intro packets ran
      cases ran
      rfl
    | cons seq asked ih =>
      intro packets ran
      rw [List.mapM_cons] at ran
      obtain ⟨first, made, ran⟩ := bind_eq_ok.mp ran
      obtain ⟨rest, later, same⟩ := bind_eq_ok.mp ran
      obtain ⟨packet, text, sent⟩ := bind_eq_ok.mp made
      cases same
      cases sent
      rw [List.mapM_cons, text, ok_bind, ih later, ok_bind]
      rfl
  refine .asksFor ?_ ?_ (packed ran)
  · rw [List.pairwise_reverse]
    exact (missing_ordered keeps.low number)
  · intro seq
    rw [List.mem_reverse]
    exact keeps.mem_missing seq number

/-- A turn that answers is performed by what carries its answer. -/
theorem Performs.of_turn {next : Option Transaction} {reply : Reply} {block : Option (Text × List Text)} {turn : Turn} {log : Log}
    {effects : List Effect} (same : turn = { next, reply := some reply, appended := block })
    (text : Carries tsn header reply (effects.filterMap sentPacket))
    (appended : appends effects = block.toList.map fun block => ⟨tsn, block.1, block.2⟩) (holds : Holds log tsn next) :
    Performs tsn header turn log effects := by
  subst same
  refine ⟨?_, appended, holds⟩
  intro other same
  cases same
  exact text

section
variable (log : command.server.log = out.log)
include log

/-- A verdict that the session sends. -/
theorem answers_perform {next : Option Transaction} {reply : Reply} (refused : command.ret = false) (code : command.error = out.code)
    (effects : command.effects = out.effects) (turns : ∀ ending, Ends server.log env.io ending → turn ending = { next, reply := some reply })
    (text : Carries tsn header reply [out.code]) (answered : ∃ header, Answered header out.code) (holds : Holds out.log tsn next)
    (quiet : appends out.effects = [] ∧ out.effects.filterMap sentPacket = []) (follows : Follows answer fuel env.io header command handled) :
    ∃ ending, Ends server.log env.io ending ∧ Performs tsn header (turn ending) handled.server.log handled.effects := by
  obtain ⟨_, answered⟩ := answered
  obtain rfl := follows.of_refused refused (code ▸ answered.ne_codes)
  obtain ⟨ending, ends⟩ := ends_some server.log env.io
  refine ⟨ending, ends, .of_turn (turns ending ends) ?_ ?_ (log ▸ holds)⟩
  · rw [effects, List.filterMap_append, quiet.2, code]
    exact text
  · rw [effects, appends, List.filterMap_append]
    exact congrArg (· ++ []) quiet.1

/-- A backup that has written its file says so. -/
theorem written_performs {done : Transaction} {block : Text × List Text} (refused : command.ret = false) (code : command.error = "committed")
    (effects : command.effects = out.effects) (backup : NotPrimary command.server.log) (ends : Ends server.log env.io .appended)
    (turns : turn .appended = { tell (some done) "ACK" "0" "Committed successfully." with appended := some block })
    (holds : Holds out.log tsn (some done)) (appended : appends out.effects = [⟨tsn, block.1, block.2⟩])
    (unsent : out.effects.filterMap sentPacket = []) (follows : Follows answer fuel env.io header command handled) :
    ∃ ending, Ends server.log env.io ending ∧ Performs tsn header (turn ending) handled.server.log handled.effects := by
  obtain ⟨done, concludes, rfl⟩ := follows.of_committed refused code
  cases concludes with
  | refused primary | exits primary | finishes primary => exact absurd primary backup
  | acknowledged read other text =>
    refine ⟨.appended, ends, .of_turn turns ?_ ?_ (log ▸ holds)⟩
    · rw [effects, List.filterMap_append, unsent]
      exact .verdict text
    · rw [effects, appends, List.filterMap_append]
      exact congrArg (· ++ []) appended

/-- A primary asks its backup, and writes its file when that agrees. -/
theorem deferred_performs {writing : Transaction} (positive : 1 ≤ getTsn header) (refused : command.ret = false) (code : command.error = "committed")
    (effects : command.effects = [.save out.log]) (primary : getServerStatus server.log = .ok "primary")
    (role : getServerStatus out.log = getServerStatus server.log) (phase : writing.phase = .writing number)
    (refuses : turn .refused = tell (some writing) "ERROR" "205" "commit fail, i/o error")
    (finishes : turn .appended = { tell (some writing.finish) "ACK" "0" "Committed successfully." with
      appended := some (writing.path, writing.block number) })
    (holds : Holds out.log (getTsn header) (some writing)) (follows : Follows answer fuel env.io header command handled)
    (runs : handled.exited = false) :
    ∃ ending, Ends server.log env.io ending ∧ Performs (getTsn header) header (turn ending) handled.server.log handled.effects := by
  obtain ⟨done, concludes, rfl⟩ := follows.of_committed refused code
  have keeps {message : Text} {result : Bool} {final : Server π}
      (ran : ReplicationManager.commit answer fuel command.server message = .ok (result, final)) :
      Holds final.log (getTsn header) (some writing) := by
    have kept := (manager_keeps answer fuel).2.1 _ _ _ _ ran
    rw [log] at kept
    exact holds.moved (kept.other (by omega))
  cases concludes with
  | acknowledged read other =>
    rw [log, role, primary] at read
    exact absurd (Except.ok.inj read).symm other
  | exits => cases runs
  | refused _ ran text =>
    have ends : Ends server.log env.io .refused := by
      rw [Ends, if_pos primary]
      exact Or.inl rfl
    refine ⟨.refused, ends, .of_turn refuses ?_ ?_ (keeps ran)⟩
    · rw [effects]
      exact .verdict text
    · rw [effects]
      rfl
  | finishes _ ran written marks text =>
    have still := keeps ran
    obtain ⟨io, rfl⟩ := writes_block still phase written
    obtain ⟨record, status, bound, found, rfl⟩ := changeStatus_cases marks
    obtain ⟨kept, _, same⟩ := transaction_of_found still found
    have done : writing.finish.phase = .committed number := by
      show writing.phase.finished = _
      rw [phase]
      rfl
    have ends : Ends server.log env.io .appended := by
      rw [Ends, if_pos primary]
      exact Or.inr ⟨rfl, io⟩
    refine ⟨.appended, ends, .of_turn finishes ?_ ?_ ?_⟩
    · rw [effects]
      exact .verdict text
    · rw [effects]
      rfl
    · rw [phase] at same
      refine kept.toBody.marked writing.finish ⟨rfl, rfl, rfl⟩ ?_ ?_
      · rw [done]
        rfl
      · rw [done]
        exact same

end

theorem leaves_performs (leaves : Leaves server.log (getTsn header) header env.io turn out) (positive : 1 ≤ getTsn header)
    (role : getServerStatus out.log = getServerStatus server.log) (log : command.server.log = out.log) (ret : command.ret = out.ret)
    (code : command.error = out.code)
    (effects : if out.ret then ∃ ack, genAnswerStr "ACK" header "0" " " = .ok ack ∧ command.effects = out.effects ++ [.send ack]
      else command.effects = out.effects)
    (follows : Follows answer fuel env.io header command handled) (runs : handled.exited = false) :
    ∃ ending, Ends server.log env.io ending ∧ Performs (getTsn header) header (turn ending) handled.server.log handled.effects := by
  cases leaves with
  | answers turns refused text answered holds quiet =>
    rw [refused] at ret effects
    exact answers_perform log ret code effects turns text answered holds quiet follows
  | accepts turns kept holds quiet =>
    rw [kept] at ret effects
    obtain ⟨ack, made, effects⟩ := effects
    obtain rfl := follows.of_done ret
    obtain ⟨ending, ends⟩ := ends_some server.log env.io
    refine ⟨ending, ends, .of_turn (turns ending) ?_ ?_ (log ▸ holds)⟩
    · rw [effects, quiet]
      exact .verdict made
    · rw [effects, quiet]
      rfl
  | @waits transaction number turns refused asked holds quiet =>
    rw [refused] at ret effects
    have effects : command.effects = out.effects := effects
    obtain ⟨packets, missing, rfl⟩ := follows.of_incomplete ret (code.trans asked)
    obtain ⟨ending, ends⟩ := ends_some server.log env.io
    rw [log] at missing
    have carried : Carries (getTsn header) header (.asksFor (transaction.missing number)) (packets.filterMap sentPacket) := resend_carries holds missing
    have silent : appends packets = [] := appends_sends (sendAckResend_effects missing)
    refine ⟨ending, ends, .of_turn (turns ending) ?_ ?_ (log ▸ holds)⟩
    · rw [effects, quiet]
      exact carried
    · rw [effects, quiet]
      exact silent
  | writes backup written turns refused committed holds appended unsent =>
    rw [refused] at ret effects
    have still : NotPrimary command.server.log := by
      intro primary
      rw [log, role] at primary
      exact backup primary
    have ends : Ends server.log env.io .appended := by
      rw [Ends, if_neg backup, written]
      rfl
    exact written_performs log ret (code.trans committed) effects still ends turns holds appended unsent follows
  | defers primary phase refuses finishes refused committed holds quiet =>
    rw [refused] at ret effects
    have effects : command.effects = out.effects := effects
    exact deferred_performs log positive ret (code.trans committed) (effects.trans quiet) primary role phase refuses finishes holds follows runs

theorem receive_dispatches {payload : Option Text} (executed : Executed server auth header payload)
    (ran : receive answer fuel env server auth header payload = .ok handled) :
    dispatch answer fuel env server auth header (payload.getD " ") = .ok handled := by
  cases payload with
  | some data => exact ran
  | none =>
    have unneeded : needsData header = false := by
      by_contra needed
      exact executed.complete (by simpa using needed) rfl
    simp only [Session.receive, unneeded, Bool.false_eq_true, if_false] at ran
    exact ran

theorem create_executes {created : Log} {effects : List Effect} (authorized : unauthorized server auth (parse header) = .ok false)
    (method : parse header = 2) (drawn : newTxn server.log data env.draws = .ok (created, effects, tsn)) (valid : tsn ≠ 0)
    (ran : executeCommand env server auth (parse header) header data = .ok command) :
    ∃ queued, ReplicationManager.enqueue { server with log := created } ("MAKE_TXN " ++ iToS tsn ++ " 0 0 0") data = .ok queued ∧
      command = { server := queued, auth, ret := true,
                  effects := effects ++ [.send ("ACK\t" ++ iToS tsn ++ "\t0" ++ "\t0" ++ "\t0" ++ "\r\n\r\n\r\n")] } := by
  rw [method] at ran authorized
  simp only [executeCommand, authorized, ok_bind, Bool.false_eq_true, if_false, drawn, valid] at ran
  obtain ⟨queued, enqueued, same⟩ := bind_eq_ok.mp ran
  cases same
  exact ⟨queued, enqueued, rfl⟩

section
variable {slot : Option Transaction} (positive : 1 ≤ getTsn header) (holds : Holds server.log (getTsn header) slot)
  (authorized : unauthorized server auth (parse header) = .ok false) (executes : Executes server env auth header data command)
  (follows : Follows answer fuel env.io header command handled) (runs : handled.exited = false)
include positive holds authorized executes follows runs

theorem abort_performs (method : parse header = 1) :
    ∃ ending, Ends server.log env.io ending ∧ Performs (getTsn header) header (handle slot ending .abort) handled.server.log handled.effects := by
  have other (method' : Nat) (equal : parse header = method') : method' = 1 := equal.symm.trans method
  cases executes with
  | refused cause =>
    rcases cause with denied | outside
    · cases authorized.symm.trans denied
    · exact absurd (Or.inl method) outside
  | @notAborted out _ aborts kept =>
    have leaves : Leaves server.log (getTsn header) header env.io (fun ending => handle slot ending .abort) out := by
      cases aborts with
      | absent absent text =>
        obtain rfl := holds.absent absent
        exact leaves_verdict (fun _ => rfl) text holds
      | committed found text =>
        obtain ⟨transaction, rfl, _, status, _⟩ := holds.found found
        obtain ⟨bound, phase⟩ := word_committed status
        refine leaves_verdict (fun ending => ?_) text holds
        simp only [handle, Option.elim_some, Transaction.abort, phase]
      | expired found text =>
        obtain ⟨transaction, rfl, _, status, _⟩ := holds.found found
        refine leaves_verdict (fun ending => ?_) text holds
        simp only [handle, Option.elim_some, Transaction.abort, word_expired status]
      | erased => cases kept
    refine leaves_performs leaves positive (getServerStatus_of_get (aborts.frame (by omega))) rfl rfl rfl ?_ follows runs
    rw [kept]
    rfl
  | @aborted out queued ack _ aborts erased enqueued answered =>
    obtain rfl := follows.of_done rfl
    cases aborts with
    | absent | committed | expired => cases erased
    | erased found notCommitted notExpired =>
      obtain ⟨transaction, rfl, _, status, _⟩ := holds.found found
      have takes := takes_of_word status notCommitted notExpired
      obtain ⟨ending, ends⟩ := ends_some server.log env.io
      have turn : handle (some transaction) ending .abort = tell none "ACK" "0" "Aborted" := abort_takes takes
      refine ⟨ending, ends, .of_turn turn (.verdict answered) rfl ?_⟩
      rw [enqueue_log enqueued]
      exact Std.ExtTreeMap.getElem?_erase_self
  | created equal | commits equal | read equal | added equal | completed equal | notAdded equal | made equal | pinged equal | authenticated equal
  | demoted equal => cases other _ equal

theorem commit_performs (method : parse header = 3) :
    ∃ ending, Ends server.log env.io ending ∧
      Performs (getTsn header) header (handle slot ending (.commit (getSeq header))) handled.server.log handled.effects := by
  have other (method' : Nat) (equal : parse header = method') : method' = 3 := equal.symm.trans method
  cases executes with
  | refused cause =>
    rcases cause with denied | outside
    · cases authorized.symm.trans denied
    · exact absurd (Or.inr (Or.inl method)) outside
  | commits _ commits =>
    refine leaves_performs (commits_leave commits positive holds) positive (getServerStatus_of_get (commits.frame (by omega))) rfl rfl rfl ?_ follows runs
    rw [commits.ret]
    rfl
  | created equal | notAborted equal | aborted equal | read equal | added equal | completed equal | notAdded equal | made equal | pinged equal
  | authenticated equal | demoted equal => cases other _ equal

theorem write_performs (method : parse header = 5) :
    ∃ ending, Ends server.log env.io ending ∧
      Performs (getTsn header) header (handle slot ending (.write (getSeq header) data)) handled.server.log handled.effects := by
  have other (method' : Nat) (equal : parse header = method') : method' = 5 := equal.symm.trans method
  have role {out : Outcome} (adds : Adds server.log header data env.io out) : getServerStatus out.log = getServerStatus server.log :=
    getServerStatus_of_get (adds.frame (by omega))
  cases executes with
  | refused cause =>
    rcases cause with denied | outside
    · cases authorized.symm.trans denied
    · exact absurd (Or.inr (Or.inr (Or.inl method))) outside
  | added _ adds kept enqueued answered =>
    refine leaves_performs (adds_leave adds positive holds) positive (role adds) (enqueue_log enqueued) kept.symm rfl ?_ follows runs
    rw [kept]
    exact ⟨_, answered, rfl⟩
  | completed _ adds refused _ enqueued =>
    refine leaves_performs (adds_leave adds positive holds) positive (role adds) (enqueue_log enqueued) refused.symm rfl ?_ follows runs
    rw [refused]
    rfl
  | notAdded _ adds refused =>
    refine leaves_performs (adds_leave adds positive holds) positive (role adds) rfl rfl rfl ?_ follows runs
    rw [refused]
    rfl
  | created equal | notAborted equal | aborted equal | read equal | commits equal | made equal | pinged equal | authenticated equal
  | demoted equal => cases other _ equal

end

theorem copy_performs {slot : Option Transaction} (holds : Holds server.log (getTsn header) slot)
    (authorized : unauthorized server auth (parse header) = .ok false) (executes : Executes server env auth header data command)
    (follows : Follows answer fuel env.io header command handled) (method : parse header = 6) :
    ∃ ending, Ends server.log env.io ending ∧
      Performs (getTsn header) header (handle slot ending (.copy data)) handled.server.log handled.effects := by
  have other (method' : Nat) (equal : parse header = method') : method' = 6 := equal.symm.trans method
  cases executes with
  | refused cause =>
    rcases cause with denied | outside
    · cases authorized.symm.trans denied
    · exact absurd (Or.inr (Or.inr (Or.inr method))) outside
  | @made _ _ _ ack _ makes answered =>
    obtain rfl := follows.of_done rfl
    obtain ⟨ending, ends⟩ := ends_some server.log env.io
    rcases makeTxn_cases makes with ⟨absent, rfl, rfl⟩ | ⟨present, rfl, rfl⟩
    · obtain rfl := holds.absent absent
      exact ⟨ending, ends, .of_turn rfl (.verdict answered) rfl ⟨freshRecord data, Std.ExtTreeMap.getElem?_insert_self, fresh_keeps data⟩⟩
    · refine ⟨ending, ends, .of_turn rfl (.verdict answered) rfl ?_⟩
      cases slot with
      | none =>
        rw [Store.contains_of_absent holds] at present
        cases present
      | some transaction => exact holds
  | created equal | notAborted equal | aborted equal | read equal | commits equal | added equal | completed equal | notAdded equal | pinged equal
  | authenticated equal | demoted equal => cases other _ equal

theorem create_performs {slot : Option Transaction} {created : Log} {effects : List Effect} (positive : 1 ≤ tsn) (holds : Holds server.log tsn slot)
    (authorized : unauthorized server auth (parse header) = .ok false) (method : parse header = 2)
    (drawn : newTxn server.log data env.draws = .ok (created, effects, tsn))
    (ran : executeCommand env server auth (parse header) header data = .ok command) (follows : Follows answer fuel env.io header command handled) :
    ∃ ending, Ends server.log env.io ending ∧ Performs tsn header (handle slot ending (.create data)) handled.server.log handled.effects := by
  obtain ⟨queued, enqueued, rfl⟩ := create_executes authorized method drawn (by omega) ran
  obtain rfl := follows.of_done rfl
  rcases newTxn_cases drawn with ⟨_, _, rfl, _⟩ | ⟨_, _, absent, rfl, rfl⟩
  · omega
  obtain rfl := holds.absent absent
  obtain ⟨ending, ends⟩ := ends_some server.log env.io
  refine ⟨ending, ends, .of_turn rfl .names rfl ?_⟩
  rw [enqueue_log enqueued]
  exact ⟨freshRecord data, Std.ExtTreeMap.getElem?_insert_self, fresh_keeps data⟩

/-- A packet that asks something of a transaction is a turn of its machine. -/
theorem request_performs {slot : Option Transaction} {request : Request} (authorized : unauthorized server auth (parse header) = .ok false)
    (asks : requested tsn server.log env header data = some request) (positive : 1 ≤ tsn) (holds : Holds server.log tsn slot)
    (ran : executeCommand env server auth (parse header) header data = .ok command)
    (follows : Follows answer fuel env.io header command handled) (runs : handled.exited = false) :
    ∃ ending, Ends server.log env.io ending ∧ Performs tsn header (handle slot ending request) handled.server.log handled.effects := by
  have executes := executeCommand_cases ran
  unfold requested at asks
  split at asks
  next method =>
    obtain ⟨rfl, same⟩ := Option.ite_none_right_eq_some.mp asks
    cases same
    exact abort_performs positive holds authorized executes follows runs method
  next method =>
    split at asks
    next created effects id drawn =>
      obtain ⟨rfl, same⟩ := Option.ite_none_right_eq_some.mp asks
      cases same
      exact create_performs positive holds authorized method drawn ran follows
    next => cases asks
  next method =>
    obtain ⟨rfl, same⟩ := Option.ite_none_right_eq_some.mp asks
    cases same
    exact commit_performs positive holds authorized executes follows runs method
  next method =>
    obtain ⟨rfl, same⟩ := Option.ite_none_right_eq_some.mp asks
    cases same
    exact write_performs positive holds authorized executes follows runs method
  next method =>
    obtain ⟨rfl, same⟩ := Option.ite_none_right_eq_some.mp asks
    cases same
    exact copy_performs holds authorized executes follows method
  next => cases asks

theorem apart_of_unasked (asks : requested tsn server.log env header data = none) : (Replicated header → getTsn header ≠ tsn) ∧
    (parse header = 2 → ∀ created effects, newTxn server.log data env.draws ≠ .ok (created, effects, tsn)) := by
  unfold requested at asks
  constructor
  · intro replicated same
    rcases replicated with method | method | method | method
    all_goals
      rw [method] at asks
      simp only [same, if_true, reduceCtorEq] at asks
  · intro method created effects drawn
    rw [method] at asks
    simp only [drawn, if_true, reduceCtorEq] at asks

theorem commits_append {log : Log} {io : Bool} (commits : Commits log header io out) {append : Append} (member : append ∈ appends out.effects) :
    append.tsn = getTsn header := by
  cases commits with
  | absent | already | expired | otherNumber | nothing | incomplete | primary | failed => cases member
  | written => rw [List.mem_singleton.mp (show append ∈ [_] from member)]

theorem adds_append {log : Log} {io : Bool} (adds : Adds log header data io out) {append : Append} (member : append ∈ appends out.effects) :
    append.tsn = getTsn header := by
  cases adds with
  | low | absent | committed | expired | duplicate | above | kept | added => cases member
  | completes _ _ _ _ _ _ commits => rw [commits_append commits member, pendingCommit_getTsn (getTsn_isInt header)]

theorem executes_append (executes : Executes server env auth header data command) {append : Append} (member : append ∈ appends command.effects) :
    append.tsn = getTsn header ∧ (parse header = 3 ∨ parse header = 5) := by
  cases executes with
  | refused | read | pinged | authenticated | demoted | aborted => cases member
  | notAborted _ aborts =>
    simp only [ofOutcome, aborts.effects] at member
    cases member
  | created _ drawn =>
    rcases newTxn_cases drawn with ⟨_, rfl, _⟩ | ⟨_, _, _, _, rfl⟩
    · cases member
    · cases member
  | made _ makes =>
    rcases makeTxn_cases makes with ⟨_, _, rfl⟩ | ⟨_, _, rfl⟩
    · cases member
    · cases member
  | commits method commits => exact ⟨commits_append commits member, Or.inl method⟩
  | completed method adds => exact ⟨adds_append adds member, Or.inr method⟩
  | notAdded method adds => exact ⟨adds_append adds member, Or.inr method⟩
  | added method adds =>
    rw [appends, List.filterMap_append, List.mem_append] at member
    rcases member with before | sent
    · exact ⟨adds_append adds before, Or.inr method⟩
    · cases sent

theorem concludes_append {io : Bool} (concludes : Concludes answer fuel io server auth header handled) {append : Append}
    (member : append ∈ appends handled.effects) : append.tsn = getTsn header := by
  cases concludes with
  | acknowledged | refused | exits => cases member
  | finishes _ _ written =>
    rcases writeFile_cases written with ⟨_, _, path, lines, rfl, _⟩ | ⟨impossible, _⟩
    · rw [List.mem_singleton.mp (show append ∈ [_] from member)]
    · cases impossible

/-- Only a COMMIT or a WRITE of a transaction appends, and for that transaction. -/
theorem receive_append {payload : Option Text} (received : Session.receive answer fuel env server auth header payload = .ok handled)
    {append : Append} (member : append ∈ appends handled.effects) : append.tsn = getTsn header ∧ (parse header = 3 ∨ parse header = 5) := by
  rcases receive_cases received with ⟨_, _, _, packet, _, effects⟩ | ⟨_, command, executes, follows⟩
  · rw [effects] at member
    cases member
  cases follows with
  | returned => exact executes_append executes member
  | asks _ _ missing =>
    rw [appends, List.filterMap_append, List.mem_append] at member
    rcases member with before | sent
    · exact executes_append executes before
    · have silent := appends_sends (sendAckResend_effects missing)
      rw [appends] at silent
      rw [silent] at sent
      cases sent
  | answers =>
    rw [appends, List.filterMap_append, List.mem_append] at member
    rcases member with before | sent
    · exact executes_append executes before
    · cases sent
  | concludes refused code concludes =>
    rw [appends, List.filterMap_append, List.mem_append] at member
    rcases member with before | after
    · exact executes_append executes before
    · exact ⟨concludes_append concludes after, executes.committed_method refused code⟩

theorem silent_carries {turn : Turn} {packets : List Text} (silent : turn.reply = none) (reply : Reply) (told : turn.reply = some reply) :
    Carries tsn header reply packets := by
  rw [silent] at told
  cases told

/-- A step of the server is a turn of each of its machines. -/
theorem step_simulates (answer : Answer π) (fuel : Nat) (positive : 1 ≤ tsn) :
    Refinement.Simulates (System.step answer fuel) react Turn.next (Seen answer fuel tsn) fun server slot => Holds server.log tsn slot := by
  intro server next event slot holds stepped
  obtain ⟨⟨running, effects⟩, performed, finished⟩ := bind_eq_ok.mp stepped
  obtain rfl := finished_eq_ok.mp finished
  obtain ⟨some', ends⟩ := ends_some server.log (ioOf event)
  have idle (same : next.log[tsn]? = server.log[tsn]?) (quiet : ∀ append ∈ appends effects, append.tsn ≠ tsn)
      (nothing : inputOf tsn server some' event = .nothing) :
      ∃ input, Seen answer fuel tsn server event next input (react slot input) ∧ Holds next.log tsn (react slot input).next := by
    refine ⟨.nothing, ⟨some', effects, ends, nothing.symm, performed, silent_carries rfl, ?_⟩, holds.moved same⟩
    rw [List.filter_eq_nil_iff.mpr fun append member => by simpa using quiet append member]
    rfl
  cases event with
  | packet env auth header payload valid drawn =>
    obtain ⟨handled, received, same⟩ := bind_eq_ok.mp performed
    obtain ⟨running, rfl⟩ := Prod.mk.inj (Except.ok.inj same)
    have runs : handled.exited = false := by
      cases exited : handled.exited with
      | false => rfl
      | true =>
        rw [exited] at running
        cases running
    rw [runs] at running
    obtain rfl := Option.some.inj running
    by_cases executed : unauthorized server auth (parse header) = .ok false ∧ (needsData header = true → payload ≠ none)
    · obtain ⟨command, ran, follows⟩ := dispatch_cases (receive_dispatches ⟨executed.1, executed.2⟩ received)
      cases asks : requested tsn server.log env header (payload.getD " ") with
      | some request =>
        obtain ⟨ending, ends, performs⟩ := request_performs executed.1 asks positive holds ran follows runs
        refine ⟨.request request ending, ⟨ending, handled.effects, ends, ?_, performed, performs.replied, ?_⟩, performs.holds⟩
        · simp only [inputOf, if_pos executed, asks]
        · rw [performs.appended]
          apply List.filter_eq_self.mpr
          intro append member
          obtain ⟨block, _, rfl⟩ := List.mem_map.mp member
          exact decide_eq_true rfl
      | none =>
        obtain ⟨other, undrawn⟩ := apart_of_unasked asks
        refine idle (receive_elsewhere positive other undrawn received) ?_ ?_
        · intro append member own
          obtain ⟨about, method⟩ := receive_append received member
          exact other (Or.inr (method.imp id Or.inl)) (about.symm.trans own)
        · simp only [inputOf, if_pos executed, asks]
    · obtain ⟨still, text, _, effects⟩ := receive_idle (fun other => executed ⟨other.authorized, other.complete⟩) received
      refine idle (by rw [still]) ?_ (if_neg executed)
      intro append member
      rw [effects] at member
      cases member
  | sweep =>
    obtain ⟨⟨log, dangling⟩, swept, same⟩ := bind_eq_ok.mp performed
    cases same
    exact ⟨.sweep, ⟨some', _, ends, rfl, performed, silent_carries rfl, rfl⟩, holds.swept positive (timeouts_get swept tsn)⟩
  | save =>
    cases performed
    exact idle rfl (List.forall_mem_nil _) rfl
  | tick tick =>
    obtain ⟨ticked, checked, same⟩ := bind_eq_ok.mp performed
    cases same
    exact idle (check_transactions checked tsn positive) (List.forall_mem_nil _) rfl

/-- Every run of the server is, for each of its transactions, a run of that
transaction's machine on the events that are about it. -/
theorem transactions_are_independent_machines {slot : Option Transaction} {final : Server π} {events : List System.Event} (positive : 1 ≤ tsn)
    (holds : Holds server.log tsn slot) (ran : events.foldlM (System.step answer fuel) server = .ok final) :
    ∃ inputs played, Refinement.Plays (System.step answer fuel) react Turn.next (Seen answer fuel tsn) server slot events inputs final played ∧
      Holds final.log tsn played :=
  (step_simulates answer fuel positive).run holds ran

end

private def lonely : Server Unit := System.start ⟨"ip", "80", "dir"⟩ true ∅ () [] []

private def request (header : Text) (payload : Option Text) (valid : validHeader header = true) : System.Event :=
  .packet {} true header payload valid System.nothing_drawn

/-- The second line comes first, is committed too early, and is written with the first one. -/
private def outOfOrder : List System.Event :=
  [request "MAKE_TXN 5 0 3" (some "aa") (Eq.refl true), request "WRITE 5 2 3" (some "two") (Eq.refl true),
    request "COMMIT 5 2 0" none (Eq.refl true), .sweep, request "WRITE 5 1 3" (some "one") (Eq.refl true)]

theorem late_line_commits_the_transaction : ∃ final inputs transaction number, outOfOrder.foldlM (System.step Backup.noPeer 2) lonely = .ok final ∧
    Refinement.Plays (System.step Backup.noPeer 2) react Turn.next (Seen Backup.noPeer 2 5) lonely none outOfOrder inputs final (some transaction) ∧
    transaction.phase = .committed number := by
  obtain ⟨final, ran⟩ := returned_of_isOk (show (outOfOrder.foldlM (System.step Backup.noPeer 2) lonely).isOk by decide +kernel)
  have seen : (outOfOrder.foldlM (System.step Backup.noPeer 2) lonely).map (fun final => final.log[(5 : Int)]?.bind fun record => record[(-1 : Int)]?) =
      .ok (some (("COMMITTED" : Text), ("2" : Text))) := by decide +kernel
  rw [ran] at seen
  obtain ⟨record, inLog, entry⟩ := Option.bind_eq_some_iff.mp (Except.ok.inj seen)
  have absent : Holds lonely.log 5 none := by
    show lonely.log[(5 : Int)]? = none
    decide +kernel
  obtain ⟨inputs, played, plays, holds⟩ := transactions_are_independent_machines (by decide) absent ran
  obtain ⟨transaction, rfl, _, status, _⟩ := holds.found ⟨inLog, entry⟩
  obtain ⟨number, phase⟩ := word_committed status
  exact ⟨final, inputs, transaction, number, ran, plays, phase⟩

end TransactionalServer.Proofs.Machines
