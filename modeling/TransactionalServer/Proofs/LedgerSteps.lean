import TransactionalServer.Ledger
import TransactionalServer.Proofs.CommitDecision
import TransactionalServer.Proofs.SessionSteps
import TransactionalServer.Proofs.SweepSteps
import TransactionalServer.System

/-! A server does only what the ledger allows: its operations, its sessions, its
sweep and its manager are runs of the ledger. -/

namespace TransactionalServer.Proofs
open ServerTools LogHandler Exec Session Ledger Traces

/-- A packet whose method changes a transaction names one. -/
def Addressed (header : Text) : Prop := Replicated header → 1 ≤ getTsn header

/-- The ids that a packet may create, commit and remove. -/
def scope (header : Text) : Scope where
  creates tsn := parse header = 2 ∨ (parse header = 6 ∧ tsn = getTsn header)
  commits tsn := (parse header = 3 ∨ parse header = 5) ∧ tsn = getTsn header
  removes tsn := parse header = 1 ∧ tsn = getTsn header

section
variable {granted : Scope} {log after : Log} {header data : Text} {io : Bool} {out : Outcome} {tsn seq : Int} {record : Record}
  {status number : Text}

theorem runs_move (move : Move granted log after) : Runs granted log [] after := .one (.move move)

theorem runs_save (log : Log) : Runs granted log [.save log] log := .single (.save log false)

theorem runs_sends (log : Log) {effects : List Effect} (sends : ∀ effect ∈ effects, ∃ packet, effect = .send packet) :
    Runs granted log effects log := by
  induction effects with
  | nil => exact .done _
  | cons effect effects ih =>
    obtain ⟨packet, rfl⟩ := sends effect List.mem_cons_self
    exact .effect (.send log packet) (ih (fun other member => sends other (List.mem_cons_of_mem _ member)))

theorem runs_send (log : Log) (packet : Text) : Runs granted log [.send packet] log := .single (.send log packet)

/-- A transaction waits for a commit, and the log is saved. -/
theorem runs_waiting (positive : 1 ≤ tsn) (found : Found log tsn record status number) (notCommitted : status ≠ "COMMITTED") (data : Text) :
    Runs granted log [.save (mark log tsn record "WAITING" data)] (mark log tsn record "WAITING" data) := by
  refine .silent (.move (.mark _ _ positive found notCommitted (by decide) ?_)) (runs_save _)
  intro writing
  exact absurd writing (by decide)

/-- A complete transaction goes to writing, and the log is saved. -/
theorem runs_writing (positive : 1 ≤ tsn) (found : Found log tsn record status number) (notCommitted : status ≠ "COMMITTED")
    (range : IsInt seq) (high : 1 ≤ seq) (complete : missing record seq = []) :
    Runs granted log [.save (mark log tsn record "WRITING" (iToS seq))] (mark log tsn record "WRITING" (iToS seq)) := by
  refine .silent (.move (.mark _ _ positive found notCommitted (by decide) ?_)) (runs_save _)
  intro _
  rw [atoi_iToS range]
  exact ⟨high, fun key from1 below => mem_of_gapless (Store.mem_iff_get.mpr ⟨_, found.entry⟩) complete from1 below⟩

/-- The append of a transaction in writing commits it. -/
theorem runs_append (positive : 1 ≤ tsn) (allowed : granted.commits tsn) (found : Found log tsn record "WRITING" number) {path : Text} {lines : List Text}
    (written : writeFile log tsn io = .ok (true, [.append tsn path lines])) :
    Runs granted log [.append tsn path lines, .save (mark log tsn record "COMMITTED" number)]
      (mark log tsn record "COMMITTED" number) := by
  rcases writeFile_cases written with ⟨_, _, _, _, same, named, bound, number, read⟩ | ⟨absurd, _⟩
  · cases same
    rw [found.getStatusData, Except.ok.injEq] at number
    subst number
    obtain ⟨⟨marker, _⟩, file, same⟩ := bind_eq_ok.mp named
    cases same
    obtain ⟨again, inLog, file⟩ := pair_eq_ok.mp file
    obtain rfl := Option.some.inj (found.inLog.symm.trans inLog)
    exact .effect (.append positive allowed found file read) (.single (.save _ true))
  · cases absurd

theorem Commits.runs (commits : Commits log header io out) (positive : 1 ≤ getTsn header) (commit : granted.commits (getTsn header)) :
    Runs granted log out.effects out.log := by
  have range := getSeq_isInt header
  cases commits with
  | absent | already | expired | otherNumber | nothing => exact .done _
  | incomplete found allowed _ _ marked =>
    subst marked
    exact runs_waiting positive found allowed.committed _
  | primary found allowed high complete marked =>
    subst marked
    exact runs_writing positive found allowed.committed range high complete
  | written found allowed high complete marked _ _ appended finished =>
    subst marked finished
    have append : Runs granted _ _ _ := runs_append positive commit (mark_found _ _ _ _ _) appended
    rw [mark_mark] at append
    exact (runs_writing positive found allowed.committed range high complete).trans append
  | @failed record _ _ _ _ found allowed high complete _ _ marked _ _ refused text finished =>
    subst marked finished
    have back : Runs granted _ _ _ := runs_waiting positive (mark_found log (getTsn header) record "WRITING" (iToS (getSeq header)))
      (by decide) (iToS (getSeq header))
    rw [mark_mark] at back
    exact (runs_writing positive found allowed.committed range high complete).trans back

theorem Adds.runs (adds : Adds log header data io out) (positive : 1 ≤ getTsn header) (commit : granted.commits (getTsn header)) :
    Runs granted log out.effects out.log := by
  cases adds with
  | low | absent | committed | expired | duplicate | above => exact .done _
  | kept high found fresh _ grows =>
    subst grows
    exact runs_move (.write _ positive found (by decide) high fresh)
  | completes high found fresh _ grows _ commits =>
    subst grows
    have sameTsn := pendingCommit_getTsn (getTsn_isInt header)
    refine (runs_move (.write _ positive found (by decide) high fresh)).trans (commits.runs ?_ ?_)
    · rw [sameTsn]
      exact positive
    · rw [sameTsn]
      exact commit
  | @added record grown status number high found notCommitted _ _ fresh grows =>
    subst grows
    have grown := found.grow high (header, data)
    have move : Move granted (log.insert (getTsn header) (record.insert (getSeq header) (header, data)))
        (mark (log.insert (getTsn header) (record.insert (getSeq header) (header, data))) (getTsn header)
          (record.insert (getSeq header) (header, data)) "ACTIVE" number) :=
      .mark _ _ positive grown notCommitted (by decide) (fun writing => absurd writing (by decide))
    rw [mark, Store.insert_insert] at move
    exact (runs_move (.write _ positive found notCommitted high fresh)).trans (runs_move move)

theorem Aborts.runs (aborts : Aborts log header out) (positive : 1 ≤ getTsn header) (allowed : granted.removes (getTsn header)) :
    Runs granted log out.effects out.log := by
  cases aborts with
  | absent | committed | expired => exact .done _
  | erased found notCommitted => exact runs_move (.remove positive found notCommitted allowed)

/-- What belongs to no transaction may change at any time. -/
theorem runs_reserved (same : ∀ tsn : Int, 1 ≤ tsn → after[tsn]? = log[tsn]?) : Runs granted log [] after := runs_move (.reserved same)

theorem makeTxn_runs {effects : List Effect} {fresh : Bool} (positive : 1 ≤ tsn) (allowed : granted.creates tsn)
    (makes : makeTxn log data tsn = (after, effects, fresh)) : Runs granted log effects after := by
  rcases makeTxn_cases makes with ⟨absent, rfl, rfl⟩ | ⟨_, rfl, rfl⟩
  · exact (runs_move (.create data positive allowed absent)).trans (runs_save _)
  · exact .done _

theorem newTxn_runs {draws : List Int} {effects : List Effect} (drawn : ∀ draw ∈ draws, 1 ≤ draw) (allowed : ∀ tsn, granted.creates tsn)
    (creates : newTxn log data draws = .ok (after, effects, tsn)) : Runs granted log effects after := by
  rcases newTxn_cases creates with ⟨rfl, rfl, _⟩ | ⟨_, chosen, absent, rfl, rfl⟩
  · exact .done _
  · exact (runs_move (.create data (drawn _ chosen) (allowed _) absent)).trans (runs_save _)

theorem Sweeps.runs {key : Int} {erased : Bool} (sweeps : Sweeps log key after erased) (allowed : ∀ tsn, granted.removes tsn) :
    Runs granted log [] after := by
  by_cases low : key < 1
  · -- a key below 1 is no transaction
    apply runs_reserved
    intro tsn positive
    have differs : tsn ≠ key := by omega
    cases sweeps with
    | absent | low | bare | kept => rfl
    | marked => exact mark_other differs
    | removed | dropped => exact Store.get_erase_other differs
    | waits => exact Store.get_insert_other differs
  have positive : 1 ≤ key := by omega
  cases sweeps with
  | absent | low | bare | kept => exact .done _
  | @marked record status number _ found notKept =>
    have notCommitted : status ≠ "COMMITTED" := fun committed => notKept (Or.inl committed)
    have either : aged status = "EXPIRED" ∨ aged status = "FLAG" := by
      unfold aged
      split
      · exact Or.inl rfl
      · exact Or.inr rfl
    refine runs_move (.mark _ _ positive found notCommitted ?_ ?_)
    · rcases either with next | next
      · rw [next]
        decide
      · rw [next]
        decide
    · intro writing
      rcases either with next | next
      · rw [next] at writing
        exact absurd writing (by decide)
      · rw [next] at writing
        exact absurd writing (by decide)
  | removed _ found => exact runs_move (.remove positive found (by decide) (allowed _))
  | waits _ found file => exact runs_move (.age _ positive found (by decide) file)
  | dropped _ found => exact runs_move (.remove positive found (by decide) (allowed _))

end

section
variable {π : Type} {answer : Answer π} {fuel : Nat} {server : Server π} {env : Env} {auth : Bool} {header data : Text}

theorem LogKept.transactions {log after : Log} (kept : LogKept log after) (tsn : Int) (positive : 1 ≤ tsn) : after[tsn]? = log[tsn]? :=
  kept.other (by omega)

theorem serverData_transactions (log : Log) (ip port role dir : Text) {tsn : Int} (positive : 1 ≤ tsn) :
    (serverData log ip port role dir)[tsn]? = log[tsn]? := by
  rw [serverData_eq, Store.get_insert_other (by omega), Store.get_erase_other (by omega)]

theorem switchToBackup_transactions {switched : Server π} (switches : ReplicationManager.switchToBackup server = .ok switched)
    (tsn : Int) (positive : 1 ≤ tsn) : switched.log[tsn]? = server.log[tsn]? := by
  rcases switchToBackup_cases switches with ⟨_, rfl⟩ | ⟨ip, port, dir, _, _, _, rfl⟩
  · rfl
  · exact serverData_transactions _ _ _ _ _ positive

theorem check_transactions {tick : ReplicationManager.Tick} {next : Server π}
    (ran : ReplicationManager.check answer fuel tick server = .ok (some next)) (tsn : Int) (positive : 1 ≤ tsn) :
    next.log[tsn]? = server.log[tsn]? := by
  rcases check_log ran with kept | ⟨ip, port, dir, _, _, _, same⟩
  · exact kept.transactions tsn positive
  · rw [same]
    exact serverData_transactions _ _ _ _ _ positive

theorem Executes.runs {out : Command π} (executes : Executes server env auth header data out) (addressed : Addressed header)
    (drawn : ∀ draw ∈ env.draws, 1 ≤ draw) : Runs (scope header) server.log out.effects out.server.log := by
  have positive {method : Nat} (same : parse header = method) (replicated : method = 1 ∨ method = 3 ∨ method = 5 ∨ method = 6) :
      1 ≤ getTsn header := by
    subst same
    exact addressed replicated
  cases executes with
  | refused | authenticated => exact .done _
  | read => exact runs_send _ _
  | notAborted method aborts => exact aborts.runs (positive method (by decide)) ⟨method, rfl⟩
  | aborted method aborts _ enqueued =>
    rw [enqueue_log enqueued]
    have run : Runs (scope header) _ _ _ := aborts.runs (positive method (by decide)) ⟨method, rfl⟩
    rw [aborts.effects] at run
    exact run.trans (runs_send _ _)
  | created method creates _ enqueued =>
    rw [enqueue_log enqueued]
    exact (newTxn_runs drawn (fun _ => Or.inl method) creates).trans (runs_send _ _)
  | commits method commits => exact commits.runs (positive method (by decide)) ⟨Or.inl method, rfl⟩
  | added method adds _ enqueued =>
    rw [enqueue_log enqueued]
    have run : Runs (scope header) _ _ _ := adds.runs (positive method (by decide)) ⟨Or.inr method, rfl⟩
    exact run.trans (runs_send _ _)
  | completed method adds _ _ enqueued =>
    rw [enqueue_log enqueued]
    exact adds.runs (positive method (by decide)) ⟨Or.inr method, rfl⟩
  | notAdded method adds => exact adds.runs (positive method (by decide)) ⟨Or.inr method, rfl⟩
  | made method makes => exact (makeTxn_runs (positive method (by decide)) (Or.inr ⟨method, rfl⟩) makes).trans (runs_send _ _)
  | pinged _ _ registers =>
    refine (runs_reserved ?_).trans (runs_send _ _)
    intro tsn positive
    exact register_frame (by omega) registers
  | demoted _ switches => exact runs_reserved (switchToBackup_transactions switches)

/-- The end of a commit: nothing, or the append and the save that follow the
replication. -/
theorem Concludes.runs {granted : Scope} {io : Bool} {done : Handled π} (concludes : Concludes answer fuel io server auth header done)
    (positive : 1 ≤ getTsn header) (commit : granted.commits (getTsn header))
    (writing : getServerStatus server.log = .ok "primary" → ∃ record number, Found server.log (getTsn header) record "WRITING" number) :
    Runs granted server.log done.effects done.server.log := by
  have kept {message : Text} {replicated : Bool} {final : Server π}
      (commits : ReplicationManager.commit answer fuel server message = .ok (replicated, final)) :=
    ((manager_keeps answer fuel).2.1 _ _ _ _ commits).transactions
  cases concludes with
  | acknowledged => exact runs_send _ _
  | refused _ refuses => exact (runs_reserved (kept refuses)).trans (runs_send _ _)
  | exits _ replicates => exact runs_reserved (kept replicates)
  | @finishes message ack final effects log primary replicates written marks =>
    obtain ⟨record, number, found⟩ := writing primary
    have still : Found final.log (getTsn header) record "WRITING" number :=
      ⟨(kept replicates _ positive).trans found.inLog, found.entry⟩
    rw [still.changeStatus, Except.ok.injEq] at marks
    subst marks
    rcases writeFile_cases written with ⟨_, _, path, lines, rfl, _⟩ | ⟨absurd, _⟩
    · exact (runs_reserved (kept replicates)).trans ((runs_append positive commit still written).trans (runs_send _ _))
    · cases absurd

/-- Handling a packet is a run of the ledger. -/
theorem receive_runs {payload : Option Text} {handled : Handled π} (addressed : Addressed header) (drawn : ∀ draw ∈ env.draws, 1 ≤ draw)
    (ran : receive answer fuel env server auth header payload = .ok handled) :
    Runs (scope header) server.log handled.effects handled.server.log := by
  rcases receive_cases ran with ⟨same, _, _, packet, _, effects⟩ | ⟨_, out, executes, follows⟩
  · rw [same, effects]
    exact runs_send _ _
  · have run := executes.runs addressed drawn
    cases follows with
    | returned => exact run
    | asks _ _ asked => exact run.trans (runs_sends _ (sendAckResend_effects asked))
    | answers => exact run.trans (runs_send _ _)
    | concludes refused code concludes =>
      have method := executes.committed_method refused code
      have positive : 1 ≤ getTsn header := addressed (Or.inr (method.imp id Or.inl))
      refine run.trans (Concludes.runs concludes positive ⟨method, rfl⟩ ?_)
      intro primary
      have before : IsPrimary server.log := by
        unfold IsPrimary
        rw [← getServerStatus_of_get (executes.frame (Or.inr (method.imp id Or.inl)) (by omega))]
        exact primary
      obtain ⟨record, seq, _, _, found, _⟩ := CommitDecision.writing_of_committed before (by omega) executes refused code
      exact ⟨record, _, found⟩

/-- A packet that is not about a transaction, and does not draw its id, leaves it as it is. -/
theorem executes_elsewhere {out : Command π} (executes : Executes server env auth header data out) (positive : 1 ≤ tsn)
    (other : Replicated header → getTsn header ≠ tsn) (undrawn : parse header = 2 → ∀ created effects, newTxn server.log data env.draws ≠ .ok (created, effects, tsn)) :
    out.server.log[tsn]? = server.log[tsn]? := by
  have kept (replicated : Replicated header) : out.server.log[tsn]? = server.log[tsn]? := executes.frame replicated (other replicated).symm
  cases executes with
  | refused | read | authenticated => rfl
  | notAborted method | aborted method => exact kept (Or.inl method)
  | commits method => exact kept (Or.inr (Or.inl method))
  | added method | completed method | notAdded method => exact kept (Or.inr (Or.inr (Or.inl method)))
  | made method => exact kept (Or.inr (Or.inr (Or.inr method)))
  | @created log effects id _ _ method creates _ enqueued =>
    rw [enqueue_log enqueued]
    rcases newTxn_cases creates with ⟨rfl, _⟩ | ⟨_, _, _, rfl, _⟩
    · rfl
    · apply Store.get_insert_other
      intro same
      exact undrawn method _ _ (same ▸ creates)
  | pinged _ _ registers => exact register_frame (by omega) registers
  | demoted _ switches => exact switchToBackup_transactions switches tsn positive

theorem receive_elsewhere {payload : Option Text} {handled : Handled π} (positive : 1 ≤ tsn) (other : Replicated header → getTsn header ≠ tsn)
    (undrawn : parse header = 2 → ∀ created effects, newTxn server.log (payload.getD " ") env.draws ≠ .ok (created, effects, tsn))
    (received : receive answer fuel env server auth header payload = .ok handled) : handled.server.log[tsn]? = server.log[tsn]? := by
  rcases receive_cases received with ⟨same, _⟩ | ⟨_, out, executes, follows⟩
  · rw [same]
  have first := executes_elsewhere executes positive other undrawn
  cases follows with
  | returned | asks | answers => exact first
  | @concludes done refused code concludes =>
    have differs := other (Or.inr ((executes.committed_method refused code).imp id Or.inl))
    have later : done.server.log[tsn]? = out.server.log[tsn]? := concludes.frame differs.symm (by omega)
    exact later.trans first

/-- A sweep ages and removes records, and then the log is saved. -/
theorem timeouts_runs {granted : Scope} {log after : Log} {dangling : Bool} (allowed : ∀ tsn, granted.removes tsn)
    (swept : timeouts log = .ok (after, dangling)) : Runs granted log [.save after] after := by
  have ages : Runs granted log [] after := by
    refine timeouts_preserves ?_ (.done _) swept
    intro before key next erased run sweeps
    exact run.trans (sweeps.runs allowed)
  exact ages.trans (runs_save after)

end

/-- The ids that an event may create, commit and remove. -/
def eventScope : System.Event → Scope
  | .packet _ _ header _ _ _ => scope header
  | .sweep => { removes := fun _ => True }
  | .save | .tick _ => {}

/-- An event whose packet, if any, names the transaction it changes. -/
def AddressedEvent : System.Event → Prop
  | .packet _ _ header _ _ _ => Addressed header
  | _ => True

/-- Whatever happens to a server is a run of the ledger. -/
theorem perform_runs {π : Type} {answer : Answer π} {fuel : Nat} {server : Server π} {event : System.Event} {next : Option (Server π)}
    {effects : List Effect} (addressed : AddressedEvent event) (ran : System.perform answer fuel server event = .ok (next, effects)) :
    ∃ after, Runs (eventScope event) server.log effects after ∧ ∀ running, next = some running → running.log = after := by
  cases event with
  | packet env auth header payload valid drawn =>
    obtain ⟨handled, received, same⟩ := bind_eq_ok.mp ran
    cases same
    refine ⟨handled.server.log, receive_runs addressed (fun draw member => (drawn draw member).1) received, ?_⟩
    intro running same
    split at same
    · cases same
    · cases same
      rfl
  | sweep =>
    obtain ⟨⟨log, dangling⟩, swept, same⟩ := bind_eq_ok.mp ran
    cases same
    refine ⟨log, timeouts_runs (fun _ => trivial) swept, ?_⟩
    rintro _ ⟨⟩
    rfl
  | save =>
    cases ran
    refine ⟨server.log, runs_save _, ?_⟩
    rintro _ ⟨⟩
    rfl
  | tick tick =>
    obtain ⟨ticked, checked, same⟩ := bind_eq_ok.mp ran
    cases same
    cases next with
    | none => exact ⟨server.log, .done _, fun _ absurd => by cases absurd⟩
    | some next =>
      refine ⟨next.log, runs_reserved (check_transactions checked), ?_⟩
      rintro _ ⟨⟩
      rfl

end TransactionalServer.Proofs
