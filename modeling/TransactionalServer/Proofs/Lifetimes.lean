import TransactionalServer.Library.Safety
import TransactionalServer.TransactionManager
import TransactionalServer.Proofs.ProcessSteps
import TransactionalServer.Proofs.SweepIndependence

/-! How long a transaction lives that nobody touches. The manager's timer ages it
at every thirtieth check, whatever the server does for other transactions, up to
the sweep that erases it, after which nothing is defined. -/

namespace TransactionalServer.Proofs.Lifetimes
open ServerTools LogHandler Exec Session SweepIndependence

def isCheck : Timed.Event → Bool
  | .check => true
  | .packet _ _ _ _ _ _ | .tick _ => false

/-- A packet that is not about this transaction and does not create it. -/
def Elsewhere (tsn : Int) : Timed.Event → Prop
  | .packet env _ header _ _ _ => (Replicated header → getTsn header ≠ tsn) ∧ tsn ∉ env.draws
  | .tick _ | .check => True

/-- How many sweeps a mark leaves to its record. -/
def left (mark : Text) : Nat := if mark = "EXPIRED" then 1 else if mark = "FLAG" then 2 else 3

/-- The sweep that removes an idle record, if one does. -/
def lifetime (record : Record) : Option Nat :=
  match record[(-1 : Int)]? with
  | none => none
  | some (status, _) =>
    if Kept status then none
    else if status = "WAITING" then some (record[(0 : Int)]?.elim 1 fun entry => left entry.1)
    else some (left status)

/-- What so many sweeps make of a record. -/
def sweeps (tsn : Int) (times : Nat) (record : Option Record) : Option Record := (fun record => record.bind (swept tsn))^[times] record

section
variable {tsn : Int} {record next : Record}

theorem left_aged {mark : Text} (notExpired : mark ≠ "EXPIRED") : left mark = left (aged mark) + 1 := by
  unfold left aged
  by_cases flag : mark = "FLAG"
  · subst flag
    decide
  · simp only [notExpired, flag, if_false]
    decide

theorem left_positive (mark : Text) : 1 ≤ left mark := by
  unfold left
  split
  · decide
  · split <;> decide

/-- A sweep removes what has one sweep left. -/
theorem swept_none (gone : swept tsn record = none) : lifetime record = some 1 := by
  unfold swept at gone
  unfold lifetime
  split at gone
  · cases gone
  cases entry : record[(-1 : Int)]? with
  | none =>
    rw [entry] at gone
    cases gone
  | some pair =>
    obtain ⟨status, number⟩ := pair
    rw [entry] at gone
    simp only at gone ⊢
    split at gone
    · cases gone
    next notKept =>
    rw [if_neg notKept]
    split at gone
    next expired =>
      subst expired
      rw [if_neg (by decide)]
      rfl
    split at gone
    next waiting =>
      rw [if_pos waiting]
      cases file : record[(0 : Int)]? with
      | none => rfl
      | some entry =>
        rw [file, Option.bind_some] at gone
        split at gone
        next expired =>
          rw [Option.elim_some, expired]
          rfl
        next => cases gone
    next => cases gone

/-- Any other record has one less afterwards. -/
theorem swept_some (positive : 1 ≤ tsn) (stays : swept tsn record = some next) :
    (lifetime record = none ∧ lifetime next = none) ∨ ∃ more, lifetime record = some (more + 1) ∧ lifetime next = some more := by
  unfold swept at stays
  rw [if_neg (by omega)] at stays
  cases entry : record[(-1 : Int)]? with
  | none =>
    rw [entry] at stays
    cases stays
    exact Or.inl ⟨by simp only [lifetime, entry], by simp only [lifetime, entry]⟩
  | some pair =>
    obtain ⟨status, number⟩ := pair
    rw [entry] at stays
    simp only at stays
    split at stays
    next kept =>
      cases stays
      exact Or.inl ⟨by simp only [lifetime, entry, kept, if_true], by simp only [lifetime, entry, kept, if_true]⟩
    next notKept =>
    split at stays
    · cases stays
    next notExpired =>
    split at stays
    next waiting =>
      subst waiting
      cases file : record[(0 : Int)]? with
      | none =>
        rw [file] at stays
        cases stays
      | some entry' =>
        obtain ⟨marker, path⟩ := entry'
        rw [file, Option.bind_some] at stays
        simp only at stays
        split at stays
        · cases stays
        next unexpired =>
        cases stays
        refine Or.inr ⟨left (aged marker), ?_, ?_⟩
        · simp only [lifetime, entry, notKept, if_false, if_true, file, Option.elim_some, left_aged unexpired]
        · have status : (record.insert 0 (aged marker, path))[(-1 : Int)]? = some (("WAITING" : Text), number) := by
            rw [Store.get_insert_other (by decide)]
            exact entry
          simp only [lifetime, status, notKept, if_false, if_true, Std.ExtTreeMap.getElem?_insert_self, Option.elim_some]
    next notWaiting =>
      cases stays
      have other : ¬ Kept (aged status) ∧ aged status ≠ "WAITING" := by
        unfold aged
        split <;> decide
      refine Or.inr ⟨left (aged status), ?_, ?_⟩
      · simp only [lifetime, entry, notKept, notWaiting, if_false, left_aged notExpired]
      · simp only [lifetime, Std.ExtTreeMap.getElem?_insert_self, other.1, other.2, if_false]

theorem sweeps_none (tsn : Int) (times : Nat) : sweeps tsn times none = none := by
  induction times with
  | zero => rfl
  | succ times ih => exact ih

/-- A record is gone after so many sweeps as it has left. -/
theorem sweeps_lifetime (positive : 1 ≤ tsn) (times : Nat) (record : Record) :
    sweeps tsn times (some record) = none ↔ ∃ count, lifetime record = some count ∧ count ≤ times := by
  induction times generalizing record with
  | zero =>
    constructor
    · intro gone
      cases gone
    · rintro ⟨count, life, none⟩
      have some : 1 ≤ count := by
        unfold lifetime at life
        split at life
        · cases life
        split at life
        · cases life
        split at life
        · cases life
          cases record[(0 : Int)]? with
          | none => decide
          | some entry => exact left_positive _
        · cases life
          exact left_positive _
      omega
  | succ times ih =>
    have first : sweeps tsn (times + 1) (some record) = sweeps tsn times (swept tsn record) := Function.iterate_succ_apply _ _ _
    rw [first]
    cases here : swept tsn record with
    | none =>
      rw [sweeps_none, swept_none here]
      exact iff_of_true rfl ⟨1, rfl, by omega⟩
    | some next =>
      rw [ih]
      rcases swept_some positive here with ⟨forever, still⟩ | ⟨more, life, less⟩
      · rw [forever, still]
        simp only [reduceCtorEq, false_and, exists_false]
      · rw [life, less]
        simp only [Option.some.injEq, exists_eq_left']
        omega

end

section
variable {π : Type} {answer : Answer π} {fuel : Nat} {server final : Server π} {timed next : Timed π} {event : Timed.Event} {tsn : Int}

/-- A sweep that advances from no erased record has removed none. -/
theorem swept_of_timeouts {log after : Log} {key : Int} {record : Record} (ran : timeouts log = .ok (after, false))
    (inLog : log[key]? = some record) : ∃ next, swept key record = some next ∧ after[key]? = some next := by
  have own := timeouts_get ran key
  rw [inLog, Option.bind_some] at own
  cases gone : swept key record with
  | some next => exact ⟨next, rfl, own.trans gone⟩
  | none =>
    have member : key ∈ log.keys := Std.ExtTreeMap.mem_keys.mpr (Store.mem_iff_get.mpr ⟨record, inLog⟩)
    have pass : Traversal.pass sweepRecord log.keys (log, false) = .ok (after, false) := ran
    obtain ⟨before, middle, same, turned⟩ := sweepRecord_visits.pass_turn log.nodup_keys pass member
    have erased := (Sweeps.erases (sweepRecord_cases turned)).mpr ⟨record, same.trans inLog, gone⟩
    cases erased

theorem update_definite (log : Log) (tsn seq : Int) (change : LogPair → LogPair) : Definite (update log tsn seq change) :=
  (definite_defined _).bind fun _ => (definite_defined _).bind fun _ => .ok _

theorem sweepRecord_definite (log : Log) (key : Int) : Definite (sweepRecord log key) := by
  have changes {log : Log} {tsn seq : Int} {change : LogPair → LogPair} :
      Definite (update log tsn seq change >>= fun log => pure (log, false)) := (update_definite _ _ _ _).bind fun _ => .ok _
  unfold sweepRecord
  cases log[key]? with
  | none => exact .ok _
  | some record =>
    dsimp only
    split
    · exact .ok _
    split
    · exact .ok _
    split
    · exact changes
    split
    · exact changes
    split
    · exact .ok _
    split
    · exact .ok _
    split
    · refine (((definite_defined _).bind fun _ => definite_defined _).bind fun _ => .ok _).bind fun marker => ?_
      split
      · exact changes
      split
      · exact .ok _
      · exact changes
    split
    · exact .ok _
    · exact changes

theorem check_definite (manager : TransactionManager) (log : Log) : Definite (manager.check log) := by
  unfold TransactionManager.check
  split
  · have sweeps : Definite (timeouts log) := .foldlM (fun _ key => (sweepRecord_definite _ key).bind fun _ => .ok _) _ _
    refine sweeps.bind fun swept => ?_
    dsimp only
    split
    · exact .undefined
    · exact .ok _
  · exact .ok _

/-- The check that sweeps. -/
theorem check_due {manager after : TransactionManager} {log swept : Log} {effects : List Effect} (due : manager.timerSince + 1 = 30)
    (checked : manager.check log = .ok (after, swept, effects)) : after.timerSince = 0 ∧ timeouts log = .ok (swept, false) := by
  unfold TransactionManager.check at checked
  rw [dif_pos due] at checked
  obtain ⟨⟨left, dangling⟩, ran, rest⟩ := bind_eq_ok.mp checked
  cases dangling with
  | true => cases rest
  | false =>
    cases rest
    exact ⟨rfl, ran⟩

theorem check_early {manager after : TransactionManager} {log swept : Log} {effects : List Effect} (early : manager.timerSince + 1 ≠ 30)
    (checked : manager.check log = .ok (after, swept, effects)) : after.timerSince = manager.timerSince + 1 ∧ swept = log := by
  unfold TransactionManager.check at checked
  rw [dif_neg early] at checked
  cases checked
  exact ⟨rfl, rfl⟩

/-- A step is so many sweeps to the transaction, which stays, and moves the counter on. -/
theorem step_sweeps {record : Record} (positive : 1 ≤ tsn) (present : timed.process.server.log[tsn]? = some record) (elsewhere : Elsewhere tsn event)
    (stepped : Timed.step answer fuel timed event = .ok next) :
    ∃ times later, next.process.server.log[tsn]? = some later ∧ sweeps tsn times (some record) = some later ∧
      30 * times + next.manager.timerSince = timed.manager.timerSince + if isCheck event then 1 else 0 := by
  have moved {happens : System.Event} {process : Process π} (ran : Process.step answer fuel timed.process (.event happens) = .ok process) :
      ∃ server, process.server = server ∧ Steps answer fuel timed.process.server (Process.onDisk timed.process.disk happens) server := by
    obtain ⟨effects, performed⟩ := step_performs ran
    obtain ⟨⟨running, had⟩, performed, rest⟩ := bind_eq_ok.mp performed
    obtain ⟨server, runs, same⟩ := bind_eq_ok.mp rest
    cases same
    obtain rfl := finished_eq_ok.mp runs
    exact ⟨server, rfl, perform_cases performed⟩
  cases event with
  | packet env auth header payload valid drawn =>
    obtain ⟨process, ran, same⟩ := bind_eq_ok.mp stepped
    cases same
    obtain ⟨server, same, steps⟩ := moved ran
    cases steps with
    | packet _ _ received =>
      have undrawn (created : Log) (effects : List Effect) :
          newTxn timed.process.server.log (payload.getD " ") { env with files := timed.process.disk.files }.draws ≠ .ok (created, effects, tsn) := by
        intro drawn
        rcases newTxn_cases drawn with ⟨_, _, zero, _⟩ | ⟨_, chosen, _⟩
        · omega
        · exact elsewhere.2 chosen
      have untouched := receive_elsewhere positive elsewhere.1 (fun _ => undrawn) received
      exact ⟨0, record, same ▸ untouched.trans present, rfl, by simp [isCheck]⟩
  | tick tick =>
    obtain ⟨process, ran, same⟩ := bind_eq_ok.mp stepped
    cases same
    obtain ⟨server, same, steps⟩ := moved ran
    cases steps with
    | tick checked => exact ⟨0, record, same ▸ (check_transactions checked tsn positive).trans present, rfl, by simp [isCheck]⟩
  | check =>
    obtain ⟨⟨manager, log, effects⟩, checked, same⟩ := bind_eq_ok.mp stepped
    cases same
    by_cases due : timed.manager.timerSince + 1 = 30
    · obtain ⟨restarted, ran⟩ := check_due due checked
      obtain ⟨later, ages, now⟩ := swept_of_timeouts ran present
      exact ⟨1, later, now, ages, by simp only [isCheck, if_true, restarted]; omega⟩
    · obtain ⟨counted, rfl⟩ := check_early due checked
      exact ⟨0, record, present, rfl, by simp only [isCheck, if_true, counted]; omega⟩

theorem sweeps_add (tsn : Int) (first second : Nat) (record : Option Record) :
    sweeps tsn (first + second) record = sweeps tsn second (sweeps tsn first record) := by
  unfold sweeps
  rw [Nat.add_comm, Function.iterate_add_apply]

/-- A transaction that no packet is about ages with the checks alone. -/
theorem run_sweeps {events : List Timed.Event} {record : Record} (positive : 1 ≤ tsn) (present : timed.process.server.log[tsn]? = some record)
    (elsewhere : ∀ event ∈ events, Elsewhere tsn event) (ran : events.foldlM (Timed.step answer fuel) timed = .ok next) :
    ∃ times later, next.process.server.log[tsn]? = some later ∧ sweeps tsn times (some record) = some later ∧
      30 * times + next.manager.timerSince = timed.manager.timerSince + events.countP isCheck := by
  induction events generalizing timed record with
  | nil =>
    cases ran
    exact ⟨0, record, present, rfl, by simp⟩
  | cons event events ih =>
    rw [List.foldlM_cons] at ran
    obtain ⟨middle, stepped, ran⟩ := bind_eq_ok.mp ran
    obtain ⟨first, between, here, ages, counted⟩ := step_sweeps positive present (elsewhere event List.mem_cons_self) stepped
    obtain ⟨second, later, there, older, more⟩ := ih here (fun other member => elsewhere other (List.mem_cons_of_mem _ member)) ran
    refine ⟨first + second, later, there, ?_, ?_⟩
    · rw [sweeps_add, ages, older]
    · rw [List.countP_cons]
      omega

/-- While the server is defined an idle transaction is there, aged once for every
thirty checks. There have been fewer than thirty for each sweep it had left, and
the check that reaches this number is undefined. -/
theorem defined_runs_end_with_the_lifetime_of_an_idle_transaction {events : List Timed.Event} {record : Record} (positive : 1 ≤ tsn)
    (present : timed.process.server.log[tsn]? = some record) (elsewhere : ∀ event ∈ events, Elsewhere tsn event)
    (ran : events.foldlM (Timed.step answer fuel) timed = .ok next) :
    (∃ later, next.process.server.log[tsn]? = some later ∧
        sweeps tsn ((timed.manager.timerSince + events.countP isCheck) / 30) (some record) = some later) ∧
      ∀ count, lifetime record = some count → timed.manager.timerSince + events.countP isCheck < 30 * count ∧
        (timed.manager.timerSince + events.countP isCheck + 1 = 30 * count → Timed.step answer fuel next .check = .error .undefined) := by
  obtain ⟨times, later, now, ages, counted⟩ := run_sweeps positive present elsewhere ran
  have below := next.manager.below
  have thirtieths : (timed.manager.timerSince + events.countP isCheck) / 30 = times := by omega
  refine ⟨⟨later, now, by rw [thirtieths, ages]⟩, ?_⟩
  intro count life
  have fewer : times < count := by
    by_contra enough
    have gone := (sweeps_lifetime positive times record).mpr ⟨count, life, by omega⟩
    rw [ages] at gone
    cases gone
  refine ⟨by omega, ?_⟩
  intro last
  have definite : Definite (Timed.step answer fuel next .check) := (check_definite _ _).bind fun _ => .ok _
  refine definite.undefined_of_never fun after stepped => ?_
  obtain ⟨⟨manager, log, effects⟩, checked, _⟩ := bind_eq_ok.mp stepped
  obtain ⟨_, swept⟩ := check_due (by omega) checked
  obtain ⟨still, survives, _⟩ := swept_of_timeouts swept now
  have gone : sweeps tsn (times + 1) (some record) = none := (sweeps_lifetime positive _ record).mpr ⟨count, life, by omega⟩
  rw [sweeps_add, ages] at gone
  exact absurd (survives.symm.trans gone) (by simp)

end

private def create : Timed.Event := .packet { draws := [5] } true "NEW_TXN -1 0 3" (some "aa") (Eq.refl true) System.five_drawn

/-- Another transaction is created on the way. -/
private def other : Timed.Event := .packet {} true "MAKE_TXN 7 0 3" (some "bb") (Eq.refl true) System.nothing_drawn

private def young : Timed Unit := ⟨Process.start { self := ⟨"ip", "80", "dir"⟩, primary := true, peer := () } { saved := ∅ }, .fresh⟩

/-- After 89 checks transaction 5 is still there, and the next check is undefined. -/
theorem ninetieth_check_is_undefined :
    ∃ begun final record, Timed.step Backup.noPeer 1 young create = .ok begun ∧
      (other :: List.replicate 89 .check).foldlM (Timed.step Backup.noPeer 1) begun = .ok final ∧
      final.process.server.log[(5 : Int)]? = some record ∧ Timed.step Backup.noPeer 1 final .check = .error .undefined := by
  obtain ⟨begun, began⟩ := returned_of_isOk (show (Timed.step Backup.noPeer 1 young create).isOk by decide +kernel)
  have seen : (Timed.step Backup.noPeer 1 young create).map (fun begun => (begun.manager.timerSince,
      begun.process.server.log[(5 : Int)]?.map lifetime)) = .ok (0, some (some 3)) := by decide +kernel
  have returns : (Timed.step Backup.noPeer 1 young create >>= (other :: List.replicate 89 .check).foldlM (Timed.step Backup.noPeer 1)).isOk := by
    decide +kernel
  rw [began, ok_bind] at returns
  obtain ⟨final, ran⟩ := returned_of_isOk returns
  rw [began] at seen
  obtain ⟨since, life⟩ := Prod.mk.inj (Except.ok.inj seen)
  obtain ⟨record, present, life⟩ := Option.map_eq_some_iff.mp life
  have elsewhere : ∀ event ∈ other :: List.replicate 89 .check, Elsewhere 5 event := by
    intro event member
    rcases List.mem_cons.mp member with rfl | check
    · exact ⟨fun _ => by decide, List.not_mem_nil⟩
    · rw [List.eq_of_mem_replicate check]
      trivial
  obtain ⟨⟨later, there, _⟩, lives⟩ := defined_runs_end_with_the_lifetime_of_an_idle_transaction (by decide) present elsewhere ran
  have last : begun.manager.timerSince + (other :: List.replicate 89 .check).countP isCheck + 1 = 30 * 3 := by
    rw [since]
    decide
  exact ⟨begun, final, later, began, ran, there, (lives 3 life).2 last⟩

end TransactionalServer.Proofs.Lifetimes
