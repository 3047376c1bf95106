import TransactionalServer.Proofs.Completeness

/-! Entries of a transaction are only added, and a committed transaction is
never touched again. -/

namespace TransactionalServer.Proofs.Immutability
open ServerTools LogHandler Exec Session Ledger Traces

section
variable {granted : Scope} {log after : Log} {tsn seq : Int} {record : Record} {number : Text} {entry : LogPair}

/-- The entry is recorded. -/
def Recorded (log : Log) (tsn seq : Int) (entry : LogPair) : Prop := ∃ record, log[tsn]? = some record ∧ record[seq]? = some entry

theorem move_keeps_committed (positive : 1 ≤ tsn) (found : Found log tsn record "COMMITTED" number) (move : Move granted log after) :
    after[tsn]? = some record := by
  have other {changed : Int} {open_ : Record} {status digits : Text} (opened : Found log changed open_ status digits)
      (notCommitted : status ≠ "COMMITTED") : tsn ≠ changed := by
    intro same
    subst same
    exact notCommitted (found_unique opened found).2.1
  cases move with
  | reserved same =>
    rw [same tsn positive]
    exact found.inLog
  | @create created data _ _ absent =>
    have differs : tsn ≠ created := by
      intro same
      subst same
      rw [found.inLog] at absent
      cases absent
    rw [Store.get_insert_other differs]
    exact found.inLog
  | write _ _ opened notCommitted =>
    rw [Store.get_insert_other (other opened notCommitted)]
    exact found.inLog
  | mark _ _ _ opened notCommitted =>
    rw [mark_other (other opened notCommitted)]
    exact found.inLog
  | age _ _ opened notCommitted =>
    rw [Store.get_insert_other (other opened notCommitted)]
    exact found.inLog
  | remove _ opened notCommitted =>
    rw [Store.get_erase_other (other opened notCommitted)]
    exact found.inLog

/-- A committed transaction is never touched. -/
theorem act_keeps_committed {before next : State} {label : Option Effect} (positive : 1 ≤ tsn)
    (found : Found before.log tsn record "COMMITTED" number) (act : Act granted before label next) : next.log[tsn]? = some record := by
  cases act with
  | move move => exact move_keeps_committed positive found move
  | send => exact found.inLog
  | save => exact found.inLog
  | @append log written writing _ _ _ _ _ _ inWriting =>
    have differs : tsn ≠ written := by
      intro same
      subst same
      exact absurd (found_unique inWriting found).2.1 (by decide)
    rw [mark_other differs]
    exact found.inLog

/-- A change of one record adds entries or ages its status and marker. -/
theorem move_keeps_entry (positive : 1 ≤ tsn) (high : 1 ≤ seq) (recorded : Recorded log tsn seq entry) (move : Move granted log after) :
    Recorded after tsn seq entry ∨ (granted.removes tsn ∧ after[tsn]? = none) := by
  obtain ⟨record, inLog, inRecord⟩ := recorded
  have untouched (same : after[tsn]? = log[tsn]?) : Recorded after tsn seq entry := ⟨record, same.trans inLog, inRecord⟩
  cases move with
  | reserved same => exact Or.inl (untouched (same tsn positive))
  | @create created data _ _ absent =>
    have differs : tsn ≠ created := by
      intro same
      subst same
      rw [inLog] at absent
      cases absent
    exact Or.inl (untouched (Store.get_insert_other differs))
  | @write changed number old status digits pair _ found _ _ fresh =>
    by_cases here : tsn = changed
    · subst here
      obtain rfl := Option.some.inj (inLog.symm.trans found.inLog)
      have differs : seq ≠ number := by
        intro same
        subst same
        rw [inRecord] at fresh
        cases fresh
      refine Or.inl ⟨_, Std.ExtTreeMap.getElem?_insert_self, ?_⟩
      rw [Store.get_insert_other differs]
      exact inRecord
    · exact Or.inl (untouched (Store.get_insert_other here))
  | @mark changed old status digits next data _ found =>
    by_cases here : tsn = changed
    · subst here
      obtain rfl := Option.some.inj (inLog.symm.trans found.inLog)
      refine Or.inl ⟨_, Std.ExtTreeMap.getElem?_insert_self, ?_⟩
      rw [Store.get_insert_other (by omega)]
      exact inRecord
    · exact Or.inl (untouched (mark_other here))
  | @age changed old status digits marker path next _ found =>
    by_cases here : tsn = changed
    · subst here
      obtain rfl := Option.some.inj (inLog.symm.trans found.inLog)
      refine Or.inl ⟨_, Std.ExtTreeMap.getElem?_insert_self, ?_⟩
      rw [Store.get_insert_other (by omega)]
      exact inRecord
    · exact Or.inl (untouched (Store.get_insert_other here))
  | @remove changed old status digits _ found _ allowed =>
    by_cases here : tsn = changed
    · subst here
      exact Or.inr ⟨allowed, Std.ExtTreeMap.getElem?_erase_self⟩
    · exact Or.inl (untouched (Store.get_erase_other here))

/-- A transaction that is not in the log stays away until it is created. -/
theorem move_keeps_absent (positive : 1 ≤ tsn) (absent : log[tsn]? = none) (notCreated : ¬ granted.creates tsn)
    (move : Move granted log after) : after[tsn]? = none := by
  have other {changed : Int} {old : Record} {status digits : Text} (found : Found log changed old status digits) : tsn ≠ changed := by
    intro same
    subst same
    rw [found.inLog] at absent
    cases absent
  cases move with
  | reserved same => rw [same tsn positive, absent]
  | @create created data _ allowed =>
    have differs : tsn ≠ created := by
      intro same
      subst same
      exact notCreated allowed
    rw [Store.get_insert_other differs, absent]
  | write _ _ found => rw [Store.get_insert_other (other found), absent]
  | mark _ _ _ found => rw [mark_other (other found), absent]
  | age _ _ found => rw [Store.get_insert_other (other found), absent]
  | remove _ found => rw [Store.get_erase_other (other found), absent]

theorem act_keeps_absent {before next : State} {label : Option Effect} (positive : 1 ≤ tsn) (absent : before.log[tsn]? = none)
    (notCreated : ¬ granted.creates tsn) (act : Act granted before label next) : next.log[tsn]? = none := by
  cases act with
  | move move => exact move_keeps_absent positive absent notCreated move
  | send => exact absent
  | save => exact absent
  | @append log written record _ _ _ _ _ _ found =>
    have differs : tsn ≠ written := by
      intro same
      subst same
      rw [found.inLog] at absent
      cases absent
    rw [mark_other differs, absent]

/-- The entry stays, or the transaction has gone and is not created again. -/
theorem act_keeps_entry {before next : State} {label : Option Effect} (positive : 1 ≤ tsn) (high : 1 ≤ seq)
    (either : granted.removes tsn → ¬ granted.creates tsn)
    (kept : Recorded before.log tsn seq entry ∨ (granted.removes tsn ∧ before.log[tsn]? = none)) (act : Act granted before label next) :
    Recorded next.log tsn seq entry ∨ (granted.removes tsn ∧ next.log[tsn]? = none) := by
  rcases kept with recorded | ⟨allowed, absent⟩
  · cases act with
    | move move => exact move_keeps_entry positive high recorded move
    | send => exact Or.inl recorded
    | save => exact Or.inl recorded
    | @append log written old _ _ _ _ _ _ found =>
      obtain ⟨record, inLog, inRecord⟩ := recorded
      by_cases here : tsn = written
      · subst here
        obtain rfl := Option.some.inj (inLog.symm.trans found.inLog)
        refine Or.inl ⟨_, Std.ExtTreeMap.getElem?_insert_self, ?_⟩
        rw [Store.get_insert_other (by omega)]
        exact inRecord
      · exact Or.inl ⟨record, (mark_other here).trans inLog, inRecord⟩
  · exact Or.inr ⟨allowed, act_keeps_absent positive absent (either allowed) act⟩

end

/-- No event both creates and removes the same transaction. -/
theorem scope_either (event : System.Event) (tsn : Int) : (eventScope event).removes tsn → ¬ (eventScope event).creates tsn := by
  intro removes creates
  cases event with
  | packet env auth header payload valid drawn =>
    obtain ⟨abort, _⟩ := removes
    rcases creates with created | ⟨made, _⟩
    · rw [abort] at created
      cases created
    · rw [abort] at made
      cases made
  | sweep => exact creates
  | save => exact creates
  | tick => exact creates

section
variable {π : Type} {answer : Answer π} {fuel : Nat} {server next : Server π} {tsn seq : Int} {record : Record} {number : Text}
  {entry : LogPair}

theorem step_runs {event : System.Event} (addressed : AddressedEvent event)
    (stepped : System.step answer fuel server event = .ok next) : ∃ effects, Runs (eventScope event) server.log effects next.log := by
  obtain ⟨⟨running, effects⟩, performed, runs⟩ := bind_eq_ok.mp stepped
  obtain ⟨after, run, logs⟩ := perform_runs addressed performed
  rw [← logs next (finished_eq_ok.mp runs)] at run
  exact ⟨effects, run⟩

theorem step_keeps_committed {event : System.Event} (addressed : AddressedEvent event) (positive : 1 ≤ tsn)
    (found : Found server.log tsn record "COMMITTED" number) (stepped : System.step answer fuel server event = .ok next) :
    Found next.log tsn record "COMMITTED" number := by
  obtain ⟨effects, run⟩ := step_runs addressed stepped
  refine run.keeps (fun state => Found state.log tsn record "COMMITTED" number) ?_ found
  intro before label after found act
  exact ⟨act_keeps_committed positive found act, found.entry⟩

theorem step_keeps_entry {event : System.Event} (addressed : AddressedEvent event) (positive : 1 ≤ tsn) (high : 1 ≤ seq)
    (recorded : Recorded server.log tsn seq entry) (stepped : System.step answer fuel server event = .ok next) :
    Recorded next.log tsn seq entry ∨ next.log[tsn]? = none := by
  obtain ⟨effects, run⟩ := step_runs addressed stepped
  have kept := run.keeps (fun state => Recorded state.log tsn seq entry ∨ ((eventScope event).removes tsn ∧ state.log[tsn]? = none))
    (fun _ _ _ kept act => act_keeps_entry positive high (scope_either event tsn) kept act) (Or.inl recorded)
  rcases kept with recorded | ⟨_, absent⟩
  · exact Or.inl recorded
  · exact Or.inr absent

/-- Every accepted write is recorded as it came. -/
theorem accepted_write_is_recorded {env : Env} {auth : Bool} {header data : Text} {out : Command π} (positive : 1 ≤ getTsn header)
    (method : parse header = 5) (executes : Executes server env auth header data out) (accepted : out.ret = true ∨ out.error = "committed") :
    Recorded out.server.log (getTsn header) (getSeq header) (header, data) := by
  have other {method : Nat} (same : parse header = method) : method = 5 := same.symm.trans ‹parse header = 5›
  have recorded {out : Outcome} (adds : Adds server.log header data env.io out) (accepted : out.ret = true ∨ out.code = "committed") :
      Recorded out.log (getTsn header) (getSeq header) (header, data) := by
    cases adds with
    | low _ text | absent _ _ text | committed _ _ text | expired _ _ text | duplicate _ _ _ _ _ text | above _ _ _ _ text =>
      rcases accepted with added | code
      · cases added
      · exact absurd code (Answered.ne_codes ⟨_, _, _, text⟩).2
    | kept _ _ _ _ grows =>
      subst grows
      exact ⟨_, Std.ExtTreeMap.getElem?_insert_self, Std.ExtTreeMap.getElem?_insert_self⟩
    | added high _ _ _ _ _ grows =>
      subst grows
      refine ⟨_, Std.ExtTreeMap.getElem?_insert_self, ?_⟩
      rw [Store.get_insert_other (by omega)]
      exact Std.ExtTreeMap.getElem?_insert_self
    | completes high _ _ _ grows _ commits =>
      subst grows
      have sameTsn := pendingCommit_getTsn (getTsn_isInt header)
      have run : Runs ⟨fun _ => False, fun _ => True, fun _ => False⟩ _ _ _ := commits.runs (by rw [sameTsn]; exact positive) trivial
      have kept := run.keeps (fun state => Recorded state.log (getTsn header) (getSeq header) (header, data) ∨
          (False ∧ state.log[getTsn header]? = none))
        (fun _ _ _ kept act => act_keeps_entry positive high (fun absurd => False.elim absurd) kept act)
        (Or.inl ⟨_, Std.ExtTreeMap.getElem?_insert_self, Std.ExtTreeMap.getElem?_insert_self⟩)
      rcases kept with kept | ⟨absurd, _⟩
      · exact kept
      · exact absurd.elim
  cases executes with
  | added _ adds kept enqueued =>
    rw [enqueue_log enqueued]
    exact recorded adds (Or.inl kept)
  | completed _ adds _ code enqueued =>
    rw [enqueue_log enqueued]
    exact recorded adds (Or.inr code)
  | notAdded _ adds refused code =>
    rcases accepted with added | committed
    · exact recorded adds (Or.inl added)
    · exact absurd committed code
  | refused _ refusal =>
    rcases accepted with added | committed
    · cases added
    · exact absurd committed refusal.answered.ne_codes.2
  | read same | notAborted same | aborted same | created same | commits same | made same | pinged same | authenticated same | demoted same =>
    exact absurd (other same) (by decide)

/-- An accepted WRITE is recorded as it came. In every run of packets about
transactions, sweeps, saves and ticks, a committed transaction keeps its whole
record, and a recorded entry of any other stays as it is while the transaction is
in the log. -/
theorem entries_and_commits_never_change {events : List System.Event} {final : Server π} (positive : 1 ≤ tsn)
    (along : Along (System.step answer fuel) (fun _ event => AddressedEvent event) server events)
    (ran : events.foldlM (System.step answer fuel) server = .ok final) :
    (∀ record number, Found server.log tsn record "COMMITTED" number → final.log[tsn]? = some record) ∧
      (∀ seq entry, 1 ≤ seq → Recorded server.log tsn seq entry → Along (System.step answer fuel) (fun state _ => tsn ∈ state.log) server events →
        ∀ record, final.log[tsn]? = some record → record[seq]? = some entry) ∧
      ∀ env auth header data out, parse header = 5 → getTsn header = tsn → executeCommand env server auth (parse header) header data = .ok out →
        (out.ret = true ∨ out.error = "committed") → Recorded out.server.log tsn (getSeq header) (header, data) := by
  refine ⟨?_, ?_, ?_⟩
  · intro record number found
    have kept : Found final.log tsn record "COMMITTED" number := by
      refine run_preserves (fun state => Found state.log tsn record "COMMITTED" number) ?_ along found ran
      intro state event next found addressed stepped
      exact step_keeps_committed addressed positive found stepped
    exact kept.inLog
  · intro seq entry high recorded present record inLog
    have kept : Recorded final.log tsn seq entry ∨ final.log[tsn]? = none := by
      refine run_preserves (fun state => Recorded state.log tsn seq entry ∨ state.log[tsn]? = none) ?_ (along.and present)
        (Or.inl recorded) ran
      intro state event next kept allowed stepped
      rcases kept with recorded | absent
      · exact step_keeps_entry allowed.1 positive high recorded stepped
      · exact absurd allowed.2 (Store.not_mem_iff_get.mpr absent)
    rcases kept with ⟨last, inside, recorded⟩ | absent
    · obtain rfl := Option.some.inj (inLog.symm.trans inside)
      exact recorded
    · rw [inLog] at absent
      cases absent
  · rintro env auth header data out method rfl executed accepted
    exact accepted_write_is_recorded positive method (executeCommand_cases executed) accepted

end

open Completeness in
theorem swept_commit_keeps_its_record :
    ∃ (server final : Server Unit) (record : Record) (number : Text), Found server.log 5 record "COMMITTED" number ∧
      [System.Event.sweep].foldlM (System.step Backup.noPeer 2) server = .ok final ∧ final.log[(5 : Int)]? = some record ∧
      record[(1 : Int)]? = some ("WRITE 5 1 3".toList, "xx".toList) := by
  have committed : ([createFive, writeFive, commitFive].foldlM (System.step Backup.noPeer 2) (fresh alone fun _ => none).server).map
      (fun server => (getStatus server.log 5, pair server.log 5 1)) = .ok (.ok "COMMITTED", .ok ("WRITE 5 1 3", "xx")) := by decide +kernel
  obtain ⟨final, ran⟩ : ∃ final, ([createFive, writeFive, commitFive].foldlM (System.step Backup.noPeer 2)
      (fresh alone fun _ => none).server >>= fun server => [System.Event.sweep].foldlM (System.step Backup.noPeer 2) server) = .ok final :=
    returned_of_isOk (by decide +kernel)
  obtain ⟨server, prepared, ran⟩ := bind_eq_ok.mp ran
  rw [prepared] at committed
  obtain ⟨status, written⟩ := Prod.mk.inj (Except.ok.inj committed)
  obtain ⟨record, number, found⟩ := found_of_getStatus status
  have along : Along (System.step Backup.noPeer 2) (fun _ event => AddressedEvent event) server [.sweep] := ⟨trivial, fun _ _ => trivial⟩
  have present : Along (System.step Backup.noPeer 2) (fun state _ => (5 : Int) ∈ state.log) server [.sweep] :=
    ⟨Store.mem_iff_get.mpr ⟨record, found.inLog⟩, fun _ _ => trivial⟩
  have positive : (1 : Int) ≤ 5 := by decide
  obtain ⟨commits, entries, _⟩ := entries_and_commits_never_change positive along ran
  have kept := commits record number found
  exact ⟨server, final, record, number, found, ran, kept, entries 1 _ (by decide) (pair_eq_ok.mp written) present record kept⟩

end TransactionalServer.Proofs.Immutability
