import TransactionalServer.Library.Traversal
import TransactionalServer.Backup
import TransactionalServer.System
import TransactionalServer.Proofs.Frames
import TransactionalServer.Proofs.SweepSteps

/-! A sweep as a loop of an iterator over the log. What it makes of a record
depends on that record alone, and it may not go on from a record it has erased. -/

namespace TransactionalServer.Proofs.SweepIndependence
open ServerTools LogHandler Exec Traversal

/-- The loop of `timeouts` from `begin()` on, with the keys it visits. -/
def loop (fuel : Nat) (log : Log) : Exec (List Int × Log) := walk sweepRecord fuel log log.keys.head?

/-- What becomes of a record; `none` is a record that is removed. -/
def swept (key : Int) (record : Record) : Option Record :=
  if key < 0 then
    some record
  else
    match record[(-1 : Int)]? with
    | none => some record
    | some (status, number) =>
      if Kept status then
        some record
      else if status = "EXPIRED" then
        none
      else if status = "WAITING" then
        record[(0 : Int)]?.bind fun (marker, path) =>
          if marker = "EXPIRED" then none else some (record.insert 0 (aged marker, path))
      else
        some (record.insert (-1) (aged status, number))

/-- The sweep visits every record once, in the order of the ids, makes of each
what it is by itself, and leaves the server's own records alone. -/
def SweepsIndependently (log : Log) : Prop :=
  ∃ after, (∃ fuel, loop fuel log = .ok (log.keys, after)) ∧ (∀ key : Int, after[key]? = log[key]?.bind (swept key)) ∧
    ∀ key : Int, key ≤ 0 → after[key]? = log[key]?

/-- A record that the next sweep does not remove. -/
structure Stays (record : Record) (status : Text) : Prop where
  live : status ≠ "EXPIRED"
  pending : status = "WAITING" → ∃ marker path, record[(0 : Int)]? = some (marker, path) ∧ marker ≠ "EXPIRED"

/-- No record is due for removal, and the server's own record is in a role. -/
structure Spared (log : Log) : Prop where
  stays : ∀ key record status number, 0 ≤ key → Found log key record status number → Stays record status
  role : ∀ record status number, Found log 0 record status number → Kept status

section
variable {log after : Log} {key : Int} {record : Record} {status number : Text} {erased : Bool}

theorem swept_low (low : key < 0) : swept key record = some record := by
  simp only [swept, low, if_true]

theorem swept_bare (bare : record[(-1 : Int)]? = none) : swept key record = some record := by
  simp only [swept, bare, ite_self]

theorem swept_kept (found : Found log key record status number) (kept : Kept status) : swept key record = some record := by
  simp only [swept, found.entry, kept, if_true, ite_self]

theorem swept_marked (high : 0 ≤ key) (found : Found log key record status number) (notKept : ¬ Kept status)
    (notExpired : status ≠ "EXPIRED") (notWaiting : status ≠ "WAITING") :
    swept key record = some (record.insert (-1) (aged status, number)) := by
  simp only [swept, Int.not_lt.mpr high, found.entry, notKept, notExpired, notWaiting, if_false]

theorem swept_expired (high : 0 ≤ key) (found : Found log key record "EXPIRED" number) : swept key record = none := by
  have notKept : ¬ Kept "EXPIRED" := by decide
  simp only [swept, Int.not_lt.mpr high, found.entry, notKept, if_false, if_true]

theorem swept_waiting {marker path : Text} (high : 0 ≤ key) (found : Found log key record "WAITING" number)
    (file : record[(0 : Int)]? = some (marker, path)) :
    swept key record = if marker = "EXPIRED" then none else some (record.insert 0 (aged marker, path)) := by
  have notKept : ¬ Kept "WAITING" := by decide
  have notExpired : ("WAITING" : Text) ≠ "EXPIRED" := by decide
  simp only [swept, Int.not_lt.mpr high, found.entry, notKept, notExpired, if_false, if_true, file, Option.bind_some]

/-- A turn of the sweep makes of its record what the record says. -/
theorem Sweeps.own (sweeps : Sweeps log key after erased) : after[key]? = log[key]?.bind (swept key) := by
  cases sweeps with
  | absent absent => rw [absent]; rfl
  | low low =>
    cases inLog : log[key]? with
    | none => rfl
    | some record => exact (swept_low low).symm
  | bare inLog bare => rw [inLog, Option.bind_some, swept_bare bare]
  | kept found kept => rw [found.inLog, Option.bind_some, swept_kept found kept]
  | marked high found notKept notExpired notWaiting =>
    rw [found.inLog, Option.bind_some, swept_marked high found notKept notExpired notWaiting]
    exact (mark_found _ _ _ _ _).inLog
  | removed high found =>
    rw [found.inLog, Option.bind_some, swept_expired high found]
    exact Std.ExtTreeMap.getElem?_erase_self
  | waits high found file notExpired =>
    rw [found.inLog, Option.bind_some, swept_waiting high found file, if_neg notExpired]
    exact Std.ExtTreeMap.getElem?_insert_self
  | dropped high found file =>
    rw [found.inLog, Option.bind_some, swept_waiting high found file, if_pos rfl]
    exact Std.ExtTreeMap.getElem?_erase_self

theorem Sweeps.other (sweeps : Sweeps log key after erased) (other : Int) (differs : other ≠ key) : after[other]? = log[other]? := by
  cases sweeps with
  | absent | low | bare | kept => rfl
  | marked => exact mark_other differs
  | removed | dropped => exact Store.get_erase_other differs
  | waits => exact Store.get_insert_other differs

/-- It has erased its record exactly when nothing becomes of the record. -/
theorem Sweeps.erases (sweeps : Sweeps log key after erased) : erased = true ↔ ∃ record, log[key]? = some record ∧ swept key record = none := by
  have own := Sweeps.own sweeps
  have nothing (present : ∀ record, log[key]? = some record → ∃ next, after[key]? = some next) :
      false = true ↔ ∃ record, log[key]? = some record ∧ swept key record = none := by
    constructor
    · intro impossible
      cases impossible
    · intro removed
      obtain ⟨record, inLog, gone⟩ := removed
      obtain ⟨next, still⟩ := present record inLog
      rw [own, inLog, Option.bind_some, gone] at still
      cases still
  cases sweeps with
  | absent | low | bare | kept => exact nothing fun record inLog => ⟨record, inLog⟩
  | marked => exact nothing fun _ _ => ⟨_, (mark_found _ _ _ _ _).inLog⟩
  | waits => exact nothing fun _ _ => ⟨_, Std.ExtTreeMap.getElem?_insert_self⟩
  | removed high found => exact ⟨fun _ => ⟨_, found.inLog, swept_expired high found⟩, fun _ => rfl⟩
  | dropped high found file =>
    refine ⟨fun _ => ⟨_, found.inLog, ?_⟩, fun _ => rfl⟩
    rw [swept_waiting high found file, if_pos rfl]

theorem sweepRecord_visits : Visits sweepRecord swept where
  own ran := Sweeps.own (sweepRecord_cases ran)
  other ran := Sweeps.other (sweepRecord_cases ran)
  erases ran := Sweeps.erases (sweepRecord_cases ran)

/-- What a sweep makes of the log, it makes of each record by itself. -/
theorem timeouts_get {dangling : Bool} (ran : timeouts log = .ok (after, dangling)) (key : Int) :
    after[key]? = log[key]?.bind (swept key) := by
  have pass : pass sweepRecord log.keys (log, false) = .ok (after, dangling) := ran
  obtain ⟨inside, outside⟩ := sweepRecord_visits.pass_get log.nodup_keys pass key
  by_cases member : key ∈ log.keys
  · exact inside member
  · have absent : log[key]? = none := Store.not_mem_iff_get.mp fun present => member (Std.ExtTreeMap.mem_keys.mpr present)
    rw [outside member, absent]
    rfl

/-- The iterator's loop returns exactly when the sweep never advances from an
erased record, and then they are the same. -/
theorem loop_eq_ok {visited : List Int} :
    (∃ fuel, loop fuel log = .ok (visited, after)) ↔ visited = log.keys ∧ timeouts log = .ok (after, false) := by
  have split : log.keys = [] ++ log.keys := rfl
  exact sweepRecord_visits.walk_eq_ok split

theorem aged_ne (mark : Text) : aged mark ≠ mark := by
  unfold aged
  split
  next flag =>
    rw [flag]
    decide
  next notFlag =>
    intro same
    exact notFlag same.symm

/-- Only a record that the sweep leaves alone is the same after it. -/
theorem kept_of_swept (high : 0 ≤ key) (found : Found log key record status number) (same : swept key record = some record) : Kept status := by
  by_contra notKept
  by_cases expired : status = "EXPIRED"
  · subst expired
    rw [swept_expired high found] at same
    cases same
  by_cases waiting : status = "WAITING"
  · subst waiting
    have notExpired : ("WAITING" : Text) ≠ "EXPIRED" := by decide
    cases file : record[(0 : Int)]? with
    | none =>
      simp only [swept, Int.not_lt.mpr high, found.entry, notKept, notExpired, if_false, if_true, file, Option.bind_none] at same
      cases same
    | some entry =>
      obtain ⟨marker, path⟩ := entry
      rw [swept_waiting high found file] at same
      split at same
      · cases same
      · have moved : record[(0 : Int)]? = some (aged marker, path) := by
          rw [← Option.some.inj same]
          exact Std.ExtTreeMap.getElem?_insert_self
        rw [file] at moved
        exact aged_ne marker (Prod.mk.inj (Option.some.inj moved)).1.symm
  · rw [swept_marked high found notKept expired waiting] at same
    have moved : record[(-1 : Int)]? = some (aged status, number) := by
      rw [← Option.some.inj same]
      exact Std.ExtTreeMap.getElem?_insert_self
    rw [found.entry] at moved
    exact aged_ne status (Prod.mk.inj (Option.some.inj moved)).1.symm

/-- A record that stays is passed without being erased. -/
theorem sweepRecord_stays (stays : ∀ record status number, 0 ≤ key → Found log key record status number → Stays record status) :
    ∃ after, sweepRecord log key = .ok (after, false) := by
  unfold sweepRecord
  split
  next => exact ⟨log, rfl⟩
  next record inLog =>
  split
  next => exact ⟨log, rfl⟩
  next notLow =>
  split
  next => exact ⟨log, rfl⟩
  next status number entry =>
  have found : Found log key record status number := ⟨inLog, entry⟩
  obtain ⟨live, pending⟩ := stays record status number (Int.not_lt.mp notLow) found
  simp only [found.changeStatus, ok_bind, live, if_false, pure_eq_ok]
  split
  · exact ⟨_, rfl⟩
  split
  · exact ⟨_, rfl⟩
  split
  · exact ⟨_, rfl⟩
  split
  next waiting =>
    obtain ⟨marker, path, file, notExpired⟩ := pending waiting
    have read : getStatusZ log key = .ok marker := by
      simp only [getStatusZ, LogHandler.pair, inLog, file, defined_some, ok_bind, pure_eq_ok]
    simp only [read, ok_bind, notExpired, if_false, changeStatusZ, update, inLog, file, defined_some, pure_eq_ok]
    split
    · exact ⟨_, rfl⟩
    · exact ⟨_, rfl⟩
  next =>
  split
  · exact ⟨_, rfl⟩
  · exact ⟨_, rfl⟩

/-- The records that a sweep goes through without erasing any stay. -/
theorem stays_of_timeouts (ran : timeouts log = .ok (after, false)) (high : 0 ≤ key) (found : Found log key record status number) :
    Stays record status := by
  have member : key ∈ log.keys := Std.ExtTreeMap.mem_keys.mpr (Store.mem_iff_get.mpr ⟨record, found.inLog⟩)
  have pass : pass sweepRecord log.keys (log, false) = .ok (after, false) := ran
  obtain ⟨before, next, same, turned⟩ := sweepRecord_visits.pass_turn log.nodup_keys pass member
  have here : Found before key record status number := found.moved same
  cases sweepRecord_cases turned with
  | absent absent =>
    rw [here.inLog] at absent
    cases absent
  | low low => omega
  | bare inLog bare =>
    obtain rfl := Option.some.inj (here.inLog.symm.trans inLog)
    rw [here.entry] at bare
    cases bare
  | kept other kept =>
    obtain ⟨rfl, rfl, _⟩ := found_unique here other
    constructor
    · rintro rfl
      exact absurd kept (by decide)
    · rintro rfl
      exact absurd kept (by decide)
  | marked _ other _ notExpired notWaiting =>
    obtain ⟨rfl, rfl, _⟩ := found_unique here other
    exact ⟨notExpired, fun waiting => absurd waiting notWaiting⟩
  | waits _ other file notExpired =>
    obtain ⟨rfl, rfl, _⟩ := found_unique here other
    exact ⟨by decide, fun _ => ⟨_, _, file, notExpired⟩⟩

/-- The sweep is one independent step for each record exactly when it has no
record to remove and the server's own record is in a role. -/
theorem sweeps_independently_exactly_without_removals (log : Log) : SweepsIndependently log ↔ Spared log := by
  constructor
  · intro independent
    obtain ⟨after, ⟨fuel, looped⟩, _, reserved⟩ := independent
    obtain ⟨_, ran⟩ := loop_eq_ok.mp ⟨fuel, looped⟩
    refine ⟨fun key record status number high found => stays_of_timeouts ran high found, ?_⟩
    intro record status number found
    apply kept_of_swept (Int.le_refl 0) found
    have same := timeouts_get ran 0
    rw [reserved 0 (Int.le_refl 0), found.inLog, Option.bind_some] at same
    exact same.symm
  · intro spared
    have each : ∀ key ∈ log.keys, ∀ before : Log, before[key]? = log[key]? → ∃ after, sweepRecord before key = .ok (after, false) :=
      fun key _ before same => sweepRecord_stays fun record status number high found => spared.stays key record status number high (found.moved same.symm)
    obtain ⟨after, pass⟩ := sweepRecord_visits.pass_returns log.nodup_keys each
    have ran : timeouts log = .ok (after, false) := pass
    refine ⟨after, loop_eq_ok.mpr ⟨rfl, ran⟩, timeouts_get ran, ?_⟩
    intro key low
    rw [timeouts_get ran key]
    cases inLog : log[key]? with
    | none => rfl
    | some record =>
      rw [Option.bind_some]
      by_cases reserved : key < 0
      · exact swept_low reserved
      · obtain rfl : key = 0 := by omega
        cases entry : record[(-1 : Int)]? with
        | none => exact swept_bare entry
        | some pair =>
          obtain ⟨status, number⟩ := pair
          have found : Found log 0 record status number := ⟨inLog, entry⟩
          exact swept_kept found (spared.role record status number found)

end

/-- A primary whose only transaction has been idle for two sweeps. -/
def idle : Exec (Server Unit) :=
  [System.Event.packet { draws := [5] } false "NEW_TXN 0 0 3" (some "aa") (Eq.refl true) System.five_drawn, .sweep, .sweep].foldlM
    (System.step Backup.noPeer 0) (System.start ⟨"ip", "80", "dir"⟩ true ∅ () [] [])

/-- The third sweep erases it and advances from there. -/
theorem third_sweep_advances_from_an_erased_record :
    ∃ server, idle = .ok server ∧ loop 2 server.log = .error .undefined ∧ ¬ SweepsIndependently server.log := by
  obtain ⟨server, ran⟩ := returned_of_isOk (show idle.isOk by decide +kernel)
  have expired : idle.map (fun server => getStatus server.log 5) = .ok (.ok "EXPIRED") := by decide +kernel
  have looped : idle.map (fun server => (loop 2 server.log).map Prod.fst) = .ok (.error .undefined) := by decide +kernel
  rw [ran] at expired looped
  refine ⟨server, ran, ?_, ?_⟩
  · cases walked : loop 2 server.log with
    | ok result =>
      rw [Except.map, walked] at looped
      cases looped
    | error halt =>
      rw [Except.map, walked] at looped
      cases looped
      rfl
  · intro independent
    obtain ⟨after, ⟨fuel, looped⟩, _⟩ := independent
    obtain ⟨record, number, found⟩ := found_of_getStatus (Except.ok.inj expired)
    obtain ⟨_, swept⟩ := loop_eq_ok.mp ⟨fuel, looped⟩
    exact (stays_of_timeouts swept (by decide) found).live rfl

end TransactionalServer.Proofs.SweepIndependence
