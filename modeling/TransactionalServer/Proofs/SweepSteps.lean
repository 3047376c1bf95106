import TransactionalServer.Proofs.LogSteps

/-! What one turn of the sweep can do to the record it visits. -/

namespace TransactionalServer.Proofs
open ServerTools LogHandler Exec

/-- The statuses that a sweep leaves alone. -/
def Kept (status : Text) : Prop := status = "COMMITTED" ∨ status = "WRITING" ∨ status = "backup" ∨ status = "primary"

instance (status : Text) : Decidable (Kept status) :=
  inferInstanceAs (Decidable (_ ∨ _))

/-- The next mark of a record that nobody has touched. -/
def aged (mark : Text) : Text := if mark = "FLAG" then "EXPIRED" else "FLAG"

inductive Sweeps (log : Log) (key : Int) : Log → Bool → Prop where
  | absent (absent : log[key]? = none) : Sweeps log key log false
  | low (low : key < 0) : Sweeps log key log false
  | bare {record : Record} (inLog : log[key]? = some record) (bare : record[(-1 : Int)]? = none) : Sweeps log key log false
  | kept {record : Record} {status number : Text} (found : Found log key record status number) (kept : Kept status) :
      Sweeps log key log false
  | marked {record : Record} {status number : Text} (high : 0 ≤ key) (found : Found log key record status number)
      (notKept : ¬ Kept status) (notExpired : status ≠ "EXPIRED") (notWaiting : status ≠ "WAITING") :
      Sweeps log key (mark log key record (aged status) number) false
  | removed {record : Record} {number : Text} (high : 0 ≤ key) (found : Found log key record "EXPIRED" number) :
      Sweeps log key (log.erase key) true
  | waits {record : Record} {number marker path : Text} (high : 0 ≤ key) (found : Found log key record "WAITING" number)
      (file : record[(0 : Int)]? = some (marker, path)) (notExpired : marker ≠ "EXPIRED") :
      Sweeps log key (log.insert key (record.insert 0 (aged marker, path))) false
  | dropped {record : Record} {number path : Text} (high : 0 ≤ key) (found : Found log key record "WAITING" number)
      (file : record[(0 : Int)]? = some (("EXPIRED" : Text), path)) : Sweeps log key (log.erase key) true

private theorem changeStatusZ_of_get {log : Log} {key : Int} {record : Record} {marker path : Text} (inLog : log[key]? = some record)
    (file : record[(0 : Int)]? = some (marker, path)) (next : Text) :
    changeStatusZ log key next = .ok (log.insert key (record.insert 0 (next, path))) := by
  simp only [changeStatusZ, update, inLog, file, defined_some, ok_bind, pure_eq_ok]

theorem sweepRecord_cases {log after : Log} {key : Int} {erased : Bool} (ran : sweepRecord log key = .ok (after, erased)) :
    Sweeps log key after erased := by
  unfold sweepRecord at ran
  cases inLog : log[key]? with
  | none =>
    rw [inLog] at ran
    cases ran
    exact .absent inLog
  | some record =>
    simp only [inLog] at ran
    split at ran
    next low =>
      cases ran
      exact .low low
    next notLow =>
    have high : 0 ≤ key := Int.not_lt.mp notLow
    cases entry : record[(-1 : Int)]? with
    | none =>
      rw [entry] at ran
      cases ran
      exact .bare inLog entry
    | some pair =>
      obtain ⟨status, number⟩ := pair
      have found : Found log key record status number := ⟨inLog, entry⟩
      simp only [entry, found.changeStatus, ok_bind] at ran
      split at ran
      next active =>
        subst active
        have aging : aged ("ACTIVE" : Text) = ("FLAG" : Text) := if_neg (by decide)
        cases ran
        rw [← aging]
        exact .marked high found (by decide) (by decide) (by decide)
      next =>
      split at ran
      next flag =>
        subst flag
        have aging : aged ("FLAG" : Text) = ("EXPIRED" : Text) := if_pos rfl
        cases ran
        rw [← aging]
        exact .marked high found (by decide) (by decide) (by decide)
      next notFlag =>
      split at ran
      next expired =>
        subst expired
        cases ran
        exact .removed high found
      next notExpired =>
      split at ran
      next committed =>
        cases ran
        exact .kept found (Or.inl committed)
      next notCommitted =>
      split at ran
      next waiting =>
        subst waiting
        obtain ⟨_, read, ran⟩ := bind_eq_ok.mp ran
        obtain ⟨⟨marker, path⟩, file, same⟩ := bind_eq_ok.mp read
        cases same
        obtain ⟨again, inside, file⟩ := pair_eq_ok.mp file
        obtain rfl := Option.some.inj (inLog.symm.trans inside)
        simp only [changeStatusZ_of_get inLog file, ok_bind] at ran
        split at ran
        next flag =>
          have aging : aged marker = "EXPIRED" := if_pos flag
          cases ran
          exact aging ▸ .waits high found file (by rw [flag]; decide)
        next notFlag =>
        split at ran
        next expired =>
          cases ran
          exact .dropped high found (expired ▸ file)
        next notOld =>
          have aging : aged marker = "FLAG" := if_neg notFlag
          cases ran
          exact aging ▸ .waits high found file notOld
      next notWaiting =>
      split at ran
      next other =>
        cases ran
        exact .kept found (Or.inr other)
      next notOther =>
        have aging : aged status = "FLAG" := if_neg notFlag
        cases ran
        exact aging ▸ .marked high found (fun kept => kept.elim notCommitted notOther) notExpired notWaiting

/-- A sweep keeps what each of its turns keeps. -/
theorem timeouts_preserves {holds : Log → Prop} {log after : Log} {dangling : Bool}
    (each : ∀ log key after erased, holds log → Sweeps log key after erased → holds after) (start : holds log)
    (ran : timeouts log = .ok (after, dangling)) : holds after := by
  unfold timeouts at ran
  refine run_preserves (fun state : Log × Bool => holds state.1) ?_ (along_trivial _ _ _) start ran
  intro state key next before _ turned
  obtain ⟨⟨swept, erased⟩, turn, same⟩ := bind_eq_ok.mp turned
  cases same
  exact each _ _ _ _ before (sweepRecord_cases turn)

end TransactionalServer.Proofs
