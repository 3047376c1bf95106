import Mathlib.Data.List.Forall2

/-! Computations whose result may be missing. `undefined` marks a step the
language gives no meaning to; `running` marks a call that the given fuel or
input did not let finish. -/

inductive Halt where
  | undefined
  | running
  deriving DecidableEq, Repr

abbrev Exec (α : Type) := Except Halt α

namespace Exec

variable {α β σ ε : Type}

def defined : Option α → Exec α
  | some value => .ok value
  | none => .error .undefined

/-- A call that has not finished within the values tried so far. -/
def finished : Option α → Exec α
  | some value => .ok value
  | none => .error .running

@[simp] theorem defined_some (value : α) : defined (some value) = .ok value := rfl

@[simp] theorem finished_some (value : α) : finished (some value) = .ok value := rfl

@[simp] theorem defined_eq_ok {found : Option α} {value : α} : defined found = .ok value ↔ found = some value := by
  cases found <;> simp [defined]

@[simp] theorem finished_eq_ok {found : Option α} {value : α} : finished found = .ok value ↔ found = some value := by
  cases found <;> simp [finished]

@[simp] theorem ok_bind (value : α) (next : α → Exec β) : (.ok value >>= next : Exec β) = next value := rfl

@[simp] theorem error_bind (halt : Halt) (next : α → Exec β) : (.error halt >>= next : Exec β) = .error halt := rfl

@[simp] theorem pure_eq_ok (value : α) : (pure value : Exec α) = .ok value := rfl

theorem returned_of_isOk {run : Exec α} (returned : run.isOk = true) : ∃ value, run = .ok value := by
  cases run with
  | ok value => exact ⟨value, rfl⟩
  | error halt => cases returned

/-- A sequence returns exactly when both of its parts do. -/
theorem bind_eq_ok {first : Exec α} {next : α → Exec β} {result : β} :
    first >>= next = .ok result ↔ ∃ value, first = .ok value ∧ next value = .ok result := by
  cases first with
  | ok value => simp
  | error halt => simp

/-- What a traversal returns, it has read value by value. -/
theorem forall₂_of_mapM {next : α → Exec β} {values : List α} {results : List β} (ran : values.mapM next = .ok results) :
    List.Forall₂ (fun value result => next value = .ok result) values results := by
  induction values generalizing results with
  | nil =>
    cases ran
    exact .nil
  | cons value values ih =>
    rw [List.mapM_cons] at ran
    obtain ⟨first, here, ran⟩ := bind_eq_ok.mp ran
    obtain ⟨rest, later, same⟩ := bind_eq_ok.mp ran
    cases same
    exact .cons here (ih later)

theorem mem_of_forall₂ {related : α → β → Prop} {values : List α} {results : List β} (pairs : List.Forall₂ related values results)
    {result : β} (member : result ∈ results) : ∃ value ∈ values, related value result := by
  induction pairs with
  | nil => cases member
  | @cons value first values results here _ ih =>
    rcases List.mem_cons.mp member with rfl | later
    · exact ⟨value, List.mem_cons_self, here⟩
    · obtain ⟨other, inside, there⟩ := ih later
      exact ⟨other, List.mem_cons_of_mem _ inside, there⟩

/-- What a traversal returns comes from its values. -/
theorem mem_of_mapM {next : α → Exec β} {values : List α} {results : List β} (ran : values.mapM next = .ok results) {result : β}
    (member : result ∈ results) : ∃ value ∈ values, next value = .ok result :=
  mem_of_forall₂ (forall₂_of_mapM ran) member

theorem mapM_congr {one two : α → Exec β} {values : List α} (same : ∀ value ∈ values, one value = two value) :
    values.mapM one = values.mapM two := by
  induction values with
  | nil => rfl
  | cons value values ih =>
    rw [List.mapM_cons, List.mapM_cons, same value List.mem_cons_self]
    rw [ih (fun other member => same other (List.mem_cons_of_mem _ member))]

/-- A traversal that returns for every value returns what is collected. -/
theorem mapM_filterMap {next : α → Exec β} {collect : α → Option β} {values : List α}
    (each : ∀ value ∈ values, ∃ result, next value = .ok result ∧ collect value = some result) :
    values.mapM next = .ok (values.filterMap collect) := by
  induction values with
  | nil => rfl
  | cons value values ih =>
    obtain ⟨result, here, collected⟩ := each value List.mem_cons_self
    have later := ih (fun other member => each other (List.mem_cons_of_mem _ member))
    rw [List.mapM_cons, here, ok_bind, later, ok_bind, List.filterMap_cons_some collected, pure_eq_ok]

/-- A loop that collects what it finds at some values. -/
theorem foldlM_collects {step : List β → α → Exec (List β)} {collect : α → Option β} {values : List α}
    (next : ∀ value ∈ values, ∀ found, step found value = .ok (found ++ (collect value).toList)) (found : List β) :
    values.foldlM step found = .ok (found ++ values.filterMap collect) := by
  induction values generalizing found with
  | nil => simp
  | cons value values ih =>
    have later := ih (fun other member => next other (List.mem_cons_of_mem _ member)) (found ++ (collect value).toList)
    rw [List.foldlM_cons, next value List.mem_cons_self, ok_bind, later, List.append_assoc, List.filterMap_cons]
    cases collect value with
    | none => rfl
    | some found => rfl

/-- Every step of a run meets a condition on the state it starts from. -/
def Along (step : σ → ε → Exec σ) (allowed : σ → ε → Prop) : σ → List ε → Prop
  | _, [] => True
  | state, event :: rest => allowed state event ∧ ∀ next, step state event = .ok next → Along step allowed next rest

/-- A run can be tried. -/
instance Along.decidable {step : σ → ε → Exec σ} {allowed : σ → ε → Prop} [∀ state event, Decidable (allowed state event)] :
    ∀ (state : σ) (events : List ε), Decidable (Along step allowed state events)
  | _, [] => .isTrue trivial
  | state, event :: rest =>
    match stepped : step state event with
    | .ok next =>
      have := @Along.decidable step allowed _ next rest
      decidable_of_iff (allowed state event ∧ Along step allowed next rest) (by simp [Along, stepped])
    | .error _ => decidable_of_iff (allowed state event) (by simp [Along, stepped])

/-- What every allowed step preserves, every run of allowed steps preserves. -/
theorem run_preserves {step : σ → ε → Exec σ} {allowed : σ → ε → Prop} (invariant : σ → Prop)
    (preserved : ∀ state event next, invariant state → allowed state event →
      step state event = .ok next → invariant next)
    {events : List ε} {state final : σ} (along : Along step allowed state events)
    (holds : invariant state) (ran : events.foldlM step state = .ok final) : invariant final := by
  induction events generalizing state with
  | nil => cases ran; exact holds
  | cons event rest ih =>
    rw [List.foldlM_cons, bind_eq_ok] at ran
    obtain ⟨next, stepped, rest⟩ := ran
    exact ih (along.2 next stepped) (preserved state event next holds along.1 stepped) rest

theorem Along.and {step : σ → ε → Exec σ} {one two : σ → ε → Prop} {state : σ} {events : List ε} (first : Along step one state events)
    (second : Along step two state events) : Along step (fun state event => one state event ∧ two state event) state events := by
  induction events generalizing state with
  | nil => trivial
  | cons event rest ih => exact ⟨⟨first.1, second.1⟩, fun next stepped => ih (first.2 next stepped) (second.2 next stepped)⟩

theorem along_of_forall {step : σ → ε → Exec σ} {allowed : ε → Prop} {events : List ε} (all : ∀ event ∈ events, allowed event) (state : σ) :
    Along step (fun _ event => allowed event) state events := by
  induction events generalizing state with
  | nil => trivial
  | cons event rest ih =>
    exact ⟨all event List.mem_cons_self, fun next _ => ih (fun other member => all other (List.mem_cons_of_mem _ member)) next⟩

theorem along_trivial (step : σ → ε → Exec σ) (state : σ) (events : List ε) :
    Along step (fun _ _ => True) state events := by
  induction events generalizing state with
  | nil => trivial
  | cons event rest ih => exact ⟨trivial, fun next _ => ih next⟩

end Exec
