import TransactionalServer.Library.Exec

/-! Safety of a computation: it makes no undefined step, and what it returns is
as promised. A computation that still runs has made none so far. One that waits
for nothing returns or is undefined. -/

namespace Exec

variable {α β σ : Type}

structure Safe (run : Exec α) (post : α → Prop) : Prop where
  defined : run ≠ .error .undefined
  returns : ∀ value, run = .ok value → post value

variable {run : Exec α} {post other : α → Prop}

theorem Safe.ok {value : α} (holds : post value) : Safe (.ok value) post := by
  constructor
  · intro same
    cases same
  · rintro _ ⟨⟩
    exact holds

theorem safe_running : Safe (.error .running) post := by
  constructor
  · intro same
    cases same
  · intro _ same
    cases same

theorem Safe.of_eq_ok {value : α} (same : run = .ok value) (holds : post value) : Safe run post := same ▸ .ok holds

theorem Safe.finished {found : Option α} (holds : ∀ value, found = some value → post value) : Safe (Exec.finished found) post := by
  cases found with
  | none => exact safe_running
  | some value => exact .ok (holds value rfl)

/-- A sequence is safe when its second part is, after whatever the first one
returns. -/
theorem Safe.bind {next : α → Exec β} {last : β → Prop} (first : Safe run post) (rest : ∀ value, run = .ok value → post value → Safe (next value) last) :
    Safe (run >>= next) last := by
  cases run with
  | ok value => exact rest value rfl (first.returns value rfl)
  | error halt =>
    cases halt with
    | undefined => exact absurd rfl first.defined
    | running => exact safe_running

theorem Safe.mono (safe : Safe run post) (weaker : ∀ value, post value → other value) : Safe run other :=
  ⟨safe.defined, fun value same => weaker value (safe.returns value same)⟩

/-- What every turn of a loop keeps, the loop keeps. -/
theorem Safe.foldlM {step : σ → β → Exec σ} {values : List β} {state : σ} {holds : σ → Prop}
    (each : ∀ state value, value ∈ values → holds state → Safe (step state value) holds) (start : holds state) :
    Safe (values.foldlM step state) holds := by
  induction values generalizing state with
  | nil => exact .ok start
  | cons value values ih =>
    rw [List.foldlM_cons]
    apply (each state value List.mem_cons_self start).bind
    intro next _ kept
    exact ih (fun state other member => each state other (List.mem_cons_of_mem _ member)) kept

/-- A computation that waits for nothing. -/
def Definite (run : Exec α) : Prop := run ≠ .error .running

theorem Definite.ok (value : α) : Definite (.ok value) := by
  intro same
  cases same

theorem Definite.undefined : Definite (.error .undefined : Exec α) := by
  intro same
  cases same

theorem definite_defined (found : Option α) : Definite (Exec.defined found) := by
  cases found with
  | none => exact .undefined
  | some value => exact .ok value

theorem Definite.bind {next : α → Exec β} (first : Definite run) (rest : ∀ value, Definite (next value)) : Definite (run >>= next) := by
  cases run with
  | ok value => exact rest value
  | error halt =>
    cases halt with
    | undefined => exact .undefined
    | running => exact absurd rfl first

theorem Definite.foldlM {step : σ → β → Exec σ} (each : ∀ state value, Definite (step state value)) (values : List β) (state : σ) :
    Definite (values.foldlM step state) := by
  induction values generalizing state with
  | nil => exact .ok state
  | cons value values ih =>
    rw [List.foldlM_cons]
    exact (each state value).bind ih

/-- What neither waits nor returns is undefined. -/
theorem Definite.undefined_of_never (definite : Definite run) (never : ∀ value, run ≠ .ok value) : run = .error .undefined := by
  cases run with
  | ok value => exact absurd rfl (never value)
  | error halt =>
    cases halt with
    | undefined => rfl
    | running => exact absurd rfl definite

end Exec
