import TransactionalServer.Library.Exec

/-! A machine that runs like another. Its steps are inputs to the other one, and
what a step lets the outside see is what the turn of the other one says. -/

namespace Refinement
open Exec

section
variable {σ τ ε ι ω : Type} (step : σ → ε → Exec σ) (react : τ → ι → ω) (after : ω → τ) (seen : σ → ε → σ → ι → ω → Prop)

/-- A step from related states is an input that keeps them related. -/
def Simulates (related : σ → τ → Prop) : Prop :=
  ∀ state next event held, related state held → step state event = .ok next →
    ∃ input, seen state event next input (react held input) ∧ related next (after (react held input))

/-- Two runs side by side: every event is read as an input, and shows the turn that the input makes. -/
inductive Plays : σ → τ → List ε → List ι → σ → τ → Prop where
  | done (state : σ) (held : τ) : Plays state held [] [] state held
  | turn {state next final : σ} {held played : τ} {event : ε} {input : ι} {events : List ε} {inputs : List ι}
      (stepped : step state event = .ok next) (shown : seen state event next input (react held input))
      (rest : Plays next (after (react held input)) events inputs final played) :
      Plays state held (event :: events) (input :: inputs) final played

end

section
variable {σ τ ε ι ω : Type} {step : σ → ε → Exec σ} {react : τ → ι → ω} {after : ω → τ} {seen : σ → ε → σ → ι → ω → Prop}
  {related : σ → τ → Prop} {state final : σ} {held : τ} {events : List ε}

/-- What every step does, every run does. -/
theorem Simulates.run (simulates : Simulates step react after seen related) (start : related state held)
    (ran : events.foldlM step state = .ok final) :
    ∃ inputs played, Plays step react after seen state held events inputs final played ∧ related final played := by
  induction events generalizing state held with
  | nil =>
    cases ran
    exact ⟨[], held, .done _ held, start⟩
  | cons event events ih =>
    rw [List.foldlM_cons] at ran
    obtain ⟨next, stepped, ran⟩ := bind_eq_ok.mp ran
    obtain ⟨input, shown, later⟩ := simulates _ _ _ _ start stepped
    obtain ⟨inputs, played, rest, ends⟩ := ih later ran
    exact ⟨input :: inputs, played, .turn stepped shown rest, ends⟩

end

section
variable {σ ε ι : Type} (step : σ → ε → Exec σ) (record : σ → ε → List ι)

/-- What is written down along a run. -/
def transcript : σ → List ε → List ι
  | _, [] => []
  | state, event :: events =>
    record state event ++ match step state event with
      | .ok next => transcript next events
      | .error _ => []

end

section
variable {σ τ ε ι κ : Type} {step : σ → ε → Exec σ} {record : σ → ε → List ι} {state final : σ} {events : List ε}

theorem transcript_cons {next : σ} {event : ε} (stepped : step state event = .ok next) (events : List ε) :
    transcript step record state (event :: events) = record state event ++ transcript step record next events := by
  rw [transcript, stepped]

/-- A history that every step continues, every run continues. -/
theorem transcript_preserves {holds : List ι → σ → Prop}
    (preserved : ∀ past state event next, holds past state → step state event = .ok next → holds (past ++ record state event) next)
    {past : List ι} (start : holds past state) (ran : events.foldlM step state = .ok final) :
    holds (past ++ transcript step record state events) final := by
  induction events generalizing state past with
  | nil =>
    cases ran
    rw [transcript, List.append_nil]
    exact start
  | cons event events ih =>
    rw [List.foldlM_cons] at ran
    obtain ⟨next, stepped, ran⟩ := bind_eq_ok.mp ran
    rw [transcript_cons stepped, ← List.append_assoc]
    exact ih (preserved past state event next start stepped) ran

/-- When every step is what its own record means to the machine above, so is every run. -/
theorem transcript_runs {upper : τ → κ → Exec τ} {view : σ → τ} {meaning : ι → List κ}
    (each : ∀ state event next, step state event = .ok next →
      ((record state event).flatMap meaning).foldlM upper (view state) = .ok (view next))
    (ran : events.foldlM step state = .ok final) :
    ((transcript step record state events).flatMap meaning).foldlM upper (view state) = .ok (view final) := by
  have continued : ∀ past reached event next, (past.flatMap meaning).foldlM upper (view state) = .ok (view reached) →
      step reached event = .ok next → ((past ++ record reached event).flatMap meaning).foldlM upper (view state) = .ok (view next) := by
    intro past reached event next run stepped
    rw [List.flatMap_append, List.foldlM_append, run, ok_bind]
    exact each reached event next stepped
  have start : (([] : List ι).flatMap meaning).foldlM upper (view state) = .ok (view state) := rfl
  exact transcript_preserves continued start ran

end

section
variable {σ ε : Type} {step : σ → ε → Exec σ} {allowed : σ → ε → Prop} {view : σ → σ} {kept : ε → Bool} {state final : σ} {events : List ε}

/-- A run without its hidden events comes to what the view shows of the whole run. -/
theorem purged_run
    (hidden : ∀ state event next, kept event = false → allowed state event → step state event = .ok next → view next = view state)
    (visible : ∀ state event next, kept event = true → allowed state event → step state event = .ok next →
      step (view state) event = .ok (view next))
    (along : Along step allowed state events) (ran : events.foldlM step state = .ok final) :
    (events.filter kept).foldlM step (view state) = .ok (view final) := by
  induction events generalizing state with
  | nil =>
    cases ran
    rfl
  | cons event events ih =>
    rw [List.foldlM_cons] at ran
    obtain ⟨next, stepped, ran⟩ := bind_eq_ok.mp ran
    have later := ih (along.2 next stepped) ran
    cases shown : kept event with
    | false =>
      rw [List.filter_cons_of_neg (ne_true_of_eq_false shown), ← hidden state event next shown along.1 stepped]
      exact later
    | true =>
      rw [List.filter_cons_of_pos shown, List.foldlM_cons, visible state event next shown along.1 stepped]
      exact later

end

end Refinement
