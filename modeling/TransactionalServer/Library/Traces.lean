import Mathlib.Logic.Basic

/-! Runs of labelled steps. A label is an effect outside the machine; effects
are collected by folding them into what holds them. -/

namespace Traces

variable {σ ε δ : Type}

/-- A run from one state to another with the effects it had, in order. -/
inductive Acts (act : σ → Option ε → σ → Prop) : σ → List ε → σ → Prop where
  | done (state : σ) : Acts act state [] state
  | silent {first middle last : σ} {effects : List ε} (step : act first none middle) (rest : Acts act middle effects last) :
      Acts act first effects last
  | effect {first middle last : σ} {effect : ε} {effects : List ε} (step : act first (some effect) middle)
      (rest : Acts act middle effects last) : Acts act first (effect :: effects) last

variable {act : σ → Option ε → σ → Prop} {first middle last : σ} {effect : ε} {effects later : List ε}

theorem Acts.one (step : act first none last) : Acts act first [] last := .silent step (.done last)

theorem Acts.single (step : act first (some effect) last) : Acts act first [effect] last := .effect step (.done last)

theorem Acts.trans (one : Acts act first effects middle) (two : Acts act middle later last) : Acts act first (effects ++ later) last := by
  induction one with
  | done => exact two
  | silent step _ ih => exact .silent step (ih two)
  | effect step _ ih => exact .effect step (ih two)

/-- A run that is cut between two effects has reached some state. -/
theorem Acts.cut (run : Acts act first effects last) (count : Nat) : ∃ reached, Acts act first (effects.take count) reached := by
  induction run generalizing count with
  | done state => exact ⟨state, by rw [List.take_nil]; exact .done state⟩
  | silent step _ ih =>
    obtain ⟨reached, run⟩ := ih count
    exact ⟨reached, .silent step run⟩
  | @effect first _ _ _ _ step _ ih =>
    cases count with
    | zero => exact ⟨first, .done first⟩
    | succ count =>
      obtain ⟨reached, run⟩ := ih count
      exact ⟨reached, .effect step run⟩

/-- What every step preserves together with its effect, every run preserves. -/
theorem Acts.preserves {apply : δ → ε → δ} {holds : σ → δ → Prop} {store : δ}
    (preserved : ∀ before label after store, holds before store → act before label after → holds after (label.elim store (apply store)))
    (run : Acts act first effects last) (start : holds first store) : holds last (effects.foldl apply store) := by
  induction run generalizing store with
  | done => exact start
  | silent step _ ih => exact ih (preserved _ _ _ _ start step)
  | effect step _ ih => exact ih (preserved _ _ _ _ start step)

/-- What every step preserves, every run preserves. -/
theorem Acts.keeps (holds : σ → Prop) (preserved : ∀ before label after, holds before → act before label after → holds after)
    (run : Acts act first effects last) (start : holds first) : holds last := by
  induction run with
  | done => exact start
  | silent step _ ih => exact ih (preserved _ _ _ start step)
  | effect step _ ih => exact ih (preserved _ _ _ start step)

end Traces
