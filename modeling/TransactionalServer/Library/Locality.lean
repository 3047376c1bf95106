import TransactionalServer.Library.Store

/-! Operations on one key of a map. An operation is local when it writes its own
key only and depends on what it finds there and under some keys that it reads. -/

namespace Locality
open Std

variable {α β ρ σ : Type} {cmp : α → α → Ordering} [TransCmp cmp] [LawfulEqCmp cmp]

/-- What the operation makes of a map, with its result. -/
abbrev Operation (α β ρ : Type) (cmp : α → α → Ordering) : Type := ExtTreeMap α β cmp → ρ → ExtTreeMap α β cmp → Prop

structure Local (operation : Operation α β ρ cmp) (own : α) (reads : α → Prop) : Prop where
  frame : ∀ before result after, operation before result after → ∀ key, key ≠ own → after[key]? = before[key]?
  moves : ∀ before result after other, operation before result after → (∀ key, key = own ∨ reads key → other[key]? = before[key]?) →
    ∃ next, operation other result next ∧ next[own]? = after[own]?

variable {one : Operation α β ρ cmp} {two : Operation α β σ cmp} {first second : α} {reads : α → Prop}
  {before middle after : ExtTreeMap α β cmp} {result : ρ} {other : σ}

/-- Two local operations on keys that neither reads of the other can change places. -/
theorem Local.commute (localOne : Local one first reads) (localTwo : Local two second reads) (differs : first ≠ second)
    (firstUnread : ¬ reads first) (secondUnread : ¬ reads second) (ran : one before result middle) (then_ : two middle other after) :
    ∃ swapped, two before other swapped ∧ one swapped result after := by
  have untouched : ∀ key, key = second ∨ reads key → before[key]? = middle[key]? := by
    rintro key (rfl | read)
    · exact (localOne.frame _ _ _ ran _ (Ne.symm differs)).symm
    · exact (localOne.frame _ _ _ ran _ (fun same => firstUnread (same ▸ read))).symm
  obtain ⟨swapped, twoFirst, atSecond⟩ := localTwo.moves _ _ _ _ then_ untouched
  have alike : ∀ key, key = first ∨ reads key → swapped[key]? = before[key]? := by
    rintro key (rfl | read)
    · exact localTwo.frame _ _ _ twoFirst _ differs
    · exact localTwo.frame _ _ _ twoFirst _ (fun same => secondUnread (same ▸ read))
  obtain ⟨final, oneSecond, atFirst⟩ := localOne.moves _ _ _ _ ran alike
  have same : final = after := by
    apply ExtTreeMap.ext_getElem?
    intro key
    by_cases here : key = first
    · subst here
      rw [atFirst, localTwo.frame _ _ _ then_ _ differs]
    · rw [localOne.frame _ _ _ oneSecond _ here]
      by_cases there : key = second
      · subst there
        exact atSecond
      · rw [localTwo.frame _ _ _ twoFirst _ there, localTwo.frame _ _ _ then_ _ there, localOne.frame _ _ _ ran _ here]
  exact ⟨swapped, twoFirst, same ▸ oneSecond⟩

end Locality
