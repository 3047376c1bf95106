import Mathlib.Logic.Basic

/-! Text cut into fields at every separator; empty fields are kept. -/

namespace Fields

def split (separators text : List Char) : List (List Char) := text.splitOnP (separators.contains ·)

def Clean (separators field : List Char) : Prop := ∀ char ∈ field, char ∉ separators

instance (separators field : List Char) : Decidable (Clean separators field) :=
  List.decidableBAll (fun char => char ∉ separators) field

variable {separators : List Char}

private theorem Clean.contains {field : List Char} (clean : Clean separators field) :
    ∀ char ∈ field, separators.contains char = false := by
  intro char member
  simpa using clean char member

theorem split_field {field : List Char} (clean : Clean separators field) {separator : Char}
    (separates : separator ∈ separators) (rest : List Char) :
    split separators (field ++ separator :: rest) = field :: split separators rest :=
  List.splitOnP_append_cons_of_forall_mem clean.contains separator (by simpa using separates) rest

theorem split_last {field : List Char} (clean : Clean separators field) : split separators field = [field] :=
  List.splitOnP_eq_singleton clean.contains

private theorem modifyHead_cons {fields : List (List Char)} {first : Char} {field : List Char}
    (member : field ∈ fields.modifyHead (List.cons first)) :
    field ∈ fields ∨ ∃ rest ∈ fields, field = first :: rest := by
  cases fields with
  | nil => simp at member
  | cons head tail =>
    rcases List.mem_cons.mp member with same | inside
    · exact Or.inr ⟨head, List.mem_cons_self, same⟩
    · exact Or.inl (List.mem_cons_of_mem _ inside)

/-- A field holds characters of the text only, and no separator. -/
theorem split_mem {text field : List Char} (member : field ∈ split separators text) :
    ∀ char ∈ field, char ∈ text ∧ char ∉ separators := by
  induction text generalizing field with
  | nil =>
    have empty : field = [] := by simpa [split] using member
    simp [empty]
  | cons first rest ih =>
    have shape := List.splitOnP_cons_eq_if_modifyHead (p := (separators.contains ·)) first rest
    unfold split at member
    rw [shape] at member
    intro char inside
    split at member
    next =>
      rcases List.mem_cons.mp member with same | later
      · simp [same] at inside
      · exact ⟨List.mem_cons_of_mem _ (ih later char inside).1, (ih later char inside).2⟩
    next kept =>
      rcases modifyHead_cons member with later | ⟨tail, later, rfl⟩
      · exact ⟨List.mem_cons_of_mem _ (ih later char inside).1, (ih later char inside).2⟩
      · rcases List.mem_cons.mp inside with rfl | inside
        · exact ⟨List.mem_cons_self, by simpa using kept⟩
        · exact ⟨List.mem_cons_of_mem _ (ih later char inside).1, (ih later char inside).2⟩

theorem split_clean {text field : List Char} (member : field ∈ split separators text) :
    Clean separators field := fun char inside => (split_mem member char inside).2

end Fields
