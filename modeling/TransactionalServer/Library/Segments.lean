import Mathlib.Data.List.Basic

/-! A byte stream that arrives in segments. Reading until a condition appends
whole segments to a buffer; reading a number of bytes splits a segment. What a
reader obtains depends on the concatenation, its buffer on the cut points. -/

namespace Segments

variable {α : Type}

/-- `none` is a reader that still waits. -/
def readUntil (found : List α → Bool) (buffer : List α) : List (List α) → Option (List α × List (List α))
  | [] => if found buffer then some (buffer, []) else none
  | segment :: rest =>
    if found buffer then some (buffer, segment :: rest) else readUntil found (buffer ++ segment) rest

def take : Nat → List (List α) → Option (List α × List (List α))
  | 0, segments => some ([], segments)
  | _ + 1, [] => none
  | count + 1, segment :: rest =>
    if count + 1 ≤ segment.length then
      some (segment.take (count + 1), segment.drop (count + 1) :: rest)
    else
      (take (count + 1 - segment.length) rest).map fun (bytes, rest) => (segment ++ bytes, rest)

/-- A finished read has lost no byte and stopped because the condition held. -/
theorem readUntil_sound {found : List α → Bool} {buffer result : List α} {segments rest : List (List α)}
    (read : readUntil found buffer segments = some (result, rest)) :
    found result = true ∧ buffer <+: result ∧ result ++ rest.flatten = buffer ++ segments.flatten := by
  induction segments generalizing buffer with
  | nil =>
    simp only [readUntil] at read
    split at read
    next holds => cases read; exact ⟨holds, List.prefix_refl _, rfl⟩
    next => cases read
  | cons segment segments ih =>
    simp only [readUntil] at read
    split at read
    next holds => cases read; exact ⟨holds, List.prefix_refl _, rfl⟩
    next =>
      obtain ⟨holds, grown, same⟩ := ih read
      exact ⟨holds, (List.prefix_append _ _).trans grown, by simpa [List.append_assoc] using same⟩

/-- A read takes the first segments after which the condition holds. -/
theorem readUntil_stops {found : List α → Bool} {buffer result : List α} {segments rest : List (List α)}
    (read : readUntil found buffer segments = some (result, rest)) :
    ∃ taken, segments = taken ++ rest ∧ result = buffer ++ taken.flatten ∧
      ∀ earlier, earlier <+: segments → found (buffer ++ earlier.flatten) = true → taken <+: earlier := by
  induction segments generalizing buffer with
  | nil =>
    simp only [readUntil] at read
    split at read
    · cases read
      exact ⟨[], rfl, by simp, fun _ _ _ => List.nil_prefix⟩
    · cases read
  | cons segment segments ih =>
    simp only [readUntil] at read
    split at read
    next holds =>
      cases read
      exact ⟨[], rfl, by simp, fun _ _ _ => List.nil_prefix⟩
    next waits =>
      obtain ⟨taken, rfl, rfl, first⟩ := ih read
      refine ⟨segment :: taken, rfl, by simp, ?_⟩
      intro earlier inside holds
      cases earlier with
      | nil => exact absurd (by simpa using holds) waits
      | cons other earlier =>
        obtain ⟨rfl, further⟩ := List.cons_prefix_cons.mp inside
        have later := first earlier further (by simpa [List.append_assoc] using holds)
        exact List.cons_prefix_cons.mpr ⟨rfl, later⟩

/-- A read finishes when the condition holds of the whole stream. -/
theorem readUntil_finishes (found : List α → Bool) (buffer : List α) (segments : List (List α))
    (holds : found (buffer ++ segments.flatten) = true) :
    ∃ result rest, readUntil found buffer segments = some (result, rest) := by
  induction segments generalizing buffer with
  | nil =>
    have here : found buffer = true := by simpa using holds
    exact ⟨buffer, [], by simp [readUntil, here]⟩
  | cons segment segments ih =>
    by_cases here : found buffer = true
    · exact ⟨buffer, segment :: segments, by simp [readUntil, here]⟩
    · obtain ⟨result, rest, read⟩ := ih (buffer ++ segment) (by simpa [List.append_assoc] using holds)
      exact ⟨result, rest, by simpa [readUntil, here] using read⟩

theorem readUntil_waits {found : List α → Bool} {buffer : List α} {segments : List (List α)}
    (never : ∀ result, result <+: buffer ++ segments.flatten → found result = false) :
    readUntil found buffer segments = none := by
  cases read : readUntil found buffer segments with
  | none => rfl
  | some pair =>
    obtain ⟨holds, _, same⟩ := readUntil_sound read
    have absent := never pair.1 ⟨pair.2.flatten, same⟩
    rw [absent] at holds
    cases holds

/-- What arrives after a finished read is left for the next one. -/
theorem readUntil_grows {found : List α → Bool} {buffer result : List α} {segments rest : List (List α)}
    (read : readUntil found buffer segments = some (result, rest)) (more : List (List α)) :
    readUntil found buffer (segments ++ more) = some (result, rest ++ more) := by
  induction segments generalizing buffer with
  | nil =>
    simp only [readUntil] at read
    split at read
    next holds =>
      cases read
      cases more with
      | nil => exact if_pos holds
      | cons segment more => exact if_pos holds
    next => cases read
  | cons segment segments ih =>
    simp only [readUntil] at read
    split at read
    next holds =>
      cases read
      exact if_pos holds
    next waits => exact (if_neg waits).trans (ih read)

theorem take_grows {count : Nat} {bytes : List α} {segments rest : List (List α)} (taken : take count segments = some (bytes, rest))
    (more : List (List α)) : take count (segments ++ more) = some (bytes, rest ++ more) := by
  induction segments generalizing count bytes rest with
  | nil =>
    cases count with
    | zero =>
      cases taken
      exact take.eq_1 _
    | succ count => cases taken
  | cons segment segments ih =>
    cases count with
    | zero =>
      cases taken
      exact take.eq_1 _
    | succ count =>
      rw [take] at taken
      rw [List.cons_append, take]
      by_cases inside : count + 1 ≤ segment.length
      · rw [if_pos inside] at taken ⊢
        cases taken
        rfl
      · rw [if_neg inside] at taken ⊢
        obtain ⟨⟨later, left⟩, further, same⟩ := Option.map_eq_some_iff.mp taken
        cases same
        rw [ih further]
        rfl

/-- Enough bytes in the stream are taken exactly, whatever the cut points. -/
theorem take_exact (count : Nat) (segments : List (List α)) (enough : count ≤ segments.flatten.length) :
    ∃ rest, take count segments = some (segments.flatten.take count, rest) ∧
      rest.flatten = segments.flatten.drop count := by
  induction segments generalizing count with
  | nil =>
    have none : count = 0 := by simpa using enough
    subst count
    exact ⟨[], rfl, rfl⟩
  | cons segment segments ih =>
    cases count with
    | zero => exact ⟨segment :: segments, rfl, rfl⟩
    | succ count =>
      by_cases inside : count + 1 ≤ segment.length
      · refine ⟨segment.drop (count + 1) :: segments, ?_, ?_⟩
        · simp [take, inside, List.take_append_of_le_length inside]
        · simp [List.drop_append_of_le_length inside]
      · have short : segment.length ≤ count + 1 := by omega
        obtain ⟨rest, taken, left⟩ := ih (count + 1 - segment.length)
          (by simp only [List.flatten_cons, List.length_append] at enough; omega)
        refine ⟨rest, ?_, ?_⟩
        · simp [take, inside, taken, List.take_append, List.take_of_length_le short]
        · simp [left, List.drop_append, List.drop_of_length_le short]

/-- Too few bytes keep the reader waiting. -/
theorem take_waits (count : Nat) (segments : List (List α)) (short : segments.flatten.length < count) : take count segments = none := by
  induction segments generalizing count with
  | nil =>
    obtain ⟨count, rfl⟩ := Nat.exists_eq_succ_of_ne_zero (Nat.ne_of_gt short)
    rfl
  | cons segment segments ih =>
    rw [List.flatten_cons, List.length_append] at short
    obtain ⟨count, rfl⟩ := Nat.exists_eq_succ_of_ne_zero (Nat.ne_of_gt (Nat.zero_lt_of_lt short))
    have outside : ¬ count + 1 ≤ segment.length := by omega
    rw [take, if_neg outside, ih (count + 1 - segment.length) (by omega)]
    rfl

end Segments
