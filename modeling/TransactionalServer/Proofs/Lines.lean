import TransactionalServer.Connection

/-! Reading lines and finding the blank line that ends a header. Leftovers of
the previous packet never hide it and never produce another one. -/

namespace TransactionalServer.Proofs
open Connection

private theorem kept_of_absent {target : Char} {line : Text} (absent : target ∉ line) :
    ∀ char ∈ line, decide (char ≠ target) = true :=
  fun _ member => decide_eq_true (fun same => absent (same ▸ member))

theorem getline_line {line : Text} (oneLine : '\n' ∉ line) (rest str : Text) :
    getline ⟨line ++ '\n' :: rest, true⟩ str = (line, ⟨rest, true⟩, true) := by
  have taken : (line ++ '\n' :: rest).takeWhile (fun char => decide (char ≠ '\n')) =
      line ++ ('\n' :: rest).takeWhile (fun char => decide (char ≠ '\n')) :=
    List.takeWhile_append_of_pos (kept_of_absent oneLine)
  have dropped : (line ++ '\n' :: rest).dropWhile (fun char => decide (char ≠ '\n')) =
      ('\n' :: rest).dropWhile (fun char => decide (char ≠ '\n')) :=
    List.dropWhile_append_of_pos (kept_of_absent oneLine)
  simp only [getline, taken, dropped]
  simp

theorem getline_end {line : Text} (oneLine : '\n' ∉ line) (present : line ≠ []) (str : Text) :
    getline ⟨line, true⟩ str = (line, ⟨[], false⟩, true) := by
  have dropped : line.dropWhile (fun char => decide (char ≠ '\n')) = [] :=
    List.dropWhile_eq_nil_iff.mpr (kept_of_absent oneLine)
  simp only [getline, dropped]
  simp [present]

@[simp] theorem getline_empty (str : Text) : getline ⟨[], true⟩ str = ([], ⟨[], false⟩, false) := rfl

theorem removeCR_line {line : Text} (clean : '\r' ∉ line) : removeCR (line ++ ['\r']) = line := by
  have kept : line.filter (fun char => decide (char ≠ '\r')) = line := List.filter_eq_self.mpr (kept_of_absent clean)
  simp only [removeCR, List.filter_append, kept]
  simp

theorem hasBlankLine_skip {char : Char} (other : char ≠ '\r') (rest : Text) :
    hasBlankLine (char :: rest) = hasBlankLine rest := by
  have differs : List.isPrefixOf "\r\n\r\n".toList (char :: rest) = false := by
    simp [List.isPrefixOf, Ne.symm other]
  rw [hasBlankLine, differs, Bool.false_or]

theorem hasBlankLine_clean {line : Text} (clean : '\r' ∉ line) (rest : Text) :
    hasBlankLine (line ++ rest) = hasBlankLine rest := by
  induction line with
  | nil => rfl
  | cons char line ih =>
    obtain ⟨other, clean⟩ := not_or.mp (mt List.mem_cons.mpr clean)
    exact (hasBlankLine_skip (Ne.symm other) _).trans (ih clean)

theorem hasBlankLine_grows {text longer : Text} (grown : text <+: longer) (found : hasBlankLine text = true) :
    hasBlankLine longer = true := by
  obtain ⟨rest, rfl⟩ := grown
  induction text with
  | nil => cases found
  | cons char text ih =>
    simp only [hasBlankLine, Bool.or_eq_true, List.isPrefixOf_iff_prefix] at found
    simp only [List.cons_append, hasBlankLine, Bool.or_eq_true, List.isPrefixOf_iff_prefix]
    rcases found with here | later
    · exact Or.inl (here.trans (List.prefix_append (char :: text) rest))
    · exact Or.inr (ih later)

/-- What a packet may leave in the stream for the next round. -/
inductive Leftover : Text → Prop where
  | none : Leftover []
  | lf : Leftover ['\n']
  | crlf : Leftover ['\r', '\n']

theorem hasBlankLine_leftover {junk header : Text} (leftover : Leftover junk) (clean : '\r' ∉ header)
    (present : header ≠ []) (rest : Text) : hasBlankLine (junk ++ (header ++ rest)) = hasBlankLine rest := by
  have skipped := hasBlankLine_clean clean rest
  cases leftover with
  | none => exact skipped
  | lf => exact (hasBlankLine_skip (by decide) _).trans skipped
  | crlf =>
    obtain ⟨first, header, rfl⟩ := List.exists_cons_of_ne_nil present
    have other := (not_or.mp (mt List.mem_cons.mpr clean)).1
    have differs : List.isPrefixOf "\r\n\r\n".toList ('\r' :: '\n' :: (first :: header ++ rest)) = false := by
      simp [List.isPrefixOf, other]
    have after : hasBlankLine ('\n' :: (first :: header ++ rest)) = hasBlankLine rest :=
      (hasBlankLine_skip (by decide) _).trans skipped
    change hasBlankLine ('\r' :: '\n' :: (first :: header ++ rest)) = hasBlankLine rest
    rw [hasBlankLine, differs, Bool.false_or, after]

theorem leftover_silent {junk text : Text} (leftover : Leftover junk) (inside : text <+: junk) :
    hasBlankLine text = false := by
  by_contra found
  have grown := hasBlankLine_grows inside (by simpa using found)
  cases leftover <;> cases grown

private theorem whole_blankLine {text : Text} (inside : text <+: "\r\n\r\n".toList)
    (found : hasBlankLine text = true) : text = "\r\n\r\n".toList := by
  have whole := List.prefix_iff_eq_take.mp inside
  have bound : text.length ≤ 4 := inside.length_le
  obtain size | size | size | size | size :
      text.length = 0 ∨ text.length = 1 ∨ text.length = 2 ∨ text.length = 3 ∨ text.length = 4 := by omega
  all_goals
    rw [size] at whole
    rw [whole] at found ⊢
  · exact absurd found (by decide)
  · exact absurd found (by decide)
  · exact absurd found (by decide)
  · exact absurd found (by decide)
  · rfl

/-- A part of the stream in which a blank line was found holds the leftovers,
the header and its blank line. -/
theorem header_complete {junk header rest read : Text} (leftover : Leftover junk) (clean : '\r' ∉ header)
    (present : header ≠ []) (inside : read <+: junk ++ (header ++ ("\r\n\r\n".toList ++ rest)))
    (found : hasBlankLine read = true) :
    ∃ extra, read = junk ++ (header ++ ("\r\n\r\n".toList ++ extra)) ∧ extra <+: rest := by
  have front : junk ++ header <+: junk ++ (header ++ ("\r\n\r\n".toList ++ rest)) :=
    ⟨"\r\n\r\n".toList ++ rest, List.append_assoc _ _ _⟩
  have silent : hasBlankLine (junk ++ header) = false := by
    simpa [hasBlankLine] using hasBlankLine_leftover leftover clean present []
  rcases List.prefix_or_prefix_of_prefix inside front with short | ⟨tail, rfl⟩
  · rw [hasBlankLine_grows short found] at silent
    cases silent
  · rw [List.append_assoc] at inside found ⊢
    have inTail := (List.prefix_append_right_inj header).mp ((List.prefix_append_right_inj junk).mp inside)
    rw [hasBlankLine_leftover leftover clean present] at found
    rcases List.prefix_or_prefix_of_prefix inTail (List.prefix_append _ rest) with short | ⟨extra, rfl⟩
    · exact ⟨[], by rw [whole_blankLine short found, List.append_nil], List.nil_prefix⟩
    · exact ⟨extra, rfl, (List.prefix_append_right_inj _).mp inTail⟩

end TransactionalServer.Proofs
