import Mathlib.Algebra.Group.Nat.Defs
import Mathlib.Data.List.TakeWhile

/-! Decimal text of integers: rendering, strict parsing of the whole text, and
the value of the longest numeric prefix. Both readers undo the renderer. -/

namespace Decimal

def render : Int → List Char
  | .ofNat value => Nat.toDigits 10 value
  | .negSucc value => '-' :: Nat.toDigits 10 (value + 1)

/-- An optional sign, and what follows it. -/
def sign : List Char → Bool × List Char
  | '-' :: rest => (true, rest)
  | '+' :: rest => (false, rest)
  | text => (false, text)

def magnitude (negative : Bool) (digits : List Char) : Int :=
  let value : Int := Nat.ofDigitChars 10 digits 0
  if negative then -value else value

/-- A sign and at least one digit, with nothing before or after. -/
def parse? (text : List Char) : Option Int :=
  let (negative, digits) := sign text
  if digits ≠ [] ∧ digits.all Char.isDigit then some (magnitude negative digits) else none

def isSpace (char : Char) : Bool := char ∈ [' ', '\t', '\n', '\x0b', '\x0c', '\r']

/-- Leading blanks are skipped and reading stops at the first other character. -/
def prefixValue (text : List Char) : Int :=
  let (negative, rest) := sign (text.dropWhile isSpace)
  magnitude negative (rest.takeWhile Char.isDigit)

/-- The two's complement value of an integer cut to `bits` bits. -/
def wrap (bits : Nat) (value : Int) : Int := value.bmod (2 ^ bits)

theorem wrap_range (value : Int) : -2147483648 ≤ wrap 32 value ∧ wrap 32 value < 2147483648 := by
  have low := Int.le_bmod (x := value) (m := 2 ^ 32) (by decide)
  have high := Int.bmod_lt (x := value) (m := 2 ^ 32) (by decide)
  exact ⟨by simpa [wrap] using low, by simpa [wrap] using high⟩

theorem wrap_of_range {value : Int} (low : -2147483648 ≤ value) (high : value < 2147483648) :
    wrap 32 value = value := by
  apply Int.bmod_eq_of_le
  · simpa using low
  · simpa using high

private theorem toDigits_digit {value : Nat} {char : Char} (member : char ∈ Nat.toDigits 10 value) :
    char.isDigit = true :=
  Nat.isDigit_of_mem_toDigits (by decide) (by decide) member

theorem render_char {value : Int} {char : Char} (member : char ∈ render value) :
    char.isDigit = true ∨ char = '-' := by
  cases value with
  | ofNat value => exact Or.inl (toDigits_digit member)
  | negSucc value =>
    rcases List.mem_cons.mp member with same | inside
    · exact Or.inr same
    · exact Or.inl (toDigits_digit inside)

theorem render_ne_nil (value : Int) : render value ≠ [] := by
  cases value with
  | ofNat value => exact Nat.toDigits_ne_nil
  | negSucc value => exact List.cons_ne_nil _ _

private theorem sign_digits {digits : List Char} (present : digits ≠ []) (numeric : ∀ char ∈ digits, char.isDigit = true) (rest : List Char) :
    sign (digits ++ rest) = (false, digits ++ rest) := by
  cases digits with
  | nil => exact absurd rfl present
  | cons first later =>
    have digit := numeric first List.mem_cons_self
    rw [List.cons_append]
    unfold sign
    split
    · next same => cases same; simp [Char.isDigit] at digit
    · next same => cases same; simp [Char.isDigit] at digit
    · rfl

theorem sign_render_append (value : Int) (rest : List Char) :
    sign (render value ++ rest) = (decide (value < 0), Nat.toDigits 10 value.natAbs ++ rest) := by
  cases value with
  | ofNat value =>
    have positive : ¬ (Int.ofNat value < 0) := by simp
    simp only [render, positive, decide_false]
    exact sign_digits Nat.toDigits_ne_nil (fun _ member => toDigits_digit member) rest
  | negSucc value => simp [render, sign]

theorem sign_render (value : Int) :
    sign (render value) = (decide (value < 0), Nat.toDigits 10 value.natAbs) := by
  simpa using sign_render_append value []

theorem magnitude_toDigits (value : Int) :
    magnitude (decide (value < 0)) (Nat.toDigits 10 value.natAbs) = value := by
  simp only [magnitude, Nat.ofDigitChars_ten_toDigits, decide_eq_true_eq]
  split <;> omega

theorem parse_render (value : Int) : parse? (render value) = some value := by
  have numeric : (Nat.toDigits 10 value.natAbs).all Char.isDigit = true :=
    List.all_eq_true.mpr (fun _ member => toDigits_digit member)
  have present : Nat.toDigits 10 value.natAbs ≠ [] := Nat.toDigits_ne_nil
  simp only [parse?, sign_render, present, numeric, ne_eq, not_false_eq_true, and_self, ite_true,
    magnitude_toDigits]

/-- What is read as a number has nothing but digits and a sign. -/
theorem parse_char {text : List Char} {value : Int} (read : parse? text = some value) {char : Char} (member : char ∈ text) :
    char.isDigit = true ∨ char = '-' ∨ char = '+' := by
  have signed : char ∈ (sign text).2 ∨ char = '-' ∨ char = '+' := by
    unfold sign
    split
    · exact (List.mem_cons.mp member).symm.imp id Or.inl
    · exact (List.mem_cons.mp member).symm.imp id Or.inr
    · exact Or.inl member
  unfold parse? at read
  simp only at read
  split at read
  next numeric => exact signed.imp (fun inside => List.all_eq_true.mp numeric.2 char inside) id
  next => cases read

private theorem skip_render (value : Int) (rest : List Char) : (render value ++ rest).dropWhile isSpace = render value ++ rest := by
  obtain ⟨first, later, shape⟩ := List.exists_cons_of_ne_nil (render_ne_nil value)
  have visible : isSpace first = false := by
    have member : first ∈ render value := by rw [shape]; exact List.mem_cons_self
    rcases render_char member with digit | rfl
    · by_contra blank
      simp only [isSpace, Bool.not_eq_false, decide_eq_true_eq, List.mem_cons, List.not_mem_nil, or_false] at blank
      rcases blank with rfl | rfl | rfl | rfl | rfl | rfl <;> simp [Char.isDigit] at digit
    · decide
  simp [shape, visible]

/-- Reading stops behind the digits. -/
theorem prefixValue_render_append (value : Int) {rest : List Char} (stops : ∀ char ∈ rest.head?, char.isDigit = false) :
    prefixValue (render value ++ rest) = value := by
  have numeric : ∀ char ∈ Nat.toDigits 10 value.natAbs, char.isDigit = true := fun _ member => toDigits_digit member
  have behind : rest.takeWhile Char.isDigit = [] := by
    cases rest with
    | nil => rfl
    | cons first rest => exact List.takeWhile_cons_of_neg (by simp [stops first rfl])
  have whole : (Nat.toDigits 10 value.natAbs ++ rest).takeWhile Char.isDigit = Nat.toDigits 10 value.natAbs := by
    rw [List.takeWhile_append_of_pos numeric, behind, List.append_nil]
  simp only [prefixValue, skip_render, sign_render_append, whole, magnitude_toDigits]

theorem prefixValue_render (value : Int) : prefixValue (render value) = value := by
  have nothing := @prefixValue_render_append value [] (by simp)
  rwa [List.append_nil] at nothing

end Decimal
