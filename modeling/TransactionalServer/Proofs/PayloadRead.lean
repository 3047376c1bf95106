import TransactionalServer.Proofs.Framing

/-! The blocking read of a payload. The count is the difference of two `int`s,
and `completion_condition` computes with it as a `size_t`. -/

namespace TransactionalServer.Proofs.PayloadRead
open ServerTools Connection

/-- The count that `handle_read` gives to `read`, when it reads at all. -/
def readTotal (header fragment : Text) : Option Int :=
  let pre := toInt fragment.length
  if dataAttached header ∧ getBytes header ≠ toInt (pre + 1) then some (toInt (getBytes header - pre)) else none

/-- The calls of `completion_condition` during one `read`: what had been
transferred, and what the call asked for. A `read_some` transfers any part of
what it is asked for, and may fail. -/
inductive Asked (total : Int) : Nat → Nat → Prop
  | first : Asked total 0 (completionCondition false 0 total)
  | next (error : Bool) {transferred asked got : Nat} (earlier : Asked total transferred asked) (more : 0 < asked) (part : got ≤ asked) :
      Asked total (transferred + got) (completionCondition error (transferred + got) total)

/-- What the read has taken and still waits for at one of the calls. -/
def WaitsFor (header fragment : Text) (bytes : Nat) : Prop :=
  ∃ total transferred asked, readTotal header fragment = some total ∧ Asked total transferred asked ∧ bytes = transferred + asked

/-- The read never waits for more than what the header declares beyond the fragment. -/
def AsksWithin (header fragment : Text) : Prop :=
  ∀ bytes, WaitsFor header fragment bytes → (bytes : Int) ≤ max 0 (getBytes header - fragment.length)

section
variable {header fragment : Text} {total : Int}

/-- No later call asks for more than the first one. -/
theorem Asked.within {transferred asked : Nat} (asks : Asked total transferred asked) :
    transferred + asked ≤ completionCondition false 0 total := by
  induction asks with
  | first => exact Nat.le_of_eq (Nat.zero_add _)
  | @next error transferred asked got earlier more part ih =>
    simp only [completionCondition, Bool.false_eq_true, if_false] at ih ⊢
    split <;> omega

theorem completionCondition_of_range (range : IsInt total) :
    completionCondition false 0 total = if 0 ≤ total then total.toNat else (18446744073709551616 + total).toNat := by
  obtain ⟨low, high⟩ := range
  simp only [completionCondition, Bool.false_eq_true, if_false]
  split <;> omega

theorem toInt_congr (value : Int) : (4294967296 : Int) ∣ value - toInt value := Int.dvd_self_sub_bmod

theorem attached_positive (attached : dataAttached header = true) : 0 < getBytes header := by
  rw [Framing.dataAttached_eq, Bool.and_eq_true, decide_eq_true_iff] at attached
  exact attached.2

theorem readTotal_eq_some : readTotal header fragment = some total ↔
    dataAttached header = true ∧ getBytes header ≠ toInt (toInt fragment.length + 1) ∧
      toInt (getBytes header - toInt fragment.length) = total := by
  unfold readTotal
  dsimp only
  split
  next reads => simp only [reads, true_and, ne_eq, not_false_eq_true, Option.some.injEq]
  next reads =>
    constructor
    · intro absurd
      cases absurd
    · rintro ⟨attached, wanted, _⟩
      exact absurd ⟨attached, wanted⟩ reads

/-- The wrapped difference is one of the declared length and the whole fragment. -/
theorem wrapped_difference : (4294967296 : Int) ∣ (getBytes header - fragment.length) - toInt (getBytes header - toInt fragment.length) := by
  have outer := toInt_congr (getBytes header - toInt fragment.length)
  have inner := toInt_congr fragment.length
  omega

theorem wrapped_successor : (4294967296 : Int) ∣ (fragment.length + 1) - toInt (toInt fragment.length + 1) := by
  have outer := toInt_congr (toInt fragment.length + 1)
  have inner := toInt_congr fragment.length
  omega

/-- A round that reads goes on only when the bytes of the first call have arrived. -/
theorem round_reads {conn : Connection} {junk extra left : Text} {segments : List Text} {good got : Bool} (ok : Framing.HeaderOk header)
    (leftover : Leftover junk)
    (read : Segments.readUntil hasBlankLine conn.b conn.segments = some (junk ++ (header ++ ("\r\n\r\n".toList ++ extra)), segments))
    (line : getline ⟨extra, true⟩ ['\r'] = (fragment, ⟨left, good⟩, got)) (reads : readTotal header fragment = some total)
    (short : segments.flatten.length < completionCondition false 0 total) : handleRead conn = none := by
  obtain ⟨attached, wanted, rfl⟩ := readTotal_eq_some.mp reads
  rw [Framing.round_found ok leftover read line]
  simp only [attached, if_true, wanted, ne_eq, not_false_eq_true, Segments.take_waits _ _ short, Option.bind_eq_bind, Option.bind_none]

/-- After a fragment that is longer than declared, the session waits for all but
2^31 bytes of an address space. -/
theorem overlong_fragment_waits {conn : Connection} {junk extra left : Text} {segments : List Text} {good got : Bool}
    (ok : Framing.HeaderOk header) (leftover : Leftover junk)
    (read : Segments.readUntil hasBlankLine conn.b conn.segments = some (junk ++ (header ++ ("\r\n\r\n".toList ++ extra)), segments))
    (line : getline ⟨extra, true⟩ ['\r'] = (fragment, ⟨left, good⟩, got)) (attached : dataAttached header = true)
    (longer : getBytes header < fragment.length) (fits : fragment.length < 2147483648)
    (short : segments.flatten.length < 18446744071562067968) : handleRead conn = none := by
  have declared := attached_positive attached
  have pre : toInt fragment.length = fragment.length := toInt_of_isInt (by constructor <;> omega)
  have negative : IsInt (getBytes header - fragment.length) := by constructor <;> omega
  have wanted : getBytes header ≠ toInt (toInt fragment.length + 1) := by
    have successor := @wrapped_successor fragment
    obtain ⟨least, most⟩ := toInt_isInt (toInt fragment.length + 1)
    omega
  have reads : readTotal header fragment = some (getBytes header - fragment.length) :=
    readTotal_eq_some.mpr ⟨attached, wanted, by rw [pre, toInt_of_isInt negative]⟩
  apply round_reads ok leftover read line reads
  rw [completionCondition_of_range negative, if_neg (by omega)]
  omega

end

/-- Whatever length a header declares and whatever fragment follows it, the
calls of `completion_condition` stay within the declared length exactly when the
fragment is not longer than that, or is longer by a multiple of 2^32 or by one
byte less than such a multiple. -/
theorem payload_read_asks_within_exactly_for_fitting_fragments {header : Text} (attached : dataAttached header = true) (fragment : Text) :
    AsksWithin header fragment ↔
      (fragment.length : Int) ≤ getBytes header ∨ (4294967296 : Int) ∣ fragment.length - getBytes header ∨
        (4294967296 : Int) ∣ fragment.length + 1 - getBytes header := by
  have declared := attached_positive attached
  have bound := (getBytes_isInt header).2
  have difference := @wrapped_difference header fragment
  have successor := @wrapped_successor fragment
  obtain ⟨low, high⟩ := toInt_isInt (getBytes header - toInt fragment.length)
  obtain ⟨least, most⟩ := toInt_isInt (toInt fragment.length + 1)
  constructor
  · intro within
    by_contra misfits
    obtain ⟨longer, notZero, notOne⟩ := by simpa only [not_or] using misfits
    have wanted : getBytes header ≠ toInt (toInt fragment.length + 1) := by
      intro same
      omega
    have reads : readTotal header fragment = some _ := readTotal_eq_some.mpr ⟨attached, wanted, rfl⟩
    have asked := within _ ⟨_, _, _, reads, .first, rfl⟩
    rw [completionCondition_of_range ⟨low, high⟩] at asked
    split at asked <;> omega
  · rintro fits bytes ⟨total, transferred, asked, reads, asks, rfl⟩
    obtain ⟨_, wanted, rfl⟩ := readTotal_eq_some.mp reads
    have total := asks.within
    rw [completionCondition_of_range ⟨low, high⟩] at total
    split at total <;> omega

/-- Three bytes of a line after a header that declares one. Whatever the client
sends after them, the session does not go on. -/
theorem overlong_fragment_asks_for_an_address_space :
    dataAttached "WRITE 5 1 1" = true ∧ WaitsFor "WRITE 5 1 1" "abc" 18446744073709551614 ∧ ¬ AsksWithin "WRITE 5 1 1" "abc" ∧
      ∀ later : Text, later.length < 18446744071562067968 → handleRead { segments := ["WRITE 5 1 1\r\n\r\nabc\n", later] } = none := by
  have waits : WaitsFor "WRITE 5 1 1" "abc" 18446744073709551614 :=
    ⟨-2, 0, 18446744073709551614, by decide, .first, rfl⟩
  refine ⟨by decide, waits, ?_, ?_⟩
  · intro within
    have asked := within _ waits
    have none : max 0 (getBytes "WRITE 5 1 1" - ("abc".toList.length : Int)) = 0 := by decide
    rw [none] at asked
    exact absurd asked (by decide)
  · intro later short
    have ok : Framing.HeaderOk "WRITE 5 1 1" := ⟨by decide, by decide, by decide, by decide, by decide⟩
    have read : Segments.readUntil hasBlankLine [] ["WRITE 5 1 1\r\n\r\nabc\n", later] =
        some ([] ++ ("WRITE 5 1 1".toList ++ ("\r\n\r\n".toList ++ "abc\n".toList)), [later]) := rfl
    exact @overlong_fragment_waits "WRITE 5 1 1" "abc" { segments := ["WRITE 5 1 1\r\n\r\nabc\n", later] } [] "abc\n" _ _ _ _ ok .none read rfl
      (by decide) (by decide) (by decide) (by simpa using short)

theorem short_fragment_asks_for_the_rest : AsksWithin "WRITE 5 1 4" "ab" :=
  (payload_read_asks_within_exactly_for_fitting_fragments (by decide) "ab").mpr (Or.inl (by decide))

end TransactionalServer.Proofs.PayloadRead
