import Mathlib.Data.List.Sort
import TransactionalServer.Library.Exec
import TransactionalServer.Library.Store

/-! Loops over an ordered map that change it on the way. A turn may write or
erase the element that the iterator stands on. -/

namespace Traversal
open Std Exec

variable {α β : Type} {cmp : α → α → Ordering}

/-- What a turn at a key makes of the map. The flag says that it erased the
element. -/
abbrev Turn (α β : Type) (cmp : α → α → Ordering) : Type := ExtTreeMap α β cmp → α → Exec (ExtTreeMap α β cmp × Bool)

/-- `++` of an iterator that stands on this key. -/
def following [TransCmp cmp] (store : ExtTreeMap α β cmp) (key : α) : Option α := store.keys.find? fun other => cmp key other = .lt

/-- `for(it = begin; it != end; ++it)` from a position on, with the keys it has
visited. An iterator to an erased element has no successor. -/
def walk [TransCmp cmp] (turn : Turn α β cmp) : Nat → ExtTreeMap α β cmp → Option α → Exec (List α × ExtTreeMap α β cmp)
  | _, store, none => .ok ([], store)
  | 0, _, some _ => .error .running
  | fuel + 1, store, some key => do
    let (store, erased) ← turn store key
    if erased then
      .error .undefined
    else
      let (visited, final) ← walk turn fuel store (following store key)
      return (key :: visited, final)

/-- The same turns over a list of keys that is fixed at the start. -/
def pass (turn : Turn α β cmp) (keys : List α) (state : ExtTreeMap α β cmp × Bool) : Exec (ExtTreeMap α β cmp × Bool) :=
  keys.foldlM (fun (store, dangling) key => do
    let (store, erased) ← turn store key
    return (store, dangling || erased)) state

/-- Each turn makes of the element it visits what `visit` says; `none` is an
erased element. -/
structure Visits [TransCmp cmp] (turn : Turn α β cmp) (visit : α → β → Option β) : Prop where
  own : ∀ {store key after erased}, turn store key = .ok (after, erased) → after[key]? = store[key]?.bind (visit key)
  other : ∀ {store key after erased}, turn store key = .ok (after, erased) → ∀ asked, asked ≠ key → after[asked]? = store[asked]?
  erases : ∀ {store key after erased}, turn store key = .ok (after, erased) →
    (erased = true ↔ ∃ value, store[key]? = some value ∧ visit key value = none)

variable {turn : Turn α β cmp} {visit : α → β → Option β} {store after final : ExtTreeMap α β cmp} {key : α} {keys done rest visited : List α}
  {fuel : Nat} {erased dangling : Bool}

theorem pass_cons (turn : Turn α β cmp) (key : α) (rest : List α) (store : ExtTreeMap α β cmp) (dangling : Bool) :
    pass turn (key :: rest) (store, dangling) =
      turn store key >>= fun (after, erased) => pass turn rest (after, dangling || erased) := by
  simp only [pass, List.foldlM_cons, bind_assoc, pure_bind]

/-- An earlier erased element is not forgotten. -/
theorem pass_dangling (ran : pass turn rest (store, true) = .ok (final, dangling)) : dangling = true := by
  induction rest generalizing store with
  | nil =>
    cases ran
    rfl
  | cons key rest ih =>
    rw [pass_cons] at ran
    obtain ⟨⟨after, erased⟩, _, ran⟩ := bind_eq_ok.mp ran
    exact ih ran

variable [TransCmp cmp]

theorem not_less_self (key : α) : cmp key key ≠ .lt := by
  have same : cmp key key = .eq := ReflCmp.compare_self
  rw [same]
  decide

theorem not_less_of_less {one two : α} (less : cmp one two = .lt) : cmp two one ≠ .lt := by
  have swapped : cmp two one = (cmp one two).swap := OrientedCmp.eq_swap
  rw [swapped, less]
  decide

theorem keys_congr (same : ∀ key, key ∈ after ↔ key ∈ store) [LawfulEqCmp cmp] : after.keys = store.keys := by
  have irrefl : Std.Irrefl fun one two : α => cmp one two = .lt := by
    constructor
    intro one less
    exact not_less_self one less
  have antisymm : Std.Antisymm fun one two : α => cmp one two = .lt := by
    constructor
    intro one two less more
    exact absurd more (not_less_of_less less)
  refine List.Pairwise.eq_of_mem_iff after.ordered_keys store.ordered_keys ?_
  intro key
  rw [ExtTreeMap.mem_keys, ExtTreeMap.mem_keys, same]

/-- In the order of the keys the next element is the successor. -/
theorem following_of_keys (split : store.keys = done ++ key :: rest) : following store key = rest.head? := by
  have ordered : (done ++ key :: rest).Pairwise fun one two => cmp one two = .lt := split ▸ store.ordered_keys
  obtain ⟨_, later, apart⟩ := List.pairwise_append.mp ordered
  have passed : ∀ other ∈ done, ¬ decide (cmp key other = .lt) = true := by
    intro other member
    rw [decide_eq_true_iff]
    exact not_less_of_less (apart other member key List.mem_cons_self)
  rw [following, split, List.find?_append, List.find?_eq_none.mpr passed, Option.none_or]
  rw [List.find?_cons_of_neg (by rw [decide_eq_true_iff]; exact not_less_self key)]
  cases rest with
  | nil => rfl
  | cons next rest =>
    have less := (List.pairwise_cons.mp later).1 next List.mem_cons_self
    exact List.find?_cons_of_pos (decide_eq_true less)

section
variable (visits : Visits turn visit)
include visits

/-- When no turn erases its element, the pass goes through. -/
theorem Visits.pass_returns (distinct : keys.Nodup)
    (each : ∀ key ∈ keys, ∀ before : ExtTreeMap α β cmp, before[key]? = store[key]? → ∃ after, turn before key = .ok (after, false)) :
    ∃ final, pass turn keys (store, false) = .ok (final, false) := by
  induction keys generalizing store with
  | nil => exact ⟨store, rfl⟩
  | cons key rest ih =>
    obtain ⟨absent, distinct⟩ := List.nodup_cons.mp distinct
    obtain ⟨after, now⟩ := each key List.mem_cons_self store rfl
    have later : ∀ other ∈ rest, ∀ before : ExtTreeMap α β cmp, before[other]? = after[other]? → ∃ next, turn before other = .ok (next, false) := by
      intro other member before same
      apply each other (List.mem_cons_of_mem _ member)
      rw [same, visits.other now other (fun same => absent (same ▸ member))]
    obtain ⟨final, ran⟩ := ih distinct later
    exact ⟨final, by rw [pass_cons, now]; exact ran⟩

/-- A pass over distinct keys treats each element by itself. -/
theorem Visits.pass_get (distinct : keys.Nodup) (ran : pass turn keys (store, dangling) = .ok (final, erased)) (asked : α) :
    (asked ∈ keys → final[asked]? = store[asked]?.bind (visit asked)) ∧ (asked ∉ keys → final[asked]? = store[asked]?) := by
  induction keys generalizing store dangling with
  | nil =>
    cases ran
    constructor
    · intro member
      cases member
    · intro _
      rfl
  | cons key rest ih =>
    obtain ⟨absent, distinct⟩ := List.nodup_cons.mp distinct
    rw [pass_cons] at ran
    obtain ⟨⟨after, flag⟩, now, ran⟩ := bind_eq_ok.mp ran
    obtain ⟨inside, outside⟩ := ih distinct ran
    constructor
    · intro member
      rcases List.mem_cons.mp member with rfl | later
      · rw [outside absent, visits.own now]
      · rw [inside later, visits.other now asked (fun same => absent (same ▸ later))]
    · intro apart
      rw [outside (fun later => apart (List.mem_cons_of_mem _ later))]
      exact visits.other now asked (fun same => apart (same ▸ List.mem_cons_self))

/-- Each turn of a pass finds its element as it was at the start. -/
theorem Visits.pass_turn (distinct : keys.Nodup) (ran : pass turn keys (store, dangling) = .ok (final, false)) (member : key ∈ keys) :
    ∃ before after, before[key]? = store[key]? ∧ turn before key = .ok (after, false) := by
  induction keys generalizing store dangling with
  | nil => cases member
  | cons first rest ih =>
    obtain ⟨absent, distinct⟩ := List.nodup_cons.mp distinct
    rw [pass_cons] at ran
    obtain ⟨⟨after, flag⟩, now, ran⟩ := bind_eq_ok.mp ran
    rcases List.mem_cons.mp member with rfl | later
    · cases flag with
      | true =>
        have dangles : pass turn rest (after, true) = .ok (final, false) := by rw [← Bool.or_true dangling]; exact ran
        cases pass_dangling dangles
      | false => exact ⟨store, after, rfl, now⟩
    · obtain ⟨before, next, same, turned⟩ := ih distinct ran later
      exact ⟨before, next, same.trans (visits.other now key (fun same => absent (same ▸ later))), turned⟩

variable [LawfulEqCmp cmp]

/-- A turn that erases nothing leaves the keys as they are. -/
theorem Visits.same_keys (ran : turn store key = .ok (after, false)) : after.keys = store.keys := by
  apply keys_congr
  intro asked
  rw [ExtTreeMap.mem_iff_isSome_getElem?, ExtTreeMap.mem_iff_isSome_getElem?]
  by_cases same : asked = key
  · subst same
    rw [visits.own ran]
    cases found : store[asked]? with
    | none => rfl
    | some value =>
      have stays : ¬ ∃ value, store[asked]? = some value ∧ visit asked value = none :=
        fun erased => absurd ((visits.erases ran).mpr erased) (by decide)
      cases next : visit asked value with
      | none => exact absurd ⟨value, found, next⟩ stays
      | some value => rw [Option.bind_some, next]; rfl
  · rw [visits.other ran asked same]

/-- The loop is the pass over the keys that it starts with, as long as it does
not advance from an erased element. -/
theorem Visits.walk_eq_ok (split : store.keys = done ++ rest) :
    (∃ fuel, walk turn fuel store rest.head? = .ok (visited, final)) ↔ visited = rest ∧ pass turn rest (store, false) = .ok (final, false) := by
  induction rest generalizing store done visited with
  | nil =>
    constructor
    · rintro ⟨fuel, ran⟩
      cases fuel <;> cases ran <;> exact ⟨rfl, rfl⟩
    · rintro ⟨rfl, ran⟩
      cases ran
      exact ⟨0, rfl⟩
  | cons key rest ih =>
    have turned {after : ExtTreeMap α β cmp} (ran : turn store key = .ok (after, false)) :
        after.keys = (done ++ [key]) ++ rest ∧ following after key = rest.head? := by
      have keys : after.keys = done ++ key :: rest := (visits.same_keys ran).trans split
      exact ⟨by rw [keys, List.append_assoc]; rfl, following_of_keys keys⟩
    rw [pass_cons]
    constructor
    · rintro ⟨fuel, ran⟩
      cases fuel with
      | zero => cases ran
      | succ fuel =>
        obtain ⟨⟨after, erased⟩, now, ran⟩ := bind_eq_ok.mp ran
        cases erased with
        | true => cases ran
        | false =>
          obtain ⟨⟨others, last⟩, later, same⟩ := bind_eq_ok.mp ran
          cases same
          obtain ⟨keys, next⟩ := turned now
          rw [next] at later
          obtain ⟨rfl, passed⟩ := (ih keys).mp ⟨fuel, later⟩
          refine ⟨rfl, ?_⟩
          rw [now, ok_bind]
          exact passed
    · rintro ⟨rfl, ran⟩
      obtain ⟨⟨after, erased⟩, now, ran⟩ := bind_eq_ok.mp ran
      cases erased with
      | true => cases pass_dangling ran
      | false =>
        obtain ⟨keys, next⟩ := turned now
        obtain ⟨fuel, later⟩ := (ih keys).mpr ⟨rfl, ran⟩
        refine ⟨fuel + 1, ?_⟩
        simp only [List.head?_cons, walk, now, ok_bind, Bool.false_eq_true, if_false, next, later, pure_eq_ok]

end

end Traversal
