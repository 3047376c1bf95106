import Mathlib.Data.Finset.Card
import TransactionalServer.Backup
import TransactionalServer.Proofs.LedgerSteps
import TransactionalServer.Proofs.SweepIndependence

/-! The ids that transactions can have. A transaction takes one when it is
created, and ABORT and the sweeps give back those that they remove. -/

namespace TransactionalServer.Proofs.Capacity
open ServerTools LogHandler Exec Session SweepIndependence

/-- What `randomNum(100000)` draws from. Nothing evaluates it. -/
@[irreducible] def ids : Finset Int := (Finset.range 100000).image (fun draw : Nat => (draw : Int) + 1)

/-- The ids that have a record. -/
def held (log : Log) : Finset Int := ids.filter (fun id => log.contains id = true)

/-- What a run has taken from the ids and what it has given back. -/
structure Tally where
  created : Nat := 0
  removed : Nat := 0

namespace Tally

/-- At most one transaction is created or removed at a packet. -/
def packet (tally : Tally) (header : Text) (before after : Log) : Tally where
  created := tally.created + if (parse header = 2 ∨ parse header = 6) ∧ held before ⊂ held after then 1 else 0
  removed := tally.removed + if parse header = 1 ∧ held after ⊂ held before then 1 else 0

def sweep (tally : Tally) (before after : Log) : Tally :=
  { tally with removed := tally.removed + (held before \ held after).card }

def note (tally : Tally) (event : System.Event) (before after : Log) : Tally :=
  match event with
  | .packet _ _ header _ _ _ => tally.packet header before after
  | .sweep => tally.sweep before after
  | .save | .tick _ => tally

end Tally

section
variable {π : Type} (answer : Answer π) (fuel : Nat)

/-- A step of the server, and what it takes and gives back. -/
def observe (state : Server π × Tally) (event : System.Event) : Exec (Server π × Tally) := do
  let next ← System.step answer fuel state.1 event
  return (next, state.2.note event state.1.log next.log)

end

/-- What a packet can do to the ids in use. -/
inductive Occupies (header : Text) (log after : Log) : Prop where
  | same (same : ∀ id : Int, 1 ≤ id → after.contains id = log.contains id)
  | created {id : Int} (method : parse header = 2 ∨ parse header = 6) (fresh : log.contains id = false) (now : after.contains id = true)
      (others : ∀ other, other ≠ id → after.contains other = log.contains other)
  | removed {id : Int} (method : parse header = 1) (was : log.contains id = true) (gone : after.contains id = false)
      (others : ∀ other, other ≠ id → after.contains other = log.contains other)

section
variable {log after : Log} {id : Int}

theorem mem_ids : id ∈ ids ↔ 1 ≤ id ∧ id ≤ 100000 := by
  unfold ids
  rw [Finset.mem_image]
  constructor
  · rintro ⟨draw, below, rfl⟩
    have := Finset.mem_range.mp below
    omega
  · intro range
    exact ⟨(id - 1).toNat, Finset.mem_range.mpr (by omega), by omega⟩

theorem card_ids : ids.card = 100000 := by
  unfold ids
  have distinct : Function.Injective (fun draw : Nat => (draw : Int) + 1) := by
    intro first second same
    exact Int.ofNat.inj (add_right_cancel same)
  rw [Finset.card_image_of_injective _ distinct, Finset.card_range]

theorem mem_held : id ∈ held log ↔ id ∈ ids ∧ log.contains id = true := Finset.mem_filter

theorem held_congr (same : ∀ id : Int, 1 ≤ id → after.contains id = log.contains id) : held after = held log := by
  ext id
  rw [mem_held, mem_held]
  refine and_congr_right fun inside => ?_
  rw [same id (mem_ids.mp inside).1]

/-- An id that comes into use is one more, when it is one of the ids at all. -/
theorem held_created (fresh : log.contains id = false) (now : after.contains id = true)
    (others : ∀ other, other ≠ id → after.contains other = log.contains other) :
    (held log ⊂ held after ∧ (held after).card = (held log).card + 1) ∨ held after = held log := by
  have unheld : id ∉ held log := by
    rw [mem_held, fresh]
    exact fun both => absurd both.2 (by decide)
  by_cases inside : id ∈ ids
  · have grown : held after = insert id (held log) := by
      ext other
      rw [Finset.mem_insert, mem_held, mem_held]
      by_cases same : other = id
      · simp only [same, inside, now, and_self, true_or]
      · simp only [same, others other same, false_or]
    rw [grown]
    exact Or.inl ⟨Finset.ssubset_insert unheld, Finset.card_insert_of_notMem unheld⟩
  · refine Or.inr ?_
    ext other
    rw [mem_held, mem_held]
    by_cases same : other = id
    · simp only [same, inside, false_and]
    · rw [others other same]

/-- Some id is free unless all of them are held. -/
theorem free_iff : (∃ id : Int, 1 ≤ id ∧ id ≤ 100000 ∧ log[id]? = none) ↔ (held log).card < 100000 := by
  have inside : held log ⊆ ids := Finset.filter_subset _ _
  constructor
  · intro free
    obtain ⟨id, low, high, absent⟩ := free
    have missing : id ∉ held log := by
      rw [mem_held, Store.contains_of_absent absent]
      exact fun both => absurd both.2 (by decide)
    rw [← card_ids]
    exact Finset.card_lt_card ⟨inside, fun all => missing (all (mem_ids.mpr ⟨low, high⟩))⟩
  · intro few
    rw [← card_ids] at few
    obtain ⟨id, member, missing⟩ := Finset.exists_mem_notMem_of_card_lt_card few
    obtain ⟨low, high⟩ := mem_ids.mp member
    refine ⟨id, low, high, Std.ExtTreeMap.getElem?_eq_none_of_contains_eq_false ?_⟩
    rw [← Bool.not_eq_true]
    exact fun present => missing (mem_held.mpr ⟨member, present⟩)

end

section
variable {log : Log} {header data : Text} {io : Bool} {out : Outcome} {id : Int}

theorem Occupies.refl (header : Text) (log : Log) : Occupies header log log := .same fun _ _ => rfl

/-- A log that differs in a record that both have. -/
theorem contains_insert {record changed : Record} (inLog : log[id]? = some record) (other : Int) :
    (log.insert id changed).contains other = log.contains other := by
  rw [Std.ExtTreeMap.contains_insert]
  by_cases same : other = id
  · rw [same, Store.contains_of_get inLog, Bool.or_true]
  · have differs : (compare id other == .eq) = false := by
      rw [beq_eq_false_iff_ne, ne_eq, Std.LawfulEqCmp.compare_eq_iff_eq]
      exact fun equal => same equal.symm
    rw [differs, Bool.false_or]

theorem contains_congr {one two : Log} {other : Int} (same : two[other]? = one[other]?) : two.contains other = one.contains other := by
  rw [← Std.ExtTreeMap.isSome_getElem?_eq_contains, ← Std.ExtTreeMap.isSome_getElem?_eq_contains, same]

theorem commits_contains (commits : Commits log header io out) (other : Int) : out.log.contains other = log.contains other := by
  cases commits with
  | absent | already | expired | otherNumber | nothing => rfl
  | incomplete found _ _ _ marked | primary found _ _ _ marked =>
    subst marked
    exact contains_insert found.inLog other
  | written found _ _ _ _ _ _ _ finished | failed found _ _ _ _ _ _ _ _ finished =>
    subst finished
    exact contains_insert found.inLog other

theorem adds_contains (adds : Adds log header data io out) (other : Int) : out.log.contains other = log.contains other := by
  cases adds with
  | low | absent | committed | expired | duplicate | above => rfl
  | kept _ found _ _ grows | added _ found _ _ _ _ grows =>
    subst grows
    exact contains_insert found.inLog other
  | completes _ found _ _ grows _ commits =>
    subst grows
    exact (commits_contains commits other).trans (contains_insert found.inLog other)

theorem created_occupies {record : Record} (method : parse header = 2 ∨ parse header = 6) (absent : log[id]? = none) :
    Occupies header log (log.insert id record) :=
  .created method (Store.contains_of_absent absent) (Store.contains_of_get Std.ExtTreeMap.getElem?_insert_self)
    fun _ differs => contains_congr (Store.get_insert_other differs)

end

section
variable {π : Type} {answer : Answer π} {fuel : Nat} {server : Server π} {env : Env} {auth : Bool} {header data : Text}

theorem executes_occupies {out : Command π} (executes : Executes server env auth header data out) :
    Occupies header server.log out.server.log := by
  cases executes with
  | refused | read | authenticated => exact .refl _ _
  | notAborted _ aborted kept =>
    cases aborted with
    | absent | committed | expired => exact .refl _ _
    | erased => cases kept
  | aborted method aborted _ enqueued =>
    rw [enqueue_log enqueued]
    cases aborted with
    | absent | committed | expired => exact .refl _ _
    | erased found =>
      exact .removed method found.contains (Store.contains_of_absent Std.ExtTreeMap.getElem?_erase_self)
        fun _ differs => contains_congr (Store.get_erase_other differs)
  | created method creates _ enqueued =>
    rw [enqueue_log enqueued]
    rcases newTxn_cases creates with ⟨rfl, _⟩ | ⟨_, _, absent, rfl, _⟩
    · exact .refl _ _
    · exact created_occupies (Or.inl method) absent
  | commits _ commits => exact .same fun id _ => commits_contains commits id
  | added _ adds _ enqueued | completed _ adds _ _ enqueued =>
    rw [enqueue_log enqueued]
    exact .same fun id _ => adds_contains adds id
  | notAdded _ adds => exact .same fun id _ => adds_contains adds id
  | made method makes =>
    rcases makeTxn_cases makes with ⟨absent, rfl, _⟩ | ⟨_, rfl, _⟩
    · exact created_occupies (Or.inr method) absent
    · exact .refl _ _
  | pinged _ _ registers => exact .same fun id low => contains_congr (register_frame (by omega) registers)
  | demoted _ switches => exact .same fun id low => contains_congr (switchToBackup_transactions switches id low)

theorem concludes_contains {io : Bool} {done : Handled π} (concludes : Concludes answer fuel io server auth header done) {id : Int} (low : 1 ≤ id) :
    done.server.log.contains id = server.log.contains id := by
  obtain ⟨log, kept, same | ⟨record, status, number, found, same⟩⟩ := concludes.log
  · rw [same]
    exact contains_congr (kept.transactions id low)
  · rw [same]
    exact (contains_insert found.inLog id).trans (contains_congr (kept.transactions id low))

theorem receive_occupies {payload : Option Text} {handled : Handled π}
    (received : receive answer fuel env server auth header payload = .ok handled) : Occupies header server.log handled.server.log := by
  rcases receive_cases received with ⟨same, _⟩ | ⟨_, out, executes, follows⟩
  · rw [same]
    exact .refl _ _
  have first := executes_occupies executes
  cases follows with
  | returned | asks | answers => exact first
  | concludes refused code concludes =>
    -- a COMMIT or a WRITE has created and removed nothing before
    have method := executes.committed_method refused code
    cases first with
    | same same => exact .same fun id low => (concludes_contains concludes low).trans (same id low)
    | created other => omega
    | removed other => omega

end

section
variable {log after : Log} {tally : Tally} {header : Text}

/-- What is held now and what was given back is what was taken. -/
def Balanced (start : Log) (log : Log) (tally : Tally) : Prop := (held start).card + tally.created = (held log).card + tally.removed

theorem balanced_start (log : Log) : Balanced log log {} := by
  simp only [Balanced]

theorem Balanced.packet {start : Log} (balanced : Balanced start log tally) (occupies : Occupies header log after) :
    Balanced start after (tally.packet header log after) := by
  unfold Balanced at balanced ⊢
  simp only [Tally.packet]
  have still (same : held after = held log) : ¬ held log ⊂ held after ∧ ¬ held after ⊂ held log := by
    rw [same]
    exact ⟨ssubset_irrefl _, ssubset_irrefl _⟩
  have unchanged (same : held after = held log) : (held start).card + (tally.created +
      if (parse header = 2 ∨ parse header = 6) ∧ held log ⊂ held after then 1 else 0) = (held after).card + (tally.removed +
      if parse header = 1 ∧ held after ⊂ held log then 1 else 0) := by
    rw [if_neg fun both => (still same).1 both.2, if_neg fun both => (still same).2 both.2, same]
    exact balanced
  cases occupies with
  | same same => exact unchanged (held_congr same)
  | created method fresh now others =>
    rcases held_created fresh now others with ⟨grown, more⟩ | same
    · have other : parse header ≠ 1 := by omega
      rw [if_pos ⟨method, grown⟩, if_neg fun both => other both.1]
      omega
    · exact unchanged same
  | removed method was gone others =>
    rcases held_created gone was fun other differs => (others other differs).symm with ⟨shrunk, fewer⟩ | same
    · have other : ¬ (parse header = 2 ∨ parse header = 6) := by omega
      rw [if_neg fun both => other both.1, if_pos ⟨method, shrunk⟩]
      omega
    · exact unchanged same.symm

/-- A sweep takes no id. -/
theorem Balanced.sweep {start : Log} {dangling : Bool} (balanced : Balanced start log tally) (ran : timeouts log = .ok (after, dangling)) :
    Balanced start after (tally.sweep log after) := by
  have fewer : held after ⊆ held log := by
    intro id member
    obtain ⟨inside, present⟩ := mem_held.mp member
    refine mem_held.mpr ⟨inside, ?_⟩
    cases inLog : log[id]? with
    | some record => exact Store.contains_of_get inLog
    | none =>
      have absent := timeouts_get ran id
      rw [inLog] at absent
      rw [Store.contains_of_absent absent] at present
      cases present
  have split : (held log \ held after).card + (held after).card = (held log).card := Finset.card_sdiff_add_card_eq_card fewer
  unfold Balanced at balanced ⊢
  -- an unfolding by definition would make the kernel count the ids
  rw [Tally.sweep]
  dsimp only
  omega

end

section
variable {π : Type} {answer : Answer π} {fuel : Nat} {state next : Server π × Tally} {event : System.Event}

theorem observe_balanced {start : Log} (balanced : Balanced start state.1.log state.2) (observed : observe answer fuel state event = .ok next) :
    Balanced start next.1.log next.2 := by
  obtain ⟨server, stepped, same⟩ := bind_eq_ok.mp observed
  cases same
  cases step_cases stepped with
  | packet valid drawn received => exact balanced.packet (receive_occupies received)
  | sweep swept => exact balanced.sweep swept
  | save => exact balanced
  | tick checked =>
    have still : held server.log = held state.1.log := held_congr fun id low => contains_congr (check_transactions checked id low)
    unfold Balanced
    rw [still]
    exact balanced

/-- The loop takes the first free id that is drawn. -/
theorem newTxn_draws {log : Log} {data : Text} {id : Int} {taken rest : List Int} (named : portablePosixName data = true)
    (used : ∀ draw ∈ taken, log.contains draw = true) (free : log[id]? = none) :
    newTxn log data (taken ++ id :: rest) = .ok (log.insert id (freshRecord data), [.save (log.insert id (freshRecord data))], id) := by
  have skipped : taken.find? (fun draw => !log.contains draw) = none := by
    rw [List.find?_eq_none]
    intro draw member
    rw [used draw member]
    decide
  have found : (taken ++ id :: rest).find? (fun draw => !log.contains draw) = some id := by
    rw [List.find?_append, skipped, Option.none_or, List.find?_cons_of_pos]
    rw [Store.contains_of_absent free]
    rfl
  simp only [newTxn, named, Bool.not_true, Bool.false_eq_true, if_false, found, finished_some, ok_bind, pure_eq_ok]

/-- Some id is free exactly while fewer are taken than there are, and the
drawing loop ends at the first free id and adds nothing else. -/
theorem free_ids_are_those_not_taken_and_the_loop_draws_one {server : Server π} {events : List System.Event} {final : Server π × Tally}
    (ran : events.foldlM (observe answer fuel) (server, {}) = .ok final) :
    ((∃ id : Int, 1 ≤ id ∧ id ≤ 100000 ∧ final.1.log[id]? = none) ↔ (held server.log).card + final.2.created < 100000 + final.2.removed) ∧
      ∀ data taken id rest, portablePosixName data = true → (∀ draw ∈ taken, final.1.log.contains draw = true) → final.1.log[id]? = none →
        ∃ after, newTxn final.1.log data (taken ++ id :: rest) = .ok (after, [.save after], id) ∧ after[id]? = some (freshRecord data) ∧
          ∀ other : Int, other ≠ id → after[other]? = final.1.log[other]? := by
  have balanced : Balanced server.log final.1.log final.2 := by
    have started : Balanced server.log (server, ({} : Tally)).1.log (server, ({} : Tally)).2 := balanced_start server.log
    refine run_preserves (fun state : Server π × Tally => Balanced server.log state.1.log state.2) ?_ (along_trivial _ _ events) started ran
    intro state event next balanced _ observed
    exact observe_balanced balanced observed
  constructor
  · rw [free_iff]
    unfold Balanced at balanced
    omega
  · intro data taken id rest named used free
    exact ⟨_, newTxn_draws named used free, Std.ExtTreeMap.getElem?_insert_self, fun other differs => Store.get_insert_other differs⟩

end

private def primary : Server Unit := System.start ⟨"ip", "80", "dir"⟩ true ∅ () [] []

/-- A NEW_TXN for which this id is drawn. -/
def creation (id : Int) (low : 1 ≤ id) (high : id ≤ 100000) : System.Event :=
  .packet { draws := [id] } false "NEW_TXN 0 0 3" (some "aa") (Eq.refl true) (by simpa using ⟨low, high⟩)

/-- The loop passes over an id that is in use. -/
theorem used_id_is_passed_over :
    ∃ final after, [creation 5 (by decide) (by decide)].foldlM (observe Backup.noPeer 0) (primary, {}) = .ok final ∧
      newTxn final.1.log "bb" [5, 7] = .ok (after, [.save after], 7) ∧ after[(7 : Int)]? = some (freshRecord "bb") := by
  obtain ⟨final, ran⟩ := returned_of_isOk
    (show ([creation 5 (by decide) (by decide)].foldlM (observe Backup.noPeer 0) (primary, {})).isOk by decide +kernel)
  have seen : ([creation 5 (by decide) (by decide)].foldlM (observe Backup.noPeer 0) (primary, {})).map (fun final =>
      (final.1.log.contains 5, final.1.log.contains 7)) = .ok (true, false) := by decide +kernel
  rw [ran] at seen
  obtain ⟨used, free⟩ := Prod.mk.inj (Except.ok.inj seen)
  have draws := (free_ids_are_those_not_taken_and_the_loop_draws_one ran).2 "bb" [5] 7 [] (by decide) (by simpa using used)
    (Std.ExtTreeMap.getElem?_eq_none_of_contains_eq_false free)
  obtain ⟨after, drawn, added, _⟩ := draws
  exact ⟨final, after, ran, drawn, added⟩

section
variable {π : Type} {answer : Answer π} {fuel : Nat} {server : Server π} {id : Int}

/-- A primary creates the transaction that is drawn. -/
theorem creation_step (primary : IsPrimary server.log) (absent : server.log[id]? = none) (low : 1 ≤ id) (high : id ≤ 100000) :
    ∃ next, System.step answer fuel server (creation id low high) = .ok next ∧ next.log = server.log.insert id (freshRecord "aa") := by
  have role : getServerStatus server.log = .ok "primary" := primary
  have authorized : unauthorized server false 2 = .ok false := by
    simp [unauthorized, role]
  have method : parse "NEW_TXN 0 0 3" = 2 := by decide
  have named : portablePosixName "aa" = true := by decide
  generalize grows : server.log.insert id (freshRecord "aa") = log
  have creates : newTxn server.log "aa" [id] = .ok (log, [.save log], id) := by
    rw [← grows]
    exact @newTxn_draws server.log "aa" id [] [] named (fun draw member => absurd member List.not_mem_nil) absent
  have still : IsPrimary log := by
    rw [← grows]
    exact primary.of_get (Store.get_insert_other (by omega))
  obtain ⟨queued, enqueued⟩ := enqueue_returns { server with log } ⟨_, still⟩ ("MAKE_TXN " ++ iToS id ++ " 0 0 0") "aa"
  have positive : id ≠ 0 := by omega
  have executed : ∃ effects, executeCommand { draws := [id] } server false 2 "NEW_TXN 0 0 3" "aa" =
      .ok { server := queued, effects, auth := false, ret := true } := by
    unfold executeCommand
    rw [authorized, ok_bind, if_neg (by decide)]
    exact ⟨_, by simp only [creates, ok_bind, positive, if_false, enqueued, pure_eq_ok]; rfl⟩
  obtain ⟨effects, executed⟩ := executed
  refine ⟨queued, ?_, enqueue_log enqueued⟩
  have performed : System.perform answer fuel server (creation id low high) = .ok (some queued, effects) := by
    simp only [creation, System.perform, receive, dispatch, method, executed, ok_bind, if_true, pure_eq_ok, Bool.false_eq_true, if_false]
  rw [System.step, performed, ok_bind]
  rfl

/-- The ids 1..count, one NEW_TXN for each. -/
def creations : (count : Nat) → count ≤ 100000 → List System.Event
  | 0, _ => []
  | count + 1, high => creations count (by omega) ++ [creation (count + 1) (by omega) (by omega)]

theorem creations_run (count : Nat) (high : count ≤ 100000) (start : IsPrimary server.log)
    (free : ∀ id : Int, 1 ≤ id → server.log[id]? = none) :
    ∃ final, (creations count high).foldlM (System.step answer fuel) server = .ok final ∧ IsPrimary final.log ∧
      (∀ id : Int, 1 ≤ id → id ≤ count → final.log.contains id = true) ∧ ∀ id : Int, count < id → final.log[id]? = none := by
  induction count with
  | zero => exact ⟨server, rfl, start, fun id low high => by omega, fun id above => free id (by omega)⟩
  | succ count ih =>
    obtain ⟨reached, ran, primary, used, unused⟩ := ih (by omega)
    obtain ⟨final, stepped, log⟩ :=
      creation_step primary (unused (count + 1) (by omega)) (by omega) (by omega)
    refine ⟨final, ?_, ?_, ?_, ?_⟩
    · rw [creations, List.foldlM_append, ran, ok_bind, List.foldlM_cons, stepped, ok_bind, List.foldlM_nil]
      rfl
    · rw [log]
      exact primary.of_get (Store.get_insert_other (by omega))
    · intro id low high
      rw [log]
      by_cases last : id = count + 1
      · rw [last]
        exact Store.contains_of_get Std.ExtTreeMap.getElem?_insert_self
      · rw [contains_congr (Store.get_insert_other last)]
        exact used id low (by omega)
    · intro id above
      rw [log, Store.get_insert_other (by omega)]
      exact unused id (by omega)

end

/-- After 100000 creations no id is free, and a NEW_TXN draws for ever. -/
theorem all_ids_can_be_taken :
    ∃ (events : List System.Event) (final : Server Unit), events.foldlM (System.step Backup.noPeer 0) primary = .ok final ∧
      (∀ id : Int, 1 ≤ id → id ≤ 100000 → final.log.contains id = true) ∧
      ∀ draws : List Int, (∀ draw ∈ draws, 1 ≤ draw ∧ draw ≤ 100000) → newTxn final.log "aa" draws = .error .running := by
  have start : IsPrimary primary.log := serverData_role _ _ _ _ _
  have free : ∀ id : Int, 1 ≤ id → primary.log[id]? = none := by
    intro id low
    exact (Store.get_insert_other (by omega)).trans (Store.get_erase_other (by omega))
  obtain ⟨final, ran, _, used, _⟩ := creations_run 100000 le_rfl start free
  refine ⟨_, final, ran, fun id low high => used id low high, ?_⟩
  intro draws drawn
  have none_free : draws.find? (fun draw => !final.log.contains draw) = none := by
    rw [List.find?_eq_none]
    intro draw member
    rw [used draw (drawn draw member).1 (drawn draw member).2]
    decide
  have named : portablePosixName "aa" = true := by decide
  simp only [newTxn, named, Bool.not_true, Bool.false_eq_true, if_false, none_free, finished]
  rfl

end TransactionalServer.Proofs.Capacity
