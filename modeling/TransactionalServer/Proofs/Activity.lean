import TransactionalServer.Proofs.LedgerSteps
import TransactionalServer.Proofs.SweepIndependence

/-! Expiry of a transaction whose client keeps writing. An accepted write puts
an active transaction back, but it leaves the marker of a waiting one as it is. -/

namespace TransactionalServer.Proofs.Activity
open ServerTools LogHandler Exec Session SweepIndependence

/-- What a run shows of one transaction. -/
structure Watch where
  /-- So far every sweep that found the transaction came after an accepted write,
  and no ABORT has removed it. -/
  active : Bool := true
  /-- A write was accepted since the last sweep. -/
  touched : Bool := false
  /-- How many sweeps have found it waiting. -/
  waited : Nat := 0
  /-- A sweep has removed it or marked it expired. -/
  harmed : Bool := false

def recorded (log : Log) (tsn seq : Int) : Bool := log[tsn]?.any (·.contains seq)

/-- A WRITE that the server has taken. -/
def accepts (tsn : Int) (header : Text) (before after : Log) : Bool :=
  parse header == 5 && getTsn header == tsn && !recorded before tsn (getSeq header) && recorded after tsn (getSeq header)

def aborts (tsn : Int) (header : Text) (before after : Log) : Bool :=
  parse header == 1 && getTsn header == tsn && before.contains tsn && !after.contains tsn

def waiting (log : Log) (tsn : Int) : Bool := getStatus log tsn = .ok "WAITING"

/-- The transaction is marked in its status or in the entry of its file. -/
def expired (log : Log) (tsn : Int) : Bool := getStatus log tsn = .ok "EXPIRED" ∨ getStatusZ log tsn = .ok "EXPIRED"

namespace Watch

def packet (watch : Watch) (tsn : Int) (header : Text) (before after : Log) : Watch :=
  { watch with
    active := watch.active && !aborts tsn header before after
    touched := watch.touched || accepts tsn header before after }

def sweep (watch : Watch) (tsn : Int) (before after : Log) : Watch where
  active := watch.active && (watch.touched || !before.contains tsn)
  touched := false
  waited := if waiting before tsn then watch.waited + 1 else watch.waited
  harmed := watch.harmed || (before.contains tsn && (!after.contains tsn || expired after tsn))

def note (watch : Watch) (tsn : Int) (event : System.Event) (before after : Log) : Watch :=
  match event with
  | .packet _ _ header _ _ _ => watch.packet tsn header before after
  | .sweep => watch.sweep tsn before after
  | .save | .tick _ => watch

end Watch

section
variable {π : Type} (answer : Answer π) (fuel : Nat) (tsn : Int)

/-- A step of the server, and what it shows. -/
def observe (state : Server π × Watch) (event : System.Event) : Exec (Server π × Watch) := do
  let next ← System.step answer fuel state.1 event
  return (next, state.2.note tsn event state.1.log next.log)

end

/-- The transaction is not expired, and when it was just written not flagged. -/
def Alive (log : Log) (tsn : Int) (marker : Text) (fresh : Bool) : Prop :=
  ∃ record status number path, Found log tsn record status number ∧ record[(0 : Int)]? = some (marker, path) ∧ status ≠ "EXPIRED" ∧
    (fresh = true → status ≠ "FLAG")

/-- What a packet does to a transaction that it does not abort. -/
inductive Touches (tsn : Int) (log after : Log) : Prop where
  | same (same : after[tsn]? = log[tsn]?)
  | created (absent : log[tsn]? = none) (alive : Alive after tsn "NEW_TXN" true)
  | changed {old : Record} (present : log[tsn]? = some old)
      (alive : ∀ marker path, old[(0 : Int)]? = some (marker, path) → Alive after tsn marker true)

section
variable {log middle after : Log} {tsn : Int} {record changed : Record} {status number marker : Text} {fresh : Bool}

theorem Alive.weaken (alive : Alive log tsn marker true) (fresh : Bool) : Alive log tsn marker fresh := by
  obtain ⟨record, status, number, path, found, file, notExpired, notFlag⟩ := alive
  exact ⟨record, status, number, path, found, file, notExpired, fun _ => notFlag rfl⟩

theorem Alive.moved (alive : Alive log tsn marker fresh) (same : after[tsn]? = log[tsn]?) : Alive after tsn marker fresh := by
  obtain ⟨record, status, number, path, found, rest⟩ := alive
  exact ⟨record, status, number, path, found.moved same, rest⟩

theorem Touches.trans (first : Touches tsn log middle) (second : Touches tsn middle after) : Touches tsn log after := by
  cases second with
  | same same =>
    cases first with
    | same before => exact .same (same.trans before)
    | created absent alive => exact .created absent (alive.moved same)
    | changed present alive => exact .changed present fun marker path file => (alive marker path file).moved same
  | created absent alive =>
    cases first with
    | same before => exact .created (before.symm.trans absent) alive
    | created _ other =>
      obtain ⟨_, _, _, _, found, _⟩ := other
      rw [found.inLog] at absent
      cases absent
    | changed present other =>
      refine .changed present fun marker path file => ?_
      obtain ⟨_, _, _, _, found, _⟩ := other marker path file
      rw [found.inLog] at absent
      cases absent
  | @changed old present alive =>
    have still {marker : Text} (middleAlive : Alive middle tsn marker true) : Alive after tsn marker true := by
      obtain ⟨record, _, _, path, found, file, _⟩ := middleAlive
      obtain rfl := Option.some.inj (present.symm.trans found.inLog)
      exact alive marker path file
    cases first with
    | same before => exact .changed (before.symm.trans present) alive
    | created absent other => exact .created absent (still other)
    | changed before other => exact .changed before fun marker path file => still (other marker path file)

/-- A record that is put in place of another with the same file entry. -/
theorem touches_insert (inLog : log[tsn]? = some record) (entry : changed[(-1 : Int)]? = some (status, number))
    (file : changed[(0 : Int)]? = record[(0 : Int)]?) (notExpired : status ≠ "EXPIRED") (notFlag : status ≠ "FLAG") :
    Touches tsn log (log.insert tsn changed) := by
  refine .changed inLog fun marker path there => ?_
  exact ⟨changed, status, number, path, ⟨Std.ExtTreeMap.getElem?_insert_self, entry⟩, file.trans there, notExpired, fun _ => notFlag⟩

theorem touches_mark (inLog : log[tsn]? = some record) (next data : Text) (notExpired : next ≠ "EXPIRED") (notFlag : next ≠ "FLAG") :
    Touches tsn log (mark log tsn record next data) :=
  touches_insert inLog Std.ExtTreeMap.getElem?_insert_self (Store.get_insert_other (by decide)) notExpired notFlag

end

section
variable {log : Log} {header data : Text} {io : Bool} {out : Outcome}

theorem commits_touches (commits : Commits log header io out) : Touches (getTsn header) log out.log := by
  cases commits with
  | absent | already | expired | otherNumber | nothing => exact .same rfl
  | incomplete found _ _ _ marked | primary found _ _ _ marked =>
    subst marked
    exact touches_mark found.inLog _ _ (by decide) (by decide)
  | written found _ _ _ _ _ _ _ finished | failed found _ _ _ _ _ _ _ _ finished =>
    subst finished
    exact touches_mark found.inLog _ _ (by decide) (by decide)

theorem adds_touches (adds : Adds log header data io out) : Touches (getTsn header) log out.log := by
  cases adds with
  | low | absent | committed | expired | duplicate | above => exact .same rfl
  | kept high found _ _ grows =>
    subst grows
    exact touches_insert found.inLog (found.grow high _).entry (Store.get_insert_other (by omega)) (by decide) (by decide)
  | completes high found _ _ grows _ commits =>
    subst grows
    have inserted := touches_insert found.inLog (found.grow high (header, data)).entry (Store.get_insert_other (by omega)) (by decide) (by decide)
    have committed := commits_touches commits
    rw [pendingCommit_getTsn (getTsn_isInt header)] at committed
    exact inserted.trans committed
  | added high found _ _ _ _ grows =>
    subst grows
    refine touches_insert found.inLog Std.ExtTreeMap.getElem?_insert_self ?_ (by decide) (by decide)
    rw [Store.get_insert_other (by decide), Store.get_insert_other (by omega)]

theorem created_touches {tsn : Int} (absent : log[tsn]? = none) (data : Text) : Touches tsn log (log.insert tsn (freshRecord data)) := by
  refine .created absent ⟨freshRecord data, "ACTIVE", "0", data, ⟨Std.ExtTreeMap.getElem?_insert_self, ?_⟩, ?_, by decide, fun _ => by decide⟩
  · exact twoEntries_status _ _
  · exact twoEntries_file _ _

end

section
variable {π : Type} {answer : Answer π} {fuel : Nat} {server : Server π} {env : Env} {auth : Bool} {header data : Text} {tsn : Int}

/-- A command touches a transaction or aborts it. -/
theorem executes_touches {out : Command π} (executes : Executes server env auth header data out) (positive : 1 ≤ tsn) :
    Touches tsn server.log out.server.log ∨ (out.ret = true ∧ aborts tsn header server.log out.server.log = true) := by
  have framed (replicated : Replicated header) (differs : tsn ≠ getTsn header) : Touches tsn server.log out.server.log :=
    .same (executes.frame replicated differs)
  have elsewhere {method : Nat} (same : parse header = method) (replicated : method = 1 ∨ method = 3 ∨ method = 5 ∨ method = 6)
      (here : tsn = getTsn header → Touches tsn server.log out.server.log) : Touches tsn server.log out.server.log := by
    subst same
    by_cases own : tsn = getTsn header
    · exact here own
    · exact framed replicated own
  cases executes with
  | refused | read | authenticated => exact Or.inl (.same rfl)
  | notAborted _ aborted kept =>
    cases aborted with
    | absent | committed | expired => exact Or.inl (.same rfl)
    | erased => cases kept
  | @aborted outcome queued ack method aborted _ enqueued =>
    rw [enqueue_log enqueued]
    by_cases own : tsn = getTsn header
    · subst own
      cases aborted with
      | absent | committed | expired => exact Or.inl (.same rfl)
      | erased found =>
        refine Or.inr ⟨rfl, ?_⟩
        have gone : (server.log.erase (getTsn header)).contains (getTsn header) = false :=
          Store.contains_of_absent Std.ExtTreeMap.getElem?_erase_self
        simp only [aborts, method, found.contains, gone, beq_self_eq_true, Bool.not_false, Bool.and_self]
    · exact Or.inl (.same (aborted.frame own))
  | @created log effects drawn queued ack _ creates _ enqueued =>
    rw [enqueue_log enqueued]
    rcases newTxn_cases creates with ⟨rfl, _⟩ | ⟨_, _, absent, rfl, _⟩
    · exact Or.inl (.same rfl)
    · by_cases own : tsn = drawn
      · subst own
        exact Or.inl (created_touches absent data)
      · exact Or.inl (.same (Store.get_insert_other own))
  | commits method commits => exact Or.inl (elsewhere method (by decide) fun own => own ▸ commits_touches commits)
  | added method adds _ enqueued =>
    refine Or.inl (elsewhere method (by decide) fun own => ?_)
    rw [enqueue_log enqueued]
    exact own ▸ adds_touches adds
  | completed method adds _ _ enqueued =>
    refine Or.inl (elsewhere method (by decide) fun own => ?_)
    rw [enqueue_log enqueued]
    exact own ▸ adds_touches adds
  | notAdded method adds => exact Or.inl (elsewhere method (by decide) fun own => own ▸ adds_touches adds)
  | made method makes =>
    refine Or.inl (elsewhere method (by decide) fun own => ?_)
    rcases makeTxn_cases makes with ⟨absent, rfl, _⟩ | ⟨_, rfl, _⟩
    · exact own ▸ created_touches absent data
    · exact .same rfl
  | pinged _ _ registers => exact Or.inl (.same (register_frame (by omega) registers))
  | demoted _ switches => exact Or.inl (.same (switchToBackup_transactions switches tsn positive))

theorem concludes_touches {io : Bool} {done : Handled π} (concludes : Concludes answer fuel io server auth header done) (positive : 1 ≤ tsn) :
    Touches tsn server.log done.server.log := by
  by_cases own : tsn = getTsn header
  · subst own
    obtain ⟨log, kept, same | ⟨record, status, number, found, same⟩⟩ := concludes.log
    · rw [same]
      exact .same (kept.transactions _ positive)
    · have unchanged : Touches (getTsn header) server.log log := .same (kept.transactions _ positive)
      rw [same]
      exact unchanged.trans (touches_mark found.inLog _ _ (by decide) (by decide))
  · exact .same (concludes.frame own (by omega))

theorem receive_touches {payload : Option Text} {handled : Handled π} (positive : 1 ≤ tsn)
    (received : receive answer fuel env server auth header payload = .ok handled) :
    Touches tsn server.log handled.server.log ∨ aborts tsn header server.log handled.server.log = true := by
  rcases receive_cases received with ⟨same, _⟩ | ⟨_, out, executes, follows⟩
  · rw [same]
    exact Or.inl (.same rfl)
  rcases executes_touches executes positive with touches | ⟨ret, aborted⟩
  · cases follows with
    | returned | asks | answers => exact Or.inl touches
    | concludes _ _ concludes =>
      have committed := concludes_touches concludes positive
      exact Or.inl (touches.trans committed)
  · obtain rfl := follows.of_done ret
    exact Or.inr aborted

end

/-- What the watch says is so, as long as the transaction is active. -/
inductive Sound (tsn : Int) (log : Log) (watch : Watch) : Prop where
  | absent (absent : log[tsn]? = none) (untouched : watch.touched = false) (never : watch.waited = 0) (unharmed : watch.harmed = false)
  | unmarked {marker : Text} (alive : Alive log tsn marker watch.touched) (notFlag : marker ≠ "FLAG") (notExpired : marker ≠ "EXPIRED")
      (never : watch.waited = 0) (unharmed : watch.harmed = false)
  | marked (alive : Alive log tsn "FLAG" watch.touched) (once : watch.waited = 1) (unharmed : watch.harmed = false)
  | lost (again : 2 ≤ watch.waited) (harmed : watch.harmed = true)

section
variable {log after : Log} {watch : Watch} {tsn : Int} {header marker : Text} {fresh : Bool}

theorem not_accepts (same : after[tsn]? = log[tsn]?) : accepts tsn header log after = false := by
  unfold accepts recorded
  rw [same]
  cases log[tsn]?.any (·.contains (getSeq header)) with
  | false => simp
  | true => simp

theorem Sound.moved (sound : Sound tsn log watch) (same : after[tsn]? = log[tsn]?) : Sound tsn after watch := by
  cases sound with
  | absent absent untouched never unharmed => exact .absent (same.trans absent) untouched never unharmed
  | unmarked alive notFlag notExpired never unharmed => exact .unmarked (alive.moved same) notFlag notExpired never unharmed
  | marked alive once unharmed => exact .marked (alive.moved same) once unharmed
  | lost again harmed => exact .lost again harmed

theorem Sound.packet (sound : Sound tsn log watch) (touches : Touches tsn log after) : Sound tsn after (watch.packet tsn header log after) := by
  cases touches with
  | same same =>
    have kept : (watch.packet tsn header log after).touched = watch.touched := by
      simp only [Watch.packet, not_accepts same, Bool.or_false]
    cases sound.moved same with
    | absent absent untouched never unharmed => exact .absent absent (kept.trans untouched) never unharmed
    | unmarked alive notFlag notExpired never unharmed => exact .unmarked (kept ▸ alive) notFlag notExpired never unharmed
    | marked alive once unharmed => exact .marked (kept ▸ alive) once unharmed
    | lost again harmed => exact .lost again harmed
  | created absent created =>
    have missing {marker : Text} {fresh : Bool} (alive : Alive log tsn marker fresh) : False := by
      obtain ⟨_, _, _, _, found, _⟩ := alive
      rw [found.inLog] at absent
      cases absent
    cases sound with
    | absent _ _ never unharmed => exact .unmarked (created.weaken _) (by decide) (by decide) never unharmed
    | unmarked alive | marked alive => exact (missing alive).elim
    | lost again harmed => exact .lost again harmed
  | @changed old present changes =>
    have changed {marker : Text} {fresh : Bool} (alive : Alive log tsn marker fresh) : Alive after tsn marker true := by
      obtain ⟨record, _, _, path, found, file, _⟩ := alive
      obtain rfl := Option.some.inj (present.symm.trans found.inLog)
      exact changes marker path file
    cases sound with
    | absent absent =>
      rw [present] at absent
      cases absent
    | unmarked alive notFlag notExpired never unharmed =>
      exact .unmarked ((changed alive).weaken _) notFlag notExpired never unharmed
    | marked alive once unharmed => exact .marked ((changed alive).weaken _) once unharmed
    | lost again harmed => exact .lost again harmed

theorem Alive.contains (alive : Alive log tsn marker fresh) : log.contains tsn = true := by
  obtain ⟨_, _, _, _, found, _⟩ := alive
  exact found.contains

theorem getStatusZ_of_get {record : Record} {path : Text} (inLog : log[tsn]? = some record) (file : record[(0 : Int)]? = some (marker, path)) :
    getStatusZ log tsn = .ok marker := by
  simp only [getStatusZ, LogHandler.pair, inLog, file, defined_some, ok_bind, pure_eq_ok]

/-- A transaction that is alive and has not been marked twice is not expired. -/
theorem Alive.not_expired (alive : Alive log tsn marker fresh) (notExpired : marker ≠ "EXPIRED") : expired log tsn = false := by
  obtain ⟨record, status, number, path, found, file, other, _⟩ := alive
  rw [expired, decide_eq_false_iff_not, found.getStatus, getStatusZ_of_get found.inLog file]
  rintro (status | marker)
  · exact other (Except.ok.inj status)
  · exact notExpired (Except.ok.inj marker)

/-- What a sweep makes of a transaction that was just written. -/
theorem Alive.sweep (positive : 1 ≤ tsn) (alive : Alive log tsn marker true) (notExpired : marker ≠ "EXPIRED")
    (next : after[tsn]? = log[tsn]?.bind (swept tsn)) :
    (waiting log tsn = false ∧ Alive after tsn marker false) ∨ (waiting log tsn = true ∧ Alive after tsn (aged marker) false) := by
  obtain ⟨record, status, number, path, found, file, other, notFlag⟩ := alive
  have high : 0 ≤ tsn := by omega
  have reads : waiting log tsn = decide (status = "WAITING") := by
    simp only [waiting, found.getStatus, Except.ok.injEq]
  rw [found.inLog, Option.bind_some] at next
  by_cases kept : Kept status
  · rw [swept_kept found kept] at next
    refine Or.inl ⟨?_, record, status, number, path, ⟨next, found.entry⟩, file, other, fun same => by cases same⟩
    rw [reads, decide_eq_false_iff_not]
    rintro rfl
    exact absurd kept (by decide)
  by_cases pending : status = "WAITING"
  · subst pending
    rw [swept_waiting high found file, if_neg notExpired] at next
    refine Or.inr ⟨by rw [reads]; exact decide_eq_true rfl, _, "WAITING", number, path, ⟨next, ?_⟩, Std.ExtTreeMap.getElem?_insert_self,
      by decide, fun same => by cases same⟩
    rw [Store.get_insert_other (by decide)]
    exact found.entry
  · rw [swept_marked high found kept other pending] at next
    have aging : aged status = "FLAG" := if_neg (notFlag rfl)
    refine Or.inl ⟨by rw [reads]; exact decide_eq_false pending, _, aged status, number, path, ⟨next, Std.ExtTreeMap.getElem?_insert_self⟩, ?_,
      by rw [aging]; decide, fun same => by cases same⟩
    rw [Store.get_insert_other (by decide)]
    exact file

theorem Sound.sweep (positive : 1 ≤ tsn) (sound : Sound tsn log watch) (next : after[tsn]? = log[tsn]?.bind (swept tsn))
    (active : (watch.sweep tsn log after).active = true) : Sound tsn after (watch.sweep tsn log after) := by
  obtain ⟨_, written⟩ := Bool.and_eq_true_iff.mp active
  have fresh {marker : Text} (alive : Alive log tsn marker watch.touched) : Alive log tsn marker true := by
    rw [alive.contains, Bool.not_true, Bool.or_false] at written
    rw [← written]
    exact alive
  have spared {marker : Text} (alive : Alive after tsn marker false) (notExpired : marker ≠ "EXPIRED") (unharmed : watch.harmed = false) :
      (watch.sweep tsn log after).harmed = false := by
    simp only [Watch.sweep, unharmed, alive.contains, alive.not_expired notExpired, Bool.not_true, Bool.or_self, Bool.and_false]
  cases sound with
  | absent absent _ never unharmed =>
    have missing := Store.contains_of_absent absent
    rw [absent] at next
    have asleep : waiting log tsn = false := by
      rw [waiting, decide_eq_false_iff_not]
      intro read
      obtain ⟨_, _, found⟩ := found_of_getStatus read
      rw [found.inLog] at absent
      cases absent
    refine .absent next rfl ?_ ?_
    · simp only [Watch.sweep, asleep, never, Bool.false_eq_true, if_false]
    · simp only [Watch.sweep, unharmed, missing, Bool.false_and, Bool.or_self]
  | @unmarked marker alive notFlag notExpired never unharmed =>
    rcases (fresh alive).sweep positive notExpired next with ⟨asleep, alive⟩ | ⟨pending, alive⟩
    · refine .unmarked alive notFlag notExpired ?_ (spared alive notExpired unharmed)
      simp only [Watch.sweep, asleep, never, Bool.false_eq_true, if_false]
    · have aging : aged marker = "FLAG" := if_neg notFlag
      rw [aging] at alive
      refine .marked alive ?_ (spared alive (by decide) unharmed)
      simp only [Watch.sweep, pending, never, if_true]
  | marked alive once unharmed =>
    have flag : ("FLAG" : Text) ≠ "EXPIRED" := by decide
    rcases (fresh alive).sweep positive flag next with ⟨asleep, alive⟩ | ⟨pending, now⟩
    · refine .marked alive ?_ (spared alive flag unharmed)
      simp only [Watch.sweep, asleep, once, Bool.false_eq_true, if_false]
    · have aging : aged "FLAG" = "EXPIRED" := if_pos rfl
      rw [aging] at now
      obtain ⟨record, _, _, _, found, file, _⟩ := now
      have marked : expired after tsn = true := decide_eq_true (Or.inr (getStatusZ_of_get found.inLog file))
      refine .lost ?_ ?_
      · simp only [Watch.sweep, pending, once, if_true]
        decide
      · simp only [Watch.sweep, marked, alive.contains, Bool.or_true, Bool.and_self]
  | lost again harmed =>
    refine .lost ?_ ?_
    · simp only [Watch.sweep]
      split
      · omega
      · exact again
    · simp only [Watch.sweep, harmed, Bool.true_or]

end

section
variable {π : Type} {answer : Answer π} {fuel : Nat} {tsn : Int} {state next : Server π × Watch} {event : System.Event}

/-- A run that is not active will not be. -/
theorem active_before (observed : observe answer fuel tsn state event = .ok next) (active : next.2.active = true) : state.2.active = true := by
  obtain ⟨server, _, same⟩ := bind_eq_ok.mp observed
  cases same
  cases event with
  | packet | sweep => exact (Bool.and_eq_true_iff.mp active).1
  | save | tick => exact active

theorem observe_sound (positive : 1 ≤ tsn) (sound : Sound tsn state.1.log state.2) (observed : observe answer fuel tsn state event = .ok next)
    (active : next.2.active = true) : Sound tsn next.1.log next.2 := by
  obtain ⟨server, stepped, same⟩ := bind_eq_ok.mp observed
  cases same
  cases step_cases stepped with
  | packet valid drawn received =>
    rcases receive_touches positive received with touches | aborted
    · exact sound.packet touches
    · have kept := (Bool.and_eq_true_iff.mp active).2
      rw [aborted] at kept
      cases kept
  | sweep swept => exact sound.sweep positive (timeouts_get swept tsn) active
  | save => exact sound
  | tick checked => exact sound.moved (check_transactions checked tsn positive)

/-- While every sweep comes after an accepted write, a transaction is neither
removed nor marked expired exactly until a second sweep finds it waiting. -/
theorem active_transactions_live_exactly_until_a_second_waiting_sweep {server : Server π} {events : List System.Event}
    {final : Server π × Watch} (positive : 1 ≤ tsn) (absent : server.log[tsn]? = none)
    (ran : events.foldlM (observe answer fuel tsn) (server, {}) = .ok final) (active : final.2.active = true) :
    final.2.harmed = false ↔ final.2.waited ≤ 1 := by
  have sound : final.2.active = true → Sound tsn final.1.log final.2 := by
    refine run_preserves (fun state : Server π × Watch => state.2.active = true → Sound tsn state.1.log state.2) ?_
      (along_trivial _ _ events) (fun _ => .absent absent rfl rfl rfl) ran
    intro state event next sound _ observed active
    exact observe_sound positive (sound (active_before observed active)) observed active
  cases sound active with
  | absent _ _ never unharmed | unmarked _ _ _ never unharmed => exact ⟨fun _ => by omega, fun _ => unharmed⟩
  | marked _ once unharmed => exact ⟨fun _ => by omega, fun _ => unharmed⟩
  | lost again harmed =>
    constructor
    · intro unharmed
      rw [harmed] at unharmed
      cases unharmed
    · intro few
      omega

end

private def primary : Server Unit := System.start ⟨"ip", "80", "dir"⟩ true ∅ () [] []

private def createFive : System.Event := .packet { draws := [5] } false "NEW_TXN 0 0 3" (some "aa") (Eq.refl true) System.five_drawn

private def write (header : Text) (valid : validHeader header = true) : System.Event := .packet {} false header (some "xx") valid System.nothing_drawn

private def commitFive : System.Event := .packet {} false "COMMIT 5 9 0" none (Eq.refl true) System.nothing_drawn

/-- An active transaction that goes through two sweeps. -/
def activeRun : List System.Event :=
  [createFive, write "WRITE 5 1 3" (Eq.refl true), .sweep, write "WRITE 5 2 3" (Eq.refl true), .sweep]

theorem active_run_is_unharmed : ∃ final, activeRun.foldlM (observe Backup.noPeer 0 5) (primary, {}) = .ok final ∧ final.2.harmed = false := by
  obtain ⟨final, ran⟩ := returned_of_isOk (show (activeRun.foldlM (observe Backup.noPeer 0 5) (primary, {})).isOk by decide +kernel)
  have seen : (activeRun.foldlM (observe Backup.noPeer 0 5) (primary, {})).map (fun final => (final.2.active, final.2.waited)) =
      .ok (true, 0) := by decide +kernel
  rw [ran] at seen
  obtain ⟨active, waited⟩ := Prod.mk.inj (Except.ok.inj seen)
  have absent : primary.log[(5 : Int)]? = none := by decide +kernel
  have few : final.2.waited ≤ 1 := by omega
  exact ⟨final, ran, (active_transactions_live_exactly_until_a_second_waiting_sweep (by decide) absent ran active).mpr few⟩

/-- The client commits 1..9 and goes on resending. -/
def resendingRun : List System.Event :=
  [createFive, write "WRITE 5 1 3" (Eq.refl true), commitFive, .sweep, write "WRITE 5 2 3" (Eq.refl true), .sweep]

/-- The second sweep marks the transaction expired. -/
theorem waiting_transaction_expires_between_writes :
    ∃ final, resendingRun.foldlM (observe Backup.noPeer 0 5) (primary, {}) = .ok final ∧ final.2.active = true ∧ final.2.harmed = true ∧
      getStatusZ final.1.log 5 = .ok "EXPIRED" := by
  obtain ⟨final, ran⟩ := returned_of_isOk (show (resendingRun.foldlM (observe Backup.noPeer 0 5) (primary, {})).isOk by decide +kernel)
  have seen : (resendingRun.foldlM (observe Backup.noPeer 0 5) (primary, {})).map (fun final =>
      (final.2.active, final.2.harmed, getStatusZ final.1.log 5)) = .ok (true, true, .ok "EXPIRED") := by decide +kernel
  rw [ran] at seen
  obtain ⟨active, rest⟩ := Prod.mk.inj (Except.ok.inj seen)
  obtain ⟨harmed, marked⟩ := Prod.mk.inj rest
  exact ⟨final, ran, active, harmed, marked⟩

end TransactionalServer.Proofs.Activity
