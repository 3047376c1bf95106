import TransactionalServer.Proofs.Retries
import TransactionalServer.System

/-! Promotion of a backup. The counter of failed attempts survives a successful
one, so that failures add up over any time. -/

namespace TransactionalServer.Proofs.Promotion
open ServerTools LogHandler Exec Session ReplicationManager

/-- The count of failures after some attempts. -/
structure Round where
  count : Nat := 0
  /-- An attempt succeeded after the first failure that counts. -/
  gap : Bool := false
  /-- A count became full over a gap. -/
  scattered : Bool := false

/-- The failure that finds the count full promotes, and is counted again. -/
def Round.attempt (round : Round) (up : Bool) : Round :=
  if up then
    { round with gap := round.gap || decide (0 < round.count) }
  else if round.count < 4 then
    { round with count := round.count + 1 }
  else
    { count := 1, gap := false, scattered := round.scattered || round.gap }

/-- The round of these attempts, the last one first. -/
def round (outcomes : List Bool) : Round := outcomes.foldr (fun up round => round.attempt up) {}

/-- What a run shows of the attempts. -/
structure Watch where
  /-- The outcomes of the attempts made off the primary role, the last one first. -/
  outcomes : List Bool := []
  /-- A KILL was sent or received. -/
  killed : Bool := false
  /-- A tick promoted the server although one of the last five attempts had succeeded. -/
  usurped : Bool := false

def isPrimary (log : Log) : Bool := getServerStatus log = .ok "primary"

def isKill : System.Event → Bool
  | .packet _ _ header _ _ _ => parse header == 9
  | .sweep | .save | .tick _ => false

section
variable {π : Type}

def Watch.attempt (watch : Watch) (before after : Server π) : Watch :=
  let outcomes := reaches before :: watch.outcomes
  { watch with outcomes, usurped := watch.usurped || (isPrimary after.log && outcomes.take 5 != List.replicate 5 false) }

def Watch.note (watch : Watch) (event : System.Event) (before after : Server π) : Watch :=
  let watch := { watch with killed := watch.killed || isKill event || after.link.outbox != before.link.outbox }
  match event with
  | .tick _ => if isPrimary before.log then watch else watch.attempt before after
  | .packet _ _ _ _ _ _ | .sweep | .save => watch

variable (answer : Answer π) (fuel : Nat)

/-- A step of the server, and what it shows. -/
def observe (state : Server π × Watch) (event : System.Event) : Exec (Server π × Watch) := do
  let next ← System.step answer fuel state.1 event
  return (next, state.2.note event state.1 next)

end

theorem round_cons (up : Bool) (earlier : List Bool) : round (up :: earlier) = (round earlier).attempt up := rfl

/-- Without a gap the failures that count are the last attempts. -/
theorem round_gap (outcomes : List Bool) :
    (round outcomes).count ≤ 4 ∧ ((round outcomes).gap = false ↔ outcomes.take (round outcomes).count = List.replicate (round outcomes).count false) := by
  induction outcomes with
  | nil => exact ⟨by decide, by decide⟩
  | cons up earlier ih =>
    obtain ⟨few, window⟩ := ih
    rw [round_cons]
    generalize round earlier = before at few window
    obtain ⟨count, gap, scattered⟩ := before
    unfold Round.attempt
    cases up with
    | true =>
      refine ⟨few, ?_⟩
      cases count with
      | zero => simpa using window
      | succ count => simp [List.replicate_succ]
    | false =>
      by_cases short : count < 4
      · simp only [short, if_true, Bool.false_eq_true, if_false, List.take_succ_cons, List.replicate_succ, List.cons.injEq, true_and]
        exact ⟨by omega, window⟩
      · simp [short]

/-- A failure that finds the count full follows four others exactly without a gap. -/
theorem round_full {outcomes : List Bool} (full : (round outcomes).count = 4) :
    (round outcomes).gap = false ↔ (false :: outcomes).take 5 = List.replicate 5 false := by
  have window := (round_gap outcomes).2
  rw [full] at window
  rw [window]
  constructor
  · intro failed
    exact congrArg (false :: ·) failed
  · intro failed
    exact (List.cons.inj failed).2

section
variable {π : Type} {answer : Answer π} {fuel : Nat} {server : Server π} {env : Env} {auth : Bool} {header data : Text}

theorem executes_calm {out : Command π} (executes : Executes server env auth header data out) (other : parse header ≠ 9) :
    Calm server out.server := by
  cases executes with
  | refused | notAborted | commits | notAdded | read | made | pinged | authenticated => exact ⟨rfl, rfl⟩
  | aborted _ _ _ enqueued | created _ _ _ enqueued | added _ _ _ enqueued | completed _ _ _ _ enqueued =>
    have calm := (enqueue_aimed enqueued).toCalm
    exact ⟨calm.tries, calm.outbox⟩
  | demoted kill => exact absurd kill other

theorem concludes_calm {io : Bool} {done : Handled π} (concludes : Concludes answer fuel io server auth header done) : Calm server done.server := by
  cases concludes with
  | acknowledged => exact .refl _
  | refused primary commits | exits primary commits => exact (primary_calm answer fuel).2.1 _ _ _ _ primary commits
  | finishes primary commits =>
    have calm := (primary_calm answer fuel).2.1 _ _ _ _ primary commits
    exact ⟨calm.tries, calm.outbox⟩

/-- No packet but a KILL touches the counter, and none sends a KILL. -/
theorem receive_calm {payload : Option Text} {handled : Handled π} (other : parse header ≠ 9)
    (received : receive answer fuel env server auth header payload = .ok handled) : Calm server handled.server := by
  rcases receive_cases received with ⟨same, _⟩ | ⟨_, out, executes, follows⟩
  · rw [same]
    exact .refl _
  have first := executes_calm executes other
  cases follows with
  | returned | asks | answers => exact first
  | @concludes done _ _ concludes =>
    have later := concludes_calm concludes
    exact first.trans ⟨later.tries, later.outbox⟩

/-- What the watch says is so. -/
structure Sound (server : Server π) (watch : Watch) : Prop where
  tries : server.manager.tries = (round watch.outcomes).count
  usurped : watch.usurped = (round watch.outcomes).scattered

theorem Sound.moved {after : Server π} {watch : Watch} (sound : Sound server watch) (killed : Bool) (calm : Calm server after) :
    Sound after { watch with killed } :=
  ⟨calm.tries.trans sound.tries, sound.usurped⟩

theorem Kills.outbox_ne {after : Server π} (kills : Kills server after) : after.link.outbox ≠ server.link.outbox := by
  rw [kills.outbox]
  simp

theorem isPrimary_eq_true {log : Log} : isPrimary log = true ↔ IsPrimary log := decide_eq_true_iff

theorem isPrimary_eq_false {log : Log} : isPrimary log = false ↔ NotPrimary log := decide_eq_false_iff_not

/-- A tick off the primary role counts one attempt, and promotes as the round says. -/
theorem Sound.ticks {tick : Tick} {after : Server π} {watch : Watch} (sound : Sound server watch) (backup : NotPrimary server.log)
    (ticks : Ticks tick server after) (unsent : after.link.outbox = server.link.outbox) : Sound after (watch.attempt server after) := by
  obtain ⟨tries, usurped⟩ := sound
  cases ticks with
  | reached up kept ends =>
    have stays := isPrimary_eq_false.mpr (backup.kept kept)
    rcases ends with aimed | kills
    · refine ⟨?_, ?_⟩
      · simp only [Watch.attempt, up, round_cons, Round.attempt, if_true]
        exact aimed.tries.trans tries
      · simp only [Watch.attempt, up, round_cons, Round.attempt, if_true, stays, Bool.false_and, Bool.or_false]
        exact usurped
    · exact absurd unsent (Kills.outbox_ne kills)
  | failed down searches =>
    rcases searches.role with ⟨few, same, count⟩ | ⟨many, primary, count⟩
    · have short : (round watch.outcomes).count < 4 := by omega
      have stays : isPrimary after.log = false := by
        rw [same]
        exact isPrimary_eq_false.mpr backup
      have next : round (false :: watch.outcomes) = { round watch.outcomes with count := (round watch.outcomes).count + 1 } := by
        simp only [round_cons, Round.attempt, Bool.false_eq_true, if_false]
        exact if_pos short
      refine ⟨?_, ?_⟩
      · simp only [Watch.attempt, down, next]
        omega
      · simp only [Watch.attempt, down, next, stays, Bool.false_and, Bool.or_false]
        exact usurped
    · have full : (round watch.outcomes).count = 4 := by
        have few := (round_gap watch.outcomes).1
        omega
      have promoted := isPrimary_eq_true.mpr primary
      have next : round (false :: watch.outcomes) =
          { count := 1, gap := false, scattered := (round watch.outcomes).scattered || (round watch.outcomes).gap } := by
        simp only [round_cons, Round.attempt, Bool.false_eq_true, if_false]
        exact if_neg (by omega)
      have direct : ((false :: watch.outcomes).take 5 != List.replicate 5 false) = (round watch.outcomes).gap := by
        rw [Bool.eq_iff_iff, bne_iff_ne, ne_eq, ← round_full full, Bool.not_eq_false]
      refine ⟨?_, ?_⟩
      · simp only [Watch.attempt, down, next]
        exact count
      · simp only [Watch.attempt, down, next, promoted, Bool.true_and, direct, usurped]

end

section
variable {π : Type} {answer : Answer π} {fuel : Nat} {state next : Server π × Watch} {event : System.Event}

theorem note_killed (watch : Watch) (event : System.Event) (before after : Server π) :
    (watch.note event before after).killed = (watch.killed || isKill event || after.link.outbox != before.link.outbox) := by
  unfold Watch.note
  cases event with
  | packet | sweep | save => rfl
  | tick =>
    simp only
    split
    · rfl
    · rfl

/-- While no KILL is sent or received the watch keeps the count. -/
theorem observe_sound (sound : state.2.killed = false → Sound state.1 state.2) (observed : observe answer fuel state event = .ok next) :
    next.2.killed = false → Sound next.1 next.2 := by
  obtain ⟨server, stepped, same⟩ := bind_eq_ok.mp observed
  cases same
  intro spared
  simp only [note_killed, Bool.or_eq_false_iff, bne_eq_false_iff_eq] at spared
  obtain ⟨⟨before, unreceived⟩, unsent⟩ := spared
  cases step_cases stepped with
  | packet valid drawn received => exact (sound before).moved _ (receive_calm (by simpa [isKill] using unreceived) received)
  | sweep swept => exact (sound before).moved _ ⟨rfl, rfl⟩
  | save => exact (sound before).moved _ (.refl _)
  | tick checked =>
    rcases check_cases checked with ⟨primary, ops⟩ | ⟨backup, ops⟩
    · simp only [Watch.note, isPrimary_eq_true.mpr primary, if_true]
      exact (sound before).moved _ ((primary_calm answer fuel).1 _ _ primary ops)
    · simp only [Watch.note, isPrimary_eq_false.mpr backup, Bool.false_eq_true, if_false]
      exact ((sound before).moved _ (.refl _)).ticks backup (backupOps_cases backup ops) unsent

/-- Without KILLs every promotion follows five failed attempts in a row exactly
when no success falls into a count of failures that gets full. -/
theorem promotions_follow_failures_exactly_without_scattered_counts {self : Identity} {loaded : Log} {peer : π} {wires : List Wire}
    {connects : List Bool} {events : List System.Event} {final : Server π × Watch}
    (ran : events.foldlM (observe answer fuel) (System.start self false loaded peer wires connects, {}) = .ok final)
    (spared : final.2.killed = false) : final.2.usurped = false ↔ (round final.2.outcomes).scattered = false := by
  have sound : final.2.killed = false → Sound final.1 final.2 := by
    refine run_preserves (fun state : Server π × Watch => state.2.killed = false → Sound state.1 state.2) ?_ (along_trivial _ _ events)
      (fun _ => ⟨rfl, rfl⟩) ran
    intro state event next sound _ observed
    exact observe_sound sound observed
  rw [(sound spared).usurped]

end

private def backup (connects : List Bool) : Server Unit := System.start ⟨"ip", "80", "dir"⟩ false ∅ () [] connects

/-- The timer, while primary.txt names another server. -/
private def attempt : System.Event := .tick { primaryTxt := some "IP: |other|\tport: |81|" }

/-- Five failed attempts promote. -/
theorem five_failures_in_a_row_promote :
    ∃ final, (List.replicate 5 attempt).foldlM (observe Backup.noPeer 1) (backup (List.replicate 5 false), {}) = .ok final ∧
      isPrimary final.1.log = true ∧ final.2.usurped = false := by
  obtain ⟨final, ran⟩ := returned_of_isOk
    (show ((List.replicate 5 attempt).foldlM (observe Backup.noPeer 1) (backup (List.replicate 5 false), {})).isOk by decide +kernel)
  have seen : ((List.replicate 5 attempt).foldlM (observe Backup.noPeer 1) (backup (List.replicate 5 false), {})).map (fun final =>
      (isPrimary final.1.log, final.2.killed, (round final.2.outcomes).scattered)) = .ok (true, false, false) := by decide +kernel
  rw [ran] at seen
  obtain ⟨promoted, rest⟩ := Prod.mk.inj (Except.ok.inj seen)
  obtain ⟨spared, direct⟩ := Prod.mk.inj rest
  exact ⟨final, ran, promoted, (promotions_follow_failures_exactly_without_scattered_counts ran spared).mpr direct⟩

/-- The fifth attempt and the connection of its check succeed. -/
def interruptedConnects : List Bool := [false, false, false, false, true, true, false]

/-- A backup that has just reached its primary promotes itself at the next failure. -/
theorem one_failure_after_a_success_promotes :
    ∃ final, (List.replicate 6 attempt).foldlM (observe Backup.noPeer 1) (backup interruptedConnects, {}) = .ok final ∧
      final.2.outcomes = [false, true, false, false, false, false] ∧ final.2.killed = false ∧ isPrimary final.1.log = true ∧
      final.2.usurped = true := by
  obtain ⟨final, ran⟩ := returned_of_isOk
    (show ((List.replicate 6 attempt).foldlM (observe Backup.noPeer 1) (backup interruptedConnects, {})).isOk by decide +kernel)
  have seen : ((List.replicate 6 attempt).foldlM (observe Backup.noPeer 1) (backup interruptedConnects, {})).map (fun final =>
      (final.2.outcomes, final.2.killed, isPrimary final.1.log, final.2.usurped)) =
      .ok ([false, true, false, false, false, false], false, true, true) := by decide +kernel
  rw [ran] at seen
  obtain ⟨outcomes, rest⟩ := Prod.mk.inj (Except.ok.inj seen)
  obtain ⟨spared, rest⟩ := Prod.mk.inj rest
  obtain ⟨promoted, usurped⟩ := Prod.mk.inj rest
  exact ⟨final, ran, outcomes, spared, promoted, usurped⟩

end TransactionalServer.Proofs.Promotion
