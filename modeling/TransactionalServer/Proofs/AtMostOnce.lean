import TransactionalServer.Proofs.Filing

/-! No transaction is appended twice, as long as no crash separates an append
from the save that follows it. -/

namespace TransactionalServer.Proofs.AtMostOnce
open ServerTools LogHandler Exec Session Ledger Traces

section
variable {granted : Scope} {log : Log} {before next : State} {label : Option Effect} {disk : Disk}

/-- Every append is of its own transaction, which is committed in memory, and in
the saved log unless the save is still to come. -/
structure Once (state : State) (disk : Disk) : Prop where
  distinct : (disk.appended.map Append.tsn).Nodup
  positive : ∀ append ∈ disk.appended, 1 ≤ append.tsn
  memory : ∀ append ∈ disk.appended, Committed state.log append.tsn
  saved : state.unsaved = false → ∀ append ∈ disk.appended, Committed disk.saved append.tsn

theorem Once.act (once : Once before disk) (act : Act granted before label next) : Once next (label.elim disk disk.apply) := by
  have kept (append : Append) (member : append ∈ disk.appended) : Committed next.log append.tsn :=
    (once.memory append member).act (once.positive append member) act
  cases act with
  | move => exact ⟨once.distinct, once.positive, kept, fun _ => once.saved rfl⟩
  | send => exact once
  | save => exact ⟨once.distinct, once.positive, kept, fun _ => kept⟩
  | @append log tsn record number marker path lines positive _ found =>
    have new : tsn ∉ disk.appended.map Append.tsn := by
      intro member
      obtain ⟨append, inside, same⟩ := List.mem_map.mp member
      have committed := once.memory append inside
      rw [same] at committed
      exact committed.not_found found (by decide)
    constructor
    · simp only [Option.elim_some, Disk.apply, List.map_append, List.map_cons, List.map_nil]
      exact List.nodup_append.mpr ⟨once.distinct, List.nodup_singleton tsn, fun _ inside _ last same =>
        new (List.mem_singleton.mp last ▸ same ▸ inside)⟩
    · intro append member
      rcases List.mem_append.mp member with inside | last
      · exact once.positive append inside
      · rw [List.mem_singleton.mp last]
        exact positive
    · intro append member
      rcases List.mem_append.mp member with inside | last
      · exact kept append inside
      · rw [List.mem_singleton.mp last]
        exact ⟨_, number, mark_found log tsn record "COMMITTED" number⟩
    · intro saved
      cases saved

theorem Once.restart (once : Once before disk) (saved : before.unsaved = false) (same : ∀ tsn : Int, 1 ≤ tsn → log[tsn]? = disk.saved[tsn]?) :
    Once ⟨log, false⟩ disk := by
  have reloaded (append : Append) (member : append ∈ disk.appended) : Committed log append.tsn :=
    (once.saved saved append member).of_same (same append.tsn (once.positive append member))
  exact ⟨once.distinct, once.positive, reloaded, fun _ => once.saved saved⟩

end

/-- The last of the effects is an append. -/
def endsWithAppend (effects : List Effect) : Bool :=
  match effects.getLast? with
  | some (.append _ _ _) => true
  | _ => false

/-- Only an append leaves something unsaved, and nothing but its save follows. -/
theorem unsaved_after_append {granted : Scope} {first last : State} {effects : List Effect}
    (run : Acts (Act granted) first effects last) (unsaved : last.unsaved = true) :
    (effects = [] ∧ first.unsaved = true) ∨ endsWithAppend effects = true := by
  induction run with
  | done => exact Or.inl ⟨rfl, unsaved⟩
  | silent step _ ih =>
    rcases ih unsaved with ⟨_, still⟩ | ends
    · cases step
      cases still
    · exact Or.inr ends
  | @effect first middle last effect effects step _ ih =>
    rcases ih unsaved with ⟨rfl, still⟩ | ends
    · cases step with
      | send => cases still
      | save => cases still
      | append => exact Or.inr rfl
    · cases effects with
      | nil => cases ends
      | cons later effects =>
        unfold endsWithAppend at ends ⊢
        rw [List.getLast?_cons_cons]
        exact Or.inr ends

section
variable {π : Type} {answer : Answer π} {fuel : Nat} {process next : Process π}

/-- A crash does not come right after an append. -/
def SavesItsAppend (answer : Answer π) (fuel : Nat) (process : Process π) : Process.Event π → Prop
  | .event _ => True
  | .crash during done _ => endsWithAppend ((Process.reached answer fuel process.server (Process.onDisk process.disk during)).take done) = false

theorem step_once {event : Process.Event π} (once : Once ⟨process.server.log, false⟩ process.disk) (addressed : AddressedProcess event)
    (saves : SavesItsAppend answer fuel process event) (stepped : Process.step answer fuel process event = .ok next) :
    Once ⟨next.server.log, false⟩ next.disk := by
  obtain ⟨effects, performed⟩ := step_performs stepped
  cases event with
  | event event =>
    obtain ⟨run, disk⟩ := perform_completes addressed performed
    rw [disk]
    exact run.preserves (fun _ _ _ _ once act => once.act act) once
  | crash during done restart =>
    obtain ⟨⟨state, run⟩, disk, loaded⟩ := perform_crashes addressed performed
    have reached : Once state next.disk := by
      rw [disk]
      exact run.preserves (fun _ _ _ _ once act => once.act act) once
    refine reached.restart ?_ loaded
    cases left : state.unsaved with
    | false => rfl
    | true =>
      rcases unsaved_after_append run left with ⟨_, absurd⟩ | ends
      · cases absurd
      · cases performed
        rw [saves] at ends
        cases ends

/-- In every run of packets about transactions, sweeps, saves, ticks, crashes and
restarts, on any saved log, no transaction is appended twice, if no crash comes
between an append and the save of its commit. -/
theorem transactions_are_appended_once {restart : Restart π} {saved : Log} {existing : Text → Option Text} {room : List Bool}
    {events : List (Process.Event π)} {final : Process π} (addressed : Along (Process.step answer fuel) (fun _ event => AddressedProcess event)
      (Process.start restart { saved, existing, room }) events)
    (saves : Along (Process.step answer fuel) (SavesItsAppend answer fuel) (Process.start restart { saved, existing, room }) events)
    (ran : events.foldlM (Process.step answer fuel) (Process.start restart { saved, existing, room }) = .ok final) :
    (final.disk.appended.map Append.tsn).Nodup := by
  have once : Once ⟨final.server.log, false⟩ final.disk := by
    refine run_preserves (fun process => Once ⟨process.server.log, false⟩ process.disk) ?_ (addressed.and saves) ?_ ran
    · intro process event next once allowed stepped
      exact step_once once allowed.1 allowed.2 stepped
    · refine ⟨List.nodup_nil, ?_, ?_, fun _ => ?_⟩ <;> intro append member <;> cases member
  exact once.distinct

end

open Completeness

/-- A crash after so many effects of the commit, and the commit again. -/
def recommitted (done : Nat) : List (Process.Event Unit) :=
  [.event createFive, .event writeFive, .crash commitFive done alone, .event commitFive]

theorem saved_writing_is_appended_once : ∃ final, (recommitted 1).foldlM (Process.step Backup.noPeer 2) (fresh alone fun _ => none) = .ok final ∧
    final.disk.appended.map Append.tsn = [5] ∧ (final.disk.appended.map Append.tsn).Nodup := by
  have appended : ((recommitted 1).foldlM (Process.step Backup.noPeer 2) (fresh alone fun _ => none)).map
      (fun final => final.disk.appended.map Append.tsn) = .ok [5] := by decide +kernel
  obtain ⟨final, ran⟩ : ∃ final, (recommitted 1).foldlM (Process.step Backup.noPeer 2) (fresh alone fun _ => none) = .ok final :=
    returned_of_isOk (by decide +kernel)
  rw [ran] at appended
  refine ⟨final, ran, Except.ok.inj appended, transactions_are_appended_once ?_ ?_ ran⟩
  · exact ⟨createFive_addressed, fun _ _ => ⟨writeFive_addressed, fun _ _ => ⟨commitFive_addressed, fun _ _ =>
      ⟨commitFive_addressed, fun _ _ => trivial⟩⟩⟩⟩
  · refine ⟨trivial, fun created here => ⟨trivial, fun written there => ⟨?_, fun _ _ => ⟨trivial, fun _ _ => trivial⟩⟩⟩⟩
    have cut : ([Process.Event.event createFive, .event writeFive].foldlM (Process.step Backup.noPeer 2) (fresh alone fun _ => none)).map
        (fun process => endsWithAppend ((Process.reached Backup.noPeer 2 process.server (Process.onDisk process.disk commitFive)).take 1)) =
        .ok false := by decide +kernel
    have first : Process.step Backup.noPeer 2 (fresh alone fun _ => none) (.event createFive) = .ok created := here
    rw [List.foldlM_cons, first, ok_bind, List.foldlM_cons, there, ok_bind] at cut
    exact Except.ok.inj cut

/-- A crash between the append and its save, and the commit again: the lines are
in the file twice. -/
theorem crash_after_the_append_appends_again : ∃ final,
    (recommitted 2).foldlM (Process.step Backup.noPeer 2) (fresh alone fun _ => none) = .ok final ∧
      ¬ (final.disk.appended.map Append.tsn).Nodup := by
  have appended : ((recommitted 2).foldlM (Process.step Backup.noPeer 2) (fresh alone fun _ => none)).map
      (fun final => final.disk.appended.map Append.tsn) = .ok [5, 5] := by decide +kernel
  obtain ⟨final, ran⟩ : ∃ final, (recommitted 2).foldlM (Process.step Backup.noPeer 2) (fresh alone fun _ => none) = .ok final :=
    returned_of_isOk (by decide +kernel)
  rw [ran] at appended
  have twice : final.disk.appended.map Append.tsn = [5, 5] := Except.ok.inj appended
  refine ⟨final, ran, ?_⟩
  rw [twice]
  decide

end TransactionalServer.Proofs.AtMostOnce
