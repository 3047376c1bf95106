import TransactionalServer.Backup
import TransactionalServer.Proofs.Roles
import TransactionalServer.Proofs.Completion

/-! A transaction in writing or committed has every entry up to its number,
in memory and in the saved log, whatever the server handles and whenever it crashes. -/

namespace TransactionalServer.Proofs.Completeness
open ServerTools LogHandler Exec Session Ledger Traces ReplicationManager

/-- The record has the entries that its status and number promise. -/
structure SoundRecord (record : Record) : Prop where
  whole : WholeRecord record
  complete : ∀ status number, record[(-1 : Int)]? = some (status, number) → status = "WRITING" ∨ status = "COMMITTED" →
    1 ≤ atoi number ∧ ∀ seq : Int, 1 ≤ seq → seq ≤ atoi number → seq ∈ record

def Sound (log : Log) : Prop := ∀ (tsn : Int) (record : Record), 1 ≤ tsn → log[tsn]? = some record → SoundRecord record

section
variable {log after : Log} {tsn seq : Int} {record changed : Record} {status number : Text}

theorem sound_empty : Sound ∅ := by
  intro tsn record _ inLog
  rw [Std.ExtTreeMap.getElem?_empty] at inLog
  cases inLog

theorem Sound.found (sound : Sound log) (positive : 1 ≤ tsn) (found : Found log tsn record status number) : SoundRecord record :=
  sound tsn record positive found.inLog

theorem Sound.of_transactions (sound : Sound log) (same : ∀ tsn : Int, 1 ≤ tsn → after[tsn]? = log[tsn]?) : Sound after := by
  intro tsn record positive inLog
  rw [same tsn positive] at inLog
  exact sound tsn record positive inLog

theorem Sound.insert (sound : Sound log) (soundRecord : SoundRecord changed) : Sound (log.insert tsn changed) := by
  intro other record positive inLog
  by_cases here : other = tsn
  · rw [here, Std.ExtTreeMap.getElem?_insert_self, Option.some.injEq] at inLog
    exact inLog ▸ soundRecord
  · rw [Store.get_insert_other here] at inLog
    exact sound other record positive inLog

theorem Sound.erase (sound : Sound log) (tsn : Int) : Sound (log.erase tsn) := by
  intro other record positive inLog
  by_cases here : other = tsn
  · rw [here, Std.ExtTreeMap.getElem?_erase_self] at inLog
    cases inLog
  · rw [Store.get_erase_other here] at inLog
    exact sound other record positive inLog

theorem SoundRecord.write (sound : SoundRecord record) (high : 1 ≤ seq) (entry : LogPair) : SoundRecord (record.insert seq entry) := by
  refine ⟨sound.whole.insert high entry, ?_⟩
  intro status number inRecord settled
  rw [Store.get_insert_other (by omega)] at inRecord
  obtain ⟨numbered, entries⟩ := sound.complete status number inRecord settled
  exact ⟨numbered, fun key from1 below => (mem_insert_iff entry).mpr (Or.inr (entries key from1 below))⟩

theorem SoundRecord.mark (sound : SoundRecord record)
    (complete : status = "WRITING" ∨ status = "COMMITTED" → 1 ≤ atoi number ∧ ∀ seq : Int, 1 ≤ seq → seq ≤ atoi number → seq ∈ record) :
    SoundRecord (record.insert (-1) (status, number)) := by
  refine ⟨sound.whole.mark status number, ?_⟩
  intro other digits inRecord settled
  rw [Std.ExtTreeMap.getElem?_insert_self, Option.some.injEq, Prod.mk.injEq] at inRecord
  obtain ⟨rfl, rfl⟩ := inRecord
  obtain ⟨numbered, entries⟩ := complete settled
  exact ⟨numbered, fun key from1 below => (mem_insert_iff _).mpr (Or.inr (entries key from1 below))⟩

theorem SoundRecord.age (sound : SoundRecord record) (marker path : Text) : SoundRecord (record.insert 0 (marker, path)) := by
  refine ⟨⟨?_, ⟨marker, path, Std.ExtTreeMap.getElem?_insert_self⟩, ?_⟩, ?_⟩
  · rw [Store.get_insert_other (by decide)]
    exact sound.whole.status
  · intro key member
    rcases (mem_insert_iff _).mp member with rfl | inside
    · decide
    · exact sound.whole.low key inside
  · intro status number inRecord settled
    rw [Store.get_insert_other (by decide)] at inRecord
    obtain ⟨numbered, entries⟩ := sound.complete status number inRecord settled
    exact ⟨numbered, fun key from1 below => (mem_insert_iff _).mpr (Or.inr (entries key from1 below))⟩

theorem fresh_sound (data : Text) : SoundRecord (freshRecord data) := by
  refine ⟨twoEntries_whole _ _, ?_⟩
  intro status number inRecord settled
  rw [freshRecord_eq, twoEntries_status, Option.some.injEq, Prod.mk.injEq] at inRecord
  obtain ⟨rfl, rfl⟩ := inRecord
  exact absurd settled (by decide)

theorem Sound.move {granted : Scope} (sound : Sound log) (move : Move granted log after) : Sound after := by
  cases move with
  | reserved same => exact sound.of_transactions same
  | create => exact sound.insert (fresh_sound _)
  | write entry positive found _ high => exact sound.insert ((sound.found positive found).write high entry)
  | mark next data positive found _ notDone complete =>
    refine sound.insert ((sound.found positive found).mark ?_)
    intro settled
    rcases settled with writing | committed
    · exact complete writing
    · exact absurd committed notDone
  | age next positive found => exact sound.insert ((sound.found positive found).age _ _)
  | remove => exact sound.erase _

/-- What one act of the ledger preserves. -/
theorem act_sound {granted : Scope} {before next : State} {label : Option Effect} {disk : Disk}
    (sound : Sound before.log ∧ Sound disk.saved) (act : Act granted before label next) :
    Sound next.log ∧ Sound (label.elim disk disk.apply).saved := by
  cases act with
  | move move => exact ⟨sound.1.move move, sound.2⟩
  | send => exact sound
  | save => exact ⟨sound.1, sound.1⟩
  | append positive _ found =>
    have inWriting := sound.1.found positive found
    refine ⟨sound.1.insert (inWriting.mark ?_), sound.2⟩
    intro _
    exact inWriting.complete _ _ found.entry (Or.inl rfl)

end

section
variable {π : Type} {answer : Answer π} {fuel : Nat}

/-- A server on a disk that holds no saved log. -/
def fresh (restart : Restart π) (existing : Text → Option Text) (room : List Bool := []) : Process π :=
  Process.start restart { saved := ∅, existing, room }

/-- The invariant of a process: its logs are sound and it has a role. -/
structure Steady (process : Process π) : Prop where
  memory : Sound process.server.log
  saved : Sound process.disk.saved
  role : Roled process.server.log

theorem fresh_steady (restart : Restart π) (existing : Text → Option Text) (room : List Bool) : Steady (fresh restart existing room) := by
  refine ⟨?_, sound_empty, start_roled restart _⟩
  exact sound_empty.of_transactions (start_transactions restart { saved := ∅, existing, room })

theorem perform_steady {process next : Process π} {event : Process.Event π} {effects : List Effect} (addressed : AddressedProcess event)
    (steady : Steady process) (ran : Process.perform answer fuel process event = .ok (next, effects)) : Steady next := by
  have logs := perform_preserves (fun state disk => Sound state.log ∧ Sound disk.saved)
    (fun _ _ _ _ sound act => act_sound sound act)
    (fun _ _ _ sound same => ⟨sound.2.of_transactions same, sound.2⟩) addressed ⟨steady.memory, steady.saved⟩ ran
  exact ⟨logs.1, logs.2, process_roled addressed steady.role ran⟩

end

section
variable {π : Type} {answer : Answer π} {fuel : Nat} {server : Server π} {tsn : Int} {record : Record} {status number : Text}

/-- The loop of a resend finds every entry it reads. -/
theorem resend_total (role : ∃ role, getServerStatus server.log = .ok role) (found : Found server.log tsn record status number)
    (positive : 0 ≤ atoi number) (entries : ∀ seq : Int, 1 ≤ seq → seq ≤ atoi number → seq ∈ record) :
    ∃ queued, resend server tsn = .ok queued := by
  have loop (seqs : List Int) (inside : ∀ seq ∈ seqs, seq ∈ record) (current : Server π) (same : current.log = server.log) :
      ∃ queued, seqs.foldlM (fun server seq => do
        enqueue server (← getHeader server.log tsn seq) (← getData server.log tsn seq)) current = Except.ok (ε := Halt) queued := by
    induction seqs generalizing current with
    | nil => exact ⟨current, rfl⟩
    | cons seq seqs ih =>
      obtain ⟨entry, inRecord⟩ := Store.mem_iff_get.mp (inside seq List.mem_cons_self)
      have read : pair current.log tsn seq = .ok entry := by
        rw [same]
        exact pair_eq_ok.mpr ⟨record, found.inLog, inRecord⟩
      obtain ⟨next, enqueued⟩ := enqueue_returns current (by rw [same]; exact role) entry.1 entry.2
      obtain ⟨queued, rest⟩ := ih (fun other member => inside other (List.mem_cons_of_mem _ member)) next ((enqueue_log enqueued).trans same)
      refine ⟨queued, ?_⟩
      rw [List.foldlM_cons]
      simp only [getHeader, getData, read, ok_bind, pure_eq_ok, enqueued]
      exact rest
  unfold resend
  rw [found.getStatusData, ok_bind, if_neg (by omega)]
  apply loop _ _ server rfl
  intro seq member
  have range := Int.mem_range_iff.mp member
  exact entries seq (by omega) (by omega)

/-- What the status of a transaction promises in a log: its number, its entries,
and that the loops over them end. -/
structure Complete (server : Server π) (tsn : Int) (record : Record) (number : Text) : Prop where
  numbered : 1 ≤ atoi number
  entries : ∀ seq : Int, seq = -1 ∨ seq = 0 ∨ (1 ≤ seq ∧ seq ≤ atoi number) → seq ∈ record
  written : ∀ io, ∃ written effects, writeFile server.log tsn io = .ok (written, effects)
  resent : ∃ queued, resend server tsn = .ok queued

theorem Steady.complete {process : Process π} (steady : Steady process) (positive : 1 ≤ tsn)
    (found : Found process.server.log tsn record status number) (settled : status = "WRITING" ∨ status = "COMMITTED") :
    Complete process.server tsn record number := by
  have sound := steady.memory.found positive found
  obtain ⟨numbered, entries⟩ := sound.complete status number found.entry settled
  refine ⟨numbered, ?_, ?_, resend_total steady.role.returns found (by omega) entries⟩
  · intro seq below
    rcases below with rfl | rfl | ⟨from1, below⟩
    · exact Store.mem_iff_get.mpr ⟨_, found.entry⟩
    · obtain ⟨marker, path, file⟩ := sound.whole.file
      exact Store.mem_iff_get.mpr ⟨_, file⟩
    · exact entries seq from1 below
  · intro io
    rcases @writeFile_ok _ _ _ io _ _ found sound.whole.formed (by omega) entries with ⟨_, path, lines, written⟩ | ⟨_, written⟩
    · exact ⟨_, _, written⟩
    · exact ⟨_, _, written⟩

/-- In every state that packets about transactions, sweeps, saves, ticks of the
manager, crashes and restarts lead to, a transaction in writing or committed has
a number and every entry up to it. -/
theorem settled_transactions_are_complete {restart : Restart π} {existing : Text → Option Text} {room : List Bool}
    {events : List (Process.Event π)} {final : Process π}
    (along : Along (Process.step answer fuel) (fun _ event => AddressedProcess event) (fresh restart existing room) events)
    (ran : events.foldlM (Process.step answer fuel) (fresh restart existing room) = .ok final) (positive : 1 ≤ tsn)
    (found : Found final.server.log tsn record status number) (settled : status = "WRITING" ∨ status = "COMMITTED") :
    Complete final.server tsn record number := by
  have steady : Steady final := by
    refine run_preserves Steady ?_ along (fresh_steady restart existing room) ran
    intro process event next steady addressed stepped
    obtain ⟨effects, performed⟩ := step_performs stepped
    exact perform_steady addressed steady performed
  exact steady.complete positive found settled

end

/-- A primary that has never run before and has no backup. -/
def alone : Restart Unit := { self := ⟨"ip", "80", "dir"⟩, primary := true, peer := () }

/-- A client creates transaction 5, writes its first line and commits it. -/
def createFive : System.Event := .packet { draws := [5] } false "NEW_TXN -1 0 3" (some "aa") (Eq.refl true) System.five_drawn

def writeFive : System.Event := .packet {} false "WRITE 5 1 3" (some "xx") (Eq.refl true) System.nothing_drawn

def commitFive : System.Event := .packet {} false "COMMIT 5 1 0" none (Eq.refl true) System.nothing_drawn

theorem createFive_addressed : AddressedEvent createFive := fun replicated => absurd replicated (by unfold Replicated; decide)

theorem writeFive_addressed : AddressedEvent writeFive := fun _ => by decide

theorem commitFive_addressed : AddressedEvent commitFive := fun _ => by decide

def committedRun : List (Process.Event Unit) := [.event createFive, .event writeFive, .event commitFive, .crash .save 0 alone]

theorem committed_and_reloaded_is_complete :
    ∃ final record number, committedRun.foldlM (Process.step Backup.noPeer 2) (fresh alone fun _ => none) = .ok final ∧
      Found final.server.log 5 record "COMMITTED" number ∧ Complete final.server 5 record number := by
  have status : (committedRun.foldlM (Process.step Backup.noPeer 2) (fresh alone fun _ => none)).map
      (fun final => getStatus final.server.log 5) = .ok (.ok "COMMITTED") := by decide +kernel
  obtain ⟨final, ran⟩ : ∃ final, committedRun.foldlM (Process.step Backup.noPeer 2) (fresh alone fun _ => none) = .ok final :=
    returned_of_isOk (by decide +kernel)
  rw [ran] at status
  obtain ⟨record, number, found⟩ := found_of_getStatus (Except.ok.inj status)
  refine ⟨final, record, number, ran, found, settled_transactions_are_complete ?_ ran (by decide) found (Or.inr rfl)⟩
  exact ⟨createFive_addressed, fun _ _ => ⟨writeFive_addressed, fun _ _ => ⟨commitFive_addressed, fun _ _ => ⟨trivial, fun _ _ => trivial⟩⟩⟩⟩

end TransactionalServer.Proofs.Completeness
