import TransactionalServer.Proofs.Completeness
import TransactionalServer.Proofs.Reserved
import TransactionalServer.Library.Safety

/-! What the lookups of a handler rely on: every record has the entries that its
status promises, and record 0 and the registration are as the server made them. -/

namespace TransactionalServer.Proofs.Stored
open ServerTools LogHandler Exec Session Reserved ReplicationManager

/-- A record without gaps in what its status promises, whose headers an answer
can repeat. -/
structure Ready (record : Record) : Prop where
  sound : Completeness.SoundRecord record
  headers : ∀ (seq : Int) entry, 1 ≤ seq → record[seq]? = some entry → Answerable entry.1

/-- What a saved log holds. Record 0 is made anew by every start. -/
structure Saved (log : Log) : Prop where
  backup : log[(-1 : Int)]? = none ∨ ∃ ip port, log[(-1 : Int)]? = some (registration ip port)
  named : ∀ (tsn : Int) record, log[tsn]? = some record → IsInt tsn
  others : ∀ (tsn : Int) record, tsn ≠ 0 → tsn ≠ -1 → log[tsn]? = some record → Ready record

/-- What the log of a running server holds. -/
structure Held (log : Log) : Prop extends Saved log where
  server : ∃ role dir ip port : Text, (role = "primary" ∨ role = "backup") ∧ log[(0 : Int)]? = some (twoEntries (role, dir) (ip, port))

section
variable {record : Record} {seq : Int}

theorem fresh_ready (data : Text) : Ready (freshRecord data) := by
  refine ⟨Completeness.fresh_sound data, ?_⟩
  intro seq entry high inRecord
  rw [freshRecord_eq, twoEntries_other (by omega) (by omega)] at inRecord
  cases inRecord

theorem Ready.write (ready : Ready record) (high : 1 ≤ seq) {header data : Text} (answerable : Answerable header) :
    Ready (record.insert seq (header, data)) := by
  refine ⟨ready.sound.write high _, ?_⟩
  intro other entry positive inRecord
  by_cases same : other = seq
  · rw [same, Std.ExtTreeMap.getElem?_insert_self, Option.some.injEq] at inRecord
    exact inRecord ▸ answerable
  · rw [Store.get_insert_other same] at inRecord
    exact ready.headers other entry positive inRecord

theorem Ready.mark (ready : Ready record) {status number : Text}
    (complete : status = "WRITING" ∨ status = "COMMITTED" → 1 ≤ atoi number ∧ ∀ seq : Int, 1 ≤ seq → seq ≤ atoi number → seq ∈ record) :
    Ready (record.insert (-1) (status, number)) := by
  refine ⟨ready.sound.mark complete, ?_⟩
  intro other entry positive inRecord
  rw [Store.get_insert_other (by omega)] at inRecord
  exact ready.headers other entry positive inRecord

theorem Ready.age (ready : Ready record) (marker path : Text) : Ready (record.insert 0 (marker, path)) := by
  refine ⟨ready.sound.age marker path, ?_⟩
  intro other entry positive inRecord
  rw [Store.get_insert_other (by omega)] at inRecord
  exact ready.headers other entry positive inRecord

/-- A commit marks a record that lacks nothing. -/
theorem Ready.writing (ready : Ready record) (range : IsInt seq) (high : 1 ≤ seq) (complete : missing record seq = []) :
    1 ≤ atoi (iToS seq) ∧ ∀ number : Int, 1 ≤ number → number ≤ atoi (iToS seq) → number ∈ record := by
  rw [atoi_iToS range]
  refine ⟨high, ?_⟩
  intro number from1 below
  exact mem_of_complete ready.sound.whole.low complete from1 below

end

section
variable {log : Log} {tsn : Int} {record : Record} {status number : Text}

theorem saved_empty : Saved ∅ := by
  have nothing (tsn : Int) : (∅ : Log)[tsn]? = none := Std.ExtTreeMap.getElem?_empty
  refine ⟨Or.inl (nothing _), ?_, ?_⟩
  · intro tsn record inLog
    rw [nothing] at inLog
    cases inLog
  · intro tsn record _ _ inLog
    rw [nothing] at inLog
    cases inLog

theorem Saved.not_found (saved : Saved log) : ¬ Found log (-1) record status number := by
  intro found
  rcases saved.backup with absent | ⟨ip, port, inLog⟩
  · rw [found.inLog] at absent
    cases absent
  · obtain rfl := Option.some.inj (found.inLog.symm.trans inLog)
    have entry := found.entry
    rw [registration_status] at entry
    cases entry

theorem Saved.found (saved : Saved log) (found : Found log tsn record status number) (notServer : tsn ≠ 0) : Ready record := by
  apply saved.others tsn record notServer ?_ found.inLog
  rintro rfl
  exact saved.not_found found

theorem Held.role (held : Held log) : ∃ role : Text, (role = "primary" ∨ role = "backup") ∧ getServerStatus log = .ok role := by
  obtain ⟨role, dir, ip, port, either, inLog⟩ := held.server
  have found : Found log 0 (twoEntries (role, dir) (ip, port)) role dir := ⟨inLog, twoEntries_status _ _⟩
  exact ⟨role, either, found.getStatus⟩

theorem Held.roled (held : Held log) : ∃ role, getServerStatus log = .ok role := by
  obtain ⟨role, _, read⟩ := held.role
  exact ⟨role, read⟩

theorem Held.formed (held : Held log) (ordinary : tsn = -1 → log[(-1 : Int)]? = none) : Formed log tsn := by
  intro record inLog
  by_cases server : tsn = 0
  · subst server
    obtain ⟨role, dir, ip, port, _, same⟩ := held.server
    obtain rfl := Option.some.inj (inLog.symm.trans same)
    exact (twoEntries_whole _ _).formed
  · by_cases backup : tsn = -1
    · subst backup
      rw [ordinary rfl] at inLog
      cases inLog
    · exact (held.others tsn record server backup inLog).sound.whole.formed

/-- A change of one record that belongs to a transaction. -/
theorem Held.of_frame {after : Log} (held : Held log) (range : IsInt tsn) (notServer : tsn ≠ 0) (notBackup : tsn ≠ -1)
    (frame : ∀ other, other ≠ tsn → after[other]? = log[other]?) (ready : ∀ record, after[tsn]? = some record → Ready record) : Held after := by
  refine ⟨⟨?_, ?_, ?_⟩, ?_⟩
  · rw [frame (-1) (Ne.symm notBackup)]
    exact held.backup
  · intro other record inLog
    by_cases here : other = tsn
    · exact here ▸ range
    · rw [frame other here] at inLog
      exact held.named other record inLog
  · intro other record server backup inLog
    by_cases here : other = tsn
    · exact ready record (here ▸ inLog)
    · rw [frame other here] at inLog
      exact held.others other record server backup inLog
  · rw [frame 0 (Ne.symm notServer)]
    exact held.server

theorem Held.insert (held : Held log) (range : IsInt tsn) (notServer : tsn ≠ 0) (notBackup : tsn ≠ -1) (ready : Ready record) :
    Held (log.insert tsn record) := by
  apply held.of_frame range notServer notBackup (fun other differs => Store.get_insert_other differs)
  intro found inLog
  rw [Std.ExtTreeMap.getElem?_insert_self, Option.some.injEq] at inLog
  exact inLog ▸ ready

theorem Held.erase (held : Held log) (range : IsInt tsn) (notServer : tsn ≠ 0) (notBackup : tsn ≠ -1) : Held (log.erase tsn) := by
  apply held.of_frame range notServer notBackup (fun other differs => Store.get_erase_other differs)
  intro found inLog
  rw [Std.ExtTreeMap.getElem?_erase_self] at inLog
  cases inLog

theorem Held.kept {after : Log} (held : Held log) (kept : LogKept log after) : Held after := by
  rcases kept with rfl | rfl
  · exact held
  refine ⟨⟨Or.inl Std.ExtTreeMap.getElem?_erase_self, ?_, ?_⟩, ?_⟩
  · intro other record inLog
    by_cases backup : other = -1
    · rw [backup]
      decide
    · rw [Store.get_erase_other backup] at inLog
      exact held.named other record inLog
  · intro other record server backup inLog
    rw [Store.get_erase_other backup] at inLog
    exact held.others other record server backup inLog
  · rw [Store.get_erase_other (by decide)]
    exact held.server

/-- A start takes over a saved log. -/
theorem Saved.serverData (saved : Saved log) {role : Text} (either : role = "primary" ∨ role = "backup") (ip port dir : Text) :
    Held (LogHandler.serverData log ip port role dir) := by
  rw [serverData_eq]
  refine ⟨⟨?_, ?_, ?_⟩, ⟨role, dir, ip, port, either, Std.ExtTreeMap.getElem?_insert_self⟩⟩
  · rw [Store.get_insert_other (by decide), Store.get_erase_other (by decide)]
    exact saved.backup
  · intro other record inLog
    by_cases server : other = 0
    · rw [server]
      decide
    · rw [Store.get_insert_other server, Store.get_erase_other server] at inLog
      exact saved.named other record inLog
  · intro other record server backup inLog
    rw [Store.get_insert_other server, Store.get_erase_other server] at inLog
    exact saved.others other record server backup inLog

end

/-- Every log that is saved meanwhile holds what a saved log must. -/
def Saves (effects : List Effect) : Prop := ∀ log, Effect.save log ∈ effects → Saved log

theorem saves_nil : Saves [] := fun _ member => absurd member List.not_mem_nil

theorem Saves.append {first second : List Effect} (one : Saves first) (two : Saves second) : Saves (first ++ second) := by
  intro log member
  exact (List.mem_append.mp member).elim (one log) (two log)

theorem saves_packets {effects : List Effect} (packets : ∀ effect ∈ effects, ∃ packet, effect = .send packet) : Saves effects := by
  intro log member
  obtain ⟨packet, same⟩ := packets _ member
  cases same

theorem saves_send (packet : Text) : Saves [.send packet] := saves_packets (by simp)

theorem saves_save {log : Log} (saved : Saved log) : Saves [.save log] := by
  intro other member
  cases List.mem_singleton.mp member
  exact saved

theorem saves_append (tsn : Int) (path : Text) (lines : List Text) : Saves [.append tsn path lines] := by
  intro other member
  cases List.mem_singleton.mp member

section
variable {log : Log} {header data : Text} {io : Bool} {out : Outcome}

theorem Held.commits (held : Held log) (commits : Commits log header io out) (ordinary : 1 ≤ getSeq header → getTsn header ≠ 0) :
    Held out.log ∧ Saves out.effects := by
  have range := getSeq_isInt header
  have marked {record : Record} {status number next : Text} (found : Found log (getTsn header) record status number)
      (high : 1 ≤ getSeq header) (complete : next = "WRITING" ∨ next = "COMMITTED" → missing record (getSeq header) = []) :
      Held (mark log (getTsn header) record next (iToS (getSeq header))) := by
    have ready := held.found found (ordinary high)
    refine held.insert (getTsn_isInt header) (ordinary high) ?_ (ready.mark (fun settled => ready.writing range high (complete settled)))
    exact fun backup => held.not_found (backup ▸ found)
  cases commits with
  | absent | already | expired | otherNumber | nothing => exact ⟨held, saves_nil⟩
  | incomplete found _ high _ same =>
    subst same
    have waiting := @marked _ _ _ "WAITING" found high (fun settled => absurd settled (by decide))
    exact ⟨waiting, saves_save waiting.toSaved⟩
  | primary found _ high complete same =>
    subst same
    have writing := @marked _ _ _ "WRITING" found high (fun _ => complete)
    exact ⟨writing, saves_save writing.toSaved⟩
  | written found _ high complete same _ _ _ finished =>
    subst same finished
    have writing := @marked _ _ _ "WRITING" found high (fun _ => complete)
    have committed := @marked _ _ _ "COMMITTED" found high (fun _ => complete)
    exact ⟨committed, (saves_save writing.toSaved).append ((saves_append _ _ _).append (saves_save committed.toSaved))⟩
  | failed found _ high complete same _ _ _ _ finished =>
    subst same finished
    have writing := @marked _ _ _ "WRITING" found high (fun _ => complete)
    have waiting := @marked _ _ _ "WAITING" found high (fun settled => absurd settled (by decide))
    exact ⟨waiting, (saves_save writing.toSaved).append (saves_save waiting.toSaved)⟩

theorem Held.adds (held : Held log) (adds : Adds log header data io out) (answerable : Answerable header)
    (ordinary : 1 ≤ getSeq header → getTsn header ≠ 0) : Held out.log ∧ Saves out.effects := by
  have written {record : Record} {status number : Text} (found : Found log (getTsn header) record status number) (high : 1 ≤ getSeq header) :
      Ready (record.insert (getSeq header) (header, data)) := (held.found found (ordinary high)).write high answerable
  have other {record : Record} {status number : Text} (found : Found log (getTsn header) record status number) : getTsn header ≠ -1 :=
    fun backup => held.not_found (backup ▸ found)
  cases adds with
  | low | absent | committed | expired | duplicate | above => exact ⟨held, saves_nil⟩
  | kept high found _ _ grows =>
    subst grows
    exact ⟨held.insert (getTsn_isInt header) (ordinary high) (other found) (written found high), saves_nil⟩
  | completes high found _ _ grows _ commits =>
    subst grows
    apply (held.insert (getTsn_isInt header) (ordinary high) (other found) (written found high)).commits commits
    rw [pendingCommit_getTsn (getTsn_isInt header)]
    exact fun _ => ordinary high
  | @added record grown status number high found _ _ _ _ grows =>
    subst grows
    have active : Ready ((record.insert (getSeq header) (header, data)).insert (-1) ("ACTIVE", number)) :=
      (written found high).mark (fun settled => absurd settled (by decide))
    exact ⟨held.insert (getTsn_isInt header) (ordinary high) (other found) active, saves_nil⟩

theorem Held.aborts (held : Held log) (aborts : Aborts log header out) (ordinary : getTsn header ≠ 0) : Held out.log ∧ Saves out.effects := by
  cases aborts with
  | absent | committed | expired => exact ⟨held, saves_nil⟩
  | erased found => exact ⟨held.erase (getTsn_isInt header) ordinary (fun backup => held.not_found (backup ▸ found)), saves_nil⟩

theorem Held.present (held : Held log) : log[(0 : Int)]? ≠ none := by
  obtain ⟨_, _, _, _, _, inLog⟩ := held.server
  rw [inLog]
  exact Option.some_ne_none _

/-- A new record under an id that is not reserved. -/
theorem Held.create (held : Held log) {tsn : Int} (range : IsInt tsn) (absent : log[tsn]? = none) (notBackup : tsn ≠ -1) (data : Text) :
    Held (log.insert tsn (freshRecord data)) := by
  refine held.insert range ?_ notBackup (fresh_ready data)
  rintro rfl
  exact held.present absent

theorem Held.makeTxn (held : Held log) {tsn : Int} (range : IsInt tsn) (ordinary : tsn = -1 → log[(-1 : Int)]? ≠ none) (data : Text) {made : Log}
    {effects : List Effect} {fresh : Bool} (makes : LogHandler.makeTxn log data tsn = (made, effects, fresh)) : Held made ∧ Saves effects := by
  rcases makeTxn_cases makes with ⟨absent, rfl, rfl⟩ | ⟨_, rfl, rfl⟩
  · have created := held.create range absent (fun backup => ordinary backup (backup ▸ absent)) data
    exact ⟨created, saves_save created.toSaved⟩
  · exact ⟨held, saves_nil⟩

theorem Held.newTxn (held : Held log) {draws : List Int} (drawn : ∀ draw ∈ draws, 1 ≤ draw ∧ draw ≤ 100000) {created : Log}
    {effects : List Effect} {tsn : Int} (creates : LogHandler.newTxn log data draws = .ok (created, effects, tsn)) : Held created ∧ Saves effects := by
  rcases newTxn_cases creates with ⟨rfl, rfl, _⟩ | ⟨_, chosen, absent, rfl, rfl⟩
  · exact ⟨held, saves_nil⟩
  · obtain ⟨low, high⟩ := drawn tsn chosen
    have created := held.create ⟨by omega, by omega⟩ absent (by omega) data
    exact ⟨created, saves_save created.toSaved⟩

theorem Held.register (held : Held log) {registered : Log} (registers : Session.register log data = .ok registered) : Held registered := by
  unfold Session.register at registers
  split at registers
  next unregistered =>
    have absent : log[(-1 : Int)]? = none := by
      have missing : backupRegistered log = false := by simpa using unregistered
      exact Std.ExtTreeMap.getElem?_eq_none_of_contains_eq_false missing
    unfold backupServerData at registers
    split at registers
    next ip port _ _ =>
      cases registers
      refine ⟨⟨Or.inr ⟨ip, port, ?_⟩, ?_, ?_⟩, ?_⟩
      · rw [Std.ExtTreeMap.getElem?_insert_self, absent]
        rfl
      · intro other record inLog
        by_cases backup : other = -1
        · rw [backup]
          decide
        · rw [Store.get_insert_other backup] at inLog
          exact held.named other record inLog
      · intro other record server backup inLog
        rw [Store.get_insert_other backup] at inLog
        exact held.others other record server backup inLog
      · rw [Store.get_insert_other (by decide)]
        exact held.server
    next => cases registers
  next =>
    cases registers
    exact held

/-- One turn of the sweep leaves the reserved records alone. -/
theorem Held.sweeps {after : Log} {key : Int} {erased : Bool} (held : Held log) (sweeps : Sweeps log key after erased) : Held after := by
  have notServer {record : Record} {status number : Text} (found : Found log key record status number) (notKept : ¬ Kept status) : key ≠ 0 := by
    rintro rfl
    obtain ⟨role, dir, ip, port, either, inLog⟩ := held.server
    obtain ⟨_, rfl, _⟩ := found_unique found ⟨inLog, twoEntries_status (role, dir) (ip, port)⟩
    apply notKept
    rcases either with primary | backup
    · exact Or.inr (Or.inr (Or.inr primary))
    · exact Or.inr (Or.inr (Or.inl backup))
  cases sweeps with
  | absent | low | bare | kept => exact held
  | @marked record status number high found notKept =>
    have server := notServer found notKept
    have unsettled : ¬ (aged status = "WRITING" ∨ aged status = "COMMITTED") := by
      unfold aged
      split
      · decide
      · decide
    exact held.insert (held.named _ _ found.inLog) server (by omega) ((held.found found server).mark (fun settled => absurd settled unsettled))
  | removed high found => exact held.erase (held.named _ _ found.inLog) (notServer found (by decide)) (by omega)
  | waits high found =>
    have server := notServer found (by decide)
    exact held.insert (held.named _ _ found.inLog) server (by omega) ((held.found found server).age _ _)
  | dropped high found => exact held.erase (held.named _ _ found.inLog) (notServer found (by decide)) (by omega)

end

end TransactionalServer.Proofs.Stored
