import TransactionalServer.Proofs.Completion
import TransactionalServer.Proofs.CommitDecision
import TransactionalServer.Proofs.Sockets

/-! What the packets that the retry of a commit sends make of the backup's record.
The writes up to the number repair every record except one with a gap above it. -/

namespace TransactionalServer.Proofs.Repairs
open ServerTools LogHandler Exec Session ReplicationManager CommitDecision Sockets PlainReplies

/-- The primary's record of a transaction that is being replicated: the file
name and the writes up to its number. -/
structure Committing (log : Log) (tsn seq : Int) (record : Record) : Prop where
  found : ∃ status number, Found log tsn record status number ∧ (status = "WRITING" ∨ status = "COMMITTED") ∧ atoi number = seq
  file : ∃ entry, record[(0 : Int)]? = some entry
  writes : ∀ number, 1 ≤ number → number ≤ seq → ∃ entry, record[number]? = some entry ∧ WriteOf tsn number entry.1

theorem Committing.read {log : Log} {tsn seq : Int} {record : Record} (committing : Committing log tsn seq record) {number : Int}
    (member : number ∈ Int.range 1 (seq + 1)) : ∃ entry, pair log tsn number = .ok entry ∧ WriteOf tsn number entry.1 := by
  have range := Int.mem_range_iff.mp member
  obtain ⟨entry, inRecord, write⟩ := committing.writes number range.1 (by omega)
  obtain ⟨_, _, found, _⟩ := committing.found
  exact ⟨entry, pair_eq_ok.mpr ⟨record, found.inLog, inRecord⟩, write⟩

/-- The packets of a resend are the writes of the transaction. -/
theorem Committing.packets {log : Log} {tsn seq : Int} {record : Record} (committing : Committing log tsn seq record)
    {packets : List (Text × Text)} (mapped : (Int.range 1 (seq + 1)).mapM (pair log tsn) = .ok packets) :
    List.Forall₂ (fun number packet => WriteOf tsn number packet.1) (Int.range 1 (seq + 1)) packets := by
  have both := (List.forall₂_and_left _ _).mpr ⟨fun number member => member, forall₂_of_mapM mapped⟩
  apply both.imp
  rintro number packet ⟨member, here⟩
  obtain ⟨entry, there, write⟩ := committing.read member
  rw [here, Except.ok.injEq] at there
  exact there ▸ write

/-- A COMMIT of `seq` passes every check of this record, which lacks a number
above `seq` and below another entry. -/
def Stuck (log : Log) (tsn seq : Int) : Prop :=
  ∃ record status number, Found log tsn record status number ∧ Open status number seq ∧ ¬ NoGapAbove record seq

/-- A backup that can answer any packet of the transaction. -/
structure Serves (log : Log) (tsn : Int) : Prop where
  backup : NotPrimary log
  role : ∃ role, getServerStatus log = .ok role
  whole : Whole log tsn

section
variable {log after : Log} {tsn seq number : Int} {header data : Text} {payload : Option Text}

theorem Serves.handled {io : Bool} (serves : Serves log tsn) (other : getTsn header ≠ 0) (handles : Handles log io header payload after)
    (backup : NotPrimary after) : Serves after tsn := by
  refine ⟨backup, ?_, handles.whole serves.whole⟩
  obtain ⟨role, read⟩ := serves.role
  exact ⟨role, by rw [getServerStatus_of_get (handles.frame (Ne.symm other)), read]⟩

/-- A write that reaches the backup is added or answered there. -/
theorem write_handled {io : Bool} (write : WriteOf tsn number header) (handles : Handles log io header (some data) after) :
    ∃ out, Adds log header data io out ∧ after = out.log := by
  cases handles with
  | made method =>
    rw [write.method] at method
    cases method
  | added _ adds => exact ⟨_, adds, rfl⟩
  | committed method =>
    rw [write.method] at method
    cases method
  | aborted method =>
    rw [write.method] at method
    cases method

theorem write_brings_nearer {remaining : List Int} (serves : Serves log tsn) (write : WriteOf tsn number header) (low : 1 ≤ number)
    (below : number ≤ seq) (towards : Towards log tsn seq (number :: remaining))
    (handles : Handles log true header (some data) after) : Towards after tsn seq remaining := by
  obtain ⟨out, adds, rfl⟩ := write_handled write handles
  obtain ⟨_, rfl, rfl⟩ := write
  cases write_nears towards low below adds with
  | answered towards => exact towards
  | filled towards => exact towards
  | completed waits _ finishes =>
    left
    cases finishes with
    | primary _ role => exact absurd role (adds.notPrimary serves.backup)
    | written _ _ _ finished =>
      subst finished
      exact ⟨_, _, mark_found _ _ _ _ _, atoi_iToS waits.range⟩
    | failed refused => cases refused

theorem write_of_mem {numbers : List Int} {packets : List (Text × Text)} {packet : Text × Text}
    (writes : List.Forall₂ (fun number packet => WriteOf tsn number packet.1) numbers packets) (member : packet ∈ packets) :
    ∃ number ∈ numbers, WriteOf tsn number packet.1 := by
  induction writes with
  | nil => cases member
  | cons write _ ih =>
    rcases List.mem_cons.mp member with rfl | later
    · exact ⟨_, List.mem_cons_self, write⟩
    · obtain ⟨number, inside, write⟩ := ih later
      exact ⟨number, List.mem_cons_of_mem _ inside, write⟩

/-- A write that is resent reaches the backup and is answered. -/
theorem write_returns {backup : Backup} (positive : 1 ≤ tsn) (serves : Serves backup.log tsn) (write : WriteOf tsn number header) (low : 1 ≤ number)
    (data : Text) : ∃ after text arrived, Backup.answer Backup.unchanged backup true header data = .ok ({ backup with log := after }, some text) ∧
      WriteOf tsn number arrived ∧ Handles backup.log true arrived (some data) after ∧ Serves after tsn := by
  have answerable : Answerable header := answerable_of_getSeq (write.seq ▸ low)
  have sameTsn : getTsn header = tsn := write.tsn
  have other : getTsn header ≠ 0 := by omega
  have replicated : Replicated header := Or.inr (Or.inr (Or.inl write.method))
  obtain ⟨next, reply, handled⟩ := answer_returns unchanged_honest serves.backup serves.role (write.tsn ▸ serves.whole) answerable
    other replicated data true
  obtain ⟨arrived, payload, log, text, sent, handles, rfl, rfl⟩ := answer_handles unchanged_honest serves.backup replicated handled
  obtain ⟨method, arrivedTsn, arrivedSeq, _, _⟩ := unchanged_honest.same _ _ _ _ sent
  have arrivedWrite : WriteOf tsn number arrived := ⟨method.trans write.method, arrivedTsn.trans sameTsn, arrivedSeq.trans write.seq⟩
  obtain rfl := unchanged_payload sent (by simp [needsData, write.method])
  exact ⟨log, text, arrived, handled, arrivedWrite, handles, serves.handled (arrivedTsn ▸ other) handles (answer_notPrimary serves.backup handled)⟩

/-- Delivering the writes of all numbers that the record lacks commits it. -/
theorem writes_commit {backup : Backup} {remaining : List Int} {packets : List (Text × Text)} (positive : 1 ≤ tsn)
    (serves : Serves backup.log tsn)
    (writes : List.Forall₂ (fun number packet => WriteOf tsn number packet.1) remaining packets)
    (range : ∀ number ∈ remaining, 1 ≤ number ∧ number ≤ seq) (towards : Towards backup.log tsn seq remaining) :
    ∃ settled, packets.foldlM (Backup.deliver Backup.unchanged) backup = .ok settled ∧ Serves settled.log tsn ∧
      CommittedWith settled.log tsn seq := by
  induction writes generalizing backup with
  | nil =>
    refine ⟨backup, rfl, serves, ?_⟩
    rcases towards with committed | ⟨record, _, gaps, asked⟩
    · exact committed
    · obtain ⟨number, rest, shape⟩ := List.exists_cons_of_ne_nil gaps
      exact absurd (asked number (by rw [shape]; exact List.mem_cons_self)) List.not_mem_nil
  | @cons number packet remaining packets write _ ih =>
    obtain ⟨header, data⟩ := packet
    obtain ⟨low, below⟩ := range number List.mem_cons_self
    obtain ⟨log, text, arrived, handled, arrivedWrite, handles, still⟩ := write_returns positive serves write low data
    obtain ⟨settled, delivered, rest⟩ := @ih { backup with log } still (fun number member => range number (List.mem_cons_of_mem _ member))
      (write_brings_nearer serves arrivedWrite low below towards handles)
    refine ⟨settled, ?_, rest⟩
    rw [List.foldlM_cons, Backup.deliver, handled]
    exact delivered

/-- The packets that a resend puts into the queue. -/
def Resent (tsn seq : Int) (packet : Text × Text) : Prop := ∃ number, 1 ≤ number ∧ number ≤ seq ∧ WriteOf tsn number packet.1

theorem writes_deliver {backup : Backup} {packets : List (Text × Text)} (positive : 1 ≤ tsn) (serves : Serves backup.log tsn)
    (writes : ∀ packet ∈ packets, Resent tsn seq packet) :
    ∃ after, packets.foldlM (Backup.deliver Backup.unchanged) backup = .ok after ∧ Serves after.log tsn := by
  induction packets generalizing backup with
  | nil => exact ⟨backup, rfl, serves⟩
  | cons packet packets ih =>
    obtain ⟨header, data⟩ := packet
    obtain ⟨number, low, _, write⟩ := writes _ List.mem_cons_self
    obtain ⟨log, text, arrived, handled, _, _, still⟩ := write_returns positive serves write low data
    obtain ⟨after, delivered, last⟩ := @ih { backup with log } still (fun other member => writes other (List.mem_cons_of_mem _ member))
    refine ⟨after, ?_, last⟩
    rw [List.foldlM_cons, Backup.deliver, handled]
    exact delivered

end

/-- The backup has the record, and no packet that the retry sends changes the
answer to its COMMIT any more. -/
def Closed (log : Log) (tsn seq : Int) : Prop :=
  ∃ record status number, Found log tsn record status number ∧ ¬ Open status number seq

/-- A record that the writes up to the number make complete. -/
def Repairable (log : Log) (tsn seq : Int) : Prop :=
  ∃ record status number, Found log tsn record status number ∧ Open status number seq ∧ NoGapAbove record seq

section
variable {log after : Log} {tsn seq number : Int} {header data word code : Text}

theorem closed_of_committed (committed : CommittedWith log tsn seq) : Closed log tsn seq := by
  obtain ⟨record, number, found, _⟩ := committed
  exact ⟨record, _, _, found, fun allowed => allowed.committed rfl⟩

theorem Closed.present (closed : Closed log tsn seq) : log[tsn]? ≠ none := by
  obtain ⟨record, _, _, found, _⟩ := closed
  rw [found.inLog]
  exact Option.some_ne_none _

theorem Repairable.present (repairable : Repairable log tsn seq) : log[tsn]? ≠ none := by
  obtain ⟨record, _, _, found, _⟩ := repairable
  rw [found.inLog]
  exact Option.some_ne_none _

/-- A record that is there is closed, repairable or stuck. -/
theorem phases (serves : Serves log tsn) (present : log[tsn]? ≠ none) (repairable : ¬ Stuck log tsn seq) : Closed log tsn seq ∨ Repairable log tsn seq := by
  obtain ⟨record, inLog⟩ := Option.ne_none_iff_exists'.mp present
  obtain ⟨status, number, found⟩ := Formed.found serves.whole.formed inLog
  by_cases allowed : Open status number seq
  · by_cases dense : NoGapAbove record seq
    · exact Or.inr ⟨record, status, number, found, allowed, dense⟩
    · exact absurd ⟨record, status, number, found, allowed, dense⟩ repairable
  · exact Or.inl ⟨record, status, number, found, allowed⟩

theorem fresh_repairable (high : 1 ≤ seq) (inLog : log[tsn]? = some (freshRecord data)) : Repairable log tsn seq := by
  have found : Found log tsn (freshRecord data) "ACTIVE" "0" := ⟨inLog, by rw [freshRecord_eq]; exact twoEntries_status _ _⟩
  refine ⟨freshRecord data, _, _, found, ⟨by decide, by decide, fun waiting => absurd waiting (by decide)⟩, ?_⟩
  intro number key above before member
  rcases mem_twoEntries member with rfl | rfl
  · omega
  · omega

theorem noGapAbove_insert {record : Record} (dense : NoGapAbove record seq) (below : number ≤ seq) (entry : LogPair) :
    NoGapAbove (record.insert number entry) seq := by
  intro wanted key above before member
  refine (mem_insert_iff entry).mpr (Or.inr (dense wanted key above before ?_))
  exact ((mem_insert_iff entry).mp member).resolve_left (by omega)

/-- What a write up to the number makes of a record in either phase. -/
theorem write_phases (serves : Serves log tsn) (write : WriteOf tsn number header) (low : 1 ≤ number) (below : number ≤ seq)
    (handles : Handles log true header (some data) after) :
    (Closed log tsn seq → Closed after tsn seq) ∧ (Repairable log tsn seq → Closed after tsn seq ∨ Repairable after tsn seq) := by
  obtain ⟨out, adds, rfl⟩ := write_handled write handles
  obtain ⟨_, rfl, rfl⟩ := write
  cases id adds with
  | low | absent | committed | expired | duplicate | above => exact ⟨id, Or.inr⟩
  | @kept record grown digits _ found _ _ grows =>
    subst grows
    have grown := found.grow low (header, data)
    constructor
    · rintro ⟨other, status, text, there, closed⟩
      obtain ⟨rfl, rfl, rfl⟩ := found_unique there found
      exact ⟨_, _, _, grown, closed⟩
    · rintro ⟨other, status, text, there, allowed, dense⟩
      obtain ⟨rfl, rfl, rfl⟩ := found_unique there found
      exact Or.inr ⟨_, _, _, grown, allowed, noGapAbove_insert dense below _⟩
  | @completes record grown digits _ _ found fresh limit grows complete commits =>
    subst grows
    have committed : CommittedWith out.log (getTsn header) (atoi digits) := by
      have waits : Waits (log.insert (getTsn header) (record.insert (getSeq header) (header, data))) (getTsn header) (atoi digits)
          (record.insert (getSeq header) (header, data)) :=
        ⟨⟨digits, found.grow low _, rfl⟩, (serves.whole record found.inLog).insert low _⟩
      cases pending_finishes waits (getTsn_isInt header) (by omega) complete commits with
      | primary _ role => exact absurd role (adds.notPrimary serves.backup)
      | written _ _ _ finished =>
        subst finished
        exact ⟨_, _, mark_found _ _ _ _ _, atoi_iToS (atoi_isInt digits)⟩
      | failed refused => cases refused
    obtain ⟨record, number, found, _⟩ := committed
    have closed : Closed out.log (getTsn header) seq := ⟨record, _, _, found, fun allowed => allowed.committed rfl⟩
    exact ⟨fun _ => closed, fun _ => Or.inl closed⟩
  | @added record grown status digits _ found notCommitted notExpired notWaiting _ grows =>
    subst grows
    have grown := mark_found log (getTsn header) (record.insert (getSeq header) (header, data)) "ACTIVE" digits
    constructor
    · rintro ⟨other, _, _, there, closed⟩
      obtain ⟨rfl, rfl, rfl⟩ := found_unique there found
      exact absurd ⟨notCommitted, notExpired, fun waiting => absurd waiting notWaiting⟩ closed
    · rintro ⟨other, _, _, there, _, dense⟩
      obtain ⟨rfl, rfl, rfl⟩ := found_unique there found
      refine Or.inr ⟨_, _, _, grown, ⟨by decide, by decide, fun waiting => absurd waiting (by decide)⟩, ?_⟩
      exact noGapAbove_insert (noGapAbove_insert dense below _) (by omega) _

end

/-- What the backup makes of the COMMIT, and with which packets it answers. -/
inductive Responds (log after : Log) (tsn seq : Int) (own : List Text) : Prop where
  | decided (verdicts : ∀ text ∈ own, Verdict log tsn text) (outcome : (log[tsn]? = none ∧ after = log) ∨ Closed after tsn seq) :
      Responds log after tsn seq own
  | waits {record : Record} {status number : Text} (found : Found log tsn record status number) (allowed : Open status number seq)
      (gaps : missing record seq ≠ []) (marked : after = mark log tsn record "WAITING" (iToS seq)) (asks : ∀ text ∈ own, AsksWrite text) :
      Responds log after tsn seq own

section
variable {backup next : Backup} {tsn seq : Int} {own : List Text} {header data : Text}

theorem Responds.plain {log after : Log} (responds : Responds log after tsn seq own) : ∀ text ∈ own, Plain text := by
  cases responds with
  | decided verdicts => exact fun text member => (verdicts text member).plain
  | waits _ _ _ _ asks => exact fun text member => (asks text member).plain

theorem Responds.closed {log after : Log} (responds : Responds log after tsn seq own) (closed : Closed log tsn seq) :
    Closed after tsn seq ∧ ∀ text ∈ own, Verdict log tsn text := by
  cases responds with
  | decided verdicts outcome =>
    rcases outcome with ⟨absent, _⟩ | still
    · exact absurd absent closed.present
    · exact ⟨still, verdicts⟩
  | waits found allowed =>
    obtain ⟨_, _, _, other, notOpen⟩ := closed
    obtain ⟨_, rfl, rfl⟩ := found_unique other found
    exact absurd allowed notOpen

theorem commit_responds (serves : Serves backup.log tsn) (tsnRange : IsInt tsn) (range : IsInt seq) (positive : 1 ≤ tsn) (high : 1 ≤ seq) :
    ∃ after own, Backup.replies Backup.unchanged backup true (commitMessage tsn seq) " " = .ok (after, own) ∧ own ≠ [] ∧
      Serves after.log tsn ∧ Responds backup.log after.log tsn seq own := by
  have sameTsn := commitMessage_getTsn tsnRange seq
  have replicated : Replicated (commitMessage tsn seq) := Or.inr (Or.inl (commitMessage_parse tsn seq))
  obtain ⟨outcome, ran⟩ := commit_returns (sameTsn.symm ▸ serves.whole.formed) ⟨_, _, _, _, commitMessage_fields tsn seq⟩ serves.role true
  obtain ⟨log, word, code, text, settles, answered, reads⟩ :=
    answer_commit_of_ran unchanged_honest serves.backup tsnRange range high positive ran
  obtain ⟨rest, replied⟩ := replies_of_answer answered
  obtain ⟨arrived, payload, after, reply, bare, handles, same, _⟩ := answer_handles unchanged_honest serves.backup replicated answered
  have arrivedTsn := (unchanged_honest.same _ _ _ _ bare).2.1
  obtain rfl : log = after := congrArg Server.log same
  have other : getTsn arrived ≠ 0 := by omega
  have still : Serves log tsn := serves.handled other handles (answer_notPrimary serves.backup answered)
  have lines (arrived : Text) (payload : Option Text) (sent : Backup.unchanged (commitMessage tsn seq) " " = .ok (arrived, payload)) : OneLine arrived := by
    rw [unchanged_honest.bare, Except.ok.injEq, Prod.mk.injEq] at sent
    exact sent.1 ▸ commit_oneLine tsn seq
  have kinds := replies_kinds unchanged_honest lines replicated replied
  rw [sameTsn] at kinds
  -- the first packet tells which kind they are
  obtain ⟨third, others, words⟩ := reads.words
  have first : asksWrite text = true ↔ word = "ACK_RESEND" := by
    rw [asksWrite, replyWords, words]
    simp
  have decided (noAsk : word ≠ "ACK_RESEND") : ∀ packet ∈ text :: rest, Verdict backup.log tsn packet := by
    refine kinds.resolve_right fun asks => ?_
    obtain ⟨reply, same, method⟩ := asks.2 text List.mem_cons_self
    exact noAsk (first.mp (same ▸ (asksWrite_iff reply).mpr method))
  refine ⟨_, _, replied, List.cons_ne_nil _ _, still, ?_⟩
  cases settles with
  | absent absent => exact .decided (decided (by decide)) (Or.inl ⟨absent, rfl⟩)
  | already found => exact .decided (decided (by decide)) (Or.inr ⟨_, _, _, found, fun allowed => allowed.committed rfl⟩)
  | expired found => exact .decided (decided (by decide)) (Or.inr ⟨_, _, _, found, fun allowed => allowed.expired rfl⟩)
  | otherNumber found pending differs =>
    refine .decided (decided (by decide)) (Or.inr ⟨_, _, _, found, fun allowed => ?_⟩)
    rcases pending with waiting | committed
    · exact differs (allowed.waiting waiting)
    · exact allowed.committed committed
  | incomplete found allowed gaps =>
    refine .waits found allowed gaps rfl (kinds.resolve_left fun verdicts => ?_).2
    have verdict := Verdict.noWrite (verdicts text List.mem_cons_self)
    rw [first.mpr rfl] at verdict
    cases verdict
  | written => exact .decided (decided (by decide)) (Or.inr ⟨_, _, _, mark_found _ _ _ _ _, fun allowed => allowed.committed rfl⟩)
  | failed _ _ _ closed => cases closed

/-- The words that a write is echoed with. -/
theorem write_lines {number : Int} (positive : 1 ≤ tsn) (low : 1 ≤ number) (write : WriteOf tsn number header) {arrived : Text} {payload : Option Text}
    (sent : Backup.unchanged header data = .ok (arrived, payload)) : OneLine arrived := by
  obtain ⟨line, echoed, same⟩ := bind_eq_ok.mp sent
  cases same
  obtain ⟨method, first, second, rest, shape⟩ := answerable_of_getSeq (write.seq ▸ low)
  have parsed {field : Text} {value : Int} (read : (lexicalCast field).getD (-100) = value) (from1 : 1 ≤ value) : OneLine field := by
    cases cast : lexicalCast field with
    | none =>
      rw [cast, Option.getD_none] at read
      omega
    | some number => exact oneLine_of_lexicalCast cast
  refine oneLine_echo ?_ echoed
  rw [shape]
  intro field member
  simp only [List.take_succ_cons, List.take_zero, List.mem_cons, List.not_mem_nil, or_false] at member
  rcases member with rfl | rfl | rfl
  · exact oneLine_of_method shape (by rw [write.method]; decide)
  · exact parsed ((getTsn_of_fields shape).symm.trans write.tsn) positive
  · exact parsed ((getSeq_of_fields shape).symm.trans write.seq) low

/-- A backup in a phase that its packets do not change. -/
def Keeps (phase : Log → Prop) (tsn : Int) (backup : Backup) : Prop := Serves backup.log tsn ∧ phase backup.log

/-- What resent writes keep. -/
def Survives (phase : Log → Prop) (tsn seq : Int) : Prop :=
  ∀ {log after header data number}, Serves log tsn → WriteOf tsn number header → 1 ≤ number → number ≤ seq →
    Handles log true header (some data) after → phase log → phase after

theorem writes_answers {phase : Log → Prop} (positive : 1 ≤ tsn) (survives : Survives phase tsn seq) :
    Answers (Backup.replies Backup.unchanged) (Keeps phase tsn) (Resent tsn seq) := by
  constructor
  · intro packet backup next own _ handled
    obtain ⟨⟨_, _⟩, sent, _⟩ := bind_eq_ok.mp handled
    exact unchanged_honest.echoes _ _ _ _ sent
  · rintro ⟨header, data⟩ backup next own ⟨number, low, below, write⟩ ⟨serves, holds⟩ handled
    obtain ⟨log, text, arrived, answered, arrivedWrite, handles, still⟩ := write_returns positive serves write low data
    have first := answer_of_replies handled
    rw [answered, Except.ok.injEq, Prod.mk.injEq] at first
    obtain ⟨rfl, head⟩ := first
    refine ⟨?_, still, survives serves arrivedWrite low below handles holds⟩
    rintro rfl
    cases head

/-- A resent write is answered with verdicts. -/
theorem write_verdicts {io : Bool} (positive : 1 ≤ tsn) {packet : Text × Text} (write : Resent tsn seq packet)
    (ran : Backup.replies Backup.unchanged backup io packet.1 packet.2 = .ok (next, own)) : ∀ text ∈ own, Verdict backup.log tsn text := by
  obtain ⟨number, low, _, write⟩ := write
  rcases replies_kinds unchanged_honest (fun _ _ sent => write_lines positive low write sent) (Or.inr (Or.inr (Or.inl write.method))) ran
    with verdicts | ⟨commits, _⟩
  · exact write.tsn ▸ verdicts
  · rw [write.method] at commits
    cases commits

end

/-- The packet that creates a missing transaction. -/
def creation (tsn : Int) : Text := "MAKE_TXN " ++ iToS tsn ++ " -1 0"

section
variable {backup next : Backup} {tsn seq : Int} {own : List Text} {file : Text}

theorem creation_fields (tsn : Int) : fields (creation tsn) = "MAKE_TXN".toList :: iToS tsn :: "-1".toList :: ["0".toList] :=
  makeTsnHeader_fields tsn

theorem creation_parse (tsn : Int) : parse (creation tsn) = 6 := by
  rw [parse_of_fields (creation_fields tsn)]
  rfl

theorem creation_getTsn (tsnRange : IsInt tsn) : getTsn (creation tsn) = tsn := by
  rw [getTsn_of_fields (creation_fields tsn), lexicalCast_iToS tsnRange, Option.getD_some]

theorem creation_lines {arrived : Text} {payload : Option Text} (sent : Backup.unchanged (creation tsn) file = .ok (arrived, payload)) :
    OneLine arrived := by
  obtain ⟨line, echoed, same⟩ := bind_eq_ok.mp sent
  cases same
  refine oneLine_echo ?_ echoed
  rw [creation_fields]
  intro field member
  simp only [List.take_succ_cons, List.take_zero, List.mem_cons, List.not_mem_nil, or_false] at member
  rcases member with rfl | rfl | rfl
  · decide
  · exact oneLine_iToS tsn
  · decide

/-- A record that is there stays as it is; a missing one is made. -/
theorem creation_returns (tsnRange : IsInt tsn) (positive : 1 ≤ tsn) (serves : Serves backup.log tsn) (file : Text) :
    ∃ after text, Backup.answer Backup.unchanged backup true (creation tsn) file = .ok ({ backup with log := after }, some text) ∧
      Serves after tsn ∧ (backup.log[tsn]? = none → after[tsn]? = some (freshRecord file)) ∧ (backup.log[tsn]? ≠ none → after = backup.log) := by
  have method := creation_parse tsn
  have sameTsn := creation_getTsn tsnRange
  have replicated : Replicated (creation tsn) := Or.inr (Or.inr (Or.inr method))
  have other : getTsn (creation tsn) ≠ 0 := by omega
  obtain ⟨next, reply, handled⟩ := answer_returns unchanged_honest serves.backup serves.role (sameTsn.symm ▸ serves.whole)
    ⟨_, _, _, _, creation_fields tsn⟩ other replicated file true
  obtain ⟨arrived, payload, log, text, arrives, handles, rfl, rfl⟩ := answer_handles unchanged_honest serves.backup replicated handled
  obtain ⟨arrivedMethod, arrivedTsn, _, _, _⟩ := unchanged_honest.same _ _ _ _ arrives
  obtain rfl := unchanged_payload arrives (by simp only [needsData, method])
  have still : Serves log tsn := serves.handled (arrivedTsn ▸ other) handles (answer_notPrimary serves.backup handled)
  refine ⟨log, text, handled, still, ?_⟩
  rw [method] at arrivedMethod
  cases handles with
  | made =>
    rw [arrivedTsn, sameTsn, makeTxn]
    constructor
    · intro absent
      rw [Store.contains_of_absent absent]
      exact Std.ExtTreeMap.getElem?_insert_self
    · intro present
      obtain ⟨record, inLog⟩ := Option.ne_none_iff_exists'.mp present
      rw [Store.contains_of_get inLog]
      rfl
  | added wrong | committed wrong | aborted wrong =>
    rw [arrivedMethod] at wrong
    cases wrong

/-- A phase that the creation keeps. -/
theorem creation_answers {phase : Log → Prop} (tsnRange : IsInt tsn) (positive : 1 ≤ tsn)
    (survives : ∀ log after, phase log → (log[tsn]? ≠ none → after = log) → phase after) :
    Answers (Backup.replies Backup.unchanged) (Keeps phase tsn) (fun packet => packet.1 = creation tsn) := by
  constructor
  · intro packet backup next own _ handled
    obtain ⟨⟨_, _⟩, sent, _⟩ := bind_eq_ok.mp handled
    exact unchanged_honest.echoes _ _ _ _ sent
  · rintro ⟨header, data⟩ backup next own rfl ⟨serves, holds⟩ handled
    obtain ⟨log, text, answered, still, _, same⟩ := creation_returns tsnRange positive serves data
    have first := answer_of_replies handled
    rw [answered, Except.ok.injEq, Prod.mk.injEq] at first
    obtain ⟨rfl, head⟩ := first
    refine ⟨?_, still, survives _ _ holds same⟩
    rintro rfl
    cases head

theorem creation_verdicts {io : Bool} (tsnRange : IsInt tsn)
    (ran : Backup.replies Backup.unchanged backup io (creation tsn) file = .ok (next, own)) : ∀ text ∈ own, Verdict backup.log tsn text := by
  rcases replies_kinds unchanged_honest (fun _ _ sent => creation_lines sent) (Or.inr (Or.inr (Or.inr (creation_parse tsn)))) ran
    with verdicts | ⟨commits, _⟩
  · exact creation_getTsn tsnRange ▸ verdicts
  · rw [creation_parse] at commits
    cases commits

/-- A missing transaction is not made by its writes. -/
theorem absent_survives (tsn seq : Int) : Survives (fun log => log[tsn]? = none) tsn seq := by
  intro log after header data number serves write _ _ handles absent
  obtain ⟨out, adds, rfl⟩ := write_handled write handles
  obtain ⟨_, rfl, _⟩ := write
  have missing {record : Record} {status number : Text} (found : Found log (getTsn header) record status number) : False := by
    rw [found.inLog] at absent
    cases absent
  cases adds with
  | low | absent => exact absent
  | committed found | expired found => exact absent
  | duplicate | above => exact absent
  | kept _ found | completes _ found | added _ found => exact (missing found).elim

theorem closed_survives (tsn seq : Int) : Survives (fun log => Closed log tsn seq) tsn seq :=
  fun serves write low below handles closed => (write_phases serves write low below handles).1 closed

/-- A record without a gap above the number that a COMMIT leaves waiting lacks
only writes up to the number. -/
theorem marked_towards {log : Log} {record : Record} {status number : Text} (range : IsInt seq) (high : 1 ≤ seq) (whole : WholeRecord record)
    (found : Found log tsn record status number) (dense : NoGapAbove record seq) (gaps : missing record seq ≠ []) :
    Towards (mark log tsn record "WAITING" (iToS seq)) tsn seq (Int.range 1 (seq + 1)) := by
  have waits : Waits (mark log tsn record "WAITING" (iToS seq)) tsn seq (record.insert (-1) ("WAITING", iToS seq)) :=
    ⟨⟨_, mark_found _ _ _ _ _, atoi_iToS range⟩, whole.mark _ _⟩
  refine Or.inr ⟨_, waits, ?_, ?_⟩
  · rw [missing_insert_present found.entry]
    exact gaps
  · intro wanted member
    rw [missing_insert_present found.entry] at member
    have low := (missing_positive whole member).1
    have below := (missing_below whole high).mpr dense wanted member
    exact Int.mem_range_iff.mpr ⟨low, by omega⟩

/-- It can be repaired as before. -/
theorem marked_repairable {log : Log} {record : Record} (range : IsInt seq) (high : 1 ≤ seq) (dense : NoGapAbove record seq) :
    Repairable (mark log tsn record "WAITING" (iToS seq)) tsn seq :=
  ⟨_, _, _, mark_found _ _ _ _ _, ⟨by decide, by decide, fun _ => atoi_iToS range⟩, noGapAbove_insert dense (by omega) _⟩

end

section
variable {log after : Log} {header data : Text}

/-- No write up to the commit number closes a gap above it. -/
theorem stuck_stays (stuck : Stuck log tsn seq) (whole : Whole log tsn) {number : Int} (write : WriteOf tsn number header)
    (low : 1 ≤ number) (below : number ≤ seq) {io : Bool} (handles : Handles log io header (some data) after) :
    Stuck after tsn seq := by
  obtain ⟨out, adds, rfl⟩ := write_handled write handles
  obtain ⟨_, rfl, rfl⟩ := write
  obtain ⟨record, status, pending, found, allowed, gap⟩ := id stuck
  have stillGap (entry : LogPair) : ¬ NoGapAbove (record.insert (getSeq header) entry) seq := by
    intro dense
    apply gap
    intro number key above before member
    have inside := dense number key above before ((mem_insert_iff entry).mpr (Or.inr member))
    exact ((mem_insert_iff entry).mp inside).resolve_left (by omega)
  cases adds with
  | low => exact stuck
  | absent => exact stuck
  | committed => exact stuck
  | expired => exact stuck
  | duplicate => exact stuck
  | above => exact stuck
  | kept _ other _ _ grows =>
    obtain ⟨rfl, rfl, rfl⟩ := found_unique found other
    subst grows
    exact ⟨_, _, _, found.grow low _, allowed, stillGap _⟩
  | completes _ other _ _ grows complete =>
    obtain ⟨rfl, rfl, rfl⟩ := found_unique found other
    subst grows
    have same := allowed.waiting rfl
    exfalso
    apply stillGap (header, data)
    apply (missing_below ((whole _ found.inLog).insert low _) (by omega)).mp
    rw [← same, complete]
    exact fun number member => absurd member List.not_mem_nil
  | added _ other _ _ _ _ grows =>
    obtain ⟨rfl, rfl, rfl⟩ := found_unique found other
    subst grows
    refine ⟨_, _, _, mark_found _ _ _ _ _, ⟨by decide, by decide, fun waiting => absurd waiting (by decide)⟩, ?_⟩
    intro dense
    apply stillGap (header, data)
    intro number key above before member
    have inside := dense number key above before ((mem_insert_iff _).mpr (Or.inr member))
    exact ((mem_insert_iff _).mp inside).resolve_left (by omega)

/-- The COMMIT leaves a stuck record waiting and is answered with requests. -/
theorem stuck_settles {settled : Log} {word code : Text} {io : Bool} (stuck : Stuck log tsn seq) (whole : Whole log tsn)
    (range : IsInt seq) (high : 1 ≤ seq) (settles : Settles log tsn seq io settled word code) :
    word = "ACK_RESEND" ∧ Stuck settled tsn seq := by
  obtain ⟨record, status, number, found, allowed, gap⟩ := stuck
  have asked : missing record seq ≠ [] := by
    intro complete
    apply gap
    apply (missing_below (whole record found.inLog) high).mp
    rw [complete]
    exact fun number member => absurd member List.not_mem_nil
  cases settles with
  | absent absent =>
    rw [found.inLog] at absent
    cases absent
  | already other => exact absurd (found_unique found other).2.1 allowed.committed
  | expired other => exact absurd (found_unique found other).2.1 allowed.expired
  | otherNumber other pending differs =>
    obtain ⟨_, rfl, rfl⟩ := found_unique found other
    rcases pending with waiting | committed
    · exact absurd (allowed.waiting waiting) differs
    · exact absurd committed allowed.committed
  | incomplete other _ _ =>
    obtain ⟨rfl, _⟩ := found_unique found other
    refine ⟨rfl, _, _, _, mark_found _ _ _ _ _, ⟨by decide, by decide, fun _ => atoi_iToS range⟩, ?_⟩
    intro dense
    apply gap
    intro number key above before member
    have inside := dense number key above before ((mem_insert_iff _).mpr (Or.inr member))
    exact ((mem_insert_iff _).mp inside).resolve_left (by omega)
  | written other _ complete =>
    obtain ⟨rfl, _⟩ := found_unique found other
    exact absurd complete asked
  | failed other _ complete =>
    obtain ⟨rfl, _⟩ := found_unique found other
    exact absurd complete asked

end

theorem writes_keep_stuck {backup after : Backup} {reply : Option Text} {io : Bool} {packet : Text × Text} {number : Int}
    (write : WriteOf tsn number packet.1) (low : 1 ≤ number) (below : number ≤ seq)
    (holds : NotPrimary backup.log ∧ Whole backup.log tsn ∧ Stuck backup.log tsn seq)
    (handled : Backup.answer Backup.unchanged backup io packet.1 packet.2 = .ok (after, reply)) :
    NotPrimary after.log ∧ Whole after.log tsn ∧ Stuck after.log tsn seq := by
  obtain ⟨backupLog, whole, stuck⟩ := holds
  have replicated : Replicated packet.1 := Or.inr (Or.inr (Or.inl write.method))
  obtain ⟨arrived, payload, log, _, sent, handles, rfl, _⟩ := answer_handles unchanged_honest backupLog replicated handled
  obtain ⟨method, arrivedTsn, arrivedSeq, _, _⟩ := unchanged_honest.same _ _ _ _ sent
  have arrivedWrite : WriteOf tsn number arrived :=
    ⟨method.trans write.method, arrivedTsn.trans write.tsn, arrivedSeq.trans write.seq⟩
  obtain rfl := unchanged_payload sent (by simp [needsData, write.method])
  exact ⟨answer_notPrimary backupLog handled, handles.whole whole, stuck_stays stuck whole arrivedWrite low below handles⟩


end TransactionalServer.Proofs.Repairs
