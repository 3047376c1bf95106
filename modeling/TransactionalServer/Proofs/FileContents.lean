import TransactionalServer.Proofs.AtMostOnce

/-! Without crashes a data file is what its committed transactions wrote, in the
order in which they became committed. -/

namespace TransactionalServer.Proofs.FileContents
open ServerTools LogHandler Exec Session Ledger Traces Completeness AtMostOnce

def isCommitted (log : Log) (tsn : Int) : Bool := getStatus log tsn = .ok "COMMITTED"

/-- What has become committed between two logs. -/
def newlyCommitted (before after : Log) : List Int :=
  after.keys.filter fun tsn => 1 ≤ tsn ∧ isCommitted after tsn ∧ !isCommitted before tsn

section
variable {π : Type} (answer : Answer π) (fuel : Nat)

/-- The transactions that become committed in a run without crashes, in order. -/
def commitOrder (process : Process π) : List System.Event → List Int
  | [] => []
  | event :: rest =>
    match Process.step answer fuel process (.event event) with
    | .ok next => newlyCommitted process.server.log next.server.log ++ commitOrder next rest
    | .error _ => []

end

/-- The lines 1..n of a committed transaction, each with its newline. -/
def Contribution (log : Log) (tsn : Int) (text : Text) : Prop :=
  ∃ record number lines, Found log tsn record "COMMITTED" number ∧ 1 ≤ atoi number ∧
    List.Forall₂ (fun seq line => ∃ header, record[seq]? = some (header, line)) (Int.range 1 (atoi number + 1)) lines ∧
    text = lines.flatMap (· ++ "\n".toList)

/-- The files are the contributions of these transactions, in this order. -/
structure Contents {π : Type} (process : Process π) (order : List Int) : Prop where
  once : order.Nodup
  committed : ∀ tsn, tsn ∈ order ↔ 1 ≤ tsn ∧ Committed process.server.log tsn
  files : ∀ path, Disk.IsDataFile path → ∃ texts,
    List.Forall₂ (Contribution process.server.log) (order.filter fun tsn => getFileName process.server.log tsn = .ok path) texts ∧
      process.disk.files path = if texts = [] then none else some texts.flatten

section
variable {log : Log} {tsn : Int} {append : Append} {disk : Disk}

theorem isCommitted_iff : isCommitted log tsn = true ↔ Committed log tsn := by
  unfold isCommitted
  rw [decide_eq_true_iff]
  constructor
  · intro read
    exact found_of_getStatus read
  · intro committed
    obtain ⟨record, number, found⟩ := committed
    exact found.getStatus

theorem mem_newlyCommitted {before after : Log} :
    tsn ∈ newlyCommitted before after ↔ 1 ≤ tsn ∧ Committed after tsn ∧ ¬ Committed before tsn := by
  unfold newlyCommitted
  rw [List.mem_filter, decide_eq_true_iff, isCommitted_iff, Bool.not_eq_true', ← Bool.not_eq_true, isCommitted_iff]
  constructor
  · intro both
    exact both.2
  · intro became
    obtain ⟨record, _, found⟩ := became.2.1
    exact ⟨Std.ExtTreeMap.mem_keys.mpr (Store.mem_iff_get.mpr ⟨record, found.inLog⟩), became⟩

theorem newlyCommitted_nodup (before after : Log) : (newlyCommitted before after).Nodup := by
  exact List.Nodup.filter _ after.nodup_keys

end

/-- The appends among some effects. -/
def appends (effects : List Effect) : List Append :=
  effects.filterMap fun effect =>
    match effect with
    | .append tsn path lines => some ⟨tsn, path, lines⟩
    | _ => none

theorem mem_appends {effects : List Effect} {append : Append} :
    append ∈ appends effects ↔ .append append.tsn append.path append.lines ∈ effects := by
  unfold appends
  rw [List.mem_filterMap]
  constructor
  · intro kept
    obtain ⟨effect, member, same⟩ := kept
    cases effect with
    | append => cases same; exact member
    | save | send => cases same
  · intro member
    exact ⟨_, member, rfl⟩

theorem apply_appended (effects : List Effect) (disk : Disk) :
    (effects.foldl Disk.apply disk).appended = disk.appended ++ appends effects := by
  induction effects generalizing disk with
  | nil => exact (List.append_nil _).symm
  | cons effect effects ih =>
    rw [List.foldl_cons, ih]
    cases effect with
    | append tsn path lines => simp [Disk.apply, appends]
    | save log => rfl
    | send packet => rfl

theorem apply_room (effects : List Effect) (disk : Disk) : (effects.foldl Disk.apply disk).room = disk.room := by
  induction effects generalizing disk with
  | nil => rfl
  | cons effect effects ih =>
    rw [List.foldl_cons, ih]
    cases effect <;> rfl

/-- A disk with room has everything that was appended. -/
theorem written_of_takes {disk : Disk} (takes : disk.Takes) : disk.written = disk.appended := by
  have all (room : List Bool) (appends : List Append) (takes : ∀ takes ∈ room, takes = true) : Disk.taken room appends = appends := by
    induction room generalizing appends with
    | nil => cases appends <;> rfl
    | cons first room ih =>
      obtain rfl := takes first List.mem_cons_self
      cases appends with
      | nil => rfl
      | cons append appends =>
        rw [Disk.taken, if_pos rfl, ih appends (fun later member => takes later (List.mem_cons_of_mem _ member))]
  exact all disk.room disk.appended takes

theorem apply_existing (effects : List Effect) (disk : Disk) : (effects.foldl Disk.apply disk).existing = disk.existing := by
  induction effects generalizing disk with
  | nil => rfl
  | cons effect effects ih =>
    rw [List.foldl_cons, ih]
    cases effect <;> rfl

/-- An event appends only what it may commit. -/
theorem appends_allowed {granted : Scope} {first last : State} {effects : List Effect} (run : Acts (Act granted) first effects last) :
    ∀ append ∈ appends effects, granted.commits append.tsn := by
  induction run with
  | done =>
    intro append member
    cases member
  | silent _ _ ih => exact ih
  | effect step _ ih =>
    intro append member
    cases step with
    | send => exact ih append member
    | save => exact ih append member
    | append _ allowed =>
      rcases List.mem_cons.mp member with rfl | later
      · exact allowed
      · exact ih append later

/-- An event may commit one transaction at most. -/
theorem scope_commits_one (event : System.Event) {one two : Int} (first : (eventScope event).commits one)
    (second : (eventScope event).commits two) : one = two := by
  cases event with
  | packet => exact first.2.trans second.2.symm
  | sweep => cases first
  | save => cases first
  | tick => cases first

/-- The appends that have been made are those of the committed transactions. -/
structure Accounts (state : State) (disk : Disk) : Prop where
  once : Once state disk
  filed : Filed state.log disk.appended
  written : ∀ append ∈ disk.appended, Written state.log append

section
variable {granted : Scope} {before next state : State} {label : Option Effect} {disk : Disk} {tsn : Int}

theorem Accounts.act (accounts : Accounts before disk) (act : Act granted before label next) : Accounts next (label.elim disk disk.apply) := by
  have kept : ∀ append ∈ disk.appended, Written next.log append :=
    fun append member => (accounts.written append member).act (accounts.once.positive append member) act
  refine ⟨accounts.once.act act, accounts.filed.act act, ?_⟩
  cases act with
  | move => exact kept
  | send => exact kept
  | save => exact kept
  | append _ _ found file read =>
    intro append member
    rcases List.mem_append.mp member with inside | last
    · exact kept append inside
    · rw [List.mem_singleton.mp last]
      exact written_of_append found file read

theorem Accounts.committed_iff (accounts : Accounts state disk) (tsn : Int) :
    tsn ∈ disk.appended.map Append.tsn ↔ 1 ≤ tsn ∧ Committed state.log tsn := by
  constructor
  · intro member
    obtain ⟨append, inside, rfl⟩ := List.mem_map.mp member
    exact ⟨accounts.once.positive append inside, accounts.once.memory append inside⟩
  · intro both
    obtain ⟨append, inside, same, _⟩ := accounts.filed tsn both.1 both.2
    exact List.mem_map.mpr ⟨append, inside, same⟩

end

structure Accounted {π : Type} (process : Process π) : Prop where
  steady : Steady process
  accounts : Accounts ⟨process.server.log, false⟩ process.disk
  bare : ∀ path, process.disk.existing path = none
  takes : process.disk.Takes

section
variable {π : Type} {answer : Answer π} {fuel : Nat} {process next : Process π} {event : System.Event}

theorem step_accounted (accounted : Accounted process) (addressed : AddressedEvent event)
    (stepped : Process.step answer fuel process (.event event) = .ok next) : Accounted next := by
  obtain ⟨effects, performed⟩ := step_performs stepped
  obtain ⟨run, disk⟩ := perform_completes addressed performed
  have accounts := run.preserves (fun _ _ _ _ accounts act => Accounts.act accounts act) accounted.accounts
  rw [← disk] at accounts
  have addressedStep : AddressedProcess (.event event : Process.Event π) := addressed
  refine ⟨perform_steady addressedStep accounted.steady performed, accounts, ?_, ?_⟩
  · rw [disk, apply_existing]
    exact accounted.bare
  · rw [disk, Disk.Takes, apply_room]
    exact accounted.takes

/-- What an event appends is what it commits. -/
theorem step_appends (accounted : Accounted process) (addressed : AddressedEvent event)
    (stepped : Process.step answer fuel process (.event event) = .ok next) :
    next.disk.appended.map Append.tsn =
      process.disk.appended.map Append.tsn ++ newlyCommitted process.server.log next.server.log := by
  have after := step_accounted accounted addressed stepped
  obtain ⟨effects, performed⟩ := step_performs stepped
  obtain ⟨run, disk⟩ := perform_completes addressed performed
  have appended : next.disk.appended.map Append.tsn = process.disk.appended.map Append.tsn ++ (appends effects).map Append.tsn := by
    rw [disk, apply_appended, List.map_append]
  obtain ⟨_, distinct, apart⟩ := List.nodup_append.mp (appended ▸ after.accounts.once.distinct)
  have members (tsn : Int) : tsn ∈ (appends effects).map Append.tsn ↔ tsn ∈ newlyCommitted process.server.log next.server.log := by
    have now := after.accounts.committed_iff tsn
    rw [appended, List.mem_append, accounted.accounts.committed_iff] at now
    rw [mem_newlyCommitted]
    constructor
    · intro member
      have both := now.mp (Or.inr member)
      refine ⟨both.1, both.2, ?_⟩
      intro already
      exact apart tsn ((accounted.accounts.committed_iff tsn).mpr ⟨both.1, already⟩) tsn member rfl
    · intro became
      rcases now.mpr ⟨became.1, became.2.1⟩ with earlier | member
      · exact absurd earlier.2 became.2.2
      · exact member
  have perm := (List.perm_ext_iff_of_nodup distinct (newlyCommitted_nodup _ _)).mpr members
  rw [appended]
  congr 1
  -- at most one transaction is committed by one event
  match shape : (appends effects).map Append.tsn with
  | [] =>
    rw [shape] at perm
    exact (List.nil_perm.mp perm).symm
  | [tsn] =>
    rw [shape] at perm
    exact List.singleton_perm.mp perm
  | one :: two :: rest =>
    have allowed (tsn : Int) (member : tsn ∈ (appends effects).map Append.tsn) : (eventScope event).commits tsn := by
      obtain ⟨append, inside, rfl⟩ := List.mem_map.mp member
      exact appends_allowed run append inside
    have same := scope_commits_one event (allowed one (by simp [shape])) (allowed two (by simp [shape]))
    rw [shape, same] at distinct
    exact absurd List.mem_cons_self (List.nodup_cons.mp distinct).1

/-- The appends of a run follow the order of its commits. -/
theorem run_appends {events : List System.Event} {final : Process π} (accounted : Accounted process)
    (addressed : ∀ event ∈ events, AddressedEvent event)
    (ran : (events.map Process.Event.event).foldlM (Process.step answer fuel) process = .ok final) :
    Accounted final ∧
      final.disk.appended.map Append.tsn = process.disk.appended.map Append.tsn ++ commitOrder answer fuel process events := by
  induction events generalizing process with
  | nil =>
    cases ran
    exact ⟨accounted, (List.append_nil _).symm⟩
  | cons event rest ih =>
    rw [List.map_cons, List.foldlM_cons] at ran
    obtain ⟨next, stepped, ran⟩ := bind_eq_ok.mp ran
    have here := addressed event List.mem_cons_self
    obtain ⟨last, appended⟩ := ih (step_accounted accounted here stepped) (fun other member => addressed other (List.mem_cons_of_mem _ member)) ran
    refine ⟨last, ?_⟩
    rw [appended, step_appends accounted here stepped, List.append_assoc, commitOrder, stepped]

end

section
variable {π : Type} {answer : Answer π} {fuel : Nat} {process : Process π} {append : Append}

/-- The bytes of one append. -/
def bytes (append : Append) : Text := append.lines.flatMap (· ++ "\n".toList)

theorem contribution_of_written {log : Log} (written : Written log append) (sound : Sound log) (positive : 1 ≤ append.tsn) :
    Contribution log append.tsn (bytes append) := by
  obtain ⟨record, marker, number, found, _, read⟩ := written
  have numbered := ((sound.found positive found).complete _ _ found.entry (Or.inr rfl)).1
  refine ⟨record, number, append.lines, found, numbered, ?_, rfl⟩
  rw [committedLines, if_neg (by omega)] at read
  refine (forall₂_of_mapM read).imp ?_
  intro seq line got
  obtain ⟨entry, here, same⟩ := bind_eq_ok.mp got
  cases same
  obtain ⟨again, inLog, inRecord⟩ := pair_eq_ok.mp here
  obtain rfl := Option.some.inj (found.inLog.symm.trans inLog)
  exact ⟨entry.1, inRecord⟩

/-- The files hold what the appends say, in their order. -/
theorem Accounted.contents (accounted : Accounted process) :
    Contents process (process.disk.appended.map Append.tsn) := by
  have accounts := accounted.accounts
  refine ⟨accounts.once.distinct, accounts.committed_iff, ?_⟩
  intro path _
  have selected : (process.disk.appended.map Append.tsn).filter (fun tsn => getFileName process.server.log tsn = .ok path) =
      (process.disk.appended.filter (·.path = path)).map Append.tsn := by
    rw [List.filter_map]
    congr 1
    apply List.filter_congr
    intro append member
    have written : Written process.server.log append := accounts.written append member
    rw [Function.comp_apply, written.named]
    simp
  refine ⟨(process.disk.appended.filter (·.path = path)).map bytes, ?_, ?_⟩
  · rw [selected, List.forall₂_map_left_iff, List.forall₂_map_right_iff, List.forall₂_same]
    intro append member
    have inside := (List.mem_filter.mp member).1
    exact contribution_of_written (accounts.written append inside) accounted.steady.memory (accounts.once.positive append inside)
  · unfold Disk.files
    rw [accounted.bare path, written_of_takes accounted.takes]
    cases process.disk.appended.filter (·.path = path) with
    | nil => rfl
    | cons first rest =>
      simp only [List.map_cons, reduceCtorEq, if_false, Option.getD_none, List.nil_append, Disk.contents, List.flatMap_def]
      rfl

theorem flatten_ends {texts : List Text} (each : ∀ text ∈ texts, text.getLast? = some '\n') (nonempty : texts ≠ []) :
    texts.flatten.getLast? = some '\n' := by
  induction texts with
  | nil => exact absurd rfl nonempty
  | cons text texts ih =>
    rw [List.flatten_cons, List.getLast?_append, each text List.mem_cons_self]
    cases texts with
    | nil => rfl
    | cons next rest =>
      rw [ih (fun other member => each other (List.mem_cons_of_mem _ member)) (by simp)]
      rfl

theorem Contribution.ends {log : Log} {tsn : Int} {text : Text} (contribution : Contribution log tsn text) : text.getLast? = some '\n' := by
  obtain ⟨record, number, lines, _, positive, entries, rfl⟩ := contribution
  rw [List.flatMap_def]
  apply flatten_ends
  · intro text member
    obtain ⟨line, _, rfl⟩ := List.mem_map.mp member
    exact List.getLast?_concat
  · have first : (1 : Int) ∈ Int.range 1 (atoi number + 1) := Int.mem_range_iff.mpr ⟨by omega, by omega⟩
    intro empty
    rw [List.map_eq_nil_iff.mp empty, List.forall₂_nil_right_iff] at entries
    rw [entries] at first
    cases first

theorem Contents.readFile {order : List Int} (contents : Contents process order) {path : Text} (data : Disk.IsDataFile path) :
    LogHandler.readFile process.disk.files path = process.disk.files path := by
  obtain ⟨texts, contributions, files⟩ := contents.files path data
  have each : ∀ text ∈ texts, text.getLast? = some '\n' := by
    intro text member
    obtain ⟨tsn, _, contribution⟩ := mem_of_forall₂ contributions member
    exact Contribution.ends contribution
  unfold LogHandler.readFile
  rw [files]
  by_cases nothing : texts = []
  · rw [if_pos nothing]
  · have last := flatten_ends each nothing
    rw [if_neg nothing]
    cases content : texts.flatten with
    | nil =>
      rw [content] at last
      cases last
    | cons char rest =>
      rw [content] at last
      exact if_pos last

/-- The whole file, or that there is none. -/
def fileAnswer (header : Text) : Option Text → Exec Text
  | some content => genAnswerStr "ACK" header "0" content
  | none => genAnswerStr "ERROR" header "206" "File not found"

/-- READ answers with the file and changes nothing. -/
theorem Contents.read {order : List Int} (contents : Contents process order) {env : Env} {auth : Bool} {header : Text}
    (method : parse header = 4) (valid : validHeader header = true) (authorized : unauthorized process.server auth 4 = .ok false) {path : Text}
    (data : Disk.IsDataFile path) :
    ∃ text, fileAnswer header (process.disk.files path) = .ok text ∧
      receive answer fuel { env with files := process.disk.files } process.server auth header (some path) =
        .ok { server := process.server, effects := [.send text], auth } := by
  have answerable := answerable_of_valid valid
  simp only [receive, dispatch, executeCommand, method, authorized, ok_bind, Bool.false_eq_true, if_false, contents.readFile data]
  cases process.disk.files path with
  | none =>
    obtain ⟨text, made⟩ := answerable_genAnswerStr answerable "ERROR" "206" "File not found"
    have codes := Answered.ne_codes ⟨_, _, _, made⟩
    refine ⟨text, made, ?_⟩
    simp only [made, ok_bind, pure_eq_ok, Bool.false_eq_true, if_false, codes.1, codes.2, List.nil_append]
  | some content =>
    obtain ⟨text, made⟩ := answerable_genAnswerStr answerable "ACK" "0" content
    refine ⟨text, made, ?_⟩
    simp only [made, ok_bind, pure_eq_ok, if_true]

end

section
variable {π : Type} {answer : Answer π} {fuel : Nat} {restart : Restart π}

theorem fresh_accounted (restart : Restart π) {room : List Bool} (takes : ∀ takes ∈ room, takes = true) :
    Accounted (fresh restart (fun _ => none) room) := by
  have uncommitted (tsn : Int) (positive : 1 ≤ tsn) (committed : Committed (fresh restart (fun _ => none) room).server.log tsn) : False := by
    obtain ⟨record, number, inLog, _⟩ := committed.of_same (start_transactions restart { saved := ∅, room } tsn positive).symm
    rw [Std.ExtTreeMap.getElem?_empty] at inLog
    cases inLog
  have nothing {claim : Append → Prop} : ∀ append ∈ ([] : List Append), claim append := by
    intro append member
    cases member
  exact ⟨fresh_steady restart _ room, ⟨⟨List.nodup_nil, nothing, nothing, fun _ => nothing⟩,
    fun tsn positive committed => (uncommitted tsn positive committed).elim, nothing⟩, fun _ => rfl, takes⟩

/-- In every run without crashes from a server without data files, on a file
system that takes whatever is written, the files are the contributions of the
committed transactions in the order of their commits, and READ answers with them. -/
theorem files_hold_the_committed_transactions {room : List Bool} (takes : ∀ takes ∈ room, takes = true) {events : List System.Event}
    {final : Process π} (addressed : ∀ event ∈ events, AddressedEvent event)
    (ran : (events.map Process.Event.event).foldlM (Process.step answer fuel) (fresh restart (fun _ => none) room) = .ok final) :
    Contents final (commitOrder answer fuel (fresh restart (fun _ => none) room) events) ∧
      ∀ (env : Env) (auth : Bool) (header path : Text), Disk.IsDataFile path → parse header = 4 → validHeader header = true →
        unauthorized final.server auth 4 = .ok false → ∃ text, fileAnswer header (final.disk.files path) = .ok text ∧
          receive answer fuel { env with files := final.disk.files } final.server auth header (some path) =
            .ok { server := final.server, effects := [.send text], auth } := by
  obtain ⟨accounted, appended⟩ := run_appends (fresh_accounted restart takes) addressed ran
  have order : final.disk.appended.map Append.tsn = commitOrder answer fuel (fresh restart (fun _ => none) room) events := appended
  have contents := accounted.contents
  rw [order] at contents
  exact ⟨contents, fun _ _ _ _ data method valid authorized => contents.read method valid authorized data⟩

end

def writtenRun : List System.Event := [createFive, writeFive, commitFive]

theorem committed_line_is_the_file : ∃ final text,
    (writtenRun.map Process.Event.event).foldlM (Process.step Backup.noPeer 2) (fresh alone (fun _ => none) [true]) = .ok final ∧
      commitOrder Backup.noPeer 2 (fresh alone (fun _ => none) [true]) writtenRun = [5] ∧ final.disk.files "aa" = some "xx\n".toList ∧
      Contents final (commitOrder Backup.noPeer 2 (fresh alone (fun _ => none) [true]) writtenRun) ∧
      fileAnswer "READ 0 0 3" (some "xx\n".toList) = .ok text ∧
      receive Backup.noPeer 2 { files := final.disk.files } final.server false "READ 0 0 3" (some "aa".toList) =
        .ok { server := final.server, effects := [.send text], auth := false } := by
  have seen : ((writtenRun.map Process.Event.event).foldlM (Process.step Backup.noPeer 2) (fresh alone (fun _ => none) [true])).map
      (fun final => (final.disk.files "aa", unauthorized final.server false 4)) = .ok (some "xx\n".toList, .ok false) := by decide +kernel
  obtain ⟨final, ran⟩ : ∃ final, (writtenRun.map Process.Event.event).foldlM (Process.step Backup.noPeer 2)
      (fresh alone (fun _ => none) [true]) = .ok final := returned_of_isOk (by decide +kernel)
  rw [ran] at seen
  obtain ⟨file, authorized⟩ := Prod.mk.inj (Except.ok.inj seen)
  have addressed : ∀ event ∈ writtenRun, AddressedEvent event := by
    intro event member
    simp only [writtenRun, List.mem_cons, List.not_mem_nil, or_false] at member
    rcases member with rfl | rfl | rfl
    · exact createFive_addressed
    · exact writeFive_addressed
    · exact commitFive_addressed
  obtain ⟨contents, read⟩ := files_hold_the_committed_transactions (by decide) addressed ran
  obtain ⟨text, made, answered⟩ := read {} false "READ 0 0 3" "aa" (by decide) (by decide) (by decide) authorized
  rw [file] at made
  exact ⟨final, text, ran, by decide +kernel, file, contents, made, answered⟩

/-- A full disk takes nothing. The transaction is committed all the same and its
file stays empty, which a READ takes for no file. -/
theorem full_disk_leaves_a_committed_file_empty : ∃ final,
    (writtenRun.map Process.Event.event).foldlM (Process.step Backup.noPeer 2) (fresh alone (fun _ => none) [false]) = .ok final ∧
      commitOrder Backup.noPeer 2 (fresh alone (fun _ => none) [false]) writtenRun = [5] ∧ Committed final.server.log 5 ∧
      readFile final.disk.files "aa" = none ∧
      ¬ Contents final (commitOrder Backup.noPeer 2 (fresh alone (fun _ => none) [false]) writtenRun) := by
  have seen : ((writtenRun.map Process.Event.event).foldlM (Process.step Backup.noPeer 2) (fresh alone (fun _ => none) [false])).map
      (fun final => (getStatus final.server.log 5, final.disk.files "aa", getFileName final.server.log 5)) =
        .ok (.ok "COMMITTED".toList, some [], .ok "aa".toList) := by decide +kernel
  obtain ⟨final, ran⟩ : ∃ final, (writtenRun.map Process.Event.event).foldlM (Process.step Backup.noPeer 2)
      (fresh alone (fun _ => none) [false]) = .ok final := returned_of_isOk (by decide +kernel)
  rw [ran] at seen
  simp only [Except.map, Except.ok.injEq, Prod.mk.injEq] at seen
  obtain ⟨status, file, name⟩ := seen
  have order : commitOrder Backup.noPeer 2 (fresh alone (fun _ => none) [false]) writtenRun = [5] := by decide +kernel
  refine ⟨final, ran, order, found_of_getStatus status, by rw [readFile, file], ?_⟩
  rw [order]
  intro contents
  obtain ⟨texts, contributions, files⟩ := contents.files "aa" (by decide)
  rw [List.filter_cons, if_pos (decide_eq_true name), List.filter_nil] at contributions
  obtain ⟨text, rest, contribution, nothing, rfl⟩ := List.forall₂_cons_left_iff.mp contributions
  rw [List.forall₂_nil_left_iff.mp nothing, file, if_neg (List.cons_ne_nil _ _), List.flatten_singleton, Option.some.injEq] at files
  have ends := Contribution.ends contribution
  rw [← files] at ends
  cases ends

end TransactionalServer.Proofs.FileContents
