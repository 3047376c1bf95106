import TransactionalServer.Library.Locality
import TransactionalServer.Proofs.FileContents

/-! Operations of the log on different transactions. Each reads the role and the
record of its own transaction, and writes that record. -/

namespace TransactionalServer.Proofs.Commutation
open ServerTools LogHandler Exec FileContents

/-- A request that changes one transaction. -/
inductive Operation where
  | write (header data : Text)
  | commit (header : Text)
  | abort (header : Text)

namespace Operation

def header : Operation → Text
  | write header _ | commit header | abort header => header

def tsn (operation : Operation) : Int := getTsn operation.header

/-- The operation on a log; `io` is the outcome of its append. -/
def run (io : Bool) (log : Log) : Operation → Exec Outcome
  | write header data => addLogEntry log header data io
  | commit header => LogHandler.commit log header io
  | abort header => LogHandler.abort log header

end Operation

/-- What the caller of an operation is told, and what was appended to a file. -/
structure Result where
  ret : Bool
  code : Text
  appended : List Append

def result (out : Outcome) : Result := ⟨out.ret, out.code, appends out.effects⟩

/-- The operation as a step of the log. -/
def Does (operation : Operation) (io : Bool) : Locality.Operation Int Record Result compare := fun before told after =>
  ∃ out, operation.run io before = .ok out ∧ told = result out ∧ after = out.log

section
variable {log other : Log} {header data : Text} {io : Bool} {out : Outcome} {tsn : Int}

theorem writeFile_congr (same : other[tsn]? = log[tsn]?) (io : Bool) : writeFile other tsn io = writeFile log tsn io := by
  have pairs := pair_congr same
  simp only [writeFile, getFileName, getStatusData, pairs, committedLines_congr (fun seq _ => pairs seq)]

/-- The same record and the same role make the same commit. -/
theorem commits_moves (commits : Commits log header io out) (positive : 1 ≤ getTsn header) (same : other[getTsn header]? = log[getTsn header]?)
    (role : other[(0 : Int)]? = log[(0 : Int)]?) :
    ∃ next, Commits other header io next ∧ result next = result out ∧ next.log[getTsn header]? = out.log[getTsn header]? := by
  have marks {record : Record} {status number : Text} :
      (mark other (getTsn header) record status number)[getTsn header]? = (mark log (getTsn header) record status number)[getTsn header]? := by
    rw [(mark_found _ _ _ _ _).inLog, (mark_found _ _ _ _ _).inLog]
  have roles {record : Record} {status number : Text} :
      getServerStatus (mark other (getTsn header) record status number) = getServerStatus (mark log (getTsn header) record status number) := by
    apply getServerStatus_of_get
    rw [mark_other (by omega), mark_other (by omega), role]
  cases commits with
  | absent absent text => exact ⟨_, .absent (same.trans absent) text, rfl, same⟩
  | already found number text => exact ⟨_, .already (found.moved same) number text, rfl, same⟩
  | expired found text => exact ⟨_, .expired (found.moved same) text, rfl, same⟩
  | otherNumber found pending differs text => exact ⟨_, .otherNumber (found.moved same) pending differs text, rfl, same⟩
  | nothing found allowed low text => exact ⟨_, .nothing (found.moved same) allowed low text, rfl, same⟩
  | incomplete found allowed high gaps marked =>
    subst marked
    exact ⟨_, .incomplete (found.moved same) allowed high gaps rfl, rfl, marks⟩
  | primary found allowed high complete marked serverRole =>
    subst marked
    exact ⟨_, .primary (found.moved same) allowed high complete rfl (roles.trans serverRole), rfl, marks⟩
  | written found allowed high complete marked serverRole backup appended finished =>
    subst marked finished
    exact ⟨_, .written (found.moved same) allowed high complete rfl (roles.trans serverRole) backup
      ((writeFile_congr marks io).trans appended) rfl, rfl, marks⟩
  | failed found allowed high complete marked serverRole backup refused text finished =>
    subst marked finished
    exact ⟨_, .failed (found.moved same) allowed high complete rfl (roles.trans serverRole) backup
      ((writeFile_congr marks io).trans refused) text rfl, rfl, marks⟩

/-- The same holds for a write, its pending commit included. -/
theorem adds_moves (adds : Adds log header data io out) (positive : 1 ≤ getTsn header) (same : other[getTsn header]? = log[getTsn header]?)
    (role : other[(0 : Int)]? = log[(0 : Int)]?) :
    ∃ next, Adds other header data io next ∧ result next = result out ∧ next.log[getTsn header]? = out.log[getTsn header]? := by
  have inserts {grown : Record} : (other.insert (getTsn header) grown)[getTsn header]? = (log.insert (getTsn header) grown)[getTsn header]? := by
    rw [Std.ExtTreeMap.getElem?_insert_self, Std.ExtTreeMap.getElem?_insert_self]
  cases adds with
  | low low text => exact ⟨_, .low low text, rfl, same⟩
  | absent high absent text => exact ⟨_, .absent high (same.trans absent) text, rfl, same⟩
  | committed high found text => exact ⟨_, .committed high (found.moved same) text, rfl, same⟩
  | expired high found text => exact ⟨_, .expired high (found.moved same) text, rfl, same⟩
  | duplicate high found notCommitted notExpired present text =>
    exact ⟨_, .duplicate high (found.moved same) notCommitted notExpired present text, rfl, same⟩
  | above high found fresh above text => exact ⟨_, .above high (found.moved same) fresh above text, rfl, same⟩
  | kept high found fresh below grows gaps => exact ⟨_, .kept high (found.moved same) fresh below grows gaps, rfl, inserts⟩
  | @completes record grown number _ high found fresh below grows complete commits =>
    have names := pendingCommit_getTsn (getTsn_isInt header) (atoi number)
    have ownRole : (other.insert (getTsn header) grown)[(0 : Int)]? = (log.insert (getTsn header) grown)[(0 : Int)]? := by
      rw [Store.get_insert_other (by omega), Store.get_insert_other (by omega), role]
    have grownSame : (other.insert (getTsn header) grown)[getTsn (pendingCommit (getTsn header) (atoi number))]? =
        (log.insert (getTsn header) grown)[getTsn (pendingCommit (getTsn header) (atoi number))]? := by
      rw [names]
      exact inserts
    obtain ⟨next, moved, told, record⟩ := commits_moves commits (by omega) grownSame ownRole
    rw [names] at record
    exact ⟨next, .completes high (found.moved same) fresh below grows complete moved, told, record⟩
  | added high found notCommitted notExpired notWaiting fresh grows =>
    refine ⟨_, .added high (found.moved same) notCommitted notExpired notWaiting fresh grows, rfl, ?_⟩
    rw [(mark_found _ _ _ _ _).inLog, (mark_found _ _ _ _ _).inLog]

theorem aborts_moves (aborts : Aborts log header out) (same : other[getTsn header]? = log[getTsn header]?) :
    ∃ next, Aborts other header next ∧ result next = result out ∧ next.log[getTsn header]? = out.log[getTsn header]? := by
  cases aborts with
  | absent absent text => exact ⟨_, .absent (same.trans absent) text, rfl, same⟩
  | committed found text => exact ⟨_, .committed (found.moved same) text, rfl, same⟩
  | expired found text => exact ⟨_, .expired (found.moved same) text, rfl, same⟩
  | erased found notCommitted notExpired =>
    refine ⟨_, .erased (found.moved same) notCommitted notExpired, rfl, ?_⟩
    rw [Std.ExtTreeMap.getElem?_erase_self, Std.ExtTreeMap.getElem?_erase_self]

end

/-- Every operation is local to its transaction. -/
theorem does_local (operation : Operation) (io : Bool) (positive : 1 ≤ operation.tsn) :
    Locality.Local (Does operation io) operation.tsn (· = 0) := by
  constructor
  · rintro before told after ⟨out, ran, _, rfl⟩ key differs
    cases operation with
    | write header data => exact (addLogEntry_cases ran).frame differs
    | commit header => exact (commit_cases ran).frame differs
    | abort header => exact (abort_cases ran).frame differs
  · rintro before told after other ⟨out, ran, rfl, rfl⟩ same
    have own := same operation.tsn (Or.inl rfl)
    have role := same 0 (Or.inr rfl)
    cases operation with
    | write header data =>
      obtain ⟨next, adds, told, record⟩ := adds_moves (addLogEntry_cases ran) positive own role
      exact ⟨next.log, ⟨next, addLogEntry_of_case adds, told.symm, rfl⟩, record⟩
    | commit header =>
      obtain ⟨next, commits, told, record⟩ := commits_moves (commit_cases ran) positive own role
      exact ⟨next.log, ⟨next, commit_of_case commits, told.symm, rfl⟩, record⟩
    | abort header =>
      obtain ⟨next, aborts, told, record⟩ := aborts_moves (abort_cases ran) own
      exact ⟨next.log, ⟨next, abort_of_case aborts, told.symm, rfl⟩, record⟩

section
variable {log : Log} {io : Bool} {out : Outcome}

/-- An operation appends to the file that its transaction names. -/
theorem run_path {operation : Operation} (ran : operation.run io log = .ok out) :
    ∀ append ∈ appends out.effects, getFileName log operation.tsn = .ok append.path := by
  intro append member
  have inside := mem_appends.mp member
  cases operation with
  | write header data => exact (addLogEntry_cases ran).appends inside
  | commit header => exact (commit_cases ran).appends inside
  | abort header =>
    cases abort_cases ran with
    | absent | committed | expired | erased => cases inside

end

/-- What is appended to one file, when `denotes` says which file a name opens. -/
def appendsTo {φ : Type} [DecidableEq φ] (denotes : Text → φ) (file : φ) (effects : List Effect) : List Append :=
  (appends effects).filter fun append => denotes append.path = file

theorem appendsTo_append {φ : Type} [DecidableEq φ] (denotes : Text → φ) (file : φ) (one two : List Effect) :
    appendsTo denotes file (one ++ two) = appendsTo denotes file one ++ appendsTo denotes file two := by
  simp only [appendsTo, appends, List.filterMap_append, List.filter_append]

/-- An append to the file of one name leaves nothing for the file of another. -/
theorem appendsTo_nil {φ : Type} [DecidableEq φ] {denotes : Text → φ} {file : φ} {effects : List Effect}
    (elsewhere : ∀ append ∈ appends effects, denotes append.path ≠ file) : appendsTo denotes file effects = [] := by
  rw [appendsTo, List.filter_eq_nil_iff]
  intro append member
  rw [decide_eq_true_iff]
  exact elsewhere append member

/-- Two requests on different transactions can be executed in either order. -/
theorem operations_commute {one two : Operation} {ioOne ioTwo : Bool} {log : Log} {first second : Outcome} (positiveOne : 1 ≤ one.tsn)
    (positiveTwo : 1 ≤ two.tsn) (differs : one.tsn ≠ two.tsn) (ranOne : one.run ioOne log = .ok first)
    (ranTwo : two.run ioTwo first.log = .ok second) :
    ∃ earlier later, two.run ioTwo log = .ok earlier ∧ one.run ioOne earlier.log = .ok later ∧ later.log = second.log ∧
      later.ret = first.ret ∧ later.code = first.code ∧ earlier.ret = second.ret ∧ earlier.code = second.code ∧
      ∀ (φ : Type) [DecidableEq φ] (denotes : Text → φ),
        (∀ path other, getFileName log one.tsn = .ok path → getFileName log two.tsn = .ok other → denotes path ≠ denotes other) →
        ∀ file, appendsTo denotes file (earlier.effects ++ later.effects) = appendsTo denotes file (first.effects ++ second.effects) := by
  have unread {tsn : Int} (positive : 1 ≤ tsn) : ¬ tsn = 0 := by omega
  obtain ⟨swapped, ⟨earlier, ranEarlier, toldTwo, rfl⟩, ⟨later, ranLater, toldOne, same⟩⟩ :=
    (does_local one ioOne positiveOne).commute (does_local two ioTwo positiveTwo) differs (unread positiveOne) (unread positiveTwo)
      ⟨first, ranOne, rfl, rfl⟩ ⟨second, ranTwo, rfl, rfl⟩
  simp only [result, Result.mk.injEq] at toldOne toldTwo
  obtain ⟨retOne, codeOne, appendedOne⟩ := toldOne
  obtain ⟨retTwo, codeTwo, appendedTwo⟩ := toldTwo
  refine ⟨earlier, later, ranEarlier, ranLater, same.symm, retOne.symm, codeOne.symm, retTwo.symm, codeTwo.symm, ?_⟩
  intro φ _ denotes distinct file
  have moved : appendsTo denotes file later.effects = appendsTo denotes file first.effects := by
    simp only [appendsTo, appendedOne]
  have kept : appendsTo denotes file earlier.effects = appendsTo denotes file second.effects := by
    simp only [appendsTo, appendedTwo]
  rw [appendsTo_append, appendsTo_append, moved, kept]
  -- one of the two operations appends nothing to this file
  by_cases writes : ∃ append ∈ appends first.effects, denotes append.path = file
  · obtain ⟨append, member, rfl⟩ := writes
    have nothing : appendsTo denotes (denotes append.path) second.effects = [] := by
      rw [← kept]
      apply appendsTo_nil
      intro other inside alike
      exact distinct append.path other.path (run_path ranOne append member) (run_path ranEarlier other inside) alike.symm
    rw [nothing, List.nil_append, List.append_nil]
  · have nothing : appendsTo denotes file first.effects = [] :=
      appendsTo_nil fun append member alike => writes ⟨append, member, alike⟩
    rw [nothing, List.nil_append, List.append_nil]

/-- A backup with two transactions; the first waits for its only write. -/
def twoTransactions : Log :=
  let log := serverData ∅ "ip" "81" "backup" "dir"
  let log := log.insert 5 ((freshRecord "aa").insert (-1) ("WAITING", "1"))
  log.insert 6 ((freshRecord "bb").insert 1 ("WRITE 6 1 1", "y"))

/-- The write that completes one commit and the commit of the other. -/
theorem completing_write_and_commit_commute :
    ∃ first second earlier later, addLogEntry twoTransactions "WRITE 5 1 1" "x" true = .ok first ∧
      LogHandler.commit first.log "COMMIT 6 1 0" true = .ok second ∧ LogHandler.commit twoTransactions "COMMIT 6 1 0" true = .ok earlier ∧
      addLogEntry earlier.log "WRITE 5 1 1" "x" true = .ok later ∧ later.log = second.log ∧
      appendsTo id "aa" (earlier.effects ++ later.effects) = appendsTo id "aa" (first.effects ++ second.effects) := by
  obtain ⟨first, ranOne⟩ := returned_of_isOk (show (addLogEntry twoTransactions "WRITE 5 1 1" "x" true).isOk by decide +kernel)
  have both : (addLogEntry twoTransactions "WRITE 5 1 1" "x" true >>= fun first => LogHandler.commit first.log "COMMIT 6 1 0" true).isOk := by
    decide +kernel
  rw [ranOne, ok_bind] at both
  obtain ⟨second, ranTwo⟩ := returned_of_isOk both
  have writes : (Operation.write "WRITE 5 1 1" "x").run true twoTransactions = .ok first := ranOne
  have commits : (Operation.commit "COMMIT 6 1 0").run true first.log = .ok second := ranTwo
  obtain ⟨earlier, later, ranEarlier, ranLater, same, _, _, _, _, files⟩ :=
    operations_commute (by decide +kernel) (by decide +kernel) (by decide +kernel) writes commits
  refine ⟨first, second, earlier, later, ranOne, ranTwo, ranEarlier, ranLater, same, files Text id ?_ "aa"⟩
  intro path other named others
  have names : getFileName twoTransactions 5 = .ok "aa" ∧ getFileName twoTransactions 6 = .ok "bb" := by decide +kernel
  cases names.1.symm.trans named
  cases names.2.symm.trans others
  decide

end TransactionalServer.Proofs.Commutation
