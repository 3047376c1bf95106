import TransactionalServer.Proofs.Framing
import TransactionalServer.Proofs.Settling

/-! The packets that the primary echoes to its backup, read back from the
stream. The encoder and the decoder differ on what counts as data. -/

namespace TransactionalServer.Proofs.Echo
open ServerTools LogHandler Client Connection Framing

/-- What the primary queues for its backup with data: a WRITE as `handle_read`
produced it, or the MAKE_TXN of an accepted file name. -/
inductive Queued : Text → Text → Prop where
  | write {header data : Text} (valid : validHeader header = true) (method : parse header = 5) (noCR : '\r' ∉ header)
      (noLF : '\n' ∉ header) (oneLine : '\n' ∉ data) : Queued header data
  | newTxn (tsn : Int) {data : Text} (accepted : portablePosixName data = true) :
      Queued ("MAKE_TXN " ++ iToS tsn ++ " 0 0 0") data

/-- The echoed packet, wherever its bytes are cut, is dispatched with the same
method, transaction, sequence number and data. -/
def Faithful (header data : Text) : Prop :=
  ∃ packet, genEcho header data = .ok packet ∧ ∀ conn rest, Between conn (packet ++ rest) →
    ∃ echoed next, handleRead conn = some (.execute echoed data, next) ∧
      parse echoed = parse header ∧ getTsn echoed = getTsn header ∧ getSeq echoed = getSeq header

/-- What the echo needs to know about a queued packet. -/
structure Shape (header data : Text) (method tsn seq : Text) : Prop where
  fields : ∃ rest, ServerTools.fields header = method :: tsn :: seq :: rest
  known : parse header ≠ 0
  oneLine : '\n' ∉ data
  clean : ∀ field ∈ [method, tsn, seq], '\r' ∉ field ∧ '\n' ∉ field
  size : 4 ≤ method.length

private theorem write_of_parse {header method : Text} {rest : List Text} (shape : fields header = method :: rest)
    (write : parse header = 5) : method = "WRITE".toList := by
  rw [parse_of_fields shape] at write
  by_contra other
  revert write
  simp only [methodMap, List.lookup_cons, List.lookup_nil]
  repeat' split
  all_goals simp_all

private theorem four_fields {header : Text} (valid : validHeader header = true) :
    ∃ method tsn seq length, fields header = [method, tsn, seq, length] := by
  have count : (fields header).length = 4 := by simpa [validHeader] using valid
  rcases shape : fields header with _ | ⟨method, rest⟩
  · rw [shape] at count
    cases count
  rw [shape] at count
  obtain ⟨tsn, seq, length, same⟩ := List.length_eq_three.mp (Nat.succ.inj count)
  exact ⟨method, tsn, seq, length, by rw [same]⟩

theorem portable_oneLine {name : Text} (accepted : portablePosixName name = true) : '\n' ∉ name := by
  intro member
  obtain ⟨_, every⟩ := (Bool.and_eq_true _ _).mp accepted
  have char := List.all_eq_true.mp every _ member
  revert char
  decide

private theorem iToS_line (value : Int) : '\r' ∉ iToS value ∧ '\n' ∉ iToS value := by
  constructor
  all_goals
    intro member
    rcases Decimal.render_char member with digit | same
    · revert digit
      decide
    · revert same
      decide

theorem shape_of_queued {header data : Text} (queued : Queued header data) :
    needsData header = true ∧ ∃ method tsn seq, Shape header data method tsn seq := by
  cases queued with
  | write valid write noCR noLF oneLine =>
    obtain ⟨method, tsn, seq, length, shape⟩ := four_fields valid
    refine ⟨by simp [needsData, write], method, tsn, seq, ⟨[length], shape⟩, by simp [write], oneLine, ?_, ?_⟩
    · intro field member
      have inside : field ∈ fields header := by
        rw [shape]
        exact List.mem_append_left [length] member
      exact ⟨fun bad => noCR (Fields.split_mem inside _ bad).1, fun bad => noLF (Fields.split_mem inside _ bad).1⟩
    · rw [write_of_parse shape write]
      decide
  | newTxn tsn accepted =>
    have shape := makeTxnHeader_fields tsn
    have method : parse ("MAKE_TXN " ++ iToS tsn ++ " 0 0 0" : Text) = 6 := by
      rw [parse_of_fields shape]
      rfl
    refine ⟨by simp only [needsData, method], _, _, _, ⟨_, shape⟩, by rw [method]; decide, portable_oneLine accepted, ?_, by decide⟩
    · simp only [List.mem_cons, List.not_mem_nil, or_false, forall_eq_or_imp, forall_eq]
      exact ⟨by decide, iToS_line tsn, by decide⟩

private theorem echoed_line {data method tsn seq : Text} {char : Char} (space : char ≠ ' ')
    (clean : ∀ field ∈ [method, tsn, seq], char ∉ field) (length : char ∉ echoLength data) :
    char ∉ compose method tsn seq (echoLength data) := by
  simp only [List.mem_cons, List.not_mem_nil, or_false, forall_eq_or_imp, forall_eq] at clean
  simp [compose, space, clean, length]

/-- A header that announces less than the payload, read before the payload
has arrived. -/
private theorem understated_length_loses_data {header data : Text} (ok : HeaderOk header) (needed : needsData header = true)
    (oneLine : '\n' ∉ data) (present : 0 < data.length) (less : 0 < getBytes header → getBytes header < data.length)
    (executed : Text) (next : Connection) :
    handleRead { segments := [header ++ "\r\n\r\n".toList, data ++ "\n".toList] } ≠ some (.execute executed data, next) := by
  have found : hasBlankLine (header ++ "\r\n\r\n".toList) = true := by
    rw [hasBlankLine_clean ok.noCR]
    rfl
  have read : Segments.readUntil hasBlankLine [] [header ++ "\r\n\r\n".toList, data ++ "\n".toList] =
      some ([] ++ (header ++ ("\r\n\r\n".toList ++ [])), [data ++ "\n".toList]) := by
    simp only [Segments.readUntil, List.nil_append, List.append_nil, found]
    rfl
  have starts : toInt ([] : Text).length = 0 := rfl
  rw [round_found ok .none read (getline_empty ['\r'])]
  simp only [starts, dataAttached_eq, needed, Bool.true_and, decide_eq_true_eq]
  intro round
  split at round
  next positive =>
    split at round
    next =>
      obtain ⟨count, length⟩ : ∃ count : Nat, getBytes header = count := ⟨_, (Int.toNat_of_nonneg (by omega)).symm⟩
      have short := less positive
      have asked : completionCondition false 0 (toInt (getBytes header - 0)) = count := by
        have bound := (getBytes_isInt header).2
        simp only [completionCondition, Bool.false_eq_true, if_false, Int.sub_zero, toInt_of_isInt (getBytes_isInt header)]
        omega
      obtain ⟨_, taken, _⟩ := Segments.take_exact count [data ++ "\n".toList] (by simp; omega)
      have part : List.take count [data ++ "\n".toList].flatten = data.take count := by
        simp only [List.flatten_cons, List.flatten_nil, List.append_nil]
        exact List.take_append_of_le_length (by omega)
      have partLine : '\n' ∉ data.take count := fun member => oneLine (List.mem_of_mem_take member)
      obtain ⟨_, line⟩ := getline_piece partLine []
      rw [part] at taken
      simp only [asked, taken, List.nil_append, line, Option.bind_eq_bind, Option.bind_some, Option.some.injEq,
        Prod.mk.injEq, Event.execute.injEq] at round
      have same := congrArg List.length round.1.2
      rw [List.length_take] at same
      omega
    next =>
      cases round
      simp at present
  next => cases round

section
variable {header data method tsn seq : Text} (shape : Shape header data method tsn seq)
include shape

private theorem echoed_ok : HeaderOk (compose method tsn seq (echoLength data)) := by
  obtain ⟨rest, fields⟩ := shape.fields
  have echoed := fields_echo fields data
  have number : '\r' ∉ echoLength data ∧ '\n' ∉ echoLength data := by
    unfold echoLength
    split
    · decide
    · exact iToS_line _
  refine ⟨by simp [validHeader, echoed], ?_, ?_, ?_, ?_⟩
  · rw [parse_of_fields echoed, ← parse_of_fields fields]
    exact shape.known
  · exact echoed_line (by decide) (fun field member => (shape.clean field member).1) number.1
  · exact echoed_line (by decide) (fun field member => (shape.clean field member).2) number.2
  · have long := shape.size
    have present : echoLength data ≠ [] := by
      unfold echoLength
      split
      · decide
      · exact Decimal.render_ne_nil _
    have last := List.length_pos_iff.mpr present
    simp only [compose, List.length_append, List.length_cons]
    omega

private theorem echoed_bytes : getBytes (compose method tsn seq (echoLength data)) = atoi (echoLength data) := by
  obtain ⟨_, fields⟩ := shape.fields
  exact getBytes_of_fields (fields_echo fields data)

private theorem echoed_needed : needsData (compose method tsn seq (echoLength data)) = needsData header := by
  obtain ⟨_, fields⟩ := shape.fields
  exact needsData_of_parse ((parse_of_fields (fields_echo fields data)).trans (parse_of_fields fields).symm)

private theorem echoed_same :
    parse (compose method tsn seq (echoLength data)) = parse header ∧
      getTsn (compose method tsn seq (echoLength data)) = getTsn header ∧
      getSeq (compose method tsn seq (echoLength data)) = getSeq header := by
  obtain ⟨_, fields⟩ := shape.fields
  have echoed := fields_echo fields data
  refine ⟨?_, ?_, ?_⟩
  · exact (parse_of_fields echoed).trans (parse_of_fields fields).symm
  · exact (getTsn_of_fields echoed).trans (getTsn_of_fields fields).symm
  · exact (getSeq_of_fields echoed).trans (getSeq_of_fields fields).symm

private theorem genEcho_short (short : data.length < 2) :
    genEcho header data = .ok (compose method tsn seq (echoLength data) ++ "\r\n\r\n\r\n".toList) := by
  obtain ⟨_, fields⟩ := shape.fields
  simp only [genEcho, echoHeader_of_fields fields, Exec.ok_bind, short, if_true, Exec.pure_eq_ok]

private theorem genEcho_long (long : ¬ data.length < 2) :
    genEcho header data =
      .ok (compose method tsn seq (echoLength data) ++ "\r\n\r\n".toList ++ data ++ "\n".toList) := by
  obtain ⟨_, fields⟩ := shape.fields
  simp only [genEcho, echoHeader_of_fields fields, Exec.ok_bind, long, if_false, Exec.pure_eq_ok]

private theorem echoed_announced (long : 2 ≤ data.length) (bounded : data.length < 2147483647) :
    getBytes (compose method tsn seq (echoLength data)) = data.length + 1 := by
  have notShort : ¬ data.length < 2 := by omega
  have size : IsInt data.length := by constructor <;> omega
  have next : IsInt (data.length + 1) := by constructor <;> omega
  rw [echoed_bytes shape, echoLength, if_neg notShort, toInt_of_isInt size, toInt_of_isInt next, atoi_iToS next]

private theorem echoed_absent (short : data.length < 2) : getBytes (compose method tsn seq (echoLength data)) = 0 := by
  rw [echoed_bytes shape, echoLength, if_pos short]
  rfl

/-- `Backup.echoed` is what the backup's session takes off the stream. -/
theorem echoed_is_taken (bounded : data.length < 2147483647) (used : needsData header = true ∨ data.length < 2) :
    ∃ packet : Packet, genEcho header data = .ok packet.bytes ∧
      Backup.echoed header data = .ok (packet.header, packet.payload) ∧
      ∀ conn rest, Between conn (packet.bytes ++ rest) →
        ∃ next, handleRead conn = some (packet.event, next) ∧ Between next rest := by
  obtain ⟨_, fields⟩ := shape.fields
  have echoed (payload : Option Text)
      (same : (if dataAttached (compose method tsn seq (echoLength data)) then some data else none) = payload) :
      Backup.echoed header data = .ok (compose method tsn seq (echoLength data), payload) := by
    simp only [Backup.echoed, echoHeader_of_fields fields, Exec.ok_bind, Exec.pure_eq_ok, same]
  by_cases short : data.length < 2
  · have absent := echoed_absent shape short
    have detached : dataAttached (compose method tsn seq (echoLength data)) = false := by simp [dataAttached_eq, absent]
    let packet : Packet := ⟨compose method tsn seq (echoLength data), none, echoed_ok shape, absent⟩
    refine ⟨packet, ?_, echoed none (by simp [detached]), fun conn rest between => round_takes_packet between⟩
    rw [genEcho_short shape short]
    simp only [packet, Packet.bytes, tail]
    rfl
  · have needed : needsData (compose method tsn seq (echoLength data)) = true := by
      rcases used with needed | absurd
      · exact (echoed_needed shape).trans needed
      · exact False.elim (short absurd)
    have announced := echoed_announced shape (by omega) bounded
    have attached : dataAttached (compose method tsn seq (echoLength data)) = true := by simp [dataAttached_eq, needed, announced]
    let packet : Packet :=
      ⟨compose method tsn seq (echoLength data), some data, echoed_ok shape, needed, shape.oneLine, announced⟩
    refine ⟨packet, ?_, echoed (some data) (by simp [attached]), fun conn rest between => round_takes_packet between⟩
    rw [genEcho_long shape short]
    simp only [packet, Packet.bytes, tail, List.append_assoc]

theorem faithful_of_size (needed : needsData header = true) (long : 2 ≤ data.length) (bounded : data.length < 2147483647) :
    Faithful header data := by
  have notShort : ¬ data.length < 2 := by omega
  have announced := echoed_announced shape long bounded
  let packet : Packet :=
    ⟨compose method tsn seq (echoLength data), some data, echoed_ok shape, (echoed_needed shape).trans needed, shape.oneLine,
      announced⟩
  refine ⟨packet.bytes, ?_, ?_⟩
  · rw [genEcho_long shape notShort]
    simp only [packet, Packet.bytes, tail, List.append_assoc]
  · intro conn rest between
    obtain ⟨next, taken, _⟩ := round_takes_packet between
    exact ⟨_, next, taken, echoed_same shape⟩

/-- Data of less than two bytes is announced as no data at all. -/
theorem unfaithful_of_short (needed : needsData header = true) (short : data.length < 2) : ¬ Faithful header data := by
  rintro ⟨bytes, generated, faithful⟩
  have absent := echoed_absent shape short
  let packet : Packet := ⟨compose method tsn seq (echoLength data), none, echoed_ok shape, absent⟩
  have same : bytes = packet.bytes := by
    rw [genEcho_short shape short] at generated
    cases generated
    simp only [packet, Packet.bytes, tail]
    rfl
  have between : Between { segments := [bytes] } (packet.bytes ++ []) := ⟨rfl, [], .none, by simp [same]⟩
  obtain ⟨next, taken, _⟩ := round_takes_packet between
  obtain ⟨echoed, other, executed, _⟩ := faithful { segments := [bytes] } [] ⟨rfl, [], .none, by simp⟩
  rw [taken] at executed
  simp only [Packet.event, packet, echoed_needed shape, needed, if_true, Option.some.injEq, Prod.mk.injEq, reduceCtorEq,
    false_and] at executed

private theorem overflowed_length (huge : 2147483647 ≤ data.length)
    (positive : 0 < getBytes (compose method tsn seq (echoLength data))) :
    getBytes (compose method tsn seq (echoLength data)) < data.length := by
  have notShort : ¬ data.length < 2 := by omega
  rw [echoed_bytes shape, echoLength, if_neg notShort, atoi_iToS (toInt_isInt _)] at positive ⊢
  simp only [toInt, Decimal.wrap, Int.bmod_def] at positive ⊢
  omega

/-- Data from 2^31 - 1 bytes on is announced with a length that has overflowed. -/
theorem unfaithful_of_huge (needed : needsData header = true) (huge : 2147483647 ≤ data.length) : ¬ Faithful header data := by
  rintro ⟨bytes, generated, faithful⟩
  rw [genEcho_long shape (by omega)] at generated
  cases generated
  have ok := echoed_ok shape
  obtain ⟨_, next, executed, _⟩ := faithful
    { segments := [compose method tsn seq (echoLength data) ++ "\r\n\r\n".toList, data ++ "\n".toList] } []
    ⟨rfl, [], .none, by simp⟩
  exact understated_length_loses_data ok ((echoed_needed shape).trans needed) shape.oneLine (by omega)
    (overflowed_length shape huge) _ _ executed

end

/-- A queued packet reaches the backup as it was queued exactly when its data
has at least two bytes and its length plus one is an `int`. -/
theorem echo_is_faithful_exactly_for_sizes {header data : Text} (queued : Queued header data) :
    Faithful header data ↔ 2 ≤ data.length ∧ data.length < 2147483647 := by
  obtain ⟨needed, method, tsn, seq, shape⟩ := shape_of_queued queued
  constructor
  · intro faithful
    refine ⟨?_, ?_⟩
    · by_contra short
      exact unfaithful_of_short shape needed (by omega) faithful
    · by_contra huge
      exact unfaithful_of_huge shape needed (by omega) faithful
  · rintro ⟨long, bounded⟩
    exact faithful_of_size shape needed long bounded

theorem two_byte_write_is_echoed : Faithful "WRITE 5 1 3" "ab" :=
  (echo_is_faithful_exactly_for_sizes
    (.write (by decide) (by decide) (by decide) (by decide) (by decide))).mpr ⟨by decide, by decide⟩

theorem one_byte_write_is_lost :
    (addLogEntry ((∅ : Log).insert 5 (freshRecord "file")) "WRITE 5 1 2" "x" true).map (·.ret) = .ok true ∧
      Queued "WRITE 5 1 2" "x" ∧ ¬ Faithful "WRITE 5 1 2" "x" := by
  have queued : Queued "WRITE 5 1 2" "x" := .write (by decide) (by decide) (by decide) (by decide) (by decide)
  obtain ⟨needed, method, tsn, seq, shape⟩ := shape_of_queued queued
  exact ⟨by decide +kernel, queued, unfaithful_of_short shape needed (by decide)⟩

end TransactionalServer.Proofs.Echo
