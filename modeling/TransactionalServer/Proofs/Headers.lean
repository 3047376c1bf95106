import TransactionalServer.Client

/-! The fields of the headers that the program composes itself, and what the
parser reads in them. -/

namespace TransactionalServer.Proofs
open ServerTools

/-- The values a C++ `int` can hold. -/
def IsInt (value : Int) : Prop := -2147483648 ≤ value ∧ value < 2147483648

instance (value : Int) : Decidable (IsInt value) := inferInstanceAs (Decidable (_ ∧ _))

abbrev FieldText (text : Text) : Prop := Fields.Clean ['\t', ' '] text

theorem toInt_isInt (value : Int) : IsInt (toInt value) := Decimal.wrap_range value

theorem toInt_of_isInt {value : Int} (range : IsInt value) : toInt value = value :=
  Decimal.wrap_of_range range.1 range.2

theorem atoi_isInt (text : Text) : IsInt (atoi text) := Decimal.wrap_range _

theorem atoi_iToS {value : Int} (range : IsInt value) : atoi (iToS value) = value := by
  have clamped : max (-9223372036854775808) (min 9223372036854775807 value) = value := by
    obtain ⟨low, high⟩ := range
    omega
  rw [atoi, iToS, Decimal.prefixValue_render, clamped, toInt_of_isInt range]

theorem lexicalCast_iToS {value : Int} (range : IsInt value) : lexicalCast (iToS value) = some value := by
  rw [lexicalCast, iToS, Decimal.parse_render]
  simpa [IsInt] using range

theorem lexicalCast_isInt {text : Text} {value : Int} (read : lexicalCast text = some value) : IsInt value := by
  obtain ⟨_, range⟩ := Option.filter_eq_some_iff.mp read
  simpa [IsInt] using range

private theorem getD_isInt (text : Text) : IsInt ((lexicalCast text).getD (-100)) := by
  cases read : lexicalCast text with
  | none => decide
  | some value => exact lexicalCast_isInt read

theorem getTsn_isInt (header : Text) : IsInt (getTsn header) := by
  unfold getTsn
  split
  · decide
  · exact getD_isInt _

theorem getSeq_isInt (header : Text) : IsInt (getSeq header) := by
  unfold getSeq
  split
  · decide
  · exact getD_isInt _

theorem getBytes_isInt (header : Text) : IsInt (getBytes header) := by
  unfold getBytes
  split
  · decide
  · exact atoi_isInt _

theorem iToS_field (value : Int) : FieldText (iToS value) := by
  intro char member separates
  rcases Decimal.render_char member with digit | rfl
  · simp only [List.mem_cons, List.not_mem_nil, or_false] at separates
    rcases separates with rfl | rfl <;> simp [Char.isDigit] at digit
  · revert separates
    decide

theorem field_of_fields {header field : Text} (member : field ∈ fields header) : FieldText field :=
  Fields.split_clean member

theorem fields_cons {field : Text} (clean : FieldText field) (rest : Text) :
    fields (field ++ ' ' :: rest) = field :: fields rest :=
  Fields.split_field clean (by decide) rest

theorem fields_cons_tab {field : Text} (clean : FieldText field) (rest : Text) :
    fields (field ++ '\t' :: rest) = field :: fields rest :=
  Fields.split_field clean (by decide) rest

theorem fields_last {field : Text} (clean : FieldText field) : fields field = [field] := Fields.split_last clean

/-- Four fields and single spaces between them. -/
def compose (method tsn seq length : Text) : Text := method ++ ' ' :: (tsn ++ ' ' :: (seq ++ ' ' :: length))

theorem fields_compose {method tsn seq : Text} (first : FieldText method) (second : FieldText tsn) (third : FieldText seq)
    (length : Text) : fields (compose method tsn seq length) = method :: tsn :: seq :: fields length := by
  rw [compose, fields_cons first, fields_cons second, fields_cons third]

section
variable {header method tsn seq : Text} {rest : List Text}

theorem parse_of_fields (shape : fields header = method :: rest) : parse header = (methodMap.lookup method).getD 0 := by
  simp only [parse, shape]

theorem getTsn_of_fields (shape : fields header = method :: tsn :: rest) : getTsn header = (lexicalCast tsn).getD (-100) := by
  simp only [getTsn, shape, List.getElem?_cons_succ, List.getElem?_cons_zero]

theorem getSeq_of_fields (shape : fields header = method :: tsn :: seq :: rest) :
    getSeq header = (lexicalCast seq).getD (-100) := by
  simp only [getSeq, shape, List.getElem?_cons_succ, List.getElem?_cons_zero]

theorem getBytes_of_fields {length : Text} (shape : fields header = method :: tsn :: seq :: length :: rest) :
    getBytes header = atoi length := by
  simp only [getBytes, shape, List.getElem?_cons_succ, List.getElem?_cons_zero]

theorem needsData_of_parse {other : Text} (same : parse header = parse other) : needsData header = needsData other := by
  simp only [needsData, same]

end

/-- The length field that `genEcho` writes. -/
def echoLength (data : Text) : Text := if data.length < 2 then "0" else iToS (toInt (toInt data.length + 1))

theorem echoLength_field (data : Text) : FieldText (echoLength data) := by
  unfold echoLength
  split
  · decide
  · exact iToS_field _

theorem echoHeader_of_fields {header method tsn seq : Text} {rest : List Text}
    (shape : fields header = method :: tsn :: seq :: rest) (data : Text) :
    Client.echoHeader header data = .ok (compose method tsn seq (echoLength data)) := by
  have space : " ".toList = [' '] := rfl
  simp only [Client.echoHeader, shape, Exec.pure_eq_ok, compose, echoLength, space, List.append_assoc,
    List.cons_append, List.nil_append]

theorem fields_echo {header method tsn seq : Text} {rest : List Text}
    (shape : fields header = method :: tsn :: seq :: rest) (data : Text) :
    fields (compose method tsn seq (echoLength data)) = [method, tsn, seq, echoLength data] := by
  have clean {field : Text} (member : field ∈ method :: tsn :: seq :: rest) : FieldText field :=
    field_of_fields (shape ▸ member)
  rw [fields_compose (clean (by simp)) (clean (by simp)) (clean (by simp)), fields_last (echoLength_field data)]

end TransactionalServer.Proofs
