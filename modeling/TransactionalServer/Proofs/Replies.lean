import TransactionalServer.Proofs.Headers

/-! Answer packets and what the client makes of the first one it reads. -/

namespace TransactionalServer.Proofs
open ServerTools Exec

/-- An answer repeats the transaction and the number of the header it answers. -/
theorem genAnswerStr_of_fields {header first tsn seq : Text} {rest : List Text}
    (shape : fields header = first :: tsn :: seq :: rest) (method code errString : Text) :
    ∃ tail, genAnswerStr method header code errString = .ok (compose method tsn seq (code ++ ' ' :: tail)) := by
  have space : " ".toList = [' '] := by decide
  have front (tail : Text) : method ++ " ".toList ++ tsn ++ " ".toList ++ seq ++ " ".toList ++ code ++ " ".toList ++ tail =
      compose method tsn seq (code ++ ' ' :: tail) := by
    rw [space]
    simp [compose]
  simp only [genAnswerStr, shape, pure_eq_ok]
  split
  · refine ⟨"0".toList ++ "\r\n\r\n\r\n".toList, ?_⟩
    rw [← front, List.append_assoc _ "0".toList]
  · refine ⟨iToS (toInt errString.length) ++ "\r\n\r\n".toList ++ errString ++ "\r\n".toList, ?_⟩
    rw [← front]
    simp only [List.append_assoc]

theorem genAnswerStr_shape {method header code errString text : Text}
    (answered : genAnswerStr method header code errString = .ok text) :
    ∃ first tsn seq rest tail, fields header = first :: tsn :: seq :: rest ∧
      text = compose method tsn seq (code ++ ' ' :: tail) := by
  match shape : fields header with
  | first :: tsn :: seq :: rest =>
    obtain ⟨tail, same⟩ := genAnswerStr_of_fields shape method code errString
    rw [same, Except.ok.injEq] at answered
    exact ⟨first, tsn, seq, rest, tail, rfl, answered.symm⟩
  | [] => simp [genAnswerStr, shape] at answered
  | [_] => simp [genAnswerStr, shape] at answered
  | [_, _] => simp [genAnswerStr, shape] at answered

/-- One word of a reply's first line. -/
structure Word (text : Text) : Prop where
  field : FieldText text
  oneLine : '\n' ∉ text

instance (text : Text) : Decidable (Word text) :=
  decidable_of_iff (FieldText text ∧ '\n' ∉ text) ⟨fun word => ⟨word.1, word.2⟩, fun word => ⟨word.1, word.2⟩⟩

theorem iToS_word (value : Int) : Word (iToS value) := by
  refine ⟨iToS_field value, ?_⟩
  intro member
  rcases Decimal.render_char member with digit | same
  · revert digit
    decide
  · revert same
    decide

theorem Word.clean {text : Text} (word : Word text) : Fields.Clean [' '] text := by
  intro char member space
  apply word.field char member
  rw [List.mem_singleton.mp space]
  decide

/-- The first four words that `sendReceive` returns are those of the answer. -/
theorem readReply_words {method tsn seq code tail : Text} (first : Word method) (second : Word tsn) (third : Word seq)
    (fourth : Word code) :
    ∃ rest, Fields.split [' '] (Client.readReply (compose method tsn seq (code ++ ' ' :: tail))) =
      method :: tsn :: seq :: code :: rest := by
  have line : '\n' ∉ compose method tsn seq (code ++ [' ']) := by
    simp [compose, first.oneLine, second.oneLine, third.oneLine, fourth.oneLine]
  have shape : compose method tsn seq (code ++ ' ' :: tail) = compose method tsn seq (code ++ [' ']) ++ tail := by
    simp [compose]
  have kept : ∀ char ∈ compose method tsn seq (code ++ [' ']), decide (char ≠ '\n') = true :=
    fun char member => decide_eq_true (fun same => line (same ▸ member))
  have header : (Client.firstLine (compose method tsn seq (code ++ ' ' :: tail))).1 =
      compose method tsn seq (code ++ ' ' :: tail.takeWhile (fun char => decide (char ≠ '\n'))) := by
    rw [Client.firstLine, shape, List.takeWhile_append_of_pos kept]
    simp [compose]
  have space : ' ' ∈ [' '] := List.mem_singleton.mpr rfl
  simp only [Client.readReply, header]
  generalize (Client.firstLine _).2 = rest
  simp only [compose, List.append_assoc, List.cons_append]
  rw [Fields.split_field first.clean space, Fields.split_field second.clean space, Fields.split_field third.clean space,
    Fields.split_field fourth.clean space]
  exact ⟨_, rfl⟩

end TransactionalServer.Proofs
