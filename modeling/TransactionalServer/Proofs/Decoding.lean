import TransactionalServer.Receiving
import TransactionalServer.Proofs.Lines
import TransactionalServer.Proofs.Replies

/-! Replies on a byte stream. A call of `sendReceive` waits for the blank line
and for an announced message, and for nothing else: the line end of a reply that
announces none may come too late for it. -/

namespace TransactionalServer.Proofs.Decoding
open ServerTools Client Exec

/-- A word of an answer that the code writes there itself. -/
structure Fixed (text : Text) : Prop where
  word : Word text
  noCR : '\r' ∉ text

/-- A reply that `genAnswerStr` builds for a header on one line, with a message
on one line. -/
structure Reply where
  method : Text
  header : Text
  code : Text
  message : Text
  bytes : Text
  built : genAnswerStr method header code message = .ok bytes
  methodOk : Fixed method
  codeOk : Fixed code
  headerLine : '\r' ∉ header ∧ '\n' ∉ header
  messageLine : '\r' ∉ message ∧ '\n' ∉ message

namespace Reply

/-- The length that the reply announces. -/
def announced (reply : Reply) : Int := if reply.message = " " then 0 else toInt reply.message.length

/-- The bytes after the blank line. -/
def tail (reply : Reply) : Text := if reply.message = " " then "\r\n" else reply.message ++ "\r\n"

end Reply

/-- A reply and the segments in which it arrives. -/
structure Cut where
  reply : Reply
  segments : List Text
  whole : segments.flatten = reply.bytes

/-- No segment ends behind the blank line and before the end of the reply. -/
def Cut.Together (cut : Cut) : Prop :=
  ∀ arrived, arrived <+: cut.segments → cut.reply.bytes.length ≤ arrived.flatten.length + cut.reply.tail.length →
    arrived.flatten.length = cut.reply.bytes.length

/-- The leading words of what the call returns are those of the reply. -/
def Names (reply : Reply) (result : Text) : Prop :=
  ∃ first tsn seq rest others, fields reply.header = first :: tsn :: seq :: rest ∧
    Fields.split [' '] result = reply.method :: tsn :: seq :: reply.code :: others

/-- The call returns the words of the reply and leaves none of its bytes. -/
def Decodes (cut : Cut) (call : Text × List Text) : Prop := Names cut.reply call.1 ∧ call.2.flatten = []

section
variable {reply : Reply} {cut : Cut}

/-- The first line of a reply, and its words. -/
structure Line (reply : Reply) (line tsn seq : Text) : Prop where
  bytes : reply.bytes = line ++ ("\r\n\r\n" ++ reply.tail)
  shape : line = compose reply.method tsn seq (reply.code ++ ' ' :: iToS reply.announced)
  named : ∃ first rest, fields reply.header = first :: tsn :: seq :: rest
  tsnOk : Fixed tsn
  seqOk : Fixed seq

theorem field_fixed {header field : Text} (line : '\r' ∉ header ∧ '\n' ∉ header) (member : field ∈ fields header) : Fixed field := by
  have chars := Fields.split_mem member
  refine ⟨⟨field_of_fields member, ?_⟩, ?_⟩
  · exact fun inside => line.2 (chars _ inside).1
  · exact fun inside => line.1 (chars _ inside).1

theorem reply_line (reply : Reply) : ∃ line tsn seq, Line reply line tsn seq := by
  obtain ⟨first, tsn, seq, rest, _, shape, _⟩ := genAnswerStr_shape reply.built
  have tsnOk : Fixed tsn := field_fixed reply.headerLine (by simp [shape])
  have seqOk : Fixed seq := field_fixed reply.headerLine (by simp [shape])
  refine ⟨_, tsn, seq, ?_, rfl, ⟨first, rest, shape⟩, tsnOk, seqOk⟩
  have built := reply.built
  have space : " ".toList = [' '] := by decide
  have front (length : Text) : reply.method ++ " ".toList ++ tsn ++ " ".toList ++ seq ++ " ".toList ++ reply.code ++ " ".toList ++ length =
      compose reply.method tsn seq (reply.code ++ ' ' :: length) := by
    rw [space]
    simp [compose]
  unfold genAnswerStr at built
  simp only [shape, pure_eq_ok] at built
  by_cases bare : reply.message = " "
  · rw [if_pos bare, front, Except.ok.injEq] at built
    have zero : iToS 0 = "0".toList := by decide
    rw [Reply.announced, Reply.tail, if_pos bare, if_pos bare, zero, ← built]
    rfl
  · rw [if_neg bare, front, Except.ok.injEq] at built
    rw [Reply.announced, Reply.tail, if_neg bare, if_neg bare, ← built]
    simp only [List.append_assoc]

theorem Line.clean {line tsn seq : Text} (first : Line reply line tsn seq) : '\r' ∉ line ∧ '\n' ∉ line ∧ line ≠ [] := by
  have digits : '\r' ∉ iToS reply.announced := by
    intro member
    rcases Decimal.render_char member with digit | same
    · revert digit
      decide
    · revert same
      decide
  rw [first.shape]
  refine ⟨?_, ?_, ?_⟩
  · simp [compose, reply.methodOk.noCR, first.tsnOk.noCR, first.seqOk.noCR, reply.codeOk.noCR, digits]
  · simp [compose, reply.methodOk.word.oneLine, first.tsnOk.word.oneLine, first.seqOk.word.oneLine, reply.codeOk.word.oneLine,
      (iToS_word reply.announced).oneLine]
  · simp [compose]

theorem announced_isInt (reply : Reply) : IsInt reply.announced := by
  unfold Reply.announced
  split
  · decide
  · exact toInt_isInt _

/-- The client reads the announced length out of the first line and its CR. -/
theorem Line.length {line tsn seq : Text} (first : Line reply line tsn seq) : getBytesResponse (line ++ ['\r']) = reply.announced := by
  have shape : line ++ ['\r'] = compose reply.method tsn seq (reply.code ++ ' ' :: (iToS reply.announced ++ ['\r'])) := by
    rw [first.shape]
    simp [compose]
  have last : FieldText (iToS reply.announced ++ ['\r']) := by
    intro char member
    rcases List.mem_append.mp member with digit | cr
    · exact iToS_field _ char digit
    · rw [List.mem_singleton.mp cr]
      decide
  have words : fields (line ++ ['\r']) = [reply.method, tsn, seq, reply.code, iToS reply.announced ++ ['\r']] := by
    rw [shape, fields_compose reply.methodOk.word.field first.tsnOk.word.field first.seqOk.word.field, fields_cons reply.codeOk.word.field,
      fields_last last]
  have read : Decimal.prefixValue (iToS reply.announced ++ ['\r']) = reply.announced := by
    apply Decimal.prefixValue_render_append
    intro char member
    cases member
    decide
  have range := announced_isInt reply
  have clamped : max (-9223372036854775808) (min 9223372036854775807 reply.announced) = reply.announced := by
    obtain ⟨low, high⟩ := range
    omega
  simp only [getBytesResponse, words, List.getElem?_cons_succ, List.getElem?_cons_zero, atoi, read, clamped, toInt_of_isInt range]

/-- The words that the client compares. -/
theorem Line.words {line tsn seq : Text} (first : Line reply line tsn seq) (rest : Text) : Names reply (line ++ rest) := by
  obtain ⟨_, _, named⟩ := first.named
  have space : ' ' ∈ [' '] := List.mem_singleton.mpr rfl
  have shape : line ++ rest = reply.method ++ ' ' :: (tsn ++ ' ' :: (seq ++ ' ' :: (reply.code ++ ' ' :: (iToS reply.announced ++ rest)))) := by
    rw [first.shape]
    simp [compose]
  unfold Names
  rw [shape, Fields.split_field reply.methodOk.word.clean space, Fields.split_field first.tsnOk.word.clean space,
    Fields.split_field first.seqOk.word.clean space, Fields.split_field reply.codeOk.word.clean space]
  exact ⟨_, tsn, seq, _, _, named, rfl⟩

theorem hasLineEnd_clean {line : Text} (clean : '\r' ∉ line) (rest : Text) : hasLineEnd (line ++ rest) = hasLineEnd rest := by
  induction line with
  | nil => rfl
  | cons char line ih =>
    obtain ⟨other, clean⟩ := not_or.mp (mt List.mem_cons.mpr clean)
    have differs : List.isPrefixOf "\r\n".toList (char :: (line ++ rest)) = false := by simp [List.isPrefixOf, other]
    rw [List.cons_append, hasLineEnd, differs, Bool.false_or, ih clean]

/-- A message on one line has its only line end at its end. -/
theorem message_complete {message read : Text} (clean : '\r' ∉ message) (inside : read <+: message ++ "\r\n") (found : hasLineEnd read = true) :
    read = message ++ "\r\n" := by
  rcases List.prefix_or_prefix_of_prefix inside (List.prefix_append message _) with short | ⟨rest, rfl⟩
  · obtain ⟨later, same⟩ := short
    have cleanRead : '\r' ∉ read := fun member => clean (same ▸ List.mem_append_left _ member)
    have silent := hasLineEnd_clean cleanRead []
    rw [List.append_nil, found] at silent
    cases silent
  · rw [hasLineEnd_clean clean] at found
    have behind := (List.prefix_append_right_inj message).mp inside
    have whole := List.prefix_iff_eq_take.mp behind
    obtain size | size | size : rest.length = 0 ∨ rest.length = 1 ∨ rest.length = 2 := by
      have bound : rest.length ≤ 2 := behind.length_le
      omega
    all_goals
      rw [size] at whole
      rw [whole] at found ⊢
    · exact absurd found (by decide)
    · exact absurd found (by decide)
    · rfl

theorem prefix_flatten {read segments : List Text} (inside : read <+: segments) : read.flatten <+: segments.flatten := by
  obtain ⟨rest, rfl⟩ := inside
  exact ⟨rest.flatten, List.flatten_append.symm⟩

/-- The first read has taken the whole reply when no segment ends too early. -/
theorem together_iff {line tsn seq extra : Text} (first : Line cut.reply line tsn seq) {left rest taken : List Text} (clear : left.flatten = [])
    (split : left ++ cut.segments = taken ++ rest) (read : taken.flatten = line ++ ("\r\n\r\n" ++ extra))
    (stops : ∀ earlier, earlier <+: left ++ cut.segments → hasBlankLine earlier.flatten = true → taken <+: earlier) :
    rest.flatten = [] ↔ cut.Together := by
  obtain ⟨clean, _, present⟩ := first.clean
  have bytes := first.bytes
  have all : taken.flatten ++ rest.flatten = cut.reply.bytes := by
    rw [← List.flatten_append, ← split, List.flatten_append, clear, List.nil_append, cut.whole]
  have total : taken.flatten.length + rest.flatten.length = cut.reply.bytes.length := by rw [← all, List.length_append]
  have size : cut.reply.bytes.length = line.length + 4 + cut.reply.tail.length := by
    rw [bytes, List.length_append, List.length_append]
    have four : ("\r\n\r\n".toList : Text).length = 4 := by decide
    omega
  constructor
  · intro nothing arrived inside late
    have within : arrived.flatten <+: line ++ ("\r\n\r\n" ++ cut.reply.tail) := by
      rw [← bytes, ← cut.whole]
      exact prefix_flatten inside
    have blank : hasBlankLine arrived.flatten = true := by
      have head : line ++ "\r\n\r\n".toList <+: line ++ ("\r\n\r\n" ++ cut.reply.tail) :=
        ⟨cut.reply.tail, by rw [List.append_assoc]⟩
      have long : line ++ "\r\n\r\n".toList <+: arrived.flatten := by
        apply List.prefix_of_prefix_length_le head within
        rw [List.length_append]
        have four : ("\r\n\r\n".toList : Text).length = 4 := by decide
        omega
      apply hasBlankLine_grows long
      rw [hasBlankLine_clean clean]
      rfl
    have earlier : left ++ arrived <+: left ++ cut.segments := (List.prefix_append_right_inj left).mpr inside
    have flat : (left ++ arrived).flatten = arrived.flatten := by rw [List.flatten_append, clear, List.nil_append]
    have reached := (prefix_flatten (stops _ earlier (flat ▸ blank))).length_le
    have most := (prefix_flatten inside).length_le
    rw [flat] at reached
    rw [cut.whole] at most
    rw [nothing, List.length_nil] at total
    omega
  · intro together
    have inside : taken <+: left ++ cut.segments := ⟨rest, split.symm⟩
    rcases List.prefix_or_prefix_of_prefix inside (List.prefix_append left _) with short | ⟨arrived, rfl⟩
    · have empty := (prefix_flatten short).length_le
      rw [clear, read, List.length_append, List.length_nil] at empty
      have some := List.length_pos_iff.mpr present
      omega
    · have flat : (left ++ arrived).flatten = arrived.flatten := by rw [List.flatten_append, clear, List.nil_append]
      rw [flat] at read total
      have late : cut.reply.bytes.length ≤ arrived.flatten.length + cut.reply.tail.length := by
        rw [read, size, List.length_append, List.length_append]
        have four : ("\r\n\r\n".toList : Text).length = 4 := by decide
        omega
      have complete := together arrived ((List.prefix_append_right_inj left).mp inside) late
      exact List.length_eq_zero_iff.mp (by omega)

theorem Reply.tail_of_announced (announces : 0 < reply.announced) : reply.tail = reply.message ++ "\r\n" := by
  unfold Reply.announced at announces
  unfold Reply.tail
  split at announces
  next => omega
  next given => rw [if_neg given]

/-- Behind the first read the message is awaited to its end. -/
theorem message_read {extra : Text} {rest : List Text} (announces : 0 < cut.reply.announced) (whole : extra ++ rest.flatten = cut.reply.tail) :
    ∃ buffer after, Segments.readUntil hasLineEnd extra rest = some (buffer, after) ∧ after.flatten = [] := by
  have tail := Reply.tail_of_announced announces
  have ends : hasLineEnd (extra ++ rest.flatten) = true := by
    rw [whole, tail, hasLineEnd_clean cut.reply.messageLine.1]
    rfl
  obtain ⟨buffer, after, read⟩ := Segments.readUntil_finishes hasLineEnd extra rest ends
  obtain ⟨found, _, same⟩ := Segments.readUntil_sound read
  rw [whole, tail] at same
  have complete := message_complete cut.reply.messageLine.1 ⟨after.flatten, same⟩ found
  refine ⟨buffer, after, read, ?_⟩
  rw [complete] at same
  exact List.append_right_eq_self.mp same

/-- One call on a socket without leftovers. -/
theorem receiveReply_reads {left : List Text} (clear : left.flatten = []) (cut : Cut) :
    ∃ result rest, receiveReply (left ++ cut.segments) = some (result, rest) ∧ Names cut.reply result ∧
      (rest.flatten = [] ↔ 0 < cut.reply.announced ∨ cut.Together) := by
  obtain ⟨line, tsn, seq, first⟩ := reply_line cut.reply
  obtain ⟨clean, oneLine, present⟩ := first.clean
  have flat : (left ++ cut.segments).flatten = line ++ ("\r\n\r\n" ++ cut.reply.tail) := by
    rw [List.flatten_append, clear, List.nil_append, cut.whole, first.bytes]
  have blank : hasBlankLine ([] ++ (left ++ cut.segments).flatten) = true := by
    rw [List.nil_append, flat, hasBlankLine_clean clean]
    rfl
  obtain ⟨buffer, rest, read⟩ := Segments.readUntil_finishes hasBlankLine [] _ blank
  obtain ⟨found, _, same⟩ := Segments.readUntil_sound read
  obtain ⟨taken, split, rfl, stops⟩ := Segments.readUntil_stops read
  rw [List.nil_append] at found same read
  rw [List.nil_append, flat] at same
  obtain ⟨extra, buffer, _⟩ := header_complete .none clean present ⟨rest.flatten, same⟩ found
  rw [List.nil_append] at buffer
  have behind : extra ++ rest.flatten = cut.reply.tail := by
    rw [buffer, List.append_assoc, List.append_assoc] at same
    exact List.append_cancel_left (List.append_cancel_left same)
  have together := together_iff first clear split buffer stops
  have ending : "\r\n\r\n".toList = ['\r', '\n', '\r', '\n'] := by decide
  have shape : taken.flatten = (line ++ ['\r']) ++ '\n' :: (['\r'] ++ '\n' :: extra) := by
    rw [buffer, ending]
    simp
  have header : getline ⟨taken.flatten, true⟩ [] = (line ++ ['\r'], ⟨['\r'] ++ '\n' :: extra, true⟩, true) := by
    rw [shape]
    exact getline_line (by simpa using oneLine) _ []
  have empty : getline ⟨['\r'] ++ '\n' :: extra, true⟩ [] = (['\r'], ⟨extra, true⟩, true) :=
    getline_line (by decide) extra []
  simp only [receiveReply, read, header, empty, first.length, bind, Option.bind]
  by_cases announces : 0 < cut.reply.announced
  · obtain ⟨buffer, after, further, nothing⟩ := message_read announces behind
    simp only [announces, further, if_pos]
    refine ⟨_, _, rfl, ?_, ?_⟩
    · rw [List.append_assoc, List.append_assoc]
      exact first.words _
    · exact ⟨fun _ => Or.inl trivial, fun _ => nothing⟩
  · simp only [announces, if_neg, not_false_eq_true]
    refine ⟨_, _, rfl, ?_, ?_⟩
    · rw [List.append_assoc, List.append_assoc]
      exact first.words _
    · exact together.trans ⟨Or.inr, fun either => either.resolve_left id⟩

end

/-- Every call decodes its own reply exactly when no reply that announces nothing
has a segment that ends behind its blank line and before its end. -/
theorem replies_decode_exactly_when_cut_well (cuts : List Cut) :
    List.Forall₂ Decodes cuts (receiveReplies [] (cuts.map Cut.segments)) ↔
      ∀ cut ∈ cuts, 0 < cut.reply.announced ∨ cut.Together := by
  suffices general : ∀ left : List Text, left.flatten = [] →
      (List.Forall₂ Decodes cuts (receiveReplies left (cuts.map Cut.segments)) ↔
        ∀ cut ∈ cuts, 0 < cut.reply.announced ∨ cut.Together) from general [] rfl
  induction cuts with
  | nil => simp [receiveReplies]
  | cons cut cuts ih =>
    intro left clear
    obtain ⟨result, rest, call, words, clears⟩ := receiveReply_reads clear cut
    simp only [List.map_cons, receiveReplies, call, List.forall₂_cons, List.forall_mem_cons]
    constructor
    · rintro ⟨⟨_, nothing⟩, later⟩
      exact ⟨clears.mp nothing, (ih rest nothing).mp later⟩
    · rintro ⟨well, later⟩
      have nothing := clears.mpr well
      exact ⟨⟨words, nothing⟩, (ih rest nothing).mpr later⟩

private theorem ack_built : genAnswerStr "ACK" "WRITE 5 1 3" "0" " " = .ok "ACK 5 1 0 0\r\n\r\n\r\n" := by decide

private def ack : Reply where
  method := "ACK"
  header := "WRITE 5 1 3"
  code := "0"
  message := " "
  bytes := "ACK 5 1 0 0\r\n\r\n\r\n"
  built := ack_built
  methodOk := ⟨by decide, by decide⟩
  codeOk := ⟨by decide, by decide⟩
  headerLine := by decide
  messageLine := by decide

private def late : Cut := ⟨ack, ["ACK 5 1 0 0\r\n\r\n", "\r\n"], by decide⟩
private def atOnce : Cut := ⟨ack, ["ACK 5 1 0 0\r\n\r\n\r\n"], by decide⟩

/-- The line end that comes too late is the first line of the next reply. -/
theorem late_line_end_is_the_next_reply :
    ¬ List.Forall₂ Decodes [late, atOnce] (receiveReplies [] ([late, atOnce].map Cut.segments)) := by
  intro decoded
  have calls : receiveReplies [] ([late, atOnce].map Cut.segments) =
      [(("ACK 5 1 0 0\r\t\t\t" : Text), [("\r\n" : Text)]), (("\r\t\t\t\r" : Text), [])] := by decide +kernel
  rw [calls] at decoded
  cases decoded with
  | cons _ later =>
    cases later with
    | cons second _ =>
      obtain ⟨_, _, _, _, _, _, words⟩ := second.1
      have firstWord : some "\r\t\t\t\r".toList = some "ACK".toList := congrArg List.head? words
      exact absurd firstWord (by decide)

end TransactionalServer.Proofs.Decoding
