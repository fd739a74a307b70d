import WordMachine.Proofs.Console.Numeral
import WordMachine.Proofs.Machine.Signed
import WordMachine.Proofs.Text.Column
import WordMachine.Proofs.Text.Encoding

namespace WordMachine

namespace Text

theorem hexLiteral_one (n : Nat) : hexLiteral 1 n = "0x" ++ String.ofList (Nat.toDigits 16 n) := by
  have hlength : 1 ≤ (Nat.toDigits 16 n).length := List.length_pos_iff.mpr Nat.toDigits_ne_nil
  have hzeros : 1 - (Nat.toDigits 16 n).length = 0 := by omega
  rw [hexLiteral, padLeft, hexDigits, String.toList_ofList, List.leftpad, hzeros,
    List.replicate_zero, List.nil_append]

theorem visible_of_mem_toDigits {n : Nat} {c : Char} (h : c ∈ Nat.toDigits 16 n) :
    0x20 < c.toNat ∧ c.toNat < 0x80 := by
  have hall : ∀ d : Fin 16, 0x20 < d.val.digitChar.toNat ∧ d.val.digitChar.toNat < 0x80 := by
    decide
  obtain ⟨d, hd, rfl⟩ := exists_digitChar_of_mem h
  exact hall ⟨d, hd⟩

end Text

theorem Decimal.render_eq_toString (value : Int) : render value = toString value := by
  cases value with
  | ofNat n => rfl
  | negSucc n => rfl

namespace Console

-- A word without its sign, in lower-case hexadecimal digits and in brackets.
def hexToken (value : Int32) : String :=
  "(0x" ++ String.ofList (Nat.toDigits 16 (value.toInt % 4294967296).toNat) ++ ")"

-- A line that records a word.
def record (value : Int32) : String :=
  toString value.toInt ++ " " ++ hexToken value ++ "\n"

-- The lines that record some words.
def transcript (values : List Int32) : String :=
  String.join (values.map record)

-- What the record of a word has to deliver.
def recorded (value : Int32) : List Delivery :=
  [.token (toString value.toInt), .token (hexToken value)]

section Record

variable (value : Int32)

theorem printedLine_eq_record : printedLine value ++ "\n" = record value := by
  have hword : (value.toInt % 4294967296).toNat = value.toUInt32.toNat := by
    rw [← toNat_toUInt32_eq_emod, Int.toNat_natCast]
  rw [printedLine, record, hexToken, hword, Text.hexLiteral_one, Decimal.render_eq_toString,
    ← String.toList_inj]
  simp only [String.toList_append, List.append_assoc]
  rfl

theorem toList_record :
    (record value).toList =
      (toString value.toInt).toList ++ ' ' :: ((hexToken value).toList ++ ['\n']) := by
  simp only [record, String.toList_append, List.append_assoc]
  rfl

theorem toList_hexToken :
    (hexToken value).toList =
      ['(', '0', 'x'] ++ Nat.toDigits 16 (value.toInt % 4294967296).toNat ++ [')'] := by
  simp only [hexToken, String.toList_append, String.toList_ofList]
  rfl

variable {value}

theorem visible_of_mem_hexToken {c : Char} (h : c ∈ (hexToken value).toList) :
    0x20 < c.toNat ∧ c.toNat < 0x80 := by
  rw [toList_hexToken, List.mem_append, List.mem_append, List.mem_singleton] at h
  rcases h with (h | h) | rfl
  · simp only [List.mem_cons, List.not_mem_nil, or_false] at h
    rcases h with rfl | rfl | rfl <;> decide
  · exact Text.visible_of_mem_toDigits h
  · decide

variable (value)

theorem tokens_hexToken : Text.tokens (hexToken value).toList = [(hexToken value).toList] := by
  apply Text.tokens_of_not_blank
  · intro c hc
    obtain ⟨hlow, hhigh⟩ := visible_of_mem_hexToken hc
    exact Text.isBlank_of_visible hlow hhigh
  · rw [toList_hexToken]
    exact nofun

-- The blank in the middle and the one at the end cut a record into its two tokens.
theorem tokens_record (rest : List Char) :
    Text.tokens ((record value).toList ++ rest) =
      (toString value.toInt).toList :: (hexToken value).toList :: Text.tokens rest := by
  have hspace : Text.isBlank ' ' = true := by decide
  have hend : Text.isBlank '\n' = true := by decide
  have hnumber := tokens_render value.toInt
  rw [Decimal.render_eq_toString] at hnumber
  rw [toList_record, List.append_assoc, List.cons_append, List.append_assoc, List.cons_append,
    List.nil_append, Text.tokens_append hspace, hnumber, Text.tokens_append hend, tokens_hexToken]
  rfl

theorem integer_toString : (Delivery.token (toString value.toInt)).integer = .ok value := by
  rw [← Decimal.render_eq_toString]
  exact integer_render value

end Record

theorem toList_transcript (values : List Int32) :
    (transcript values).toList = values.flatMap fun value => (record value).toList := by
  rw [transcript, String.toList_join, List.flatMap_map]

theorem transcript_append (values others : List Int32) :
    transcript (values ++ others) = transcript values ++ transcript others := by
  rw [transcript, List.map_append, String.join_append]
  rfl

theorem transcript_singleton (value : Int32) : transcript [value] = record value := by
  rw [transcript, List.map_singleton, String.join_cons, String.join_nil, String.append_empty]

theorem tokens_transcript (values : List Int32) :
    Text.tokens (transcript values).toList =
      values.flatMap fun value => [(toString value.toInt).toList, (hexToken value).toList] := by
  rw [toList_transcript]
  induction values with
  | nil => rfl
  | cons value values ih =>
    rw [List.flatMap_cons, tokens_record, ih]
    rfl

-- The lines are delivered as two tokens each, and as nothing else.
theorem deliveries_transcript (values : List Int32) :
    deliveries (transcript values).toUTF8.data.toList = values.flatMap recorded := by
  rw [deliveries_of_decode? (Text.Utf8.decode?_eq_toList_iff.mpr rfl), tokens_transcript,
    List.map_flatMap]
  simp only [List.map_cons, List.map_nil, String.ofList_toList]
  rfl

-- The first token of each line is read as the word, so the words are read off from the tokens.
theorem flatMap_recorded_inj {values others : List Int32}
    (h : values.flatMap recorded = others.flatMap recorded) : values = others := by
  induction values generalizing others with
  | nil =>
    cases others with
    | nil => rfl
    | cons other others => cases h
  | cons value values ih =>
    cases others with
    | nil => cases h
    | cons other others =>
      obtain ⟨hfirst, hrest⟩ := List.cons.inj h
      have hvalue := congrArg Delivery.integer hfirst
      rw [integer_toString, integer_toString] at hvalue
      rw [Except.ok.inj hvalue, ih (List.cons.inj hrest).2]

theorem transcript_inj {values others : List Int32}
    (h : transcript values = transcript others) : values = others := by
  apply flatMap_recorded_inj
  rw [← deliveries_transcript, h, deliveries_transcript]

end Console

end WordMachine
