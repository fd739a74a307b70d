import WordMachine.Proofs.Console.Transcript
import WordMachine.Proofs.Flat.Word
import WordMachine.Proofs.Simulation.Reading

namespace WordMachine

namespace Sink

variable {sink : Sink} {line : String}

-- A line and its end come to the same as one piece.
theorem writeLine_of_not_full (hf : sink.isFull = false) (h : '\n' ∉ line.toList) :
    sink.writeLine line =
      (sink.flush, { sink with
        text := sink.text ++ (line ++ "\n")
        lineEnds := sink.lineEnds + 1 }) := by
  have hends : line.toList.count '\n' = 0 := List.count_eq_zero.mpr h
  let held : Sink := { sink with text := sink.text ++ line }
  have hline : sink.put line = (.ok (), held) := by
    rw [put, hf, if_neg (by decide), hends]
    rfl
  have hheld : held.isFull = false := hf
  have hend : held.put "\n" =
      (.ok (), { held with text := held.text ++ "\n", lineEnds := held.lineEnds + 1 }) := by
    rw [put, hheld, if_neg (by decide)]
    rfl
  rw [writeLine, hline]
  simp only [hend, held, String.append_assoc]
  rfl

theorem put_of_full (hf : sink.isFull = true) (piece : String) :
    sink.put piece =
      (if sink.room < piece.length then .error sink.whenFull else .ok (), { sink with
        text := sink.text ++ String.ofList (piece.toList.take sink.room)
        room := sink.room - (piece.toList.take sink.room).length }) := by
  rw [put, if_pos hf]

theorem writeLine_of_full (hf : sink.isFull = true) (line : String) :
    sink.writeLine line =
      let taken := (line ++ "\n").toList.take sink.room
      (if taken.length < (line ++ "\n").length then .error sink.whenFull else sink.flush,
        { sink with
          text := sink.text ++ String.ofList taken
          room := sink.room - taken.length }) := by
  have hwhole : (line ++ "\n").toList = line.toList ++ ['\n'] := String.toList_append
  have hlength : (line ++ "\n").length = line.length + 1 := String.length_append ..
  have hchars : line.toList.length = line.length := String.length_toList
  rw [writeLine, put_of_full hf line, hwhole, hlength]
  by_cases hroom : sink.room < line.length
  · have htaken : (line.toList ++ ['\n']).take sink.room = line.toList.take sink.room :=
      List.take_append_of_le_length (by omega)
    have hshort : (line.toList.take sink.room).length < line.length + 1 := by
      rw [List.length_take]
      omega
    rw [htaken, if_pos hroom]
    simp only [hshort, ite_true]
  · let held : Sink := { sink with text := sink.text ++ line, room := sink.room - line.length }
    have hheld : { sink with
        text := sink.text ++ String.ofList (line.toList.take sink.room)
        room := sink.room - (line.toList.take sink.room).length } = held := by
      rw [List.take_of_length_le (by omega), String.ofList_toList, hchars]
    have hfull : held.isFull = true := hf
    have hend : held.put "\n" =
        (if held.room < 1 then .error held.whenFull else .ok (), { held with
          text := held.text ++ String.ofList (['\n'].take held.room)
          room := held.room - (['\n'].take held.room).length }) := put_of_full hfull "\n"
    have htaken : (line.toList ++ ['\n']).take sink.room =
        line.toList ++ ['\n'].take held.room := by
      rw [List.take_append, List.take_of_length_le (by omega), hchars]
    rw [if_neg hroom, hheld, htaken]
    simp only [hend]
    have htext : held.text ++ String.ofList (['\n'].take held.room) =
        sink.text ++ String.ofList (line.toList ++ ['\n'].take held.room) := by
      rw [String.ofList_append, String.ofList_toList, ← String.append_assoc]
    have hleft : held.room - (['\n'].take held.room).length =
        sink.room - (line.toList ++ ['\n'].take held.room).length := by
      rw [List.length_append, hchars]
      show sink.room - line.length - _ = _
      omega
    have htakes : (line.toList ++ ['\n'].take held.room).length < line.length + 1 ↔
        held.room < 1 := by
      rw [List.length_append, hchars, List.length_take, List.length_singleton]
      omega
    rw [htext, hleft]
    simp only [htakes]
    by_cases hmore : held.room < 1
    · simp only [hmore, ite_true]
      rfl
    · simp only [hmore, ite_false]
      rfl

end Sink

namespace Decimal

-- The digits at the front decide on the overflow, before anything behind them is looked at.
theorem readMagnitude_eq {limit : Nat} (overflow : IntegerError) {value : Nat} {text : List Char}
    (hv : value ≤ limit) :
    readMagnitude limit overflow value text =
      let leading := Nat.ofDigitChars 10 (text.takeWhile Char.isDigit) value
      if limit < leading then .error overflow
      else if text.all Char.isDigit then .ok leading else .error .invalidDigit := by
  induction text generalizing value with
  | nil =>
    have hle : ¬ limit < value := Nat.not_lt.mpr hv
    simp only [readMagnitude, List.takeWhile_nil, Nat.ofDigitChars_nil, List.all_nil, if_neg hle,
      ite_true]
  | cons c text ih =>
    rw [readMagnitude]
    by_cases hc : c.isDigit = true
    · have hle := le_ofDigitChars (text.takeWhile Char.isDigit)
        (10 * value + (c.toNat - '0'.toNat))
      simp only [digit?_of_isDigit hc, List.takeWhile_cons_of_pos hc, Nat.ofDigitChars_cons,
        Nat.mul_comm value 10, List.all_cons, hc, Bool.true_and]
      by_cases hl : limit < 10 * value + (c.toNat - '0'.toNat)
      · rw [if_pos hl, if_pos (Nat.lt_of_lt_of_le hl hle)]
      · rw [if_neg hl, ih (Nat.le_of_not_lt hl)]
    · have hle : ¬ limit < value := Nat.not_lt.mpr hv
      simp only [digit?_of_not_isDigit hc, List.takeWhile_cons_of_neg hc, Nat.ofDigitChars_nil,
        if_neg hle, List.all_cons, hc, Bool.false_and, Bool.false_eq_true, ite_false]

end Decimal

namespace Flat

-- No line has an end within.
theorem newline_not_mem_printedLine (value : Int32) :
    '\n' ∉ (Console.printedLine value).toList := by
  have hrecord : (Console.printedLine value).toList ++ ['\n'] =
      (toString value.toInt).toList ++ ' ' :: ((Console.hexToken value).toList ++ ['\n']) := by
    rw [← Console.toList_record, ← Console.printedLine_eq_record, String.toList_append]
    rfl
  have hline : (Console.printedLine value).toList =
      (toString value.toInt).toList ++ ' ' :: (Console.hexToken value).toList := by
    rw [← List.cons_append, ← List.append_assoc] at hrecord
    exact List.append_cancel_right hrecord
  rw [hline, List.mem_append, List.mem_cons, ← Decimal.render_eq_toString]
  rintro (h | h | h)
  · exact absurd (Console.visible_of_mem_render h).1 (by decide)
  · exact absurd h (by decide)
  · exact absurd (Console.visible_of_mem_hexToken h).1 (by decide)

theorem line_number (value : Int32) : line (number value) = Console.printedLine value ++ "\n" := by
  have hword : (value.toInt % 4294967296).toNat = number value := by
    rw [number_eq_reduce, reduce]
  rw [Console.printedLine_eq_record, Console.record, Console.hexToken, hword, line, signed_number,
    ← String.toList_inj]
  simp only [String.toList_append, List.append_assoc]
  rfl

section Integer

variable {text digits : List Char} (hu : unsigned text = digits) (hd : digits ≠ [])
include hu hd

theorem integer_of_positive
    (hl : leading text = Nat.ofDigitChars 10 (digits.takeWhile Char.isDigit) 0) :
    integer text = Int.ofNat <$> Decimal.readMagnitude 2147483647 .tooLarge 0 digits := by
  have ht : text ≠ [] := by
    rintro rfl
    exact hd hu.symm
  rw [Decimal.readMagnitude_eq _ (Nat.zero_le _), integer, hl, hu]
  generalize Nat.ofDigitChars 10 (digits.takeWhile Char.isDigit) 0 = magnitude
  rw [if_neg (by omega), if_neg ht]
  by_cases hlarge : 2147483647 < magnitude
  · rw [if_pos (by omega)]
    simp only [hlarge, ite_true]
    rfl
  · rw [if_neg (by omega)]
    cases digits.all Char.isDigit <;>
      simp only [hlarge, hd, false_or, Bool.false_eq_true, not_false_eq_true, not_true_eq_false,
        ite_true, ite_false] <;> rfl

theorem integer_of_negative
    (hl : leading text = -(Nat.ofDigitChars 10 (digits.takeWhile Char.isDigit) 0 : Nat)) :
    integer text =
      (fun n => -Int.ofNat n) <$> Decimal.readMagnitude 2147483648 .tooSmall 0 digits := by
  have ht : text ≠ [] := by
    rintro rfl
    exact hd hu.symm
  rw [Decimal.readMagnitude_eq _ (Nat.zero_le _), integer, hl, hu]
  generalize Nat.ofDigitChars 10 (digits.takeWhile Char.isDigit) 0 = magnitude
  by_cases hsmall : 2147483648 < magnitude
  · rw [if_pos (by omega)]
    simp only [hsmall, ite_true]
    rfl
  · rw [if_neg (by omega), if_neg (by omega), if_neg ht]
    cases digits.all Char.isDigit <;>
      simp only [hsmall, hd, false_or, Bool.false_eq_true, not_false_eq_true, not_true_eq_false,
        ite_true, ite_false] <;> rfl

end Integer

-- The reader that stops at the first fault gives the same, the fault included.
theorem integer_eq (text : List Char) : integer text = Decimal.readSigned 0x80000000 text := by
  match text with
  | [] => rfl
  | c :: digits =>
    by_cases hplus : c = '+'
    · subst hplus
      cases digits with
      | nil => rfl
      | cons d digits => exact integer_of_positive rfl (List.cons_ne_nil d digits) rfl
    · by_cases hminus : c = '-'
      · subst hminus
        cases digits with
        | nil => rfl
        | cons d digits => exact integer_of_negative rfl (List.cons_ne_nil d digits) rfl
      · have hread : Decimal.readSigned 0x80000000 (c :: digits) =
            Int.ofNat <$> Decimal.readMagnitude 2147483647 .tooLarge 0 (c :: digits) := by
          simp [Decimal.readSigned, hplus, hminus]
        have hunsigned : unsigned (c :: digits) = c :: digits := by
          simp [unsigned, hplus, hminus]
        rw [hread]
        apply integer_of_positive hunsigned (List.cons_ne_nil c digits)
        simp [leading, hunsigned, hminus]

-- A word is read where there is a token, and the grammar has this word for it.
theorem read_eq_ok_iff (flat : Flat) (word : Nat) :
    flat.read.1 = .ok word ↔
      ∃ token value, flat.console.nextToken.1 = .token token ∧ Console.Spells token value ∧
        word = reduce value := by
  unfold Flat.read
  cases flat.console.nextToken.1 with
  | endOfInput | badLine => simp
  | token token =>
    simp only [integer_eq, Console.Delivery.token.injEq, exists_and_left, exists_eq_left']
    cases hread : Decimal.readSigned 0x80000000 token.toList with
    | ok value =>
      constructor
      · intro hword
        exact ⟨value, Console.readSigned_eq_ok_iff_spells.mp hread, (Except.ok.inj hword).symm⟩
      · rintro ⟨other, hother, rfl⟩
        cases hread.symm.trans (Console.readSigned_eq_ok_iff_spells.mpr hother)
        rfl
    | error cause =>
      constructor
      · intro hword
        cases hword
      · rintro ⟨value, hspells, -⟩
        cases hread.symm.trans (Console.readSigned_eq_ok_iff_spells.mpr hspells)

end Flat

end WordMachine
