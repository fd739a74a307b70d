import WordMachine.Program.Image

namespace WordMachine

-- Bits that are shifted past others do not meet them, so joining them is adding them.
theorem toNat_shiftLeft_or (high low shift : UInt32) (factor : Nat) (hs : shift.toNat < 32)
    (hf : 1 <<< shift.toNat = factor) (hl : low.toNat < factor)
    (hh : high.toNat * factor < 4294967296) :
    (high <<< shift ||| low).toNat = high.toNat * factor + low.toNat := by
  rw [Nat.one_shiftLeft] at hf
  subst hf
  have hshift : (high <<< shift).toNat = high.toNat <<< shift.toNat := by
    rw [UInt32.toNat_shiftLeft, Nat.mod_eq_of_lt hs, Nat.mod_eq_of_lt]
    rw [Nat.shiftLeft_eq]
    exact hh
  rw [UInt32.toNat_or, hshift, ← Nat.shiftLeft_add_eq_or_of_lt hl, Nat.shiftLeft_eq]

private theorem or_reverse (p q r s : UInt32) : p ||| q ||| r ||| s = s ||| r ||| q ||| p := by
  ac_rfl

namespace ByteOrder

theorem word_big (a b c d : UInt8) : big.word a b c d = little.word d c b a :=
  or_reverse _ _ _ _

theorem bytes_big (word : UInt32) : big.bytes word = (little.bytes word).reverse := rfl

theorem toNat_word (a b c d : UInt8) :
    (little.word a b c d).toNat =
      a.toNat + b.toNat * 256 + c.toNat * 65536 + d.toNat * 16777216 := by
  have ha := a.toNat_lt
  have hb := b.toNat_lt
  have hc := c.toNat_lt
  have hd := d.toNat_lt
  have hword : little.word a b c d = d.toUInt32 <<< 24 ||| (c.toUInt32 <<< 16 |||
      (b.toUInt32 <<< 8 ||| a.toUInt32)) := by
    rw [← UInt32.or_assoc, ← UInt32.or_assoc]
    exact or_reverse _ _ _ _
  have hlow : (b.toUInt32 <<< 8 ||| a.toUInt32).toNat = b.toNat * 256 + a.toNat :=
    toNat_shiftLeft_or b.toUInt32 a.toUInt32 8 256 (by decide) rfl ha (by
      rw [UInt8.toNat_toUInt32]
      omega)
  have hmiddle := toNat_shiftLeft_or c.toUInt32 _ 16 65536 (by decide) rfl
    (by omega : (b.toUInt32 <<< 8 ||| a.toUInt32).toNat < 65536) (by
      rw [UInt8.toNat_toUInt32]
      omega)
  rw [hlow, UInt8.toNat_toUInt32] at hmiddle
  rw [hword, toNat_shiftLeft_or _ _ 24 16777216 (by decide) rfl (by omega) (by
    rw [UInt8.toNat_toUInt32]
    omega), hmiddle, UInt8.toNat_toUInt32]
  omega

theorem bytes_little (word : UInt32) :
    little.bytes word = [UInt8.ofNat word.toNat, UInt8.ofNat (word.toNat / 256),
      UInt8.ofNat (word.toNat / 65536), UInt8.ofNat (word.toNat / 16777216)] := by
  have hbyte (shift : UInt32) (factor : Nat) (hs : shift.toNat < 32)
      (hf : 1 <<< shift.toNat = factor) :
      (word >>> shift).toUInt8 = UInt8.ofNat (word.toNat / factor) := by
    rw [Nat.one_shiftLeft] at hf
    rw [← UInt8.toNat_inj, UInt32.toNat_toUInt8, UInt32.toNat_shiftRight, Nat.mod_eq_of_lt hs,
      Nat.shiftRight_eq_div_pow, hf, UInt8.toNat_ofNat']
  rw [← hbyte 8 256 (by decide) rfl, ← hbyte 16 65536 (by decide) rfl,
    ← hbyte 24 16777216 (by decide) rfl]
  rfl

theorem bytes_word (order : ByteOrder) (a b c d : UInt8) :
    order.bytes (order.word a b c d) = [a, b, c, d] := by
  have hlittle (a b c d : UInt8) : little.bytes (little.word a b c d) = [a, b, c, d] := by
    have ha := a.toNat_lt
    have hb := b.toNat_lt
    have hc := c.toNat_lt
    have hd := d.toNat_lt
    rw [bytes_little, toNat_word]
    simp only [List.cons.injEq, and_true, ← UInt8.toNat_inj, UInt8.toNat_ofNat']
    omega
  cases order with
  | native | little => exact hlittle a b c d
  | big => rw [bytes_big, word_big, hlittle, List.reverse_cons, List.reverse_cons,
      List.reverse_cons, List.reverse_cons, List.reverse_nil]; rfl

-- Every word is made of four bytes, in each order.
theorem exists_word_eq (order : ByteOrder) (word : UInt32) :
    ∃ a b c d, order.bytes word = [a, b, c, d] ∧ order.word a b c d = word := by
  have hword : little.word (UInt8.ofNat word.toNat) (UInt8.ofNat (word.toNat / 256))
      (UInt8.ofNat (word.toNat / 65536)) (UInt8.ofNat (word.toNat / 16777216)) = word := by
    have hlt := word.toNat_lt
    rw [← UInt32.toNat_inj, toNat_word]
    simp only [UInt8.toNat_ofNat']
    omega
  cases order with
  | native | little => exact ⟨_, _, _, _, bytes_little word, hword⟩
  | big =>
    refine ⟨_, _, _, _, ?_, (word_big _ _ _ _).trans hword⟩
    rw [bytes_big, bytes_little]
    rfl

end ByteOrder

end WordMachine
