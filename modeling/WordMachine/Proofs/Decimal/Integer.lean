import WordMachine.Decimal.Integer

namespace WordMachine.Decimal

theorem digit?_digitChar {d : Nat} (h : d < 10) : digit? d.digitChar = some d := by
  have hall : ∀ d : Fin 10, digit? d.val.digitChar = some d.val := by decide
  exact hall ⟨d, h⟩

theorem toList_renderNat (n : Nat) : (renderNat n).toList = Nat.toDigits 10 n :=
  String.toList_ofList

section Magnitude

variable {limit : Nat} {overflow : IntegerError}

theorem readMagnitude_append (value : Nat) (text rest : List Char) :
    readMagnitude limit overflow value (text ++ rest) =
      readMagnitude limit overflow value text >>= (readMagnitude limit overflow · rest) := by
  induction text generalizing value with
  | nil => rfl
  | cons c text ih =>
    rw [List.cons_append, readMagnitude, readMagnitude]
    cases digit? c with
    | none => rfl
    | some d =>
      simp only
      split
      · rfl
      · exact ih _

theorem readMagnitude_digitChar {value d : Nat} (hd : d < 10) (hl : value * 10 + d ≤ limit) :
    readMagnitude limit overflow value [d.digitChar] = .ok (value * 10 + d) := by
  rw [readMagnitude, digit?_digitChar hd]
  simp only [if_neg (Nat.not_lt.mpr hl), readMagnitude]

-- The digits of a number are read as that number.
theorem readMagnitude_toDigits {n : Nat} (h : n ≤ limit) :
    readMagnitude limit overflow 0 (Nat.toDigits 10 n) = .ok n := by
  induction n using Nat.strongRecOn with
  | ind n ih =>
    rw [Nat.toDigits_eq_if (by decide)]
    by_cases hn : n < 10
    · rw [if_pos hn, readMagnitude_digitChar hn (by omega)]
      simp
    · rw [if_neg hn, readMagnitude_append, ih (n / 10) (by omega) (by omega)]
      change readMagnitude limit overflow (n / 10) [(n % 10).digitChar] = .ok n
      rw [readMagnitude_digitChar (Nat.mod_lt n (by decide)) (by omega)]
      exact congrArg _ (by omega)

end Magnitude

theorem isDigit_of_mem_renderNat {n : Nat} {c : Char} (h : c ∈ (renderNat n).toList) :
    c.isDigit = true := by
  rw [toList_renderNat] at h
  exact Nat.isDigit_of_mem_toDigits (by decide) (by decide) h

theorem toList_render_negSucc (n : Nat) :
    (render (.negSucc n)).toList = '-' :: Nat.toDigits 10 (n + 1) := by
  rw [render, String.toList_append, toList_renderNat]
  rfl

-- A number is written with digits, and with a minus sign where it needs one.
theorem mem_render {value : Int} {c : Char} (h : c ∈ (render value).toList) :
    c.isDigit = true ∨ c = '-' := by
  cases value with
  | ofNat n => exact .inl (isDigit_of_mem_renderNat h)
  | negSucc n =>
    rw [toList_render_negSucc, List.mem_cons, ← toList_renderNat] at h
    exact h.symm.imp isDigit_of_mem_renderNat id

theorem readSigned_of_digit {bound : Nat} {c : Char} {text : List Char} (h : c.isDigit = true) :
    readSigned bound (c :: text) =
      Int.ofNat <$> readMagnitude (bound - 1) .tooLarge 0 (c :: text) := by
  have hplus : c ≠ '+' := by rintro rfl; cases h
  have hminus : c ≠ '-' := by rintro rfl; cases h
  simp [readSigned, hplus, hminus]

-- What is written is read back, within the bounds of the reader.
theorem readSigned_render {bound : Nat} {value : Int} (hl : -bound ≤ value) (hr : value < bound) :
    readSigned bound (render value).toList = .ok value := by
  cases value with
  | ofNat n =>
    have hmem := fun c => @isDigit_of_mem_renderNat n c
    have hread : readMagnitude (bound - 1) .tooLarge 0 (renderNat n).toList = .ok n := by
      rw [toList_renderNat]
      exact readMagnitude_toDigits (by simp only [Int.ofNat_eq_natCast] at hr; omega)
    rw [render]
    cases htext : (renderNat n).toList with
    | nil => exact absurd ((toList_renderNat n).symm.trans htext) Nat.toDigits_ne_nil
    | cons c text =>
      rw [htext] at hmem hread
      rw [readSigned_of_digit (hmem c (List.mem_cons_self ..)), hread]
      rfl
  | negSucc n =>
    have hread : readMagnitude bound .tooSmall 0 (Nat.toDigits 10 (n + 1)) = .ok (n + 1) :=
      readMagnitude_toDigits (by omega)
    rw [toList_render_negSucc]
    cases htext : Nat.toDigits 10 (n + 1) with
    | nil => exact absurd htext Nat.toDigits_ne_nil
    | cons c text =>
      rw [htext] at hread
      rw [readSigned, hread]
      · rfl
      · exact nofun

theorem render_inj {value other : Int} (h : render value = render other) : value = other := by
  have hvalue : readSigned (value.natAbs + other.natAbs + 1) (render value).toList = .ok value :=
    readSigned_render (by omega) (by omega)
  have hother : readSigned (value.natAbs + other.natAbs + 1) (render other).toList = .ok other :=
    readSigned_render (by omega) (by omega)
  rw [h, hother] at hvalue
  exact (Except.ok.inj hvalue).symm

end WordMachine.Decimal
