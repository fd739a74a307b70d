import WordMachine.Proofs.Decimal.Integer

namespace WordMachine.Decimal

-- A number written with decimal digits, of which there is at least one. Zeros in front make no
-- difference.
def IsNumeral (text : List Char) : Prop :=
  text ≠ [] ∧ ∀ c ∈ text, c.isDigit = true

-- The integer that a text stands for: a numeral, behind one sign at most.
inductive Denotes : List Char → Int → Prop where
  | unsigned (digits : List Char) (h : IsNumeral digits) :
      Denotes digits (Nat.ofDigitChars 10 digits 0)
  | plus (digits : List Char) (h : IsNumeral digits) :
      Denotes ('+' :: digits) (Nat.ofDigitChars 10 digits 0)
  | minus (digits : List Char) (h : IsNumeral digits) :
      Denotes ('-' :: digits) (-Nat.ofDigitChars 10 digits 0)

theorem digit?_of_isDigit {c : Char} (h : c.isDigit = true) :
    digit? c = some (c.toNat - '0'.toNat) := by
  obtain ⟨hlow, hhigh⟩ := Char.isDigit_iff_toNat.mp h
  exact if_pos ⟨Char.le_def.mpr hlow, Char.le_def.mpr hhigh⟩

theorem digit?_of_not_isDigit {c : Char} (h : ¬ c.isDigit = true) : digit? c = none := by
  apply if_neg
  rintro ⟨hlow, hhigh⟩
  exact h (Char.isDigit_iff_toNat.mpr ⟨Char.le_def.mp hlow, Char.le_def.mp hhigh⟩)

-- Reading one more digit never makes the value less.
theorem le_ofDigitChars (text : List Char) (value : Nat) :
    value ≤ Nat.ofDigitChars 10 text value := by
  induction text generalizing value with
  | nil => exact Nat.le_of_eq Nat.ofDigitChars_nil.symm
  | cons c text ih =>
    have hrest := ih (10 * value + (c.toNat - '0'.toNat))
    rw [Nat.ofDigitChars_cons]
    omega

-- The limit is checked digit by digit, and a value that is past it stays past it. So the reader
-- accepts just the digits whose whole value is within the limit.
theorem readMagnitude_eq_ok_iff {limit : Nat} {overflow : IntegerError} {value n : Nat}
    {text : List Char} (hv : value ≤ limit) :
    readMagnitude limit overflow value text = .ok n ↔
      (∀ c ∈ text, c.isDigit = true) ∧ n = Nat.ofDigitChars 10 text value ∧ n ≤ limit := by
  induction text generalizing value with
  | nil =>
    rw [readMagnitude, Nat.ofDigitChars_nil, Except.ok.injEq]
    constructor
    · rintro rfl
      exact ⟨fun c hc => absurd hc List.not_mem_nil, rfl, hv⟩
    · rintro ⟨-, rfl, -⟩
      rfl
  | cons c text ih =>
    rw [readMagnitude, Nat.ofDigitChars_cons, List.forall_mem_cons]
    by_cases hc : c.isDigit = true
    · have hle := le_ofDigitChars text (10 * value + (c.toNat - '0'.toNat))
      simp only [digit?_of_isDigit hc, Nat.mul_comm value 10]
      by_cases hl : limit < 10 * value + (c.toNat - '0'.toNat)
      · rw [if_pos hl]
        constructor
        · intro h
          cases h
        · rintro ⟨-, rfl, hn⟩
          omega
      · rw [if_neg hl, ih (Nat.le_of_not_lt hl)]
        simp only [hc, true_and]
    · simp only [digit?_of_not_isDigit hc, hc, false_and, reduceCtorEq]

theorem not_isNumeral_nil : ¬ IsNumeral [] := by
  rintro ⟨hne, -⟩
  exact hne rfl

theorem map_readMagnitude_eq_ok_iff {limit : Nat} {overflow : IntegerError} {f : Nat → Int}
    {value : Int} {digits : List Char} (h : digits ≠ []) :
    f <$> readMagnitude limit overflow 0 digits = .ok value ↔
      IsNumeral digits ∧ value = f (Nat.ofDigitChars 10 digits 0) ∧
        Nat.ofDigitChars 10 digits 0 ≤ limit := by
  have hread (n : Nat) :
      readMagnitude limit overflow 0 digits = .ok n ↔
        (∀ c ∈ digits, c.isDigit = true) ∧ n = Nat.ofDigitChars 10 digits 0 ∧ n ≤ limit :=
    readMagnitude_eq_ok_iff (Nat.zero_le limit)
  cases hm : readMagnitude limit overflow 0 digits with
  | error cause =>
    constructor
    · intro hok
      cases hok
    · rintro ⟨⟨-, hd⟩, -, hle⟩
      cases hm.symm.trans ((hread _).mpr ⟨hd, rfl, hle⟩)
  | ok n =>
    obtain ⟨hd, rfl, hle⟩ := (hread n).mp hm
    constructor
    · intro hok
      exact ⟨⟨h, hd⟩, (Except.ok.inj hok).symm, hle⟩
    · rintro ⟨-, rfl, -⟩
      rfl

section Signed

variable {bound : Nat} {digits : List Char} {value : Int}

-- A sign needs a numeral behind it.
theorem readSigned_plus_eq_ok_iff :
    readSigned bound ('+' :: digits) = .ok value ↔
      IsNumeral digits ∧ value = Nat.ofDigitChars 10 digits 0 ∧
        Nat.ofDigitChars 10 digits 0 ≤ bound - 1 := by
  cases digits with
  | nil =>
    simp only [not_isNumeral_nil, false_and, iff_false]
    intro h
    cases h
  | cons c digits => exact map_readMagnitude_eq_ok_iff (List.cons_ne_nil c digits)

theorem readSigned_minus_eq_ok_iff :
    readSigned bound ('-' :: digits) = .ok value ↔
      IsNumeral digits ∧ value = -Nat.ofDigitChars 10 digits 0 ∧
        Nat.ofDigitChars 10 digits 0 ≤ bound := by
  cases digits with
  | nil =>
    simp only [not_isNumeral_nil, false_and, iff_false]
    intro h
    cases h
  | cons c digits => exact map_readMagnitude_eq_ok_iff (List.cons_ne_nil c digits)

-- A text without a sign in front is read as a numeral as it is.
theorem readSigned_unsigned_eq_ok_iff {c : Char} (hplus : c ≠ '+') (hminus : c ≠ '-') :
    readSigned bound (c :: digits) = .ok value ↔
      IsNumeral (c :: digits) ∧ value = Nat.ofDigitChars 10 (c :: digits) 0 ∧
        Nat.ofDigitChars 10 (c :: digits) 0 ≤ bound - 1 := by
  have hread : readSigned bound (c :: digits) =
      Int.ofNat <$> readMagnitude (bound - 1) .tooLarge 0 (c :: digits) := by
    simp [readSigned, hplus, hminus]
  rw [hread]
  exact map_readMagnitude_eq_ok_iff (List.cons_ne_nil c digits)

end Signed

theorem ne_of_isNumeral {c sign : Char} {digits : List Char} (h : IsNumeral (c :: digits))
    (hs : sign.isDigit = false) : c ≠ sign := by
  rintro rfl
  rw [h.2 c (List.mem_cons_self ..)] at hs
  cases hs

-- The reader accepts just the texts that stand for an integer within its bounds, and reads this
-- integer.
theorem readSigned_eq_ok_iff {bound : Nat} (hb : 0 < bound) {text : List Char} {value : Int} :
    readSigned bound text = .ok value ↔ Denotes text value ∧ -bound ≤ value ∧ value < bound := by
  constructor
  · intro h
    match text with
    | [] => cases h
    | c :: digits =>
      by_cases hplus : c = '+'
      · subst hplus
        obtain ⟨hnumeral, rfl, hle⟩ := readSigned_plus_eq_ok_iff.mp h
        exact ⟨.plus digits hnumeral, by omega, by omega⟩
      · by_cases hminus : c = '-'
        · subst hminus
          obtain ⟨hnumeral, rfl, hle⟩ := readSigned_minus_eq_ok_iff.mp h
          exact ⟨.minus digits hnumeral, by omega, by omega⟩
        · obtain ⟨hnumeral, rfl, hle⟩ := (readSigned_unsigned_eq_ok_iff hplus hminus).mp h
          exact ⟨.unsigned (c :: digits) hnumeral, by omega, by omega⟩
  · rintro ⟨hdenotes, hlow, hhigh⟩
    cases hdenotes with
    | plus digits hnumeral => exact readSigned_plus_eq_ok_iff.mpr ⟨hnumeral, rfl, by omega⟩
    | minus digits hnumeral => exact readSigned_minus_eq_ok_iff.mpr ⟨hnumeral, rfl, by omega⟩
    | unsigned digits hnumeral =>
      match text with
      | [] => exact absurd hnumeral not_isNumeral_nil
      | c :: digits =>
        have hplus : c ≠ '+' := ne_of_isNumeral hnumeral (by decide)
        have hminus : c ≠ '-' := ne_of_isNumeral hnumeral (by decide)
        exact (readSigned_unsigned_eq_ok_iff hplus hminus).mpr ⟨hnumeral, rfl, by omega⟩

-- The natural number that a text stands for: a numeral, behind a plus sign at most.
inductive Counts : List Char → Nat → Prop where
  | unsigned (digits : List Char) (h : IsNumeral digits) :
      Counts digits (Nat.ofDigitChars 10 digits 0)
  | plus (digits : List Char) (h : IsNumeral digits) :
      Counts ('+' :: digits) (Nat.ofDigitChars 10 digits 0)

section Unsigned

variable {bound : Nat} (hb : 0 < bound) {digits text : List Char} {n : Nat}
include hb

theorem readMagnitude_eq_ok_iff_lt :
    readMagnitude (bound - 1) .tooLarge 0 digits = .ok n ↔
      (∀ c ∈ digits, c.isDigit = true) ∧ n = Nat.ofDigitChars 10 digits 0 ∧ n < bound := by
  rw [readMagnitude_eq_ok_iff (Nat.zero_le _)]
  have hlt : n ≤ bound - 1 ↔ n < bound := by omega
  rw [hlt]

omit hb in
theorem readUnsigned_of_ne_plus {c : Char} (h : c ≠ '+') :
    readUnsigned bound (c :: digits) = readMagnitude (bound - 1) .tooLarge 0 (c :: digits) := by
  simp [readUnsigned, h]

theorem readUnsigned_eq_ok_iff :
    readUnsigned bound text = .ok n ↔ Counts text n ∧ n < bound := by
  constructor
  · intro h
    match text with
    | [] => cases h
    | c :: digits =>
      by_cases hplus : c = '+'
      · subst hplus
        match digits with
        | [] => cases h
        | d :: digits =>
          obtain ⟨hdigits, rfl, hn⟩ := (readMagnitude_eq_ok_iff_lt hb).mp h
          exact ⟨.plus _ ⟨List.cons_ne_nil d digits, hdigits⟩, hn⟩
      · rw [readUnsigned_of_ne_plus hplus] at h
        obtain ⟨hdigits, rfl, hn⟩ := (readMagnitude_eq_ok_iff_lt hb).mp h
        exact ⟨.unsigned _ ⟨List.cons_ne_nil c digits, hdigits⟩, hn⟩
  · rintro ⟨hcounts, hn⟩
    cases hcounts with
    | plus digits hnumeral =>
      match digits with
      | [] => exact absurd hnumeral not_isNumeral_nil
      | d :: digits => exact (readMagnitude_eq_ok_iff_lt hb).mpr ⟨hnumeral.2, rfl, hn⟩
    | unsigned digits hnumeral =>
      match text with
      | [] => exact absurd hnumeral not_isNumeral_nil
      | c :: digits =>
        have hplus : c ≠ '+' := ne_of_isNumeral hnumeral (by decide)
        rw [readUnsigned_of_ne_plus hplus]
        exact (readMagnitude_eq_ok_iff_lt hb).mpr ⟨hnumeral.2, rfl, hn⟩

end Unsigned

end WordMachine.Decimal
