import WordMachine.Json.Numeral
import WordMachine.Proofs.Decimal.Acceptance

namespace WordMachine.Json

namespace Numeral

open Decimal (digit?)

-- The decimal digits of a number, the first one first.
def digitsOf (n : Nat) : List Nat :=
  (Nat.toDigits 10 n).filterMap digit?

theorem digitsOf_eq (n : Nat) :
    digitsOf n = if n < 10 then [n] else digitsOf (n / 10) ++ [n % 10] := by
  rw [digitsOf, Nat.toDigits_eq_if (by decide)]
  split
  · next h => simp [Decimal.digit?_digitChar h]
  · have hlast := Decimal.digit?_digitChar (Nat.mod_lt n (by decide : 10 > 0))
    simp [digitsOf, hlast]

-- No zero stands in front.
theorem exists_digitsOf (n : Nat) :
    ∃ d digits, digitsOf n = d :: digits ∧ (d = 0 → digits = []) := by
  have hfirst : ∃ d digits, digitsOf n = d :: digits ∧ (d = 0 → n = 0) := by
    induction n using Nat.strongRecOn with
    | ind n ih =>
      rw [digitsOf_eq]
      split
      · exact ⟨n, [], rfl, id⟩
      · obtain ⟨d, digits, hdigits, hzero⟩ := ih (n / 10) (by omega)
        rw [hdigits]
        exact ⟨d, digits ++ [n % 10], rfl, by omega⟩
  obtain ⟨d, digits, hdigits, hzero⟩ := hfirst
  refine ⟨d, digits, hdigits, ?_⟩
  intro hd
  rw [hzero hd] at hdigits
  exact (List.cons.inj hdigits).2.symm

theorem accumulate_append {bound value front : Nat} {digits : List Nat}
    (h : accumulate bound value digits = (front, [])) (more : List Nat) :
    accumulate bound value (digits ++ more) = accumulate bound front more := by
  induction digits generalizing value with
  | nil =>
    cases h
    rfl
  | cons d digits ih =>
    rw [accumulate] at h
    rw [List.cons_append, accumulate]
    split
    · next hbound =>
      rw [if_pos hbound] at h
      cases h
    · next hbound =>
      rw [if_neg hbound] at h
      exact ih h

theorem accumulate_digitsOf {bound n : Nat} (h : n < bound) :
    accumulate bound 0 (digitsOf n) = (n, []) := by
  induction n using Nat.strongRecOn with
  | ind n ih =>
    rw [digitsOf_eq]
    split
    · simp [accumulate, h]
    · rw [accumulate_append (ih (n / 10) (by omega) (by omega)), accumulate, if_neg (by omega),
        accumulate]
      simp only [Prod.mk.injEq, and_true]
      omega

-- An integer as it is written.
def whole (minus : Bool) (magnitude : Nat) : Numeral :=
  ⟨minus, digitsOf magnitude, [], none, true⟩

theorem value_whole {n : Nat} (h : n < UInt64.size) :
    (whole false n).value = .ok (.natural n) := by
  simp [value, whole, accumulate_digitsOf h]

-- A number ends with the text, or before a character that cannot go on with it.
def Ends (rest : List Char) : Prop :=
  ∀ c ∈ rest.head?, digit? c = none ∧ c ≠ '.' ∧ c ≠ 'e' ∧ c ≠ 'E'

theorem digitRun_toDigits (n : Nat) {rest : List Char} (h : Ends rest) :
    digitRun (Nat.toDigits 10 n ++ rest) = (digitsOf n, rest) := by
  have hinside : ∀ c ∈ Nat.toDigits 10 n, (digit? c).isSome = true := by
    intro c hc
    rw [Decimal.digit?_of_isDigit (Nat.isDigit_of_mem_toDigits (by decide) (by decide) hc)]
    rfl
  have hboundary : rest.takeWhile (digit? · |>.isSome) = [] ∧
      rest.dropWhile (digit? · |>.isSome) = rest := by
    cases rest with
    | nil => exact ⟨rfl, rfl⟩
    | cons c rest => simp [(h c rfl).1]
  rw [digitRun, List.takeWhile_append_of_pos hinside, List.dropWhile_append_of_pos hinside,
    hboundary.1, hboundary.2, List.append_nil, digitsOf]

theorem scan_spelling (minus : Bool) (n : Nat) {rest : List Char} (h : Ends rest) :
    scan ((if minus then '-' :: Nat.toDigits 10 n else Nat.toDigits 10 n) ++ rest) =
      .ok (whole minus n, rest) := by
  obtain ⟨d, digits, hdigits, hzero⟩ := exists_digitsOf n
  have hrun := digitRun_toDigits n h
  rw [hdigits] at hrun
  have hscan := scan_integer minus hrun hzero fun c hc => (h c hc).2
  rw [whole, hdigits, ← hscan]
  cases minus <;> rfl

end Numeral

end WordMachine.Json
