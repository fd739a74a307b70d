namespace WordMachine.Decimal

-- A finite binary64 number without its sign: `significand * 2 ^ exponent`, with a significand
-- of at most 53 bits and an exponent from -1074 to 971.
structure Binary64 where
  significand : Nat
  exponent : Int
  deriving DecidableEq, Repr

namespace Binary64

def zero : Binary64 := ⟨0, -1074⟩

-- The quotient as an integer, rounded to the nearest one and from a tie to the even one.
def roundQuotient (numerator denominator : Nat) : Nat :=
  let quotient := numerator / denominator
  let twice := 2 * (numerator % denominator)
  if twice < denominator then quotient
  else if twice = denominator ∧ quotient % 2 = 0 then quotient
  else quotient + 1

-- `numerator / denominator * 2 ^ shift` as a fraction.
def scaled (numerator denominator : Nat) (shift : Int) : Nat × Nat :=
  (numerator * Nat.pow 2 shift.toNat, denominator * Nat.pow 2 (-shift).toNat)

-- The exponent of the leading bit of a positive fraction.
def leadingBit (numerator denominator : Nat) : Int :=
  let guess := (Nat.log2 numerator : Int) - Nat.log2 denominator
  let fraction := scaled numerator denominator (-guess)
  if fraction.1 < fraction.2 then guess - 1 else guess

-- The nearest number to a fraction, of two the one with the even significand. There is none
-- where the rounded value is past the largest number.
def ofFraction? (numerator denominator : Nat) : Option Binary64 :=
  if numerator = 0 then some zero
  else
    let exponent := max (-1074) (leadingBit numerator denominator - 52)
    let fraction := scaled numerator denominator (-exponent)
    let significand := roundQuotient fraction.1 fraction.2
    let rounded : Binary64 :=
      if significand = Nat.pow 2 53 then ⟨Nat.pow 2 52, exponent + 1⟩ else ⟨significand, exponent⟩
    if 971 < rounded.exponent then none else some rounded

def ofNat? (n : Nat) : Option Binary64 :=
  ofFraction? n 1

-- The exact value, as a fraction.
def fraction (x : Binary64) : Nat × Nat :=
  scaled x.significand 1 x.exponent

def mul? (x y : Binary64) : Option Binary64 :=
  ofFraction? (x.fraction.1 * y.fraction.1) (x.fraction.2 * y.fraction.2)

-- Division by a number other than zero.
def div? (x y : Binary64) : Option Binary64 :=
  ofFraction? (x.fraction.1 * y.fraction.2) (x.fraction.2 * y.fraction.1)

end Binary64

end WordMachine.Decimal
