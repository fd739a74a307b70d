import WordMachine.Decimal.Binary64

namespace WordMachine.Decimal

-- The digits of a positive decimal number `0.d₁d₂… * 10 ^ point`.
structure Digits where
  digits : List Char
  point : Int
  deriving DecidableEq, Repr

namespace Binary64

-- The reals that round to a number reach halfway to its neighbours, the ends included where the
-- significand is even. Below a power of two the gap is half as wide. The three values are the
-- lower end, the number and the upper end, in quarters of the last place.
def interval (x : Binary64) : Nat × Nat × Nat :=
  let narrow := x.significand = Nat.pow 2 52 ∧ -1074 < x.exponent
  (4 * x.significand - (if narrow then 1 else 2), 4 * x.significand, 4 * x.significand + 2)

def inInterval (x : Binary64) (numerator denominator : Nat) : Bool :=
  let (low, _, high) := x.interval
  let (up, down) := scaled 1 4 x.exponent
  if x.significand % 2 = 0 then
    low * up * denominator ≤ numerator * down && numerator * down ≤ high * up * denominator
  else
    low * up * denominator < numerator * down && numerator * down < high * up * denominator

-- Where the decimal point of a positive fraction stands: the least `p` with the fraction below
-- `10 ^ p`. Below one, `1 / 10 ^ k` has its point at `1 - k`.
def decimalPoint (numerator denominator : Nat) : Int :=
  if denominator ≤ numerator then (Nat.toDigits 10 (numerator / denominator)).length
  else 1 - (Nat.toDigits 10 ((denominator - 1) / numerator)).length

-- The neighbours of a number on the grid of `count` decimal digits, those that read back.
private def gridHit? (x : Binary64) (count : Nat) : Option (Nat × Int) :=
  let (numerator, denominator) := x.fraction
  let scale := count - decimalPoint numerator denominator
  let up := Nat.pow 10 scale.toNat
  let down := Nat.pow 10 (-scale).toNat
  let below := numerator * up / (denominator * down)
  let hits (n : Nat) : Bool := x.inInterval (n * down) up
  let lowRest := numerator * up - below * (denominator * down)
  let highRest := (below + 1) * (denominator * down) - numerator * up
  match hits below, hits (below + 1) with
  | true, false => some (below, scale)
  | false, true => some (below + 1, scale)
  | true, true =>
    if lowRest < highRest ∨ (lowRest = highRest ∧ below % 2 = 0) then some (below, scale)
    else some (below + 1, scale)
  | false, false => none

private def dropZeros (digits : List Char) : List Char :=
  (digits.reverse.dropWhile (· == '0')).reverse

-- The fewest digits that read back as a positive number, and of those the nearest to it.
def shortest (x : Binary64) : Digits :=
  match (List.range' 1 17).findSome? x.gridHit? with
  | none => ⟨['0'], 1⟩
  | some (n, scale) =>
    let digits := Nat.toDigits 10 n
    ⟨dropZeros digits, digits.length - scale⟩

end Binary64

end WordMachine.Decimal
