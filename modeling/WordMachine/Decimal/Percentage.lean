import WordMachine.Decimal.Binary64
import WordMachine.Decimal.Integer

namespace WordMachine.Decimal

-- A binary64 number with one decimal place. The exact value is rounded, from a tie to the even
-- digit.
def tenths (x : Binary64) : String :=
  let (numerator, denominator) := x.fraction
  let rounded := Binary64.roundQuotient (numerator * 10) denominator
  renderNat (rounded / 10) ++ "." ++ renderNat (rounded % 10)

-- The share of `part` in `total`, as a binary64 number of hundredths. There is none of nothing.
def percentage (part total : Nat) : Binary64 :=
  if total = 0 then .zero
  else
    (do
      let hundredfold ← (← Binary64.ofNat? part).mul? (← Binary64.ofNat? 100)
      hundredfold.div? (← Binary64.ofNat? total)).getD .zero

end WordMachine.Decimal
