import WordMachine.Json.Problem

namespace WordMachine.Json

-- The spelling of a number: the digits of its integer part, of its fraction and of its exponent,
-- and the two signs.
structure Numeral where
  minus : Bool
  integer : List Nat
  fraction : List Nat
  exponent : Option (Bool × List Nat)
  isInteger : Bool
  deriving DecidableEq, Repr

-- Where a spelling breaks off: at the end of the text, or at a character.
inductive NumeralError where
  | atEnd
  | atCharacter
  deriving DecidableEq, Repr

namespace Numeral

-- The digits at the front of a text, and the rest of it.
def digitRun (text : List Char) : List Nat × List Char :=
  ((text.takeWhile (Decimal.digit? · |>.isSome)).filterMap Decimal.digit?,
    text.dropWhile (Decimal.digit? · |>.isSome))

-- The same, where one digit at least is needed.
def someDigits (text : List Char) : Except NumeralError (List Nat × List Char) :=
  match digitRun text, text with
  | ([], _), [] => .error .atEnd
  | ([], _), _ => .error .atCharacter
  | run, _ => .ok run

-- A zero stands alone before the point.
private def scanInteger (text : List Char) : Except NumeralError (List Nat × List Char) := do
  let (digits, rest) ← someDigits text
  match digits with
  | 0 :: _ :: _ => throw .atCharacter
  | _ => return (digits, rest)

private def scanFraction : List Char → Except NumeralError (Option (List Nat) × List Char)
  | '.' :: text => do
    let (digits, rest) ← someDigits text
    return (some digits, rest)
  | text => .ok (none, text)

private def scanExponent :
    List Char → Except NumeralError (Option (Bool × List Nat) × List Char)
  | 'e' :: text | 'E' :: text => do
    let (minus, text) := match text with
      | '+' :: text => (false, text)
      | '-' :: text => (true, text)
      | text => (false, text)
    let (digits, rest) ← someDigits text
    return (some (minus, digits), rest)
  | text => .ok (none, text)

-- The number at the front of a text, and the rest of it.
def scan (text : List Char) : Except NumeralError (Numeral × List Char) := do
  let (minus, text) := match text with
    | '-' :: text => (true, text)
    | text => (false, text)
  let (integer, text) ← scanInteger text
  let (fraction, text) ← scanFraction text
  let (exponent, text) ← scanExponent text
  let isInteger := fraction.isNone && exponent.isNone
  return (⟨minus, integer, fraction.getD [], exponent, isInteger⟩, text)

-- An integer ends before a character that begins neither a fraction nor an exponent.
theorem scan_integer (minus : Bool) {text rest : List Char} {d : Nat} {digits : List Nat}
    (h : digitRun text = (d :: digits, rest)) (hzero : d = 0 → digits = [])
    (hrest : ∀ c ∈ rest.head?, c ≠ '.' ∧ c ≠ 'e' ∧ c ≠ 'E') :
    scan (if minus then '-' :: text else text) =
      .ok (⟨minus, d :: digits, [], none, true⟩, rest) := by
  have hinteger : scanInteger text = .ok (d :: digits, rest) := by
    have hsome : someDigits text = .ok (d :: digits, rest) := by
      simp [someDigits, h]
    cases d with
    | zero =>
      rw [hzero rfl] at hsome ⊢
      simp [scanInteger, hsome]
      rfl
    | succ d =>
      simp [scanInteger, hsome]
      rfl
  have hfraction : scanFraction rest = .ok (none, rest) := by
    cases rest with
    | nil => rfl
    | cons c rest =>
      obtain ⟨hpoint, -⟩ := hrest c rfl
      simp [scanFraction, hpoint]
  have hexponent : scanExponent rest = .ok (none, rest) := by
    cases rest with
    | nil => rfl
    | cons c rest =>
      obtain ⟨-, hsmall, hlarge⟩ := hrest c rfl
      simp [scanExponent, hsmall, hlarge]
  cases minus with
  | true =>
    simp only [scan, ite_true, bind, Except.bind, hinteger, hfraction, hexponent]
    rfl
  | false =>
    cases text with
    | nil => cases h
    | cons c text =>
      have hc : c ≠ '-' := by
        rintro rfl
        cases h
      simp [scan, hc, bind, Except.bind, hinteger, hfraction, hexponent]
      rfl

-- Takes digits as long as the value is below the bound. The others are left over.
def accumulate (bound value : Nat) : List Nat → Nat × List Nat
  | [] => (value, [])
  | d :: digits =>
    if bound ≤ value * 10 + d then (value, d :: digits)
    else accumulate bound (value * 10 + d) digits

-- Division by a power of ten, in steps that a binary64 number can express.
def scaleDown (x : Decimal.Binary64) (power : Nat) : Option Decimal.Binary64 := do
  if power ≤ 308 then x.div? (← Decimal.Binary64.ofNat? (Nat.pow 10 power))
  else if x.significand = 0 then some x
  else scaleDown (← x.div? (← Decimal.Binary64.ofNat? (Nat.pow 10 308))) (power - 308)
termination_by power

-- `significand * 10 ^ exponent`, rounded at each of its steps: the significand becomes a binary64
-- number, and a power of ten multiplies or divides it.
def magnitude? (significand : Nat) (exponent : Int) : Option Decimal.Binary64 := do
  let x ← Decimal.Binary64.ofNat? significand
  match exponent with
  | .ofNat power =>
    if power ≤ 308 then x.mul? (← Decimal.Binary64.ofNat? (Nat.pow 10 power))
    else if x.significand = 0 then some x
    else none
  | .negSucc power => scaleDown x (power + 1)

-- The significand is kept below 2^64. Digits of the integer part that do not fit count as powers
-- of ten, and those of the fraction are left out. An exponent that no signed 32-bit word holds
-- makes zero if it is negative or the significand is zero.
def real (n : Numeral) : Except Problem Number :=
  let (whole, dropped) := accumulate UInt64.size 0 n.integer
  let (significand, ignored) := accumulate UInt64.size whole n.fraction
  let shift : Int := dropped.length - (n.fraction.length - ignored.length : Nat)
  let (minus, digits) := n.exponent.getD (false, [])
  let magnitude : Option Decimal.Binary64 :=
    match accumulate 0x80000000 0 digits with
    | (_, _ :: _) => if significand = 0 ∨ minus then some .zero else none
    | (power, []) => magnitude? significand (if minus then shift - power else shift + power)
  match magnitude with
  | some magnitude => .ok (.real n.minus magnitude)
  | none => .error .numberOutOfRange

-- An integer that fits its word is exact. The negative zero and all other numbers are real.
def value (n : Numeral) : Except Problem Number :=
  match n.isInteger, accumulate UInt64.size 0 n.integer with
  | true, (magnitude, []) =>
    if n.minus then
      if 0 < magnitude ∧ magnitude ≤ 0x8000000000000000 then .ok (.negative (-magnitude))
      else n.real
    else .ok (.natural magnitude)
  | _, _ => n.real

end Numeral

end WordMachine.Json
