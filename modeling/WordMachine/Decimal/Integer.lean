namespace WordMachine.Decimal

def renderNat (n : Nat) : String :=
  String.ofList (Nat.toDigits 10 n)

-- Decimal digits without leading zeros, after a minus sign for a negative number.
def render : Int → String
  | .ofNat n => renderNat n
  | .negSucc n => "-" ++ renderNat (n + 1)

-- Why a text is not an integer of the wanted range.
inductive IntegerError where
  | empty
  | invalidDigit
  | tooLarge
  | tooSmall
  deriving DecidableEq, Repr

def IntegerError.message : IntegerError → String
  | .empty => "cannot parse integer from empty string"
  | .invalidDigit => "invalid digit found in string"
  | .tooLarge => "number too large to fit in target type"
  | .tooSmall => "number too small to fit in target type"

def digit? (c : Char) : Option Nat :=
  if '0' ≤ c ∧ c ≤ '9' then some (c.toNat - '0'.toNat) else none

-- The digits are taken from the left. The first one that is no digit, or that takes the value
-- out of the range, decides the error.
def readMagnitude (limit : Nat) (overflow : IntegerError) (value : Nat) :
    List Char → Except IntegerError Nat
  | [] => .ok value
  | c :: text =>
    match digit? c with
    | none => .error .invalidDigit
    | some d =>
      if limit < value * 10 + d then .error overflow
      else readMagnitude limit overflow (value * 10 + d) text

-- An optional sign and at least one digit, for an integer from `-bound` to `bound - 1`.
def readSigned (bound : Nat) : List Char → Except IntegerError Int
  | [] => .error .empty
  | ['+'] | ['-'] => .error .invalidDigit
  | '+' :: text => Int.ofNat <$> readMagnitude (bound - 1) .tooLarge 0 text
  | '-' :: text => (fun n => -Int.ofNat n) <$> readMagnitude bound .tooSmall 0 text
  | text => Int.ofNat <$> readMagnitude (bound - 1) .tooLarge 0 text

-- An optional plus sign and at least one digit, for a natural number below `bound`.
def readUnsigned (bound : Nat) : List Char → Except IntegerError Nat
  | [] => .error .empty
  | ['+'] => .error .invalidDigit
  | '+' :: text => readMagnitude (bound - 1) .tooLarge 0 text
  | text => readMagnitude (bound - 1) .tooLarge 0 text

end WordMachine.Decimal
