import WordMachine.Decimal.Integer
import WordMachine.Decimal.Shortest
import WordMachine.Text.Quoted

namespace WordMachine.Json

-- A number as its spelling decides it: a natural number below 2^64, a negative integer not below
-- -2^63, or a binary64 number with its sign.
inductive Number where
  | natural (n : Nat)
  | negative (n : Int)
  | real (minus : Bool) (magnitude : Decimal.Binary64)
  deriving DecidableEq, Repr

-- The shortest decimal text of a real number, with a point or an exponent. Exponents from -5 to 15
-- are written out.
def realText (minus : Bool) (magnitude : Decimal.Binary64) : String :=
  let sign := if minus then "-" else ""
  if magnitude.significand = 0 then sign ++ "0.0"
  else
    let ⟨digits, point⟩ := magnitude.shortest
    let count : Int := digits.length
    let zeros (n : Int) := List.replicate n.toNat '0'
    sign ++
      if -5 < point ∧ point ≤ 0 then
        String.ofList ('0' :: '.' :: zeros (-point) ++ digits)
      else if 0 < point ∧ point < count then
        String.ofList (digits.take point.toNat ++ '.' :: digits.drop point.toNat)
      else if count ≤ point ∧ point ≤ 16 then
        String.ofList (digits ++ zeros (point - count) ++ ['.', '0'])
      else
        let tail := if digits.length = 1 then [] else '.' :: digits.drop 1
        let exponent := point - 1
        String.ofList (digits.take 1 ++ tail) ++ "e" ++ (if 0 ≤ exponent then "+" else "")
          ++ Decimal.render exponent

-- A value without parts.
inductive Scalar where
  | null
  | boolean (b : Bool)
  | number (n : Number)
  deriving DecidableEq, Repr

-- What stands where something else was wanted.
inductive Found where
  | scalar (value : Scalar)
  | text (value : String)
  | sequence
  | map
  deriving DecidableEq, Repr

def Found.description : Found → String
  | scalar .null => "null"
  | scalar (.boolean b) => "boolean `" ++ (if b then "true" else "false") ++ "`"
  | scalar (.number (.natural n)) => "integer `" ++ Decimal.renderNat n ++ "`"
  | scalar (.number (.negative n)) => "integer `" ++ Decimal.render n ++ "`"
  | scalar (.number (.real minus magnitude)) =>
    "floating point `" ++ realText minus magnitude ++ "`"
  | text value => "string " ++ Text.quote value
  | sequence => "sequence"
  | map => "map"

-- Whether a text ends too early, is not JSON, or is JSON of another shape than wanted.
inductive Category where
  | ending
  | wording
  | shape
  deriving DecidableEq, Repr

-- Why a text has no reading.
inductive Problem where
  | endInList
  | endInObject
  | endInString
  | endInValue
  | expectedColon
  | expectedListSeparator
  | expectedMemberSeparator
  | expectedWord
  | expectedValue
  | invalidEscape
  | invalidNumber
  | numberOutOfRange
  | controlCharacter
  | keyNotString
  | loneSurrogate
  | unfinishedSurrogate
  | trailingComma
  | trailingCharacters
  | invalidType (found : Found) (expected : String)
  | invalidValue (found : Found) (expected : String)
  | unknownVariant (name : String) (known : List String)
  | duplicateField (name : String)
  deriving DecidableEq, Repr

namespace Problem

def category : Problem → Category
  | endInList | endInObject | endInString | endInValue => .ending
  | invalidType .. | invalidValue .. | unknownVariant .. | duplicateField _ => .shape
  | _ => .wording

private def choice : List String → String
  | [] => "nothing"
  | [name] => name
  | [name, other] => name ++ " or " ++ other
  | names => "one of " ++ ", ".intercalate names

def message : Problem → String
  | endInList => "EOF while parsing a list"
  | endInObject => "EOF while parsing an object"
  | endInString => "EOF while parsing a string"
  | endInValue => "EOF while parsing a value"
  | expectedColon => "expected `:`"
  | expectedListSeparator => "expected `,` or `]`"
  | expectedMemberSeparator => "expected `,` or `\x7d`"
  | expectedWord => "expected ident"
  | expectedValue => "expected value"
  | invalidEscape => "invalid escape"
  | invalidNumber => "invalid number"
  | numberOutOfRange => "number out of range"
  | controlCharacter => "control character (\\u0000-\\u001F) found while parsing a string"
  | keyNotString => "key must be a string"
  | loneSurrogate => "lone leading surrogate in hex escape"
  | unfinishedSurrogate => "unexpected end of hex escape"
  | trailingComma => "trailing comma"
  | trailingCharacters => "trailing characters"
  | invalidType found expected =>
    "invalid type: " ++ found.description ++ ", expected " ++ expected
  | invalidValue found expected =>
    "invalid value: " ++ found.description ++ ", expected " ++ expected
  | unknownVariant name known =>
    "unknown variant `" ++ name ++ "`, expected "
      ++ choice (known.map fun other => "`" ++ other ++ "`")
  | duplicateField name => "duplicate field `" ++ name ++ "`"

end Problem

end WordMachine.Json
