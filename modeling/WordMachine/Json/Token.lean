import WordMachine.Json.Numeral
import WordMachine.Json.StringLiteral

namespace WordMachine.Json

-- The pieces of a text between its white space. A value that is cut or misspelt is a token too:
-- its problem counts only where the value is read, or where it is skipped, which asks for less.
-- Nothing follows a token that cannot even be skipped, nor a stray character.
inductive Token where
  | openBrace
  | closeBrace
  | openBracket
  | closeBracket
  | colon
  | comma
  | text (value : Except Problem String) (skipped : Except Problem Unit)
  | scalar (value : Except Problem Scalar) (skipped : Except Problem Unit)
  | stray

namespace Token

def isSpace (c : Char) : Bool :=
  c == ' ' || c == '\n' || c == '\t' || c == '\r'

-- The rest of some characters after a word that it should begin with.
def wordRest (word chars : List Char) : Except Problem (List Char) :=
  match word, chars with
  | [], chars => .ok chars
  | _ :: _, [] => .error .endInValue
  | c :: word, d :: chars => if c = d then wordRest word chars else .error .expectedWord

-- A literal word, from after its first letter.
private def literal (word : String) (value : Scalar) (chars : List Char) : Token × List Char :=
  match wordRest word.toList chars with
  | .ok rest => (.scalar (.ok value) (.ok ()), rest)
  | .error problem => (.scalar (.error problem) (.error problem), [])

private def number (chars : List Char) : Token × List Char :=
  match Numeral.scan chars with
  | .ok (numeral, rest) => (.scalar (Scalar.number <$> numeral.value) (.ok ()), rest)
  | .error .atEnd => (.scalar (.error .endInValue) (.error .invalidNumber), [])
  | .error .atCharacter => (.scalar (.error .invalidNumber) (.error .invalidNumber), [])

private def stringLiteral (chars : List Char) : Token × List Char :=
  match StringLiteral.skip chars with
  | .ok rest => (.text (StringLiteral.read chars) (.ok ()), rest)
  | .error problem => (.text (StringLiteral.read chars) (.error problem), [])

-- The token that begins with a character, and what follows it.
def first (c : Char) (chars : List Char) : Token × List Char :=
  match c with
  | '\x7b' => (.openBrace, chars)
  | '\x7d' => (.closeBrace, chars)
  | '[' => (.openBracket, chars)
  | ']' => (.closeBracket, chars)
  | ':' => (.colon, chars)
  | ',' => (.comma, chars)
  | '"' => stringLiteral chars
  | 'n' => literal "ull" .null chars
  | 't' => literal "rue" (.boolean true) chars
  | 'f' => literal "alse" (.boolean false) chars
  | c => if c = '-' ∨ (Decimal.digit? c).isSome then number (c :: chars) else (.stray, [])

theorem first_text {chars rest : List Char} (h : StringLiteral.skip chars = .ok rest) :
    first '"' chars = (.text (StringLiteral.read chars) (.ok ()), rest) := by
  simp [first, stringLiteral, h]

theorem first_number {c : Char} {chars rest : List Char} {numeral : Numeral}
    (hc : c = '-' ∨ (Decimal.digit? c).isSome)
    (h : Numeral.scan (c :: chars) = .ok (numeral, rest)) :
    first c chars = (.scalar (Scalar.number <$> numeral.value) (.ok ()), rest) := by
  have hnumber : number (c :: chars) =
      (.scalar (Scalar.number <$> numeral.value) (.ok ()), rest) := by
    simp only [number, h]
  rw [← hnumber]
  unfold first
  split <;> first
    | rcases hc with hc | hc <;> cases hc
    | exact if_pos hc

-- The tokens of at most `fuel` characters.
def scanUpTo : Nat → List Char → List Token
  | 0, _ | _, [] => []
  | fuel + 1, c :: chars =>
    if isSpace c then scanUpTo fuel chars
    else
      let (token, rest) := first c chars
      token :: scanUpTo fuel rest

def scan (chars : List Char) : List Token :=
  scanUpTo chars.length chars

end Token

end WordMachine.Json
