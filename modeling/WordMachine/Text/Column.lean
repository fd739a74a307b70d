namespace WordMachine.Text

-- Text in a column of `width` characters, set to its right side and filled up with `fill`.
-- A text that is too long for the column is kept whole.
def padLeft (width : Nat) (fill : Char) (text : String) : String :=
  String.ofList (text.toList.leftpad width fill)

-- Text set to the left side of a column, filled up with spaces.
def padRight (width : Nat) (text : String) : String :=
  String.ofList (text.toList.rightpad width ' ')

-- Lower-case hexadecimal digits, without leading zeros.
def hexDigits (n : Nat) : String :=
  String.ofList (Nat.toDigits 16 n)

-- `0x` and at least `digits` hexadecimal digits.
def hexLiteral (digits n : Nat) : String :=
  "0x" ++ padLeft digits '0' (hexDigits n)

end WordMachine.Text
