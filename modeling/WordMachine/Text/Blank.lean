namespace WordMachine.Text

-- The characters of the Unicode property White_Space, as closed ranges of code points.
def blankRanges : List (Nat × Nat) :=
  [(0x09, 0x0D), (0x20, 0x20), (0x85, 0x85), (0xA0, 0xA0), (0x1680, 0x1680),
   (0x2000, 0x200A), (0x2028, 0x2029), (0x202F, 0x202F), (0x205F, 0x205F), (0x3000, 0x3000)]

def isBlank (c : Char) : Bool :=
  blankRanges.any fun range => range.1 ≤ c.toNat && c.toNat ≤ range.2

-- The pieces between blanks, empty ones included: one more piece than there are blanks.
def splitAtBlanks : List Char → List (List Char)
  | [] => [[]]
  | c :: text =>
    if isBlank c then [] :: splitAtBlanks text
    else
      match splitAtBlanks text with
      | [] => [[c]]
      | piece :: pieces => (c :: piece) :: pieces

-- The maximal runs of characters that are not blank, in order.
def tokens (text : List Char) : List (List Char) :=
  (splitAtBlanks text).filter (! ·.isEmpty)

theorem splitAtBlanks_ne_nil (text : List Char) : splitAtBlanks text ≠ [] := by
  cases text with
  | nil => simp [splitAtBlanks]
  | cons c text =>
    simp only [splitAtBlanks]
    split
    · simp
    · split <;> simp

end WordMachine.Text
