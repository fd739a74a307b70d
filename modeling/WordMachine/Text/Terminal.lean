namespace WordMachine.Text.Terminal

-- What a terminal is in the middle of: plain text, or a control sequence, of which nothing is
-- shown. A control string is ended by its own sequence, a system command also by a bell.
inductive Mode where
  | plain
  | escape
  | escapeIntermediate
  | control
  | deviceEntry
  | deviceParameter
  | deviceIntermediate
  | controlString
  | systemCommand
  deriving DecidableEq, Repr

namespace Mode

private def within (low high c : Char) : Bool :=
  low ≤ c && c ≤ high

-- The mode after a character that is no part of plain text. Escape begins a sequence in every
-- mode, and the two cancel characters end one.
def next (mode : Mode) (c : Char) : Mode :=
  if c = '\x1b' then escape
  else if c = '\x18' ∨ c = '\x1a' then plain
  else
    match mode with
    | plain => plain
    | escape =>
      if within ' ' '/' c then escapeIntermediate
      else if c = '[' then control
      else if c = ']' then systemCommand
      else if c = 'P' then deviceEntry
      else if c = 'X' ∨ c = '^' ∨ c = '_' then controlString
      else if within '0' '~' c then plain
      else escape
    | escapeIntermediate => if within '0' '~' c then plain else escapeIntermediate
    | control => if within '@' '~' c then plain else control
    | deviceEntry =>
      if within ' ' '/' c then deviceIntermediate
      else if within '0' '?' c then deviceParameter
      else if within '@' '~' c then controlString
      else deviceEntry
    | deviceParameter =>
      if within ' ' '/' c then deviceIntermediate
      else if within '<' '~' c then controlString
      else deviceParameter
    | deviceIntermediate => if within '0' '~' c then controlString else deviceIntermediate
    | controlString => if 0x9C ∈ String.utf8EncodeChar c then plain else controlString
    | systemCommand => if c = '\x07' then plain else systemCommand

-- The control characters that move the text on.
private def isLayout (c : Char) : Bool :=
  c == '\t' || c == '\n' || c == '\x0c' || c == '\r'

-- A character of plain text is shown. Within a short sequence only layout is.
def shows (mode : Mode) (c : Char) : Bool :=
  match mode with
  | plain => isLayout c || (' ' ≤ c && c ≠ '\x7f')
  | escape | escapeIntermediate | control => isLayout c
  | _ => false

end Mode

-- The characters that a terminal shows. Once a character is shown the text counts as plain up to
-- the next one that plain text does not show, and the sequence that was cut goes on there.
def shownFrom (mode : Mode) (isPlain : Bool) : List Char → List Char
  | [] => []
  | c :: text =>
    if (if isPlain then Mode.plain else mode).shows c then
      c :: shownFrom (if c.toNat < 0x80 then mode else .plain) true text
    else shownFrom (mode.next c) false text

-- A text without its control sequences and control characters.
def shown (text : String) : String :=
  String.ofList (shownFrom .plain false text.toList)

end WordMachine.Text.Terminal
