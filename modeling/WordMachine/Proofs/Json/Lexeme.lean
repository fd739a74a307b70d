import Mathlib.Data.List.Chain
import WordMachine.Json.Token
import WordMachine.Proofs.Json.Numeral

namespace WordMachine.Json

-- A value without parts, as it may be written. No number has a fraction or an exponent.
inductive Literal where
  | null
  | boolean (b : Bool)
  | integer (minus : Bool) (magnitude : Nat)
  | text (value : String)
  deriving DecidableEq, Repr

-- What a text is written with, between its white space.
inductive Lexeme where
  | openBrace
  | closeBrace
  | colon
  | comma
  | literal (value : Literal)
  deriving DecidableEq, Repr

-- A character that stands for itself between quotes.
def IsPlain (c : Char) : Prop :=
  0x20 ≤ c.toNat ∧ c ≠ '"' ∧ c ≠ '\\'
  deriving Decidable

namespace Literal

def spelling : Literal → List Char
  | null => "null".toList
  | boolean true => "true".toList
  | boolean false => "false".toList
  | integer minus magnitude =>
    if minus then '-' :: Nat.toDigits 10 magnitude else Nat.toDigits 10 magnitude
  | text value => '"' :: (value.toList ++ ['"'])

-- The literal needs no escapes.
def Plain : Literal → Prop
  | text value => ∀ c ∈ value.toList, IsPlain c
  | _ => True

instance (value : Literal) : Decidable value.Plain :=
  match value with
  | text value => List.decidableBAll IsPlain value.toList
  | null | boolean _ | integer _ _ => inferInstanceAs (Decidable True)

def token : Literal → Token
  | null => .scalar (.ok .null) (.ok ())
  | boolean b => .scalar (.ok (.boolean b)) (.ok ())
  | integer minus magnitude =>
    .scalar (Scalar.number <$> (Numeral.whole minus magnitude).value) (.ok ())
  | text value => .text (.ok value) (.ok ())

theorem token_natural {n : Nat} (h : n < UInt64.size) :
    (integer false n).token = .scalar (.ok (.number (.natural n))) (.ok ()) := by
  rw [token, Numeral.value_whole h]
  rfl

end Literal

namespace Lexeme

def spelling : Lexeme → List Char
  | openBrace => ['\x7b']
  | closeBrace => ['\x7d']
  | colon => [':']
  | comma => [',']
  | literal value => value.spelling

def Plain : Lexeme → Prop
  | literal value => value.Plain
  | _ => True

instance (lexeme : Lexeme) : Decidable lexeme.Plain :=
  match lexeme with
  | literal value => inferInstanceAs (Decidable value.Plain)
  | openBrace | closeBrace | colon | comma => inferInstanceAs (Decidable True)

def token : Lexeme → Token
  | openBrace => .openBrace
  | closeBrace => .closeBrace
  | colon => .colon
  | comma => .comma
  | literal value => value.token

-- A literal is followed by nothing that could be a part of it.
def Apart (lexeme next : Lexeme) : Prop :=
  ∀ value, lexeme = literal value → next = colon ∨ next = comma ∨ next = closeBrace

end Lexeme

-- A text that is written with some lexemes, and with white space where it likes.
inductive Spells : List Lexeme → List Char → Prop where
  | done : Spells [] []
  | space {c : Char} {lexemes : List Lexeme} {chars : List Char} (hc : Token.isSpace c = true)
      (h : Spells lexemes chars) : Spells lexemes (c :: chars)
  | lexeme {lexeme : Lexeme} {lexemes : List Lexeme} {chars : List Char} (hp : lexeme.Plain)
      (h : Spells lexemes chars) : Spells (lexeme :: lexemes) (lexeme.spelling ++ chars)

theorem spells_append_space {space : List Char} (hspace : ∀ c ∈ space, Token.isSpace c = true)
    {lexemes : List Lexeme} {chars : List Char} (h : Spells lexemes chars) :
    Spells lexemes (space ++ chars) := by
  induction space with
  | nil => exact h
  | cons c space ih =>
    obtain ⟨hc, hspace⟩ := List.forall_mem_cons.mp hspace
    exact .space hc (ih hspace)

-- The same white space may stand after each lexeme, and there may be none.
theorem spells_flatMap {lexemes : List Lexeme} (h : ∀ lexeme ∈ lexemes, lexeme.Plain)
    {space : List Char} (hspace : ∀ c ∈ space, Token.isSpace c = true) :
    Spells lexemes (lexemes.flatMap fun lexeme => lexeme.spelling ++ space) := by
  induction lexemes with
  | nil => exact .done
  | cons lexeme lexemes ih =>
    obtain ⟨hlexeme, hlexemes⟩ := List.forall_mem_cons.mp h
    rw [List.flatMap_cons, List.append_assoc]
    exact .lexeme hlexeme (spells_append_space hspace (ih hlexemes))

section Text

variable {text : List Char} (h : ∀ c ∈ text, IsPlain c) (rest : List Char)

include h

theorem skip_plain : StringLiteral.skip (text ++ '"' :: rest) = .ok rest := by
  induction text with
  | nil => simp [StringLiteral.skip]
  | cons c text ih =>
    obtain ⟨⟨hvisible, hquote, hescape⟩, htext⟩ := List.forall_mem_cons.mp h
    rw [List.cons_append, StringLiteral.skip, if_neg hquote, if_neg hescape,
      if_neg (Nat.not_lt.mpr hvisible), ih htext]

theorem readFrom_plain (before : List Char) :
    StringLiteral.readFrom before (text ++ '"' :: rest) =
      .ok (String.ofList (before.reverse ++ text)) := by
  induction text generalizing before with
  | nil => simp [StringLiteral.readFrom]
  | cons c text ih =>
    obtain ⟨⟨hvisible, hquote, hescape⟩, htext⟩ := List.forall_mem_cons.mp h
    rw [List.cons_append, StringLiteral.readFrom, if_neg hquote, if_neg hescape,
      if_neg (Nat.not_lt.mpr hvisible), ih htext]
    simp

end Text

namespace Token

theorem first_plain {text : String} (h : ∀ c ∈ text.toList, IsPlain c) (rest : List Char) :
    first '"' (text.toList ++ '"' :: rest) = (.text (.ok text) (.ok ()), rest) := by
  rw [first_text (skip_plain h rest), StringLiteral.read, readFrom_plain h rest []]
  simp

theorem isSpace_iff (c : Char) :
    isSpace c = true ↔ c = ' ' ∨ c = '\n' ∨ c = '\t' ∨ c = '\r' := by
  simp [isSpace, or_assoc]

theorem first_integer (minus : Bool) (magnitude : Nat) {rest : List Char}
    (h : Numeral.Ends rest) :
    ∃ c chars, (Literal.integer minus magnitude).spelling = c :: chars ∧ isSpace c = false ∧
      first c (chars ++ rest) = ((Literal.integer minus magnitude).token, rest) := by
  have hscan := Numeral.scan_spelling minus magnitude h
  cases minus with
  | true => exact ⟨'-', _, rfl, rfl, first_number (.inl rfl) hscan⟩
  | false =>
    cases htext : Nat.toDigits 10 magnitude with
    | nil => exact absurd htext Nat.toDigits_ne_nil
    | cons c chars =>
      have hdigit : c.isDigit = true :=
        Nat.isDigit_of_mem_toDigits (by decide) (by decide) (htext ▸ List.mem_cons_self ..)
      have hvalue : (Decimal.digit? c).isSome = true := by
        rw [Decimal.digit?_of_isDigit hdigit, Option.isSome_some]
      have hspace : isSpace c = false := by
        rw [Bool.eq_false_iff, ne_eq, isSpace_iff]
        rintro (rfl | rfl | rfl | rfl) <;> cases hdigit
      rw [htext] at hscan
      exact ⟨c, chars, htext, hspace, first_number (.inr hvalue) hscan⟩

-- A lexeme is scanned as its token, and no further than it goes.
theorem first_spelling {lexeme : Lexeme} (hp : lexeme.Plain) {rest : List Char}
    (h : ∀ value, lexeme = .literal value → Numeral.Ends rest) :
    ∃ c chars, lexeme.spelling = c :: chars ∧ isSpace c = false ∧
      first c (chars ++ rest) = (lexeme.token, rest) := by
  cases lexeme with
  | openBrace | closeBrace | colon | comma => exact ⟨_, _, rfl, rfl, rfl⟩
  | literal value =>
    cases value with
    | null => exact ⟨_, _, rfl, rfl, rfl⟩
    | boolean b => cases b <;> exact ⟨_, _, rfl, rfl, rfl⟩
    | integer minus magnitude => exact first_integer minus magnitude (h _ rfl)
    | text value =>
      refine ⟨'"', value.toList ++ ['"'], rfl, rfl, ?_⟩
      rw [List.append_assoc]
      exact first_plain hp rest

theorem scanUpTo_nil (fuel : Nat) : scanUpTo fuel [] = [] := by
  cases fuel <;> rfl

theorem ends_of_isSpace {c : Char} (h : isSpace c = true) (chars : List Char) :
    Numeral.Ends (c :: chars) := by
  rintro d ⟨rfl⟩
  rcases (isSpace_iff c).mp h with rfl | rfl | rfl | rfl <;> decide

-- What follows a literal does not go on with it.
theorem ends_of_spells {lexeme : Lexeme} {lexemes : List Lexeme} {chars : List Char}
    (h : Spells lexemes chars) (hapart : List.IsChain Lexeme.Apart (lexeme :: lexemes))
    (value : Literal) (hvalue : lexeme = .literal value) : Numeral.Ends chars := by
  cases h with
  | done =>
    intro c hc
    cases hc
  | space hc h => exact ends_of_isSpace hc _
  | lexeme hp h =>
    rcases (List.isChain_cons_cons.mp hapart).1 value hvalue with rfl | rfl | rfl <;>
      (rintro d ⟨rfl⟩; decide)

theorem scanUpTo_of_spells {lexemes : List Lexeme} {chars : List Char} (h : Spells lexemes chars)
    (hapart : List.IsChain Lexeme.Apart lexemes) {fuel : Nat} (hfuel : chars.length ≤ fuel) :
    scanUpTo fuel chars = lexemes.map Lexeme.token := by
  induction h generalizing fuel with
  | done => exact scanUpTo_nil fuel
  | space hc h ih =>
    cases fuel with
    | zero => cases hfuel
    | succ fuel =>
      rw [scanUpTo, if_pos hc]
      exact ih hapart (Nat.le_of_succ_le_succ hfuel)
  | @lexeme lexeme lexemes chars hp h ih =>
    obtain ⟨c, spelling, hspelling, hspace, hfirst⟩ :=
      first_spelling hp (ends_of_spells h hapart)
    rw [hspelling] at hfuel ⊢
    cases fuel with
    | zero => cases hfuel
    | succ fuel =>
      have hrest : chars.length ≤ fuel := by
        simp only [List.cons_append, List.length_cons, List.length_append] at hfuel
        omega
      rw [List.cons_append, scanUpTo, if_neg (by simp [hspace]), hfirst, List.map_cons]
      simp only [ih hapart.tail hrest]

-- The lexemes of a text are its tokens, whatever white space is between them.
theorem scan_of_spells {lexemes : List Lexeme} {chars : List Char} (h : Spells lexemes chars)
    (hapart : List.IsChain Lexeme.Apart lexemes) :
    scan chars = lexemes.map Lexeme.token :=
  scanUpTo_of_spells h hapart (Nat.le_refl _)

end Token

end WordMachine.Json
