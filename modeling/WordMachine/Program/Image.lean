import WordMachine.Configuration.Basic
import WordMachine.Instruction.Encoding

namespace WordMachine

-- The word that four bytes make.
def ByteOrder.word (order : ByteOrder) (a b c d : UInt8) : UInt32 :=
  match order with
  | .native | .little =>
    a.toUInt32 ||| b.toUInt32 <<< 8 ||| c.toUInt32 <<< 16 ||| d.toUInt32 <<< 24
  | .big => a.toUInt32 <<< 24 ||| b.toUInt32 <<< 16 ||| c.toUInt32 <<< 8 ||| d.toUInt32

-- The four bytes of a word.
def ByteOrder.bytes (order : ByteOrder) (word : UInt32) : List UInt8 :=
  match order with
  | .native | .little =>
    [word.toUInt8, (word >>> 8).toUInt8, (word >>> 16).toUInt8, (word >>> 24).toUInt8]
  | .big => [(word >>> 24).toUInt8, (word >>> 16).toUInt8, (word >>> 8).toUInt8, word.toUInt8]

namespace Program

-- An image whose length is not a whole number of words.
structure Misaligned where
  length : Nat
  deriving DecidableEq, Repr

def Misaligned.message (error : Misaligned) : String :=
  "invalid input file: size " ++ Decimal.renderNat error.length ++ " is not a multiple of 4"

private def wholeWords (order : ByteOrder) : List UInt8 → List UInt32
  | a :: b :: c :: d :: image => order.word a b c d :: wholeWords order image
  | _ => []

def words (order : ByteOrder) (image : List UInt8) : Except Misaligned (List UInt32) :=
  if image.length % 4 = 0 then .ok (wholeWords order image) else .error ⟨image.length⟩

theorem words_eq_error_iff (order : ByteOrder) (image : List UInt8) (error : Misaligned) :
    words order image = .error error ↔ image.length % 4 ≠ 0 ∧ error = ⟨image.length⟩ := by
  unfold words
  by_cases h : image.length % 4 = 0
  · simp [h]
  · simp [h, eq_comm]

theorem words_nil (order : ByteOrder) : words order [] = .ok [] := rfl

theorem words_cons {order : ByteOrder} {image : List UInt8} {rest : List UInt32}
    (h : words order image = .ok rest) (a b c d : UInt8) :
    words order (a :: b :: c :: d :: image) = .ok (order.word a b c d :: rest) := by
  unfold words at h ⊢
  by_cases hlength : image.length % 4 = 0
  · rw [if_pos hlength, Except.ok.injEq] at h
    have hlonger : (a :: b :: c :: d :: image).length % 4 = 0 := by
      simp only [List.length_cons]
      omega
    rw [if_pos hlonger, wholeWords, h]
  · rw [if_neg hlength] at h
    cases h

-- An image of whole words is built from its end, one word at a time.
theorem words_induction {order : ByteOrder} {motive : List UInt8 → List UInt32 → Prop}
    (hnil : motive [] [])
    (hcons : ∀ a b c d image rest, motive image rest →
      motive (a :: b :: c :: d :: image) (order.word a b c d :: rest))
    {image : List UInt8} {ws : List UInt32} (h : words order image = .ok ws) : motive image ws := by
  unfold words at h
  by_cases hlength : image.length % 4 = 0
  · rw [if_pos hlength, Except.ok.injEq] at h
    subst h
    induction image using wholeWords.induct with
    | case1 a b c d image ih =>
      rw [wholeWords]
      exact hcons a b c d image _ (ih (by simp only [List.length_cons] at hlength; omega))
    | case2 image hshort =>
      match image with
      | [] => exact hnil
      | [_] | [_, _] | [_, _, _] => simp at hlength
      | a :: b :: c :: d :: image => exact absurd rfl (hshort a b c d image)
  · rw [if_neg hlength] at h
    cases h

def image (order : ByteOrder) (words : List UInt32) : List UInt8 :=
  words.flatMap order.bytes

end Program

end WordMachine
