import WordMachine.Machine.Memory
import WordMachine.Proofs.Word.Bytes

namespace WordMachine.Memory

-- A word of the memory is that of a little-endian image.
theorem toNat_wordAt (memory : Memory) (place : Nat) :
    (memory.wordAt place).toNat =
      (memory.byteAt place).toNat + (memory.byteAt (place + 1)).toNat * 256 +
        (memory.byteAt (place + 2)).toNat * 65536 +
        (memory.byteAt (place + 3)).toNat * 16777216 :=
  ByteOrder.toNat_word _ _ _ _

-- The byte of a word that lies `offset` bytes after its low one.
def digit (word : UInt32) (offset : Nat) : UInt8 :=
  UInt8.ofNat (word.toNat >>> (8 * offset))

theorem byteAt_setWord (memory : Memory) (place address : Nat) (word : UInt32) :
    (memory.setWord place word).byteAt address =
      if place ≤ address ∧ address < place + 4 then digit word (address - place)
      else memory.byteAt address := by
  have hdigit (shift : UInt32) (offset : Nat) (hs : shift.toNat = 8 * offset) (ho : offset < 4) :
      (word >>> shift).toUInt8 = digit word offset := by
    apply UInt8.toNat_inj.mp
    rw [UInt32.toNat_toUInt8, UInt32.toNat_shiftRight, hs, Nat.mod_eq_of_lt (by omega : _ < 32)]
    rfl
  have h0 : word.toUInt8 = digit word 0 := by simp [digit]
  simp only [setWord, byteAt_setByte, h0, hdigit 8 1 rfl (by decide), hdigit 16 2 rfl (by decide),
    hdigit 24 3 rfl (by decide)]
  by_cases hin : place ≤ address ∧ address < place + 4
  · rw [if_pos hin]
    obtain hc | hc | hc | hc : address = place + 3 ∨ address = place + 2 ∨ address = place + 1 ∨
        address = place := by omega
    all_goals subst hc; simp
  · rw [if_neg hin, if_neg (by omega), if_neg (by omega), if_neg (by omega), if_neg (by omega)]

theorem wordAt_setWord (memory : Memory) (place : Nat) (word : UInt32) :
    (memory.setWord place word).wordAt place = word := by
  apply UInt32.toNat_inj.mp
  have hw := word.toNat_lt
  rw [toNat_wordAt]
  simp [byteAt_setWord, digit]
  omega

theorem wordAt_congr {memory other : Memory} {place : Nat}
    (h : ∀ address, place ≤ address → address < place + 4 →
      other.byteAt address = memory.byteAt address) :
    other.wordAt place = memory.wordAt place := by
  simp only [wordAt]
  rw [h place (by omega) (by omega), h (place + 1) (by omega) (by omega),
    h (place + 2) (by omega) (by omega), h (place + 3) (by omega) (by omega)]

end WordMachine.Memory
