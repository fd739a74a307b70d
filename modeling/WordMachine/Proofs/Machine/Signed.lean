import WordMachine.Machine.Basic

namespace WordMachine

-- A word as a number, from the signed number that it stands for, and back.
theorem toNat_toUInt32_eq_emod (x : Int32) : (x.toUInt32.toNat : Int) = x.toInt % 4294967296 := by
  have hx := x.toUInt32.toNat_lt
  have h : x.toInt = (x.toUInt32.toNat : Int).bmod (2 ^ 32) := BitVec.toInt_eq_toNat_bmod x.toBitVec
  rw [h]
  have hd := Int.dvd_bmod_sub_self (x := (x.toUInt32.toNat : Int)) (m := 2 ^ 32)
  omega

theorem toInt_eq_ite (x : Int32) :
    x.toInt = if x.toUInt32.toNat < 2147483648 then (x.toUInt32.toNat : Int)
      else x.toUInt32.toNat - 4294967296 := by
  have hx := x.toUInt32.toNat_lt
  have hle := x.le_toInt
  have hlt := x.toInt_lt
  have h := toNat_toUInt32_eq_emod x
  split <;> omega

theorem toInt_add_eq (x y : Int32) (hl : -2147483648 ≤ x.toInt + y.toInt)
    (hr : x.toInt + y.toInt < 2147483648) : (x + y).toInt = x.toInt + y.toInt := by
  rw [Int32.toInt_add]
  exact Int.bmod_eq_of_le (by omega) (by omega)

theorem toInt_sub_eq (x y : Int32) (hl : -2147483648 ≤ x.toInt - y.toInt)
    (hr : x.toInt - y.toInt < 2147483648) : (x - y).toInt = x.toInt - y.toInt := by
  rw [Int32.toInt_sub]
  exact Int.bmod_eq_of_le (by omega) (by omega)

end WordMachine
