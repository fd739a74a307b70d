import WordMachine.Text.Column

namespace WordMachine.Text

-- The value of some lower-case hexadecimal digits. Zeros in front do not count.
def hexDigitValue (c : Char) : Nat :=
  if c.isDigit then c.toNat - '0'.toNat else c.toNat - 'a'.toNat + 10

def hexValue (text : List Char) : Nat :=
  text.foldl (fun value c => value * 16 + hexDigitValue c) 0

theorem hexDigitValue_digitChar {d : Nat} (h : d < 16) : hexDigitValue d.digitChar = d := by
  have hall : ∀ d : Fin 16, hexDigitValue d.val.digitChar = d.val := by decide
  exact hall ⟨d, h⟩

theorem hexValue_concat (text : List Char) (c : Char) :
    hexValue (text ++ [c]) = hexValue text * 16 + hexDigitValue c := by
  rw [hexValue, List.foldl_append]
  rfl

theorem hexValue_toDigits (n : Nat) : hexValue (Nat.toDigits 16 n) = n := by
  induction n using Nat.strongRecOn with
  | ind n ih =>
    rw [Nat.toDigits_eq_if (by decide)]
    by_cases hn : n < 16
    · have hdigit := hexValue_concat [] n.digitChar
      rw [hexDigitValue_digitChar hn] at hdigit
      rw [if_pos hn]
      exact hdigit.trans (Nat.zero_add n)
    · rw [if_neg hn, hexValue_concat, ih (n / 16) (by omega),
        hexDigitValue_digitChar (Nat.mod_lt n (by decide))]
      omega

theorem hexValue_leftpad (width : Nat) (text : List Char) :
    hexValue (text.leftpad width '0') = hexValue text := by
  have hzeros (count : Nat) : hexValue (List.replicate count '0') = 0 := by
    induction count with
    | zero => rfl
    | succ count ih =>
      rw [List.replicate_succ', hexValue_concat, ih]
      rfl
  rw [List.leftpad, hexValue, List.foldl_append]
  exact congrArg (text.foldl _) (hzeros _)

theorem toList_hexLiteral (digits n : Nat) :
    (hexLiteral digits n).toList = '0' :: 'x' :: (Nat.toDigits 16 n).leftpad digits '0' := by
  have hpadded : (padLeft digits '0' (hexDigits n)).toList =
      (Nat.toDigits 16 n).leftpad digits '0' := by
    rw [padLeft, hexDigits, String.toList_ofList, String.toList_ofList]
  rw [hexLiteral, String.toList_append, hpadded]
  rfl

theorem hexLiteral_inj {digits n m : Nat} (h : hexLiteral digits n = hexLiteral digits m) :
    n = m := by
  have hvalue := congrArg (fun text => hexValue (text.toList.drop 2)) h
  simp only [toList_hexLiteral, List.drop_succ_cons, List.drop_zero, hexValue_leftpad,
    hexValue_toDigits] at hvalue
  exact hvalue

theorem exists_digitChar_of_mem {n : Nat} {c : Char} (h : c ∈ Nat.toDigits 16 n) :
    ∃ d < 16, c = d.digitChar := by
  induction n using Nat.strongRecOn with
  | ind n ih =>
    rw [Nat.toDigits_eq_if (by decide)] at h
    by_cases hn : n < 16
    · rw [if_pos hn, List.mem_singleton] at h
      exact ⟨n, hn, h⟩
    · rw [if_neg hn, List.mem_append, List.mem_singleton] at h
      rcases h with h | h
      · exact ih (n / 16) (by omega) h
      · exact ⟨n % 16, Nat.mod_lt n (by decide), h⟩

theorem isAlphanum_of_mem_hexLiteral {digits n : Nat} {c : Char}
    (h : c ∈ (hexLiteral digits n).toList) : c.isAlphanum = true := by
  simp only [toList_hexLiteral, List.leftpad, List.mem_cons, List.mem_append,
    List.mem_replicate] at h
  rcases h with rfl | rfl | ⟨-, rfl⟩ | h
  · rfl
  · rfl
  · rfl
  · have hall : ∀ d : Fin 16, d.val.digitChar.isAlphanum = true := by decide
    obtain ⟨d, hd, rfl⟩ := exists_digitChar_of_mem h
    exact hall ⟨d, hd⟩

-- A text ends here, or goes on with this character.
def Breaks (c : Char) (rest : List Char) : Prop :=
  ∀ d ∈ rest.head?, d = c

theorem breaks_nil (c : Char) : Breaks c [] := nofun

theorem breaks_cons (c : Char) (rest : List Char) : Breaks c (c :: rest) :=
  fun _ hd => (Option.some.inj hd).symm

theorem takeWhile_append_breaks {c : Char} {text rest : List Char} (h : c ∉ text)
    (hr : Breaks c rest) : (text ++ rest).takeWhile (· ≠ c) = text := by
  have hrest : rest.takeWhile (· ≠ c) = [] := by
    cases rest with
    | nil => rfl
    | cons d rest =>
      obtain rfl : d = c := hr d rfl
      exact List.takeWhile_cons_of_neg (by simp)
  rw [List.takeWhile_append_of_pos, hrest, List.append_nil]
  intro d hd
  exact decide_eq_true fun heq => h (heq ▸ hd)

-- Two texts that do not have the character are told apart from what follows with it.
theorem append_inj_of_breaks {c : Char} {text other rest rest' : List Char}
    (h : text ++ rest = other ++ rest') (ht : c ∉ text) (ho : c ∉ other) (hr : Breaks c rest)
    (hr' : Breaks c rest') : text = other ∧ rest = rest' := by
  have hsame : text = other := by
    rw [← takeWhile_append_breaks ht hr, h, takeWhile_append_breaks ho hr']
  subst hsame
  exact ⟨rfl, List.append_cancel_left h⟩

end WordMachine.Text
