import WordMachine.Text.Utf8

namespace WordMachine.Text.Utf8

theorem continuation?_of_ascii {byte : UInt8} (h : byte < 0x80) : continuation? byte = none :=
  if_neg fun hin => UInt8.not_lt.mpr hin.1 h

theorem decode?_cons_ascii {byte : UInt8} (h : byte < 0x80) (rest : List UInt8) :
    decode? (byte :: rest) = (decode? rest).map (Char.ofNat byte.toNat :: ·) := by
  rw [decode?.eq_def]
  simp only [h, ite_true]
  cases decode? rest <;> rfl

-- Two texts with one more character between them.
def joined (separator : UInt8) (before after : Option (List Char)) : Option (List Char) := do
  let first ← before
  let second ← after
  return first ++ Char.ofNat separator.toNat :: second

private theorem joined_cons (separator : UInt8) (char? : Option Char)
    (before after : Option (List Char)) :
    (do
      let char ← char?
      let text ← joined separator before after
      return char :: text) =
      joined separator (do
        let char ← char?
        let text ← before
        return char :: text) after := by
  cases char? <;> cases before <;> cases after <;> rfl

-- A byte of one character belongs to no other character, so bytes can be cut there: a sequence
-- that the cut leaves short has no reading either way.
theorem decode?_append {separator : UInt8} (h : separator < 0x80) (before after : List UInt8) :
    decode? (before ++ separator :: after) =
      joined separator (decode? before) (decode? after) := by
  have hstray := continuation?_of_ascii h
  induction before using decode?.induct with
  | case1 =>
    rw [List.nil_append, decode?_cons_ascii h]
    cases decode? after <;> rfl
  | case2 a rest ha ih =>
    rw [List.cons_append, decode?_cons_ascii ha, decode?_cons_ascii ha, ih]
    cases decode? rest <;> cases decode? after <;> rfl
  | case3 a rest h1 h2 =>
    rw [List.cons_append, decode?.eq_def, decode?.eq_def (a :: rest)]
    simp only [h1, h2, ite_true, ite_false]
    rfl
  | case4 a h1 h2 h3 b rest ih =>
    rw [List.cons_append, List.cons_append, decode?.eq_def, decode?.eq_def (a :: b :: rest)]
    simp only [h1, h2, h3, ite_true, ite_false, ih]
    cases continuation? b with
    | none => rfl
    | some n => exact joined_cons _ _ _ _
  | case5 a rest h1 h2 h3 hshort =>
    match rest with
    | [] =>
      rw [List.cons_append, decode?.eq_def, decode?.eq_def [a]]
      simp only [h1, h2, h3, ite_true, ite_false, List.nil_append, hstray]
      rfl
    | b :: rest => exact absurd rfl (hshort b rest)
  | case6 a h1 h2 h3 h4 b b' rest ih =>
    rw [List.cons_append, List.cons_append, List.cons_append, decode?.eq_def,
      decode?.eq_def (a :: b :: b' :: rest)]
    simp only [h1, h2, h3, h4, ite_true, ite_false, ih]
    cases continuation? b with
    | none => rfl
    | some n =>
      cases continuation? b' with
      | none => rfl
      | some n' => exact joined_cons _ _ _ _
  | case7 a rest h1 h2 h3 h4 hshort =>
    match rest with
    | [] =>
      rw [List.cons_append, decode?.eq_def, decode?.eq_def [a]]
      simp only [h1, h2, h3, h4, ite_true, ite_false, List.nil_append]
      cases after with
      | nil => rfl
      | cons next after =>
        simp only [hstray]
        rfl
    | [b] =>
      rw [List.cons_append, decode?.eq_def, decode?.eq_def [a, b]]
      simp only [h1, h2, h3, h4, ite_true, ite_false, List.nil_append, List.cons_append, hstray]
      cases continuation? b <;> rfl
    | b :: b' :: rest => exact absurd rfl (hshort b b' rest)
  | case8 a h1 h2 h3 h4 h5 b b' b'' rest ih =>
    rw [List.cons_append, List.cons_append, List.cons_append, List.cons_append, decode?.eq_def,
      decode?.eq_def (a :: b :: b' :: b'' :: rest)]
    simp only [h1, h2, h3, h4, h5, ite_true, ite_false, ih]
    cases continuation? b with
    | none => rfl
    | some n =>
      cases continuation? b' with
      | none => rfl
      | some n' =>
        cases continuation? b'' with
        | none => rfl
        | some n'' => exact joined_cons _ _ _ _
  | case9 a rest h1 h2 h3 h4 h5 hshort =>
    match rest with
    | [] =>
      rw [List.cons_append, decode?.eq_def, decode?.eq_def [a]]
      simp only [h1, h2, h3, h4, h5, ite_true, ite_false, List.nil_append]
      match after with
      | [] | [_] => rfl
      | _ :: _ :: after =>
        simp only [hstray]
        rfl
    | [b] =>
      rw [List.cons_append, decode?.eq_def, decode?.eq_def [a, b]]
      simp only [h1, h2, h3, h4, h5, ite_true, ite_false, List.nil_append, List.cons_append]
      cases after with
      | nil => rfl
      | cons next after =>
        simp only [hstray]
        cases continuation? b <;> rfl
    | [b, b'] =>
      rw [List.cons_append, decode?.eq_def, decode?.eq_def [a, b, b']]
      simp only [h1, h2, h3, h4, h5, ite_true, ite_false, List.nil_append, List.cons_append,
        hstray]
      cases continuation? b with
      | none => rfl
      | some n => cases continuation? b' <;> rfl
    | b :: b' :: b'' :: rest => exact absurd rfl (hshort b b' b'' rest)
  | case10 a rest h1 h2 h3 h4 h5 =>
    rw [List.cons_append, decode?.eq_def, decode?.eq_def (a :: rest)]
    simp only [h1, h2, h3, h4, h5, ite_false]
    rfl

end WordMachine.Text.Utf8
