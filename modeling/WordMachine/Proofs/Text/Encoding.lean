import WordMachine.Proofs.Text.Utf8

namespace WordMachine.Text.Utf8

theorem continuation?_eq_some_iff {byte : UInt8} {n : Nat} :
    continuation? byte = some n ↔ byte.toNat = n + 128 ∧ n < 64 := by
  have hlow : (0x80 : UInt8) ≤ byte ↔ 128 ≤ byte.toNat := UInt8.le_iff_toNat_le
  have hhigh : byte < (0xC0 : UInt8) ↔ byte.toNat < 192 := UInt8.lt_iff_toNat_lt
  simp only [continuation?, hlow, hhigh, Option.ite_none_right_eq_some, Option.some.injEq]
  omega

theorem scalar?_eq_some_iff {least value : Nat} {c : Char} :
    scalar? least value = some c ↔ least ≤ value ∧ c.toNat = value := by
  rw [scalar?, Option.ite_none_right_eq_some, Option.some.injEq]
  constructor
  · rintro ⟨⟨hleast, hvalid⟩, rfl⟩
    refine ⟨hleast, ?_⟩
    rw [Char.ofNat, dif_pos hvalid]
    exact UInt32.toNat_ofNatLT
  · rintro ⟨hleast, rfl⟩
    exact ⟨⟨hleast, c.valid⟩, Char.ofNat_toNat c⟩

-- The bytes of a character, six bits of it in each but the first.
inductive Encodes (c : Char) : List UInt8 → Prop where
  | one (a : UInt8) (h : c.toNat < 0x80) (ha : a.toNat = c.toNat) : Encodes c [a]
  | two (a b : UInt8) (hlow : 0x80 ≤ c.toNat) (hhigh : c.toNat < 0x800)
      (ha : a.toNat = c.toNat / 64 + 192) (hb : b.toNat = c.toNat % 64 + 128) : Encodes c [a, b]
  | three (a b b' : UInt8) (hlow : 0x800 ≤ c.toNat) (hhigh : c.toNat < 0x10000)
      (ha : a.toNat = c.toNat / 4096 + 224) (hb : b.toNat = c.toNat / 64 % 64 + 128)
      (hb' : b'.toNat = c.toNat % 64 + 128) : Encodes c [a, b, b']
  | four (a b b' b'' : UInt8) (hlow : 0x10000 ≤ c.toNat)
      (ha : a.toNat = c.toNat / 262144 + 240) (hb : b.toNat = c.toNat / 4096 % 64 + 128)
      (hb' : b'.toNat = c.toNat / 64 % 64 + 128) (hb'' : b''.toNat = c.toNat % 64 + 128) :
      Encodes c [a, b, b', b'']

theorem toNat_lt (c : Char) : c.toNat < 0x110000 := by
  obtain h | ⟨-, h⟩ := c.valid
  · exact Nat.lt_trans h (by decide)
  · exact h

theorem encodes_utf8EncodeChar (c : Char) : Encodes c (String.utf8EncodeChar c) := by
  have hval : c.val.toNat = c.toNat := rfl
  have hlt := toNat_lt c
  have hbyte {n : Nat} (h : n < 256) : (UInt8.ofNat n).toNat = n := by
    rw [UInt8.toNat_ofNat', Nat.mod_eq_of_lt h]
  rw [String.utf8EncodeChar]
  simp only [hval]
  split
  · exact .one _ (by omega) (hbyte (by omega))
  · split
    · refine .two _ _ (by omega) (by omega) ?_ (hbyte (by omega))
      rw [hbyte (by omega)]
      omega
    · split
      · refine .three _ _ _ (by omega) (by omega) ?_ (hbyte (by omega)) (hbyte (by omega))
        rw [hbyte (by omega)]
        omega
      · refine .four _ _ _ _ (by omega) ?_ (hbyte (by omega)) (hbyte (by omega))
          (hbyte (by omega))
        rw [hbyte (by omega)]
        omega

-- A character has one encoding.
theorem eq_of_encodes {c : Char} {bytes : List UInt8} (h : Encodes c bytes) :
    bytes = String.utf8EncodeChar c := by
  have h' := encodes_utf8EncodeChar c
  generalize String.utf8EncodeChar c = others at h'
  cases h <;> cases h' <;> first
    | omega
    | (simp only [List.cons.injEq, ← UInt8.toNat_inj, and_true]; omega)

private theorem lt_ofNat_iff (byte : UInt8) (n : Nat) (hn : n < 256) :
    byte < UInt8.ofNat n ↔ byte.toNat < n := by
  rw [UInt8.lt_iff_toNat_lt, UInt8.toNat_ofNat', Nat.mod_eq_of_lt hn]

theorem decode?_of_encodes {c : Char} {bytes : List UInt8} (h : Encodes c bytes)
    (rest : List UInt8) : decode? (bytes ++ rest) = (decode? rest).map (c :: ·) := by
  have hlt := toNat_lt c
  have hcontinuation {byte : UInt8} {n : Nat} (hb : byte.toNat = n + 128) (hn : n < 64) :
      continuation? byte = some n := continuation?_eq_some_iff.mpr ⟨hb, hn⟩
  have hscalar {least value : Nat} (hle : least ≤ value) (hv : c.toNat = value) :
      scalar? least value = some c := scalar?_eq_some_iff.mpr ⟨hle, hv⟩
  cases h with
  | one a h ha =>
    have hbyte : a < 0x80 := (lt_ofNat_iff a 0x80 (by decide)).mpr (by omega)
    rw [List.singleton_append, decode?_cons_ascii hbyte, ha, Char.ofNat_toNat]
  | two a b hlow hhigh ha hb =>
    have h1 : ¬ a < 0x80 := mt (lt_ofNat_iff a 0x80 (by decide)).mp (by omega)
    have h2 : ¬ a < 0xC0 := mt (lt_ofNat_iff a 0xC0 (by decide)).mp (by omega)
    have h3 : a < 0xE0 := (lt_ofNat_iff a 0xE0 (by decide)).mpr (by omega)
    have hb : continuation? b = some (c.toNat % 64) := hcontinuation hb (by omega)
    have hc : scalar? 0x80 ((a.toNat - 0xC0) * 64 + c.toNat % 64) = some c :=
      hscalar (by omega) (by omega)
    rw [decode?.eq_def]
    simp only [List.cons_append, List.nil_append, h1, h2, h3, ite_true, ite_false, hb,
      Option.bind_eq_bind, Option.bind_some, hc]
    cases decode? rest <;> rfl
  | three a b b' hlow hhigh ha hb hb' =>
    have h1 : ¬ a < 0x80 := mt (lt_ofNat_iff a 0x80 (by decide)).mp (by omega)
    have h2 : ¬ a < 0xC0 := mt (lt_ofNat_iff a 0xC0 (by decide)).mp (by omega)
    have h3 : ¬ a < 0xE0 := mt (lt_ofNat_iff a 0xE0 (by decide)).mp (by omega)
    have h4 : a < 0xF0 := (lt_ofNat_iff a 0xF0 (by decide)).mpr (by omega)
    have hb : continuation? b = some (c.toNat / 64 % 64) := hcontinuation hb (by omega)
    have hb' : continuation? b' = some (c.toNat % 64) := hcontinuation hb' (by omega)
    have hc : scalar? 0x800 (((a.toNat - 0xE0) * 64 + c.toNat / 64 % 64) * 64 + c.toNat % 64) =
        some c := hscalar (by omega) (by omega)
    rw [decode?.eq_def]
    simp only [List.cons_append, List.nil_append, h1, h2, h3, h4, ite_true, ite_false, hb, hb',
      Option.bind_eq_bind, Option.bind_some, hc]
    cases decode? rest <;> rfl
  | four a b b' b'' hlow ha hb hb' hb'' =>
    have h1 : ¬ a < 0x80 := mt (lt_ofNat_iff a 0x80 (by decide)).mp (by omega)
    have h2 : ¬ a < 0xC0 := mt (lt_ofNat_iff a 0xC0 (by decide)).mp (by omega)
    have h3 : ¬ a < 0xE0 := mt (lt_ofNat_iff a 0xE0 (by decide)).mp (by omega)
    have h4 : ¬ a < 0xF0 := mt (lt_ofNat_iff a 0xF0 (by decide)).mp (by omega)
    have h5 : a < 0xF8 := (lt_ofNat_iff a 0xF8 (by decide)).mpr (by omega)
    have hb : continuation? b = some (c.toNat / 4096 % 64) := hcontinuation hb (by omega)
    have hb' : continuation? b' = some (c.toNat / 64 % 64) := hcontinuation hb' (by omega)
    have hb'' : continuation? b'' = some (c.toNat % 64) := hcontinuation hb'' (by omega)
    have hc : scalar? 0x10000 ((((a.toNat - 0xF0) * 64 + c.toNat / 4096 % 64) * 64
        + c.toNat / 64 % 64) * 64 + c.toNat % 64) = some c := hscalar (by omega) (by omega)
    rw [decode?.eq_def]
    simp only [List.cons_append, List.nil_append, h1, h2, h3, h4, h5, ite_true, ite_false, hb, hb',
      hb'', Option.bind_eq_bind, Option.bind_some, hc]
    cases decode? rest <;> rfl

-- What is read begins with the encoding of a character.
theorem exists_encodes_of_decode? {byte : UInt8} {rest : List UInt8} {text : List Char}
    (h : decode? (byte :: rest) = some text) :
    ∃ c bytes more others, Encodes c bytes ∧ byte :: rest = bytes ++ more ∧ text = c :: others ∧
      decode? more = some others := by
  have h1 : byte < 0x80 ↔ byte.toNat < 0x80 := lt_ofNat_iff byte 0x80 (by decide)
  have h2 : byte < 0xC0 ↔ byte.toNat < 0xC0 := lt_ofNat_iff byte 0xC0 (by decide)
  have h3 : byte < 0xE0 ↔ byte.toNat < 0xE0 := lt_ofNat_iff byte 0xE0 (by decide)
  have h4 : byte < 0xF0 ↔ byte.toNat < 0xF0 := lt_ofNat_iff byte 0xF0 (by decide)
  have h5 : byte < 0xF8 ↔ byte.toNat < 0xF8 := lt_ofNat_iff byte 0xF8 (by decide)
  rw [decode?.eq_def] at h
  simp only [h1, h2, h3, h4, h5, Option.bind_eq_bind, Option.pure_def] at h
  split at h
  · simp only [Option.bind_eq_some_iff, Option.some.injEq] at h
    obtain ⟨others, hmore, rfl⟩ := h
    have hc : (Char.ofNat byte.toNat).toNat = byte.toNat :=
      (scalar?_eq_some_iff.mp (if_pos ⟨Nat.zero_le _, .inl (by omega)⟩)).2
    exact ⟨_, [byte], rest, others, .one byte (by omega) hc.symm, rfl, rfl, hmore⟩
  · split at h
    · cases h
    · split at h
      · split at h
        · next b more =>
          simp only [Option.bind_eq_some_iff, Option.some.injEq, continuation?_eq_some_iff,
            scalar?_eq_some_iff] at h
          obtain ⟨n, ⟨hb, hn⟩, c, ⟨hleast, hc⟩, others, hmore, rfl⟩ := h
          exact ⟨c, [byte, b], more, others,
            .two byte b (by omega) (by omega) (by omega) (by omega), rfl, rfl, hmore⟩
        · cases h
      · split at h
        · split at h
          · next b b' more =>
            simp only [Option.bind_eq_some_iff, Option.some.injEq, continuation?_eq_some_iff,
              scalar?_eq_some_iff] at h
            obtain ⟨n, ⟨hb, hn⟩, n', ⟨hb', hn'⟩, c, ⟨hleast, hc⟩, others, hmore, rfl⟩ := h
            exact ⟨c, [byte, b, b'], more, others, .three byte b b' (by omega) (by omega)
              (by omega) (by omega) (by omega), rfl, rfl, hmore⟩
          · cases h
        · split at h
          · split at h
            · next b b' b'' more =>
              simp only [Option.bind_eq_some_iff, Option.some.injEq, continuation?_eq_some_iff,
                scalar?_eq_some_iff] at h
              obtain ⟨n, ⟨hb, hn⟩, n', ⟨hb', hn'⟩, n'', ⟨hb'', hn''⟩, c, ⟨hleast, hc⟩, others, hmore,
                rfl⟩ := h
              exact ⟨c, [byte, b, b', b''], more, others, .four byte b b' b'' (by omega)
                (by omega) (by omega) (by omega) (by omega), rfl, rfl, hmore⟩
            · cases h
          · cases h

-- The bytes are read as the text that they encode.
theorem decode?_eq_some_iff {bytes : List UInt8} {text : List Char} :
    decode? bytes = some text ↔ text.flatMap String.utf8EncodeChar = bytes := by
  constructor
  · intro h
    induction text generalizing bytes with
    | nil =>
      match bytes with
      | [] => rfl
      | byte :: rest =>
        obtain ⟨c, start, more, others, -, -, hnil, -⟩ := exists_encodes_of_decode? h
        cases hnil
    | cons c text ih =>
      match bytes with
      | [] => cases h
      | byte :: rest =>
        obtain ⟨c, start, more, others, hstart, hbytes, htext, hmore⟩ :=
          exists_encodes_of_decode? h
        cases htext
        rw [List.flatMap_cons, ih hmore, hbytes, eq_of_encodes hstart]
  · rintro rfl
    induction text with
    | nil => rfl
    | cons c text ih =>
      rw [List.flatMap_cons, decode?_of_encodes (encodes_utf8EncodeChar c), ih]
      rfl

theorem decode?_eq_toList_iff {bytes : List UInt8} {text : String} :
    decode? bytes = some text.toList ↔ text.toUTF8.data.toList = bytes := by
  have hbytes : text.toUTF8.data.toList = text.toList.flatMap String.utf8EncodeChar := by
    have hencode : (String.ofList text.toList).toByteArray = text.toList.utf8Encode :=
      String.toByteArray_ofList
    rw [String.ofList_toList] at hencode
    rw [String.toUTF8_eq_toByteArray, hencode, List.utf8Encode, List.toList_data_toByteArray]
  rw [decode?_eq_some_iff, hbytes]

end WordMachine.Text.Utf8
