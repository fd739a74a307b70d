import WordMachine.Proofs.Console.Delivery
import WordMachine.Proofs.Decimal.Integer

namespace WordMachine

-- A character of one byte is encoded as that byte.
theorem Text.Utf8.decode?_ascii {text : List Char} (h : ∀ c ∈ text, c.toNat < 128) :
    decode? (text.map fun c => UInt8.ofNat c.toNat) = some text := by
  induction text with
  | nil => rfl
  | cons c text ih =>
    have hc := h c (List.mem_cons_self ..)
    have hvalue : (UInt8.ofNat c.toNat).toNat = c.toNat := Nat.mod_eq_of_lt (by omega)
    have hbyte : UInt8.ofNat c.toNat < 0x80 := by
      rw [UInt8.lt_iff_toNat_lt, hvalue]
      exact hc
    rw [List.map_cons, decode?_cons_ascii hbyte, ih fun d hd => h d (List.mem_cons_of_mem c hd),
      hvalue, Char.ofNat_toNat]
    rfl

-- No visible character of one byte is a blank.
theorem Text.isBlank_of_visible {c : Char} (hlow : 0x20 < c.toNat) (hhigh : c.toNat < 0x80) :
    isBlank c = false := by
  simp only [isBlank, blankRanges, List.any_cons, List.any_nil, Bool.or_eq_false_iff,
    Bool.and_eq_false_iff, decide_eq_false_iff_not, and_true]
  omega

theorem Text.tokens_of_not_blank {text : List Char} (h : ∀ c ∈ text, isBlank c = false)
    (hne : text ≠ []) : tokens text = [text] := by
  have hwhole : splitAtBlanks text = [text] := by
    rw [splitAtBlanks_eq_splitOnP]
    exact List.splitOnP_eq_singleton h
  rw [tokens, hwhole]
  simp [hne]

namespace Console

-- The bytes of a number as it is written.
def numeral (value : Int32) : List UInt8 :=
  (Decimal.render value.toInt).toList.map fun c => UInt8.ofNat c.toNat

theorem readSigned_numeral (value : Int32) :
    Decimal.readSigned 0x80000000 (Decimal.render value.toInt).toList = .ok value.toInt :=
  Decimal.readSigned_render value.le_toInt value.toInt_lt

theorem visible_of_mem_render {value : Int} {c : Char} (h : c ∈ (Decimal.render value).toList) :
    0x20 < c.toNat ∧ c.toNat < 0x80 := by
  obtain hdigit | rfl := Decimal.mem_render h
  · obtain ⟨hlow, hhigh⟩ := Char.isDigit_iff_toNat.mp hdigit
    have hzero : '0'.toNat = 48 := rfl
    have hnine : '9'.toNat = 57 := rfl
    omega
  · decide

theorem tokens_render (value : Int) :
    Text.tokens (Decimal.render value).toList = [(Decimal.render value).toList] := by
  apply Text.tokens_of_not_blank
  · intro c hc
    obtain ⟨hlow, hhigh⟩ := visible_of_mem_render hc
    exact Text.isBlank_of_visible hlow hhigh
  · intro hnil
    have hread : Decimal.readSigned (value.natAbs + 1) (Decimal.render value).toList = .ok value :=
      Decimal.readSigned_render (by omega) (by omega)
    rw [hnil] at hread
    cases hread

theorem deliveries_numeral (value : Int32) :
    deliveries (numeral value) = [.token (Decimal.render value.toInt)] := by
  have hdecode : Text.Utf8.decode? (numeral value) = some (Decimal.render value.toInt).toList :=
    Text.Utf8.decode?_ascii fun c hc => (visible_of_mem_render hc).2
  rw [deliveries_of_decode? hdecode, tokens_render, List.map_singleton, String.ofList_toList]

theorem integer_render (value : Int32) :
    (Delivery.token (Decimal.render value.toInt)).integer = .ok value := by
  rw [Delivery.integer, readSigned_numeral]
  exact congrArg Except.ok (Int32.ofInt_toInt value)

-- Every word can be given as an input.
theorem integer_numeral (value : Int32) (sink : Sink) :
    (ofInput (numeral value) sink).nextToken.1.integer = .ok value := by
  have hremaining : (ofInput (numeral value) sink).remaining =
      [.token (Decimal.render value.toInt)] := deliveries_numeral value
  rw [(nextToken_eq _).1, hremaining, List.headD_cons, integer_render]

-- Any two words can be given on two lines.
theorem integer_numerals (first second : Int32) (sink : Sink) :
    let console := ofInput (numeral first ++ 10 :: numeral second) sink
    console.nextToken.1.integer = .ok first ∧
      console.nextToken.2.nextToken.1.integer = .ok second := by
  intro console
  have hremaining : console.remaining = [.token (Decimal.render first.toInt),
      .token (Decimal.render second.toInt)] := by
    show deliveries (numeral first ++ 10 :: numeral second) = _
    rw [deliveries_append, deliveries_numeral, deliveries_numeral, List.singleton_append]
  obtain ⟨hfirst, hrest⟩ := nextToken_eq console
  obtain ⟨hsecond, -⟩ := nextToken_eq console.nextToken.2
  rw [hfirst, hsecond, hrest, hremaining]
  exact ⟨integer_render first, integer_render second⟩

end Console

end WordMachine
