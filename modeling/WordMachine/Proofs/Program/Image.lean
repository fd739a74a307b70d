import WordMachine.Proofs.Instruction.Fields

namespace WordMachine

-- The byte of a word that holds its unused bit, by place in the image.
def ByteOrder.spareByte : ByteOrder → Nat
  | .native | .little => 2
  | .big => 1

namespace Program

open Instruction

-- The image with the unused bit of every word clear.
def clearSpare (order : ByteOrder) (image : List UInt8) : List UInt8 :=
  image.mapIdx fun place byte => if place % 4 = order.spareByte then byte &&& 0xFE else byte

private theorem toNat_clear (byte : UInt8) : (byte &&& 0xFE).toNat = byte.toNat / 2 * 2 := by
  have hall : ∀ n < 256, n &&& 254 = n / 2 * 2 := by decide +kernel
  rw [UInt8.toNat_and]
  exact hall _ byte.toNat_lt

theorem clearSpare_cons (order : ByteOrder) (a b c d : UInt8) (image : List UInt8) :
    clearSpare order (a :: b :: c :: d :: image) =
      clearSpare order [a, b, c, d] ++ clearSpare order image := by
  simp [clearSpare, List.mapIdx_cons, Nat.add_assoc]

-- The unused bit is the low one of its byte, so to write the fields back is to clear that.
theorem bytes_word_fields (order : ByteOrder) (a b c d : UInt8) :
    order.bytes (decode (order.word a b c d)).fields.word = clearSpare order [a, b, c, d] := by
  have hlittle (a b c d : UInt8) : (decode (ByteOrder.little.word a b c d)).fields.word =
      ByteOrder.little.word a b (c &&& 0xFE) d := by
    have ha := a.toNat_lt
    have hb := b.toNat_lt
    have hc := c.toNat_lt
    have hd := d.toNat_lt
    rw [← UInt32.toNat_inj, toNat_word_fields, ByteOrder.toNat_word, ByteOrder.toNat_word,
      toNat_clear]
    omega
  cases order with
  | native => exact (congrArg _ (hlittle a b c d)).trans (ByteOrder.bytes_word .native _ _ _ _)
  | little => exact (congrArg _ (hlittle a b c d)).trans (ByteOrder.bytes_word .little _ _ _ _)
  | big =>
    rw [ByteOrder.word_big, hlittle, ← ByteOrder.word_big, ByteOrder.bytes_word]
    rfl

theorem words_image (order : ByteOrder) (written : List UInt32) :
    words order (image order written) = .ok written := by
  induction written with
  | nil => exact words_nil order
  | cons word written ih =>
    obtain ⟨a, b, c, d, hbytes, hword⟩ := order.exists_word_eq word
    have himage : image order (word :: written) = a :: b :: c :: d :: image order written := by
      rw [image, List.flatMap_cons, hbytes]
      rfl
    rw [himage, words_cons ih, hword]

theorem image_fields {order : ByteOrder} {bytes : List UInt8} {read : List UInt32}
    (h : words order bytes = .ok read) :
    image order (read.map fun word => (decode word).fields.word) = clearSpare order bytes := by
  refine words_induction (motive := fun bytes read =>
    image order (read.map fun word => (decode word).fields.word) = clearSpare order bytes) ?_ ?_ h
  · rfl
  · intro a b c d bytes read ih
    rw [List.map_cons, image, List.flatMap_cons, clearSpare_cons order a b c d bytes,
      bytes_word_fields, ← ih]
    rfl

theorem exists_words {order : ByteOrder} {bytes : List UInt8} (h : 4 ∣ bytes.length) :
    ∃ read, words order bytes = .ok read := by
  cases hread : words order bytes with
  | ok read => exact ⟨read, rfl⟩
  | error error => exact absurd (Nat.mod_eq_zero_of_dvd h) ((words_eq_error_iff ..).mp hread).1

theorem length_words {order : ByteOrder} {image : List UInt8} {read : List UInt32}
    (h : words order image = .ok read) : 4 * read.length = image.length := by
  refine words_induction (motive := fun image read => 4 * read.length = image.length) ?_ ?_ h
  · rfl
  · intro a b c d image rest ih
    simp only [List.length_cons]
    omega

-- Any fields survive in an image up to their widths, and any image survives in its fields up to
-- the unused bits.
theorem images_round_trip (order : ByteOrder) :
    (∀ program : List Fields,
      (words order (image order (program.map Fields.word))).map (List.map decode) =
        .ok (program.map Fields.instruction)) ∧
    (∀ (fields : Fields) (op : Operation), Operation.ofCode? (fields.opcode % 32) = some op →
      fields.instruction = assemble op fields.first fields.second fields.immediate) ∧
    (∀ (bytes : List UInt8) (error : Misaligned),
      words order bytes = .error error ↔ ¬ 4 ∣ bytes.length ∧ error = ⟨bytes.length⟩) ∧
    (∀ bytes : List UInt8, 4 ∣ bytes.length →
      ∃ read, words order bytes = .ok read ∧
        image order (read.map fun word => (decode word).fields.word) = clearSpare order bytes) ∧
    ∀ word other : UInt32, Agree (decode word) (decode other) ↔
      ∀ bit, bit ≠ 16 → word.toNat.testBit bit = other.toNat.testBit bit := by
  refine ⟨?_, fun fields op => instruction_eq_assemble, ?_, ?_, agree_decode_iff⟩
  · intro program
    rw [words_image, Except.map, List.map_map]
    exact congrArg _ (List.map_congr_left fun fields _ => decode_word fields)
  · intro bytes error
    rw [words_eq_error_iff, Nat.dvd_iff_mod_eq_zero]
  · intro bytes hwhole
    obtain ⟨read, hread⟩ := exists_words hwhole
    exact ⟨read, hread, image_fields hread⟩

-- The opcode 40 is cut to that of a move.
theorem move_round_trips :
    Operation.ofCode? (40 % 32) = some .moveImm ∧
    (⟨40, 33, 0, -5⟩ : Fields).instruction = assemble .moveImm 33 0 (-5) ∧
    ∃ read, words .big [0x41, 0x37, 0xFF, 0xFB] = .ok read ∧
      image .big (read.map fun word => (decode word).fields.word) = [0x41, 0x36, 0xFF, 0xFB] :=
  have hcode : Operation.ofCode? (40 % 32) = some .moveImm := rfl
  ⟨hcode, (images_round_trip .big).2.1 ⟨40, 33, 0, -5⟩ .moveImm hcode,
    (images_round_trip .big).2.2.2.1 [0x41, 0x37, 0xFF, 0xFB] (by decide)⟩

end Program

end WordMachine
