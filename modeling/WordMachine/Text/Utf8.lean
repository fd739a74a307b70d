namespace WordMachine.Text.Utf8

-- The six payload bits of a continuation byte.
def continuation? (byte : UInt8) : Option Nat :=
  if 0x80 ≤ byte ∧ byte < 0xC0 then some (byte.toNat - 0x80) else none

-- A code point that is a scalar value and not below `least`, the first one that needs as many
-- bytes as were used for it.
def scalar? (least value : Nat) : Option Char :=
  if least ≤ value ∧ value.isValidChar then some (Char.ofNat value) else none

-- The characters that the bytes encode. Stray continuation bytes, cut sequences, overlong forms,
-- surrogates and values past U+10FFFF have no reading, so a text has one encoding.
def decode? : List UInt8 → Option (List Char)
  | [] => some []
  | a :: rest =>
    if a < 0x80 then do
      let text ← decode? rest
      return Char.ofNat a.toNat :: text
    else if a < 0xC0 then none
    else if a < 0xE0 then
      match rest with
      | b :: rest => do
        let c ← scalar? 0x80 ((a.toNat - 0xC0) * 64 + (← continuation? b))
        let text ← decode? rest
        return c :: text
      | _ => none
    else if a < 0xF0 then
      match rest with
      | b :: b' :: rest => do
        let c ← scalar? 0x800
          (((a.toNat - 0xE0) * 64 + (← continuation? b)) * 64 + (← continuation? b'))
        let text ← decode? rest
        return c :: text
      | _ => none
    else if a < 0xF8 then
      match rest with
      | b :: b' :: b'' :: rest => do
        let c ← scalar? 0x10000
          ((((a.toNat - 0xF0) * 64 + (← continuation? b)) * 64 + (← continuation? b')) * 64
            + (← continuation? b''))
        let text ← decode? rest
        return c :: text
      | _ => none
    else none

end WordMachine.Text.Utf8
