import WordMachine.Instruction.Operation

namespace WordMachine

-- A decoded instruction: the word it came from and its four fields, the immediate with its sign
-- extended. The opcode is kept as a number, so every word has a decoding; whether the opcode is
-- assigned is asked by the machine.
structure Instruction where
  raw : UInt32
  opcode : UInt8
  first : UInt8
  second : UInt8
  immediate : Int32
  deriving DecidableEq, Repr

namespace Instruction

-- The layout of a word, from its high end: five bits each for the opcode and the two registers,
-- one unused bit, sixteen bits for the immediate.
def decode (word : UInt32) : Instruction where
  raw := word
  opcode := ((word >>> 27) &&& 0x1F).toUInt8
  first := ((word >>> 22) &&& 0x1F).toUInt8
  second := ((word >>> 17) &&& 0x1F).toUInt8
  immediate := word.toUInt16.toInt16.toInt32

-- The word with these fields, each cut to its width. The unused bit is clear.
def encode (opcode first second : UInt8) (immediate : Int16) : UInt32 :=
  (opcode.toUInt32 &&& 0x1F) <<< 27 ||| (first.toUInt32 &&& 0x1F) <<< 22
    ||| (second.toUInt32 &&& 0x1F) <<< 17 ||| immediate.toUInt16.toUInt32

-- An instruction of a known operation, with the registers cut to five bits.
def assemble (op : Operation) (first second : UInt8) (immediate : Int16) : Instruction :=
  { decode (encode op.code first second immediate) with immediate := immediate.toInt32 }

def operation? (i : Instruction) : Option Operation :=
  Operation.ofCode? i.opcode

end Instruction

end WordMachine
