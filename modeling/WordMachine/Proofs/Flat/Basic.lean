import WordMachine.Simulation.Basic

namespace WordMachine

-- A machine on plain numbers. The words 0 to 15 are the general registers, and word 16 holds the
-- flags: carry in bit 0, zero in bit 6, sign in bit 7, overflow in bit 11.
structure Flat where
  words : Vector Nat 17
  size : Nat
  bytes : Nat → Nat
  pc : Nat
  console : Console

-- What a program does not change of its machine: where the stack begins, and what becomes of a
-- word with an unassigned opcode.
structure Flat.Setting where
  top : Nat
  policy : UnknownPolicy

-- The numbers are words of 32 bits and bytes.
structure Flat.Bounded (flat : Flat) : Prop where
  words : ∀ word ∈ flat.words, word < 4294967296
  bytes : ∀ place, flat.bytes place < 256
  pc : flat.pc < 4294967296

namespace Flat

-- The word of an integer modulo 2^32, and the signed integer of a word.
def reduce (x : Int) : Nat :=
  (x % 4294967296).toNat

def signed (word : Nat) : Int :=
  if word < 2147483648 then word else word - 4294967296

-- The flags of a comparison, from the exact difference of the second and the first.
def packed (first second : Nat) : Nat :=
  let difference := signed second - signed first
  (if second < first then 1 else 0) + (if difference = 0 then 64 else 0)
    + (if difference / 2147483648 % 2 = 1 then 128 else 0)
    + (if difference < -2147483648 ∨ 2147483647 < difference then 2048 else 0)

-- The condition of a branch on the flags.
def holds (code word : Nat) : Bool :=
  let less := word.testBit 7 != word.testBit 11
  match code with
  | 10 => word.testBit 6
  | 11 => less
  | 12 => less || word.testBit 6
  | 13 => !less
  | 14 => word.testBit 0 || word.testBit 6
  | _ => true

-- The registers that an instruction reads, in the order in which they are looked at.
def sources (i : Instruction) : List UInt8 :=
  match i.opcode.toNat with
  | 0 | 2 | 4 | 5 | 6 | 18 | 20 => [i.first]
  | 1 | 3 | 9 => [i.first, i.second]
  | 7 => [i.second, i.first]
  | _ => []

-- The first register to be read that does not exist.
def absent? (i : Instruction) : Option UInt8 :=
  (sources i).find? (16 < ·.toNat)

def destination? (i : Instruction) : Option UInt8 :=
  match i.opcode.toNat with
  | 0 | 2 | 4 | 8 | 19 | 21 => some i.first
  | 1 | 3 | 5 | 6 => some i.second
  | _ => none

variable (flat : Flat)

def address : UInt32 :=
  UInt32.ofNat flat.pc

def word (index : UInt8) : Nat :=
  flat.words[index.toNat]?.getD 0

def sp : Nat :=
  flat.word 6

-- The stack pointer of a push.
def slot : Nat :=
  reduce (flat.sp - 4)

def nextPc : Nat :=
  (flat.pc + 4) % 4294967296

def target (i : Instruction) : Nat :=
  reduce (flat.pc + 4 + i.immediate.toInt)

def load (place : Int) : Except Fault Nat × Flat :=
  let low := place.toNat
  if 0 ≤ place ∧ place + 4 ≤ flat.size then
    (.ok (flat.bytes low + 256 * flat.bytes (low + 1) + 65536 * flat.bytes (low + 2)
      + 16777216 * flat.bytes (low + 3)), flat)
  else (.error (.memory ⟨place, flat.size⟩ flat.address), flat)

def store (place : Int) (word : Nat) : Except Fault Nat × Flat :=
  let low := place.toNat
  if 0 ≤ place ∧ place + 4 ≤ flat.size then
    (.ok 0, { flat with
      bytes := fun place =>
        if low ≤ place ∧ place < low + 4 then word >>> (8 * (place - low)) % 256
        else flat.bytes place })
  else (.error (.memory ⟨place, flat.size⟩ flat.address), flat)

-- The line of a word: as a signed decimal number, and without its sign in hexadecimal digits.
def line (word : Nat) : String :=
  toString (signed word) ++ " (0x" ++ String.ofList (Nat.toDigits 16 word) ++ ")\n"

def hold (sink : Sink) : Flat :=
  { flat with console := { flat.console with sink } }

-- A print adds its line to the text in the sink. A full sink takes as much of the line as it has
-- room for. It is a fault if that is not all, or if the sink is not flushed.
def print (word : Nat) : Except Fault Nat × Flat :=
  let sink := flat.console.sink
  let flushed := if sink.refusesFlush then .error (.output sink.whenFlushed) else .ok 0
  if sink.isFull then
    let taken := (line word).toList.take sink.room
    (if taken.length < (line word).length then .error (.output sink.whenFull) else flushed,
      flat.hold { sink with
        text := sink.text ++ String.ofList taken
        room := sink.room - taken.length })
  else
    (flushed, flat.hold { sink with
      text := sink.text ++ line word
      lineEnds := sink.lineEnds + 1 })

-- A text behind the sign at its front, if it has one.
def unsigned : List Char → List Char
  | '+' :: text | '-' :: text => text
  | text => text

-- The integer of the digits at the front of a text, and behind its sign.
def leading (text : List Char) : Int :=
  let magnitude := Nat.ofDigitChars 10 ((unsigned text).takeWhile Char.isDigit) 0
  if text.head? = some '-' then -magnitude else magnitude

-- The integer of a text: decimal digits behind one sign at most, and nothing else. Digits past the
-- words are a fault even if something else is behind them.
def integer (text : List Char) : Except Decimal.IntegerError Int :=
  if leading text < -2147483648 then .error .tooSmall
  else if 2147483647 < leading text then .error .tooLarge
  else if text = [] then .error .empty
  else if unsigned text = [] ∨ ¬ (unsigned text).all Char.isDigit then .error .invalidDigit
  else .ok (leading text)

-- A read uses up its token, whatever that is.
def read : Except Fault Nat × Flat :=
  let rest := { flat with console := flat.console.nextToken.2 }
  match flat.console.nextToken.1 with
  | .endOfInput => (.error (.input .endOfInput), rest)
  | .badLine => (.error (.input .notUtf8), rest)
  | .token token =>
    match integer token.toList with
    | .ok value => (.ok (reduce value), rest)
    | .error cause => (.error (.input (.notInteger token cause)), rest)

-- The access of an instruction to the memory or to the console, with the word that it delivers.
def access (setting : Setting) (i : Instruction) : Except Fault Nat × Flat :=
  match i.opcode.toNat with
  | 6 => flat.load (signed (flat.word i.first) + i.immediate.toInt)
  | 7 => flat.store (signed (flat.word i.second) + i.immediate.toInt) (flat.word i.first)
  | 16 => flat.store (signed flat.slot) flat.nextPc
  | 17 => if flat.sp = setting.top then (.ok 0, flat) else flat.load (signed flat.sp)
  | 18 => flat.store (signed flat.slot) (if i.first = 6 then flat.slot else flat.word i.first)
  | 19 => flat.load (signed flat.sp)
  | 20 => flat.print (flat.word i.first)
  | 21 => flat.read
  | _ => (.ok 0, flat)

-- The word for the destination register.
def result (i : Instruction) (delivered : Nat) : Nat :=
  let first := flat.word i.first
  let second := flat.word i.second
  match i.opcode.toNat with
  | 0 => reduce (first - i.immediate.toInt)
  | 1 => reduce (second + first)
  | 2 => reduce (first + i.immediate.toInt)
  | 3 => reduce (second * first)
  | 4 => first / 2
  | 5 => first
  | 8 => reduce i.immediate.toInt
  | _ => delivered

def set (index : UInt8) (word : Nat) : Flat :=
  if h : index.toNat < 17 then { flat with words := flat.words.set index.toNat word h } else flat

def assign (i : Instruction) (word : Nat) : Flat :=
  match destination? i with
  | some index => flat.set index word
  | none => flat

-- The words after an instruction. A pop moves the stack pointer after its register is written.
def update (setting : Setting) (i : Instruction) (delivered : Nat) : Flat :=
  let after := flat.assign i (flat.result i delivered)
  match i.opcode.toNat with
  | 9 => after.set 16 (packed (flat.word i.first) (flat.word i.second))
  | 16 | 18 => after.set 6 flat.slot
  | 17 => if flat.sp = setting.top then after else after.set 6 (reduce (flat.sp + 4))
  | 19 => after.set 6 (reduce (after.sp + 4))
  | _ => after

-- Where the machine goes on, if it does.
def next? (setting : Setting) (i : Instruction) (delivered : Nat) : Option Nat :=
  match i.opcode.toNat with
  | 10 | 11 | 12 | 13 | 14 | 15 =>
    some (if holds i.opcode.toNat (flat.word 16) then flat.target i else flat.nextPc)
  | 16 => some (flat.target i)
  | 17 => if flat.sp = setting.top then none else some delivered
  | _ => some flat.nextPc

-- The fault of a destination register.
def refusal? (i : Instruction) : Option Fault :=
  match destination? i with
  | none => none
  | some index =>
    if index.toNat < 16 then none
    else if index = 16 then some (.register (.readOnly index) flat.address)
    else some (.register (.absent index) flat.address)

-- An instruction of a known opcode. Its faults are looked for in the source registers first, then
-- in the access, and then in the destination register.
def perform (setting : Setting) (i : Instruction) : Except Fault (Option Nat) × Flat :=
  match absent? i with
  | some index => (.error (.register (.absent index) flat.address), flat)
  | none =>
    match flat.access setting i with
    | (.error fault, reached) => (.error fault, reached)
    | (.ok delivered, reached) =>
      match flat.refusal? i with
      | some fault => (.error fault, reached)
      | none => (.ok (flat.next? setting i delivered), reached.update setting i delivered)

def execute (setting : Setting) (i : Instruction) : Except Fault (Option Nat) × Flat :=
  if i.opcode.toNat < 22 then flat.perform setting i
  else
    match setting.policy with
    | .strict => (.error (.unknownOpcode i.opcode flat.address), flat)
    | .lenient => (.ok (some flat.nextPc), flat)

-- One step of a program, whose instructions are four bytes apart.
def step (setting : Setting) (program : List Instruction) : Except Fault (Option Status) × Flat :=
  if flat.pc = 4 * program.length then (.ok (some .endOfProgram), flat)
  else
    match if flat.pc % 4 = 0 then program[flat.pc / 4]? else none with
    | none => (.error (.outsideProgram flat.address program.length), flat)
    | some i =>
      match flat.execute setting i with
      | (.error fault, reached) => (.error fault, reached)
      | (.ok none, reached) => (.ok (some .halted), reached)
      | (.ok (some pc), reached) =>
        (.ok (if pc = 4 * program.length then some .endOfProgram else none), { reached with pc })

-- The machine after some steps, whatever each of them gave.
def after (setting : Setting) (program : List Instruction) : Nat → Flat
  | 0 => flat
  | count + 1 => ((after setting program count).step setting program).2

-- The stack begins at the end of the memory, or at the greatest signed word before it.
def Setting.ofConfiguration (configuration : Configuration) : Setting where
  top := min configuration.stackSize 2147483647
  policy := configuration.policy

def reset (configuration : Configuration) (console : Console) : Flat where
  words := (Vector.replicate 17 0).set 6 (Setting.ofConfiguration configuration).top
  size := configuration.stackSize
  bytes := fun _ => 0
  pc := 0
  console

end Flat

end WordMachine
