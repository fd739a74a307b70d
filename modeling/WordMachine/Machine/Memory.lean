import Std.Data.TreeMap
import WordMachine.Machine.Fault

namespace WordMachine

-- A region of `size` bytes, zero at first. Only the bytes that were written are kept, so a large
-- region costs nothing.
structure Memory where
  size : Nat
  written : Std.TreeMap Nat UInt8

namespace Memory

def blank (size : Nat) : Memory := ⟨size, ∅⟩

def byteAt (memory : Memory) (address : Nat) : UInt8 :=
  memory.written.getD address 0

def setByte (memory : Memory) (address : Nat) (byte : UInt8) : Memory :=
  { memory with written := memory.written.insert address byte }

theorem byteAt_blank (size address : Nat) : (blank size).byteAt address = 0 := by
  simp [byteAt, blank]

theorem byteAt_setByte (memory : Memory) (address other : Nat) (byte : UInt8) :
    (memory.setByte address byte).byteAt other =
      if other = address then byte else memory.byteAt other := by
  simp only [byteAt, setByte, Std.TreeMap.getD_insert, Nat.compare_eq_eq]
  simp only [eq_comm]

-- The place of a word, where all its four bytes are in the region.
def locate (memory : Memory) (address : Int) : Except MemoryFault Nat :=
  if 0 ≤ address ∧ address + 4 ≤ memory.size then .ok address.toNat
  else .error ⟨address, memory.size⟩

-- The word at a place, its low byte first, aligned or not.
def wordAt (memory : Memory) (place : Nat) : UInt32 :=
  (memory.byteAt place).toUInt32 ||| (memory.byteAt (place + 1)).toUInt32 <<< 8
    ||| (memory.byteAt (place + 2)).toUInt32 <<< 16 ||| (memory.byteAt (place + 3)).toUInt32 <<< 24

def setWord (memory : Memory) (place : Nat) (word : UInt32) : Memory :=
  ((memory.setByte place word.toUInt8
    ).setByte (place + 1) (word >>> 8).toUInt8
    ).setByte (place + 2) (word >>> 16).toUInt8
    |>.setByte (place + 3) (word >>> 24).toUInt8

def readWord (memory : Memory) (address : Int) : Except MemoryFault UInt32 :=
  memory.wordAt <$> memory.locate address

def writeWord (memory : Memory) (address : Int) (word : UInt32) : Except MemoryFault Memory :=
  (memory.setWord · word) <$> memory.locate address

def bytes (memory : Memory) : List UInt8 :=
  (List.range memory.size).map memory.byteAt

-- The aligned words that are not zero, by address. Bytes past the end count as zero, so a last
-- word may be cut.
def nonzeroWords (memory : Memory) : List (Nat × UInt32) :=
  let starts := memory.written.keys.map fun address => address / 4 * 4
  (starts.eraseReps.map fun start => (start, memory.wordAt start)).filter (·.2 ≠ 0)

-- A line about the region.
def summary (memory : Memory) : String :=
  "StackMemory \x7b size: " ++ Decimal.renderNat memory.size ++ ", .. \x7d"

end Memory

end WordMachine
