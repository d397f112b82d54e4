import WordMachine.Memory
import WordMachine.Operand

/-!
# Decoded Instructions

What stands at an address of memory.

Decoding never fails: a word that is no opcode is an instruction without opcode,
one word long, and written as raw data. The name and the size of an instruction are
taken from the table, and an instruction carries the proof that they are those of its
opcode and its operands. Operand words are taken as they are found, wrapping around at
the top of memory; whether they name operands is a question for the interpreter.

## Main definitions

* `Instruction`: An instruction, or a raw word, with its address.
* `Instruction.decode`: The instruction at an address.
* `Instruction.ofParts`: The instruction with given parts.
* `Instruction.sizeAt`: The length of the instruction at an address.
* `Instruction.textWith`, `Instruction.text`: Instructions as source text.

## Theorems

* `Instruction.length_operandWords`: There are as many operand words as operands.
* `Instruction.sizeAt_pos`: An instruction has at least one word.
-/

namespace WordMachine

/-- The name that an opcode is written with, or the one for what has none. -/
def Opcode.nameOf : Option Opcode → Text
  | some op => op.name
  | none => Opcode.rawName

/-- An instruction as found in memory. -/
structure Instruction where
  /-- Where it starts. -/
  address : Word
  /-- The word found there. -/
  word : Word
  /-- The opcode, if the word is one. -/
  opcode : Option Opcode
  /-- The name it is written with. -/
  name : Text
  /-- The words after the opcode, as many as it has operands. -/
  operands : List Word
  /-- The number of words it occupies. -/
  size : Nat
  name_eq : name = Opcode.nameOf opcode
  size_eq : size = 1 + operands.length
  deriving DecidableEq, Repr

namespace Instruction

theorem name_of_opcode {i : Instruction} {op : Opcode} (h : i.opcode = some op) :
    i.name = op.name := by
  rw [i.name_eq, h]
  rfl

theorem name_of_raw {i : Instruction} (h : i.opcode = none) : i.name = Opcode.rawName := by
  rw [i.name_eq, h]
  rfl

/-- The operand words of an opcode that stands at `address`: the rest of its words. -/
def operandWords (memory : Memory) (address : Word) (op : Opcode) : List Word :=
  (List.range (op.size - 1)).map fun n => memory.read (Word.after address (n + 1))

theorem operandWords_eq (memory : Memory) (address : Word) (op : Opcode) :
    operandWords memory address op =
      (List.range op.arity).map fun n => memory.read (Word.after address (n + 1)) := by
  rw [operandWords, op.size_eq, Nat.add_sub_cancel_left]

theorem length_operandWords (memory : Memory) (address : Word) (op : Opcode) :
    (operandWords memory address op).length = op.arity := by
  rw [operandWords_eq, List.length_map, List.length_range]

/-- The instruction at an address. -/
def decode (memory : Memory) (address : Word) : Instruction :=
  let start := Word.low address
  let word := memory.read start
  match Opcode.ofWord? word with
  | some op =>
    { address := start
      word := word
      opcode := some op
      name := op.name
      operands := operandWords memory start op
      size := op.size
      name_eq := rfl
      size_eq := by rw [length_operandWords, op.size_eq] }
  | none =>
    { address := start
      word := word
      opcode := none
      name := Opcode.rawName
      operands := []
      size := 1
      name_eq := rfl
      size_eq := rfl }

/-- The instruction with given parts, with the name and the size that follow from them. -/
def ofParts (address word : Word) (opcode : Option Opcode) (operands : List Word) :
    Instruction :=
  ⟨address, word, opcode, _, operands, _, rfl, rfl⟩

/-- The number of words of the instruction at an address. -/
def sizeAt (memory : Memory) (address : Word) : Nat :=
  match Opcode.ofWord? (memory.read address) with
  | some op => op.size
  | none => 1

/-- An instruction has at least one word, so a walk from instruction to
    instruction always moves on. -/
theorem sizeAt_pos (memory : Memory) (address : Word) : 0 < sizeAt memory address := by
  unfold sizeAt
  split
  · rw [Opcode.size_eq]
    omega
  · decide

/-- An instruction as source text, its operands written by `render`. -/
def textWith (render : Opcode → Role → Word → Text) (i : Instruction) : Text :=
  match i.opcode with
  | some op => Text.unwords (i.name :: List.zipWith (render op) op.roles i.operands)
  | none => Text.unwords [Opcode.rawName, Decimal.writeWord i.word]

/-- An instruction as source text, its operands written as numbers and
    registers. -/
def text (i : Instruction) : Text := i.textWith fun _ _ => Operand.wordText

end Instruction

end WordMachine
