import WordMachine.Text.Basic
import WordMachine.Word

/-!
# Opcodes

The instruction set as a table.

Each opcode has a word, a mnemonic, a size and a list of operand roles. The size is
a column of its own, and the roles say how many operand words come after the opcode
word and which of them name a place in the program; `Opcode.size_eq` says that the
two agree at every row. The interpreter, the assembler and the lister all read this
one table.

## Main definitions

* `Role`: What an instruction does with an operand.
* `Opcode`: The instructions.
* `Opcode.word`, `Opcode.ofWord?`: Opcodes and the words that encode them.
* `Opcode.mnemonic`, `Opcode.ofMnemonic?`: Opcodes and their names.
* `Opcode.size`, `Opcode.roles`: The shape of an instruction.

## Theorems

* `Opcode.ofWord?_word`, `Opcode.word_of_ofWord?`: Opcodes and words match one to
  one.
* `Opcode.ofMnemonic?_name`, `Opcode.name_of_ofMnemonic?`: Opcodes and names match
  one to one.
* `Opcode.size_eq`: The size is that of the opcode word and its operands.
-/

namespace WordMachine

/-- What an instruction does with an operand. -/
inductive Role
  /-- The register or cell that receives a result. -/
  | destination
  /-- A value that is read. -/
  | value
  /-- The address control moves to. -/
  | jumpTarget
  /-- The address of a subroutine. -/
  | callTarget
  /-- The address of a cell that is read or written. -/
  | memoryAddress
  deriving DecidableEq, Repr

/-- The instructions, in the order of their words. -/
inductive Opcode
  | halt | set | push | pop | eq | gt | jmp | jt | jf | add | mul | mod
  | and | or | not | rmem | wmem | call | ret | out | inp | nop
  deriving DecidableEq, Repr

namespace Opcode

/-- All opcodes, in the order of their words. -/
def all : List Opcode :=
  [.halt, .set, .push, .pop, .eq, .gt, .jmp, .jt, .jf, .add, .mul, .mod,
   .and, .or, .not, .rmem, .wmem, .call, .ret, .out, .inp, .nop]

/-- The word that encodes an opcode. -/
def word : Opcode → Word
  | .halt => 0
  | .set => 1
  | .push => 2
  | .pop => 3
  | .eq => 4
  | .gt => 5
  | .jmp => 6
  | .jt => 7
  | .jf => 8
  | .add => 9
  | .mul => 10
  | .mod => 11
  | .and => 12
  | .or => 13
  | .not => 14
  | .rmem => 15
  | .wmem => 16
  | .call => 17
  | .ret => 18
  | .out => 19
  | .inp => 20
  | .nop => 21

/-- The opcode a word encodes. -/
def ofWord? (w : Word) : Option Opcode := all[w.toNat]?

theorem ofWord?_word (op : Opcode) : ofWord? op.word = some op := by
  cases op <;> rfl

/-- The word at each place of the table is the number of the place. -/
theorem word_getElem_all : ∀ (i : Nat) (h : i < all.length), all[i].word.toNat = i := by
  decide

theorem word_of_ofWord? {w : Word} {op : Opcode} (h : ofWord? w = some op) : op.word = w := by
  rcases List.getElem?_eq_some_iff.mp h with ⟨hlt, rfl⟩
  exact UInt16.toNat_inj.mp (word_getElem_all w.toNat hlt)

/-- The name of an instruction in source text. -/
def mnemonic : Opcode → String
  | .halt => "HALT"
  | .set => "SET"
  | .push => "PUSH"
  | .pop => "POP"
  | .eq => "EQ"
  | .gt => "GT"
  | .jmp => "JMP"
  | .jt => "JT"
  | .jf => "JF"
  | .add => "ADD"
  | .mul => "MUL"
  | .mod => "MOD"
  | .and => "AND"
  | .or => "OR"
  | .not => "NOT"
  | .rmem => "RMEM"
  | .wmem => "WMEM"
  | .call => "CALL"
  | .ret => "RET"
  | .out => "OUT"
  | .inp => "IN"
  | .nop => "NOP"

/-- The name of an instruction as text. -/
def name (op : Opcode) : Text := op.mnemonic.toList

/-- The opcode with a given name. Names are in capitals only. -/
def ofMnemonic? (name : Text) : Option Opcode := all.find? (·.name == name)

theorem ofMnemonic?_name (op : Opcode) : ofMnemonic? op.name = some op := by
  cases op <;> decide

theorem name_of_ofMnemonic? {name : Text} {op : Opcode} (h : ofMnemonic? name = some op) :
    op.name = name := by
  have := List.find?_some h
  simpa only [beq_iff_eq] using this

/-- The name under which a word that is no instruction is written. -/
def rawName : Text := "??".toList

/-- The roles of the operands, in encoding order. -/
def roles : Opcode → List Role
  | .halt | .ret | .nop => []
  | .push | .out => [.value]
  | .pop | .inp => [.destination]
  | .jmp => [.jumpTarget]
  | .call => [.callTarget]
  | .set | .not => [.destination, .value]
  | .jt | .jf => [.value, .jumpTarget]
  | .rmem => [.destination, .memoryAddress]
  | .wmem => [.memoryAddress, .value]
  | .eq | .gt | .add | .mul | .mod | .and | .or => [.destination, .value, .value]

/-- The number of operands. -/
def arity (op : Opcode) : Nat := op.roles.length

/-- The number of words of an instruction. -/
def size : Opcode → Nat
  | .halt => 1
  | .set => 3
  | .push => 2
  | .pop => 2
  | .eq => 4
  | .gt => 4
  | .jmp => 2
  | .jt => 3
  | .jf => 3
  | .add => 4
  | .mul => 4
  | .mod => 4
  | .and => 4
  | .or => 4
  | .not => 3
  | .rmem => 3
  | .wmem => 3
  | .call => 2
  | .ret => 1
  | .out => 2
  | .inp => 2
  | .nop => 1

/-- An instruction has the opcode word and a word for each operand. -/
theorem size_eq (op : Opcode) : op.size = 1 + op.arity := by
  cases op <;> rfl

end Opcode

end WordMachine
