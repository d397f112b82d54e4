import WordMachine.Machine.Basic

/-!
# Instruction Boundaries

Where the instructions of a loaded program start.

Nothing in memory marks the start of an instruction. The walk takes the first
word of the program for one, and from there on the word after an instruction is
the start of the next, until the length of the program is reached. The last
instruction can reach beyond that length.

## Main definitions

* `Machine.walk`: The boundaries from an address on.
* `Machine.boundaries`: The boundaries of the loaded program.

## Theorems

* `Machine.walk_of_lt`, `Machine.walk_of_le`: A walk inside and after the program.
-/

namespace WordMachine

namespace Machine

/-- The boundaries from an address on. -/
def walk (m : Machine) (address : Nat) : List Nat :=
  if address < m.wordCount then
    address :: walk m (address + m.sizeAt (UInt16.ofNat address))
  else []
termination_by m.wordCount - address
decreasing_by
  have : 0 < m.sizeAt (UInt16.ofNat address) := Instruction.sizeAt_pos _ _
  omega

theorem walk_of_lt {m : Machine} {address : Nat} (h : address < m.wordCount) :
    m.walk address = address :: m.walk (address + m.sizeAt (UInt16.ofNat address)) := by
  rw [walk, if_pos h]

theorem walk_of_le {m : Machine} {address : Nat} (h : m.wordCount ≤ address) :
    m.walk address = [] := by
  rw [walk, if_neg (by omega)]

/-- The boundaries of the loaded program. -/
def boundaries (m : Machine) : List Nat := m.walk 0

end Machine

end WordMachine
