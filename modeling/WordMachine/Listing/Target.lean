import Std.Data.TreeSet
import WordMachine.Listing.Boundary

/-!
# Targets

The addresses that instructions name.

An operand in the place of a jump target, a call target or a memory address names
a place in the program, if it is a literal. In a listing such a place can be given
a label, one kind of label for each kind of target, and each kind only if it is
asked for. The memory instructions name a place with every literal they have, the
destination of a read and the value of a write included.

Only an instruction can carry a label, so a target that is no boundary of the walk
is reported instead.

## Main definitions

* `Listing.Options`: What a listing shows.
* `Target`: A kind of target and an address.
* `Target.ofOperand?`: The target that an operand names.
* `Survey`: The boundaries and targets of a program.
-/

namespace WordMachine

namespace Target

/-- The kinds of targets. -/
inductive Kind
  | jump | call | data
  deriving DecidableEq, Repr

namespace Kind

/-- The kinds of targets, in the order in which a listing shows them. -/
def all : List Kind := [.jump, .call, .data]

/-- What stands before the address in a label of this kind. -/
def stem : Kind → Text
  | .jump => ":jump-".toList
  | .call => ":proc-".toList
  | .data => ":data-".toList

/-- The kind of target that an operand names by its role. -/
def ofRole? (op : Opcode) (role : Role) : Option Kind :=
  match op with
  | .rmem | .wmem => some .data
  | _ =>
    match role with
    | .jumpTarget => some .jump
    | .callTarget => some .call
    | .memoryAddress => some .data
    | .destination | .value => none

end Kind

end Target

/-- What a listing shows besides the instructions. -/
structure Listing.Options where
  /-- Consecutive output of characters as print shorthands. -/
  foldOutput : Bool := false
  labelJumps : Bool := false
  labelCalls : Bool := false
  labelMemory : Bool := false
  /-- The address of each line, as a comment before it. -/
  addressComments : Bool := false
  deriving DecidableEq, Repr

namespace Listing.Options

/-- A listing that shows everything. -/
def everything : Options := ⟨true, true, true, true, true⟩

/-- Whether targets of a kind are labelled. -/
def labels (options : Options) : Target.Kind → Bool
  | .jump => options.labelJumps
  | .call => options.labelCalls
  | .data => options.labelMemory

end Listing.Options

/-- An address that an instruction names. -/
structure Target where
  kind : Target.Kind
  address : Nat
  deriving DecidableEq, Repr

namespace Target

/-- The label of a target. -/
def label (t : Target) : Text := t.kind.stem ++ Decimal.write t.address

/-- The target that an operand names, if targets of its kind are labelled. -/
def ofOperand? (options : Listing.Options) (op : Opcode) (role : Role) (word : Word) :
    Option Target :=
  match Kind.ofRole? op role, Operand.ofWord? word with
  | some kind, some (.literal address) =>
    if options.labels kind then some ⟨kind, address.toNat⟩ else none
  | _, _ => none

end Target

/-- The targets that an instruction names. -/
def Instruction.targets (options : Listing.Options) (i : Instruction) : List Target :=
  match i.opcode with
  | some op =>
    (op.roles.zip i.operands).filterMap fun (role, word) =>
      Target.ofOperand? options op role word
  | none => []

/-- The boundaries of a program and the targets that its instructions name. -/
structure Survey where
  boundaries : Std.TreeSet Nat
  jumps : Std.TreeSet Nat
  calls : Std.TreeSet Nat
  data : Std.TreeSet Nat

namespace Survey

/-- The addresses of the targets of a kind. -/
def targets (s : Survey) : Target.Kind → Std.TreeSet Nat
  | .jump => s.jumps
  | .call => s.calls
  | .data => s.data

/-- The addresses of one kind among some targets. -/
def addresses (targets : List Target) (kind : Target.Kind) : Std.TreeSet Nat :=
  Std.TreeSet.ofList ((targets.filter (·.kind = kind)).map (·.address))

/-- The survey of a loaded program. -/
def ofMachine (m : Machine) (options : Listing.Options) : Survey :=
  let targets := m.boundaries.flatMap fun address =>
    (m.decode (UInt16.ofNat address)).targets options
  { boundaries := Std.TreeSet.ofList m.boundaries
    jumps := addresses targets .jump
    calls := addresses targets .call
    data := addresses targets .data }

/-- The targets that are no boundaries, by kind and then by address. -/
def unaligned (s : Survey) : List Target :=
  Target.Kind.all.flatMap fun kind =>
    ((s.targets kind).toList.filter (!s.boundaries.contains ·)).map (⟨kind, ·⟩)

/-- The labels of a boundary. -/
def labelsAt (s : Survey) (address : Nat) : List Target :=
  (Target.Kind.all.filter fun kind => (s.targets kind).contains address).map (⟨·, address⟩)

/-- A survey without the targets at an address. -/
def without (s : Survey) (address : Nat) : Survey :=
  { s with
    jumps := s.jumps.erase address
    calls := s.calls.erase address
    data := s.data.erase address }

/-- An operand as source text: the label of an aligned target, or the operand
    itself. -/
def operandText (s : Survey) (options : Listing.Options) (op : Opcode) (role : Role)
    (word : Word) : Text :=
  match Target.ofOperand? options op role word with
  | some target =>
    if s.boundaries.contains target.address then target.label else Operand.wordText word
  | none => Operand.wordText word

end Survey

end WordMachine
