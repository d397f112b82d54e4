import WordMachine.Assembly.Declaration

/-!
# Layout

Where everything goes.

A program is its instructions from address zero on, followed by the blocks of
data in the order of their declarations. Reading the lines in order, the layout
keeps the table of symbols so far and the number of words so far; a label is the
address of what comes next. Sizes are known from the first word of a line, so
labels can be placed before any operand is read.

A line that cannot be placed is reported and takes no room. The later lines are
placed as if it were not there.

## Main definitions

* `Statement`: What the first word of a line says it is.
* `Layout`: The symbols and the size of what has been placed.
* `Layout.place`: Placing a line.
* `Layout.ofLines`: Placing all instructions and labels.
* `Layout.placeData`: Placing the data.
-/

namespace WordMachine

/-- What the first word of a line says it is. -/
inductive Statement
  /-- The definition of a label. -/
  | label (name : Text)
  /-- A word given as a number. -/
  | raw
  /-- An instruction. -/
  | instruction (opcode : Opcode)
  /-- Nothing that is known. -/
  | unknown
  deriving DecidableEq, Repr

/-- What the first word of a line says it is. -/
def Line.statement (line : Line) : Statement :=
  match line.head with
  | ':' :: name => .label name
  | head =>
    if head = Opcode.rawName then .raw
    else match Opcode.ofMnemonic? head with
      | some op => .instruction op
      | none => .unknown

/-- Whether a line defines a label. -/
def Line.isLabel (line : Line) : Bool := Text.startsWith ':' line.head

/-- The symbols and the size of what has been placed. -/
structure Layout where
  symbols : SymbolTable
  /-- The number of words, which is the address of what comes next. -/
  size : Nat
  deriving DecidableEq, Repr

namespace Layout

/-- The layout of nothing. -/
def empty : Layout := ⟨SymbolTable.empty, 0⟩

/-- The layout with the label on a line added. -/
def placeLabel (layout : Layout) (line : Line) (name : Text) : Except AssemblyError Layout :=
  if layout.size ≥ memorySize then
    .error (line.error (.labelBeyondMemory name layout.size))
  else if line.tokens.length ≠ 1 then .error (line.error (.labelNotAlone line.text))
  else match Name.check name with
    | .error reason => .error (line.error (.labelName reason))
    | .ok () =>
      match layout.symbols.add ⟨name, .label, UInt16.ofNat layout.size, line.number⟩ with
      | .error existing => .error (line.error (.labelDuplicate name existing.line))
      | .ok symbols => .ok { layout with symbols := symbols }

/-- The layout with a line added. -/
def place (layout : Layout) (line : Line) : Except AssemblyError Layout :=
  match line.statement with
  | .label name => layout.placeLabel line name
  | .raw => .ok { layout with size := layout.size + 1 }
  | .instruction op => .ok { layout with size := layout.size + op.size }
  | .unknown => .error (line.error (.unknownInstruction line.head line.text))

/-- The errors of placing lines in turn, and the layout of the others. -/
def placeAll (layout : Layout) : List Line → List AssemblyError × Layout
  | [] => ([], layout)
  | line :: rest =>
    match layout.place line with
    | .ok next => next.placeAll rest
    | .error e =>
      let (errors, final) := layout.placeAll rest
      (e :: errors, final)

/-- The lines that are no labels, and the layout of all lines. -/
def ofLines (lines : List Line) : Except (List AssemblyError) (List Line × Layout) :=
  match empty.placeAll lines with
  | ([], layout) => .ok (lines.filter (!·.isLabel), layout)
  | (errors, _) => .error errors

/-- The layout with one block of data added. -/
def placeBlock (layout : Layout) (d : Declaration) : Except AssemblyError Layout :=
  if layout.size ≥ memorySize then
    .error ⟨d.line, .dataBeyondMemory d.name layout.size⟩
  else
    match layout.symbols.add ⟨d.name, .data d.value d.count, UInt16.ofNat layout.size, d.line⟩ with
    | .error _ => .error ⟨d.line, .dataRedefined d.name⟩
    | .ok symbols => .ok ⟨symbols, layout.size + d.count.toNat⟩

/-- The layout with all blocks of data added. The first block that does not find
    room ends it, and so does a last block that only begins inside memory. -/
def placeData (layout : Layout) (declarations : List Declaration) :
    Except AssemblyError Layout := do
  let final ← declarations.foldlM placeBlock layout
  if final.size ≤ memorySize then return final
  else .error ⟨(declarations.getLast?.map (·.line)).getD 0, .programTooLarge final.size⟩

end Layout

end WordMachine
