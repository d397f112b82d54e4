import WordMachine.Assembly.Layout
import WordMachine.Assembly.Shorthand
import WordMachine.Assembly.Reference
import WordMachine.Assembly.Encoding
import WordMachine.Log.Basic

/-!
# Programs

From source text to a program.

The work is a sequence of passes. Declarations are taken out, shorthands are
expanded, everything is given its place, names are replaced by addresses, and the
lines are encoded. Each pass reports every error it finds and the first pass that
finds any ends the assembly, so a program is either complete or not produced.

## Main definitions

* `Program`: What assembly produces.
* `assemble`: Assembling a source.
* `Program.records`: The log record of an assembly.
-/

namespace WordMachine

/-- An assembled program. -/
structure Program where
  /-- The instructions, followed by the data. -/
  words : List Word
  /-- The number of words of the instructions. -/
  codeSize : Nat
  /-- The labels in the order of the source, followed by the data. -/
  symbols : List Symbol
  deriving DecidableEq, Repr

namespace Program

/-- The program in the binary format. -/
def bytes (p : Program) : List UInt8 := Word.toBytes p.words

/-- The number of words of the data. -/
def dataSize (p : Program) : Nat := p.words.length - p.codeSize

/-- The record of an assembly that succeeded. -/
def records (p : Program) : List Log.Record :=
  [Log.debug .assembler
    s!"assembled {p.codeSize} instruction words and {p.dataSize} data words, {p.symbols.length} symbols"]

end Program

/-- The program that a source describes, or what is wrong with it. -/
def assemble (source : Text) : Except (List AssemblyError) Program := do
  let (lines, declarations) ← Declaration.extract (Line.ofSource source)
  let lines ← Shorthand.expand lines
  let (code, layout) ← Layout.ofLines lines
  let final ← (layout.placeData declarations).mapError ([·])
  let resolved ← Reference.resolve final.symbols code
  let words ← Encoding.encode resolved
  return {
    words := words ++ declarations.flatMap Declaration.words
    codeSize := layout.size
    symbols := final.symbols.symbols }

end WordMachine
