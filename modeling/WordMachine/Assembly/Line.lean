import WordMachine.Assembly.Error

/-!
# Source Lines

A source as the list of its meaningful lines.

Blank lines and lines that start with `#` mean nothing and are left out. The
others keep their number through every pass, so that an error found late, in a
line that was expanded or had its names replaced, still points at the source.

## Main definitions

* `Line`: A line with its number.
* `Line.ofSource`: The meaningful lines of a source.
* `Line.tokens`: The words of a line.
-/

namespace WordMachine

/-- A line of source text. -/
structure Line where
  /-- The number of the line in the source, counted from one. -/
  number : Nat
  text : Text
  deriving DecidableEq, Repr

namespace Line

/-- The words of a line. -/
def tokens (line : Line) : List Text := Text.words line.text

/-- The first word of a line, empty if there is none. -/
def head (line : Line) : Text := line.tokens.headD []

/-- The words of a line after the first. -/
def operands (line : Line) : List Text := line.tokens.tail

/-- An error on this line. -/
def error (line : Line) (cause : AssemblyError.Cause) : AssemblyError := ⟨line.number, cause⟩

/-- Whether a text means anything, once trimmed. -/
def isMeaningful (text : Text) : Bool := !text.isEmpty && !Text.startsWith '#' text

/-- The lines of a source with their numbers, trimmed. -/
def numbered (source : Text) : List Line :=
  ((Text.lines source).zipIdx 1).map fun (text, number) => ⟨number, Text.trim text⟩

/-- The meaningful lines of a source. -/
def ofSource (source : Text) : List Line :=
  (numbered source).filter fun line => isMeaningful line.text

end Line

end WordMachine
