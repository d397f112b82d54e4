import WordMachine.Assembly.Line

/-!
# Shorthands

Lines that stand for several instructions.

A line that starts with `!` is a shorthand: `!print` and `!println` take a quoted
text and print it, one `OUT` for each character, and `!neg` takes a destination
and a source and leaves the negative of one in the other. Expansion is a single
pass over the source: what a shorthand expands to is never looked at again. The
expanded lines carry the number of the line they come from.

Texts are quoted with the grave accent, which therefore cannot occur in them.

## Main definitions

* `Shorthand.quoted`: The text that a print shorthand quotes.
* `Shorthand.expandLine`: The instructions that a shorthand stands for.
* `Shorthand.expand`: Expanding all shorthands of a source.
-/

namespace WordMachine

namespace Shorthand

/-- The character that stands before and after a quoted text: the grave
    accent. -/
def quote : Char := Char.ofNat 96

/-- What stands between quotes, if `text` starts and ends with one. -/
def unquote? (text : Text) : Option Text :=
  match text with
  | [] => none
  | first :: rest =>
    if first = quote ∧ rest.getLast? = some quote then some rest.dropLast else none

/-- The text that a print shorthand quotes. The line has two quotes and nothing
    but blanks around the quoted text, apart from the shorthand's name. -/
def quoted (line : Line) (name : Text) : Except AssemblyError Text :=
  if line.text.count quote = 2 then
    match unquote? (Text.trim (line.text.drop name.length)) with
    | some text => .ok text
    | none => .error (line.error (.shorthandQuotes line.text))
  else .error (line.error (.shorthandQuotes line.text))

/-- Whether a character's code is a value, so that it can be printed. -/
def isPrintable (c : Char) : Bool := c.toNat < memorySize

/-- The instruction that prints a character. -/
def outLine (c : Char) : Text := Text.unwords [Opcode.name .out, Decimal.write c.toNat]

/-- The instructions that print the quoted text of a line. -/
def printLines (line : Line) (name : Text) : Except AssemblyError (List Text) := do
  let text ← quoted line name
  match text.find? (!isPrintable ·) with
  | some c => .error (line.error (.shorthandCharacter c line.text))
  | none => return text.map outLine

/-- The instructions that leave the negative of `source` in `destination`. -/
def negateLines (destination source : Text) : List Text :=
  [Text.unwords [Opcode.name .not, destination, source],
   Text.unwords [Opcode.name .add, destination, destination, Decimal.write 1]]

/-- The name of the shorthand that prints a text. -/
def printName : Text := "!print".toList

/-- The name of the shorthand that prints a text and ends the line. -/
def printlnName : Text := "!println".toList

/-- The name of the shorthand that negates a value. -/
def negateName : Text := "!neg".toList

/-- The instructions that a shorthand stands for. -/
def expandLine (line : Line) : Except AssemblyError (List Text) :=
  if line.head = printName then printLines line printName
  else if line.head = printlnName then do
    return (← printLines line printlnName) ++ [outLine '\n']
  else if line.head = negateName then
    match line.tokens with
    | [_, destination, source] => .ok (negateLines destination source)
    | tokens => .error (line.error (.shorthandTokens line.text tokens.length))
  else .error (line.error (.shorthandUnknown line.head line.text))

/-- Whether a line is a shorthand. -/
def isShorthand (line : Line) : Bool := Text.startsWith '!' line.text

/-- The lines that a line of source becomes. -/
def expandIfShorthand (line : Line) : Except AssemblyError (List Line) :=
  if isShorthand line then
    (expandLine line).map fun texts => texts.map fun text => ⟨line.number, text⟩
  else .ok [line]

/-- A source with all its shorthands expanded. -/
def expand (lines : List Line) : Except (List AssemblyError) (List Line) :=
  (gather (lines.map expandIfShorthand)).map List.flatten

end Shorthand

end WordMachine
