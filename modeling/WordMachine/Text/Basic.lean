/-!
# Text

Source text and listings as lists of characters.

Everything the assembler reads and the lister writes is cut at two kinds of
places: at line breaks and at blanks. On `List Char` both cuts are the library's
own splitting function, so a line that was written is read back by list lemmas
alone. Text meets `String` only where a message is
worded for a person.

Blanks are the characters of the Unicode property `White_Space`.

## Main definitions

* `Text`: A list of characters.
* `Text.isBlank`: The white space characters.
* `Text.trim`: A text without the blanks at its ends.
* `Text.words`: The maximal runs of characters that are not blank.
* `Text.lines`: The lines of a source.
* `Text.unwords`, `Text.unlines`: Joining with single spaces and line breaks.
* `Text.isInRanges`: Whether a number lies in one of some ranges.
-/

namespace WordMachine

/-- A text is its list of characters. -/
abbrev Text := List Char

namespace Text

/-- The text as a string, for messages. -/
def str (t : Text) : String := String.ofList t

/-- The white space characters. -/
def isBlank (c : Char) : Bool :=
  let n := c.toNat
  (9 ≤ n && n ≤ 13) || n == 32 || n == 0x85 || n == 0xA0 || n == 0x1680
    || (0x2000 ≤ n && n ≤ 0x200A) || n == 0x2028 || n == 0x2029 || n == 0x202F
    || n == 0x205F || n == 0x3000

/-- A text without its leading blanks. -/
def trimStart (t : Text) : Text := t.dropWhile isBlank

/-- A text without its trailing blanks. -/
def trimEnd (t : Text) : Text := (t.reverse.dropWhile isBlank).reverse

/-- A text without the blanks at its ends. -/
def trim (t : Text) : Text := trimEnd (trimStart t)

/-- The maximal runs of characters that are not blank. -/
def words (t : Text) : List Text := (t.splitOnP isBlank).filter (!·.isEmpty)

/-- The lines of a source. A line break ends a line, so nothing after the last
    one is no line. A carriage return before a line break stays in its line,
    where it is a trailing blank. -/
def lines (t : Text) : List Text :=
  let pieces := t.splitOn '\n'
  if pieces.getLast? = some [] then pieces.dropLast else pieces

/-- Words joined by single spaces. -/
def unwords (ws : List Text) : Text := List.intercalate [' '] ws

/-- Lines joined by line breaks. -/
def unlines (ls : List Text) : Text := List.intercalate ['\n'] ls

/-- Whether a text begins with a given character. -/
def startsWith (c : Char) (t : Text) : Bool := t.head? == some c

/-- Whether a number lies in one of some ranges, each given by its first and its last
    number. -/
def isInRanges (n : Nat) (ranges : List (Nat × Nat)) : Bool :=
  ranges.any fun (first, last) => first ≤ n && n ≤ last

end Text

end WordMachine
