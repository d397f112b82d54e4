import WordMachine.Text.Basic

/-!
# Flaws of Patterns

Why a text is no pattern, and how that is shown.

A flaw is of a kind and lies at a stretch of the text. It is shown with the whole
text and marks under the characters it is about. A text of one line is shown
indented. A text of several lines is shown between rules, each line with its
number, and a flaw that goes over a line break is described below instead.

## Main definitions

* `Pattern.Span`: A stretch of a text.
* `Pattern.FlawKind`: What can be wrong with a text, and its wording.
* `Pattern.Flaw`: What is wrong with a text, and where.
* `Pattern.Flaw.message`: A flaw as it is shown.
-/

namespace WordMachine

namespace Pattern

/-- A stretch of a text: the place of its first character, and the place after its
    last one. -/
structure Span where
  first : Nat
  after : Nat
  deriving DecidableEq, Repr

/-- The number of the line that a place is in, counted from zero. -/
def lineAt (text : Text) (place : Nat) : Nat := (text.take place).count '\n'

/-- The number of characters between the start of its line and a place. -/
def columnAt (text : Text) (place : Nat) : Nat :=
  ((text.take place).reverse.takeWhile (· != '\n')).length

/-- What can be wrong with a text that is to be a pattern. -/
inductive FlawKind
  | classEscape
  | classRange
  | classBoundary
  | classUnclosed
  | decimalInvalid
  | hexEmpty
  | hexInvalid
  | hexDigit
  | escapeEnd
  | escapeUnknown
  | flagDangling
  | flagDuplicate
  | flagNegatedTwice
  | flagEnd
  | flagUnknown
  | nameDuplicate
  | nameEmpty
  | nameInvalid
  | nameEnd
  | groupUnclosed
  | groupUnopened
  | nesting
  | countInvalid
  | countMissing
  | countUnclosed
  | repetitionMissing
  | edgeUnclosed
  | edgeUnknown
  | edgeEnd
  | propertyInvalid
  | backreference
  | lookaround
  | unicodeForbidden
  | notUtf8
  | propertyUnknown
  | propertyValueUnknown
  | shorthandUnavailable
  | caseUnavailable
  deriving DecidableEq, Repr

/-- How many brackets of all kinds can stand inside each other. -/
def maxNesting : Nat := 250

/-- The wording of a kind of flaw. -/
def FlawKind.text : FlawKind → String
  | .classEscape => "invalid escape sequence found in character class"
  | .classRange => "invalid character class range, the start must be <= the end"
  | .classBoundary => "invalid range boundary, must be a literal"
  | .classUnclosed => "unclosed character class"
  | .decimalInvalid => "decimal literal invalid"
  | .hexEmpty => "hexadecimal literal empty"
  | .hexInvalid => "hexadecimal literal is not a Unicode scalar value"
  | .hexDigit => "invalid hexadecimal digit"
  | .escapeEnd => "incomplete escape sequence, reached end of pattern prematurely"
  | .escapeUnknown => "unrecognized escape sequence"
  | .flagDangling => "dangling flag negation operator"
  | .flagDuplicate => "duplicate flag"
  | .flagNegatedTwice => "flag negation operator repeated"
  | .flagEnd => "expected flag but got end of regex"
  | .flagUnknown => "unrecognized flag"
  | .nameDuplicate => "duplicate capture group name"
  | .nameEmpty => "empty capture group name"
  | .nameInvalid => "invalid capture group character"
  | .nameEnd => "unclosed capture group name"
  | .groupUnclosed => "unclosed group"
  | .groupUnopened => "unopened group"
  | .nesting => s!"exceed the maximum number of nested parentheses/brackets ({maxNesting})"
  | .countInvalid => "invalid repetition count range, the start must be <= the end"
  | .countMissing => "repetition quantifier expects a valid decimal"
  | .countUnclosed => "unclosed counted repetition"
  | .repetitionMissing => "repetition operator missing expression"
  | .edgeUnclosed =>
    "special word boundary assertion is either unclosed or contains an invalid character"
  | .edgeUnknown =>
    "unrecognized special word boundary assertion, valid choices are: "
      ++ "start, end, start-half or end-half"
  | .edgeEnd =>
    "found either the beginning of a special word boundary or a bounded repetition on a \\b "
      ++ "with an opening brace, but no closing brace"
  | .propertyInvalid => "invalid Unicode character class"
  | .backreference => "backreferences are not supported"
  | .lookaround => "look-around, including look-ahead and look-behind, is not supported"
  | .unicodeForbidden => "Unicode not allowed here"
  | .notUtf8 => "pattern can match invalid UTF-8"
  | .propertyUnknown => "Unicode property not found"
  | .propertyValueUnknown => "Unicode property value not found"
  | .shorthandUnavailable =>
    "Unicode-aware Perl class not found (make sure the unicode-perl feature is enabled)"
  | .caseUnavailable =>
    "Unicode-aware case insensitivity matching is not available "
      ++ "(make sure the unicode-case feature is enabled)"

/-- What is wrong with a text, and where. -/
structure Flaw where
  kind : FlawKind
  span : Span
  /-- The earlier stretch that a repeated one repeats. -/
  earlier : Option Span := none
  deriving DecidableEq, Repr

/-- Refuses a text because of a stretch of it. -/
def refuse {α : Type} (kind : FlawKind) (span : Span) : Except Flaw α := .error ⟨kind, span, none⟩

namespace Flaw

/-- The stretches that a flaw is about, in order. -/
def spans (f : Flaw) : List Span := f.earlier.toList ++ [f.span]

/-- Whether a stretch lies within a line. -/
def isInLine (text : Text) (s : Span) : Bool := lineAt text s.first = lineAt text s.after

/-- Marks under columns: for each pair, marks from its first number up to the
    second, and at least one. -/
def marks (column : Nat) : List (Nat × Nat) → Text
  | [] => []
  | (first, after) :: rest =>
    let width := max 1 (after - first)
    List.replicate (first - column) ' ' ++ List.replicate width '^'
      ++ marks (max column first + width) rest

/-- The lines of a text, without what ends them. -/
def bareLines (text : Text) : List Text :=
  let pieces := text.splitOn '\n'
  let ended := pieces.dropLast.map fun line =>
    if line.getLast? = some '\r' then line.dropLast else line
  ended ++ (pieces.getLast?.toList.filter (!·.isEmpty))

/-- A line of a text, after `head`, and marks under what a flaw is about in it. -/
def markedLine (f : Flaw) (text : Text) (head : Text) (number : Nat) (line : Text) : Text :=
  let within := f.spans.filter fun s => isInLine text s && lineAt text s.first = number
  let columns := within.map fun s => (columnAt text s.first, columnAt text s.after)
  head ++ line ++ ['\n']
    ++ if columns.isEmpty then []
      else List.replicate head.length ' ' ++ marks 0 columns ++ ['\n']

/-- The description of a stretch that goes over a line break. -/
def wideNote (text : Text) (s : Span) : String :=
  s!"on line {lineAt text s.first + 1} (column {columnAt text s.first + 1}) "
    ++ s!"through line {lineAt text s.after + 1} (column {columnAt text s.after})\n"

/-- The rule above and below a text of several lines. -/
def rule : String := Text.str (List.replicate 79 '~') ++ "\n"

/-- A flaw as it is shown, with the text that has it. -/
def message (f : Flaw) (text : Text) : String :=
  let shown :=
    if text.contains '\n' then
      let width := (toString (text.count '\n' + 1)).length
      let lines := (bareLines text).mapIdx fun i line =>
        f.markedLine text (List.leftpad width ' ' (toString (i + 1)).toList ++ [':', ' ']) i line
      rule ++ Text.str lines.flatten ++ rule
        ++ String.join ((f.spans.filter (!isInLine text ·)).map (wideNote text))
    else Text.str (f.markedLine text (List.replicate 4 ' ') 0 text)
  s!"regex parse error:\n{shown}error: {f.kind.text}"

end Flaw

end Pattern

end WordMachine
