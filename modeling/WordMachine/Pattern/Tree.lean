import WordMachine.Pattern.Flaw

/-!
# Written Patterns

A pattern as it is written.

A tree keeps for each part the stretch of text it was read from, so that a flaw
that shows only when the parts are put together can still be marked in the text.
What the parts mean depends on the switches in force where they stand, and is
decided later.

## Main definitions

* `Pattern.Switch`: A way of reading and matching that can be switched.
* `Pattern.Literal`: A character that stands for itself.
* `Pattern.SetTree`: A set of characters, as it is written in brackets.
* `Pattern.Tree`: A pattern, as it is written.
* `Pattern.Tree.checkNesting`: Whether brackets are nested too deep.
-/

namespace WordMachine

namespace Pattern

/-- A way of reading and matching that can be switched on and off. -/
inductive Switch
  /-- Letters match in either case. -/
  | caseless
  /-- The marks for the start and the end hold at every line. -/
  | multiline
  /-- The dot matches a line feed too. -/
  | dotAll
  /-- Repetitions prefer fewer rounds unless marked. -/
  | swapped
  /-- Characters are those of Unicode and not only of ASCII. -/
  | unicode
  /-- A line can end with a carriage return. -/
  | crlf
  /-- Blanks in the pattern count for nothing. -/
  | spaced
  deriving DecidableEq, Repr

/-- The switch that a letter names. -/
def Switch.ofLetter? : Char → Option Switch
  | 'i' => some .caseless
  | 'm' => some .multiline
  | 's' => some .dotAll
  | 'U' => some .swapped
  | 'u' => some .unicode
  | 'R' => some .crlf
  | 'x' => some .spaced
  | _ => none

/-- Switches, each with the position it is put in. -/
abbrev Setting := List (Switch × Bool)

/-- A character that stands for itself. -/
structure Literal where
  char : Char
  span : Span
  /-- Whether it is given by two hexadecimal digits, like a byte. -/
  isByte : Bool := false
  deriving DecidableEq, Repr

/-- The classes of characters that a letter after a backslash names. -/
inductive Shorthand
  | digit | space | word
  deriving DecidableEq, Repr

/-- The classes of characters that have a name in brackets and colons. -/
inductive ClassName
  | alnum | alpha | ascii | blank | cntrl | digit | graph | lower | print | punct | space
  | upper | word | xdigit
  deriving DecidableEq, Repr

/-- The class with a given name. -/
def ClassName.ofName? (name : Text) : Option ClassName :=
  match name.str with
  | "alnum" => some .alnum
  | "alpha" => some .alpha
  | "ascii" => some .ascii
  | "blank" => some .blank
  | "cntrl" => some .cntrl
  | "digit" => some .digit
  | "graph" => some .graph
  | "lower" => some .lower
  | "print" => some .print
  | "punct" => some .punct
  | "space" => some .space
  | "upper" => some .upper
  | "word" => some .word
  | "xdigit" => some .xdigit
  | _ => none

/-- What a Unicode property is asked for by. -/
inductive Property
  | named (name : Text)
  | valued (name value : Text)
  deriving DecidableEq, Repr

/-- A condition on a place of a text. -/
inductive Assertion
  | lineStart
  | lineEnd
  | textStart
  | textEnd
  /-- A word starts or ends. -/
  | edge
  /-- No word starts or ends. -/
  | inner
  | wordStart
  | wordEnd
  /-- No word is before. -/
  | wordStartHalf
  /-- No word is behind. -/
  | wordEndHalf
  deriving DecidableEq, Repr

/-- What a character or an escape sequence stands for. -/
inductive Atom
  | literal (literal : Literal)
  | shorthand (span : Span) (kind : Shorthand) (negated : Bool)
  | property (span : Span) (property : Property) (negated : Bool)
  | assertion (span : Span) (kind : Assertion)
  deriving DecidableEq, Repr

/-- The stretch of an atom. -/
def Atom.span : Atom → Span
  | .literal l => l.span
  | .shorthand span _ _ | .property span _ _ | .assertion span _ => span

/-- How two sets are combined. -/
inductive SetOperator
  | intersection | difference | symmetricDifference
  deriving DecidableEq, Repr

/-- A set of characters, as it is written in brackets. -/
inductive SetTree
  | empty (span : Span)
  | literal (literal : Literal)
  | range (span : Span) (first last : Literal)
  | named (span : Span) (name : ClassName) (negated : Bool)
  | shorthand (span : Span) (kind : Shorthand) (negated : Bool)
  | property (span : Span) (property : Property) (negated : Bool)
  | bracket (span : Span) (negated : Bool) (set : SetTree)
  | union (span : Span) (items : List SetTree)
  | combine (span : Span) (operator : SetOperator) (left right : SetTree)

/-- The stretch of a set. -/
def SetTree.span : SetTree → Span
  | .literal l => l.span
  | .empty span | .range span _ _ | .named span _ _ | .shorthand span _ _ | .property span _ _
  | .bracket span _ _ | .union span _ | .combine span _ _ _ => span

/-- What brackets around a pattern are for. -/
inductive GroupKind
  /-- They mark the part with a number. -/
  | capture (index : Nat)
  /-- They limit how far switches are put. -/
  | plain (setting : Setting)
  deriving DecidableEq, Repr

/-- A pattern, as it is written. -/
inductive Tree
  | empty (span : Span)
  | setting (span : Span) (setting : Setting)
  | dot (span : Span)
  | atom (atom : Atom)
  | bracket (span : Span) (negated : Bool) (set : SetTree)
  | repetition (span : Span) (least : Nat) (most : Option Nat) (greedy : Bool) (body : Tree)
  | group (span : Span) (kind : GroupKind) (body : Tree)
  | concat (span : Span) (parts : List Tree)
  | alternation (span : Span) (branches : List Tree)

namespace Tree

/-- The stretch of a pattern. -/
def span : Tree → Span
  | .atom a => a.span
  | .empty span | .setting span _ | .dot span | .bracket span _ _ | .repetition span _ _ _ _
  | .group span _ _ | .concat span _ | .alternation span _ => span

/-- The pattern of some parts, one after another. -/
def ofParts (span : Span) : List Tree → Tree
  | [] => .empty span
  | [part] => part
  | parts => .concat span parts

end Tree

/-- The set of some items together. -/
def SetTree.ofItems (span : Span) : List SetTree → SetTree
  | [] => .empty span
  | [item] => item
  | items => .union span items

/-- One level deeper, if that is not too deep. -/
def deeper (depth : Nat) (span : Span) : Except Flaw Nat :=
  if depth < maxNesting then .ok (depth + 1) else .error ⟨.nesting, span, none⟩

mutual

/-- Checks how deep a set is nested, inside `depth` levels. -/
def SetTree.checkNesting (depth : Nat) : SetTree → Except Flaw Unit
  | .bracket span _ set => do set.checkNesting (← deeper depth span)
  | .union span items => do SetTree.checkAllNesting (← deeper depth span) items
  | .combine span _ left right => do
    let depth ← deeper depth span
    left.checkNesting depth
    right.checkNesting depth
  | _ => .ok ()

/-- Checks how deep each of some sets is nested. -/
def SetTree.checkAllNesting (depth : Nat) : List SetTree → Except Flaw Unit
  | [] => .ok ()
  | item :: rest => do
    item.checkNesting depth
    SetTree.checkAllNesting depth rest

end

mutual

/-- Checks how deep a pattern is nested, inside `depth` levels. Of several places
    that are too deep, the first is refused. -/
def Tree.checkNesting (depth : Nat) : Tree → Except Flaw Unit
  | .bracket span _ set => do set.checkNesting (← deeper depth span)
  | .repetition span _ _ _ body => do body.checkNesting (← deeper depth span)
  | .group span _ body => do body.checkNesting (← deeper depth span)
  | .concat span parts => do Tree.checkAllNesting (← deeper depth span) parts
  | .alternation span branches => do Tree.checkAllNesting (← deeper depth span) branches
  | _ => .ok ()

/-- Checks how deep each of some patterns is nested. -/
def Tree.checkAllNesting (depth : Nat) : List Tree → Except Flaw Unit
  | [] => .ok ()
  | part :: rest => do
    part.checkNesting depth
    Tree.checkAllNesting depth rest

end

end Pattern

end WordMachine
