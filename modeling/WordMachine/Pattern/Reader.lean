import WordMachine.Pattern.Bracket
import WordMachine.Text.Letter

/-!
# Reading Patterns

From a text to a written pattern.

A reader goes through the text once, from left to right. It keeps the parts of the
alternative that it is in, the alternatives before it, and for each group that is
open the same of what surrounds the group. A repetition takes the last part, and a
bar begins another alternative. The first flaw that is met ends the reading.

## Main definitions

* `Pattern.Reader`: A text that is being read.
* `Pattern.Reader.step`: Reads the next part.
* `Pattern.Tree.parse`: Reads a whole text.
-/

namespace WordMachine

namespace Pattern

/-- Alternatives that are being read. -/
structure Level where
  /-- Where the first alternative starts. -/
  start : Nat
  /-- The alternatives that are complete, the last first. -/
  branches : List Tree := []
  /-- Where the last alternative starts. -/
  branchStart : Nat := start
  /-- The parts of the last alternative, the last first. -/
  parts : List Tree := []

namespace Level

/-- Adds a part. -/
def push (l : Level) (part : Tree) : Level := { l with parts := part :: l.parts }

/-- The last alternative, if it stops at a place. -/
def branch (l : Level) (stop : Nat) : Tree := .ofParts ⟨l.branchStart, stop⟩ l.parts.reverse

/-- The pattern of all alternatives, if the last one stops at a place. -/
def tree (l : Level) (stop : Nat) : Tree :=
  if l.branches.isEmpty then l.branch stop
  else .alternation ⟨l.start, stop⟩ (l.branch stop :: l.branches).reverse

end Level

/-- A group that is being read. -/
structure OpenGroup where
  /-- The bracket that opened it. -/
  opening : Span
  kind : GroupKind
  /-- Whether blanks count for nothing outside of it. -/
  spaced : Bool
  /-- The alternatives in which it stands. -/
  level : Level

/-- A text that is being read. -/
structure Reader where
  cursor : Cursor
  /-- Whether blanks count for nothing. -/
  spaced : Bool := false
  /-- The number of groups so far that have a number. -/
  captures : Nat := 0
  /-- The names of groups so far. -/
  names : List (Text × Span) := []
  level : Level := { start := 0 }
  /-- The groups that are open, the innermost first. -/
  outer : List OpenGroup := []

namespace Reader

/-- Adds a part that ends at a place. -/
def push (r : Reader) (part : Tree) (c : Cursor) : Reader :=
  { r with level := r.level.push part, cursor := c }

/-! ### Groups -/

/-- Opens a group whose bracket is at the cursor and whose content starts at a place. -/
def openGroup (r : Reader) (kind : GroupKind) (spaced : Bool) (c : Cursor) : Reader :=
  { r with
    cursor := c
    spaced
    level := { start := c.place }
    outer := ⟨r.cursor.one, kind, r.spaced, r.level⟩ :: r.outer }

/-- Whether a character can stand in the name of a group. -/
def isNameChar (isFirst : Bool) (c : Char) : Bool :=
  c == '_' || Text.isLetter c
    || (!isFirst && (c == '.' || c == '[' || c == ']' || Text.isNumeral c))

/-- Reads the name of a group and opens the group. -/
def readName (r : Reader) (c : Cursor) : Except Flaw Reader := do
  let (name, closing) := c.takeWhile false (· != '>')
  match name.find? fun (place, d) => !isNameChar (place == c.place) d with
  | some (place, _) => refuse .nameInvalid ⟨place, place + 1⟩
  | none =>
    if closing.atEnd then refuse .nameEnd closing.here
    if name.isEmpty then refuse .nameEmpty c.here
    let word := name.map Prod.snd
    let span := closing.since c.place
    match r.names.lookup word with
    | some earlier => .error ⟨.nameDuplicate, span, earlier⟩
    | none =>
      let r := { r with captures := r.captures + 1, names := (word, span) :: r.names }
      return r.openGroup (.capture r.captures) r.spaced closing.next

/-- Reads switches one after another. A hyphen puts those behind it off. `seen` holds
    the signs so far, the last first. -/
def readSwitches (seen : List (Char × Span)) (position : Bool) (setting : Setting) :
    List (Nat × Char) → Except Flaw (List (Char × Span) × Setting)
  | [] => .ok (seen, setting.reverse)
  | (place, d) :: rest => do
    let span : Span := ⟨place, place + 1⟩
    let earlier := seen.lookup d
    let seen := (d, span) :: seen
    if d = '-' then
      if earlier.isSome then .error ⟨.flagNegatedTwice, span, earlier⟩
      readSwitches seen false setting rest
    else
      match Switch.ofLetter? d with
      | none => refuse .flagUnknown span
      | some switch =>
        if earlier.isSome then .error ⟨.flagDuplicate, span, earlier⟩
        readSwitches seen position ((switch, position) :: setting) rest

/-- Reads switches, behind the question mark at `mark`, and either puts them for what
    follows or opens a group that they are put for. -/
def readSetting (r : Reader) (mark c : Cursor) : Except Flaw Reader := do
  if c.atEnd then refuse .groupUnclosed r.cursor.one
  let (letters, closing) := c.takeWhile false fun d => d != ':' && d != ')'
  let (seen, setting) ← readSwitches [] true [] letters
  if closing.atEnd then refuse .flagEnd closing.here
  match seen with
  | ('-', span) :: _ => refuse .flagDangling span
  | _ =>
    let spaced := (setting.lookup .spaced).getD r.spaced
    let rest := closing.next
    if closing.char? = some ')' then
      if seen.isEmpty then refuse .repetitionMissing mark.here
      return { r.push (.setting (rest.since r.cursor.place) setting) rest with spaced }
    return r.openGroup (.plain setting) spaced rest

/-- Reads the head of a group, at its opening bracket. -/
def readGroup (r : Reader) : Except Flaw Reader :=
  let head := r.cursor.advance r.spaced
  match ["?=", "?!", "?<=", "?<!"].findSome? head.after? with
  | some rest => refuse .lookaround (rest.since r.cursor.place)
  | none =>
    match (head.after? "?P<").or (head.after? "?<"), head.after? "?" with
    | some name, _ => if name.atEnd then refuse .nameEnd name.here else r.readName name
    | none, some rest => r.readSetting head rest
    | none, none =>
      let r := { r with captures := r.captures + 1 }
      .ok (r.openGroup (.capture r.captures) r.spaced head)

/-- Closes the innermost group, at its closing bracket. -/
def closeGroup (r : Reader) : Except Flaw Reader :=
  match r.outer with
  | [] => refuse .groupUnopened r.cursor.one
  | group :: outer =>
    let rest := r.cursor.next
    let part := Tree.group (rest.since group.opening.first) group.kind
      (r.level.tree r.cursor.place)
    .ok { r with cursor := rest, spaced := group.spaced, level := group.level.push part, outer }

/-- Begins another alternative, at a bar. -/
def nextBranch (r : Reader) : Reader :=
  let rest := r.cursor.next
  let level := { r.level with
    branches := r.level.branch r.cursor.place :: r.level.branches
    branchStart := rest.place
    parts := [] }
  { r with cursor := rest, level }

/-! ### Repetitions -/

/-- The last part, which a repetition is for, and the parts before it. -/
def repeated (r : Reader) : Except Flaw (Tree × List Tree) :=
  match r.level.parts with
  | [] | .empty _ :: _ | .setting _ _ :: _ => refuse .repetitionMissing r.cursor.here
  | part :: before => .ok (part, before)

/-- Replaces the last part by its repetition, whose sign ends at a place. -/
def repeatPart (r : Reader) (part : Tree) (before : List Tree) (least : Nat) (most : Option Nat)
    (greedy : Bool) (c : Cursor) : Reader :=
  let repetition := Tree.repetition ⟨part.span.first, c.place⟩ least most greedy part
  { r with cursor := c, level := { r.level with parts := repetition :: before } }

/-- Reads the sign that a repetition prefers fewer rounds, if it is there. -/
def readPreference (c : Cursor) : Bool × Cursor :=
  if c.char? = some '?' then (false, c.next) else (true, c)

/-- Reads a repetition, at its sign. -/
def readRepetition (r : Reader) (least : Nat) (most : Option Nat) : Except Flaw Reader := do
  let (part, before) ← r.repeated
  let (greedy, rest) := readPreference r.cursor.next
  return r.repeatPart part before least most greedy rest

/-- The largest number of rounds that can be asked for. -/
def maxRounds : Nat := 4294967295

/-- Reads a number of rounds, with the blanks around it. Gives what is wrong with it
    as a value, since that counts only if the number is needed. -/
def readRounds (spaced : Bool) (c : Cursor) : Except Flaw Nat × Cursor :=
  let (_, start) := c.takeWhile false Text.isBlank
  let (digits, behind) := start.takeWhile spaced Char.isDigit
  let (_, rest) := behind.takeWhile spaced Text.isBlank
  let span := behind.since start.place
  let value := Nat.ofDigitChars 10 (digits.map Prod.snd) 0
  if digits.isEmpty then (refuse .countMissing span, rest)
  else if value > maxRounds then (refuse .decimalInvalid span, rest)
  else (.ok value, rest)

/-- Reads the bounds of a repetition in braces, behind the opening brace. The sign
    starts at `start`. -/
def readBounds (spaced : Bool) (start : Nat) (c : Cursor) :
    Except Flaw ((Nat × Option Nat) × Cursor) := do
  if c.atEnd then refuse .countUnclosed (c.since start)
  let (least, c) := readRounds spaced c
  if c.atEnd then refuse .countUnclosed (c.since start)
  if c.char? ≠ some ',' then
    let least ← least
    return ((least, some least), c)
  let c := c.advance spaced
  if c.atEnd then refuse .countUnclosed (c.since start)
  let least ← least
  if c.char? = some '\x7d' then return ((least, none), c)
  let (most, c) := readRounds spaced c
  return ((least, some (← most)), c)

/-- Reads a repetition in braces, at its opening brace. -/
def readCounted (r : Reader) : Except Flaw Reader := do
  let (part, before) ← r.repeated
  let start := r.cursor.place
  let ((least, most), closing) ← readBounds r.spaced start (r.cursor.advance r.spaced)
  if closing.char? ≠ some '\x7d' then refuse .countUnclosed (closing.since start)
  let (greedy, rest) := readPreference (closing.advance r.spaced)
  if most.any (· < least) then refuse .countInvalid (rest.since start)
  return r.repeatPart part before least most greedy rest

/-! ### Whole patterns -/

/-- Reads the part that starts at the cursor with a given character. -/
def step (r : Reader) (d : Char) : Except Flaw Reader :=
  let c := r.cursor
  match d with
  | '(' => r.readGroup
  | ')' => r.closeGroup
  | '|' => .ok r.nextBranch
  | '[' => (readBracket r.spaced c).map fun (part, rest) => r.push part rest
  | '?' => r.readRepetition 0 (some 1)
  | '*' => r.readRepetition 0 none
  | '+' => r.readRepetition 1 none
  | '\x7b' => r.readCounted
  | '\\' => (readEscape r.spaced c).map fun (atom, rest) => r.push (.atom atom) rest
  | '.' => .ok (r.push (.dot c.one) c.next)
  | '^' => .ok (r.push (.atom (.assertion c.one .lineStart)) c.next)
  | '$' => .ok (r.push (.atom (.assertion c.one .lineEnd)) c.next)
  | char => .ok (r.push (.atom (.literal { char, span := c.one })) c.next)

/-- The pattern that was read, at the end of the text. -/
def finish (r : Reader) : Except Flaw Tree :=
  match r.outer with
  | [] => .ok (r.level.tree r.cursor.place)
  | group :: _ => refuse .groupUnclosed group.opening

/-- Reads at most a number of further parts. -/
def readFor : Nat → Reader → Except Flaw Tree
  | 0, r => r.finish
  | limit + 1, r => do
    let r := { r with cursor := r.cursor.skip r.spaced }
    match r.cursor.char? with
    | none => r.finish
    | some d => readFor limit (← r.step d)

end Reader

/-- Reads a whole text. Every part has a character, so there are no more parts than
    characters. -/
def Tree.parse (text : Text) : Except Flaw Tree := do
  let tree ← Reader.readFor (text.length + 1) { cursor := ⟨0, text⟩ }
  tree.checkNesting 0
  return tree

end Pattern

end WordMachine
