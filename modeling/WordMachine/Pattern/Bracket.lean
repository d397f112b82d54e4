import WordMachine.Pattern.Escape

/-!
# Sets in Brackets

Reading a set of characters that is written in brackets.

Brackets hold characters, ranges, classes, and further brackets. Between what they
hold, operators can stand, which take everything before them on the left and
everything up to the next operator on the right. Brackets that are open are kept in
a list, the innermost first, so that the depth of a text is no matter for reading.

## Main definitions

* `Pattern.OpenSet`: Brackets that are being read.
* `Pattern.readBracket`: Reads a set in brackets.
-/

namespace WordMachine

namespace Pattern

/-- Items of a set that are being read, the last first, and their stretch. -/
structure Items where
  span : Span
  items : List SetTree := []

namespace Items

/-- Adds an item. -/
def push (u : Items) (item : SetTree) : Items where
  span := ⟨if u.items.isEmpty then item.span.first else u.span.first, item.span.after⟩
  items := item :: u.items

/-- The set of the items. -/
def set (u : Items) : SetTree := .ofItems u.span u.items.reverse

end Items

/-- Brackets that are being read. -/
structure OpenSet where
  /-- The stretch that opened them. -/
  opening : Span
  negated : Bool
  /-- The operator before the items, and what stands before the operator. -/
  left : Option (SetTree × SetOperator) := none
  items : Items

namespace OpenSet

/-- What the brackets hold so far. -/
def set (o : OpenSet) : SetTree :=
  match o.left with
  | none => o.items.set
  | some (left, operator) =>
    let right := o.items.set
    .combine ⟨left.span.first, right.span.after⟩ operator left right

/-- Adds an item. -/
def push (o : OpenSet) (item : SetTree) : OpenSet := { o with items := o.items.push item }

/-- Adds an operator that ends at a place. -/
def operate (o : OpenSet) (operator : SetOperator) (c : Cursor) : OpenSet :=
  { o with left := some (o.set, operator), items := { span := c.here } }

end OpenSet

/-- A character that stands for itself in brackets, at its place. -/
def plainItem (place : Nat) (char : Char) : SetTree :=
  .literal { char, span := ⟨place, place + 1⟩ }

/-- Reads an opening bracket and what has a meaning of its own right behind it: the
    sign of negation, hyphens, and a closing bracket that closes nothing. -/
def readOpening (spaced : Bool) (c : Cursor) : Except Flaw (OpenSet × Cursor) := do
  let start := c.place
  let sign := c.advance spaced
  let negated := sign.char? == some '^'
  let inside := if negated then sign.advance spaced else sign
  if inside.atEnd then refuse .classUnclosed (inside.since start)
  let (hyphens, c) := inside.takeWhile spaced (· == '-')
  if c.atEnd then refuse .classUnclosed ⟨start, start⟩
  let items : Items := hyphens.foldl (fun u (place, d) => u.push (plainItem place d))
    { span := inside.here }
  if hyphens.isEmpty && c.char? == some ']' then
    let rest := c.advance spaced
    if rest.atEnd then refuse .classUnclosed (rest.since start)
    return ({ opening := rest.since start, negated, items := items.push (plainItem c.place ']') },
      rest)
  return ({ opening := c.since start, negated, items }, c)

/-- Reads the name of a class in brackets and colons, if there is one. -/
def readNamed? (c : Cursor) : Option (SetTree × Cursor) := do
  let name ← c.after? "[:"
  let negated := name.char? == some '^'
  let name := if negated then name.next else name
  let (letters, closing) := name.takeWhile false (· != ':')
  let rest ← closing.after? ":]"
  let kind ← ClassName.ofName? (letters.map Prod.snd)
  return (.named (rest.since c.place) kind negated, rest)

/-- Reads a character or an escape sequence in brackets. -/
def readSetAtom (spaced : Bool) (c : Cursor) : Except Flaw (Atom × Cursor) :=
  match c.char? with
  | some '\\' => readEscape spaced c
  | some char => .ok (.literal { char, span := c.one }, c.next)
  | none => refuse .classUnclosed c.here

/-- An atom as the end of a range. -/
def Atom.toLiteral : Atom → Except Flaw Literal
  | .literal l => .ok l
  | other => refuse .classBoundary other.span

/-- An atom as an item of a set. -/
def Atom.toItem : Atom → Except Flaw SetTree
  | .literal l => .ok (.literal l)
  | .shorthand span kind negated => .ok (.shorthand span kind negated)
  | .property span asked negated => .ok (.property span asked negated)
  | .assertion span _ => refuse .classEscape span

/-- Reads a character, a range or a class, in brackets that `opening` opened. A
    hyphen makes a range unless a closing bracket or another hyphen follows it. -/
def readItem (spaced : Bool) (opening : Span) (c : Cursor) :
    Except Flaw (SetTree × Cursor) := do
  let (first, c) ← readSetAtom spaced c
  let c := c.skip spaced
  if c.atEnd then refuse .classUnclosed opening
  let follower := c.peek? spaced
  if c.char? != some '-' || follower == some ']' || follower == some '-' then
    return (← first.toItem, c)
  let c := c.advance spaced
  if c.atEnd then refuse .classUnclosed opening
  let (last, c) ← readSetAtom spaced c
  let low ← first.toLiteral
  let high ← last.toLiteral
  let span : Span := ⟨low.span.first, high.span.after⟩
  if high.char < low.char then refuse .classRange span
  return (.range span low high, c)

/-- Reads at most a number of further items up to the bracket that closes the
    outermost set. The innermost set is `inner`. -/
def readItemsFor (spaced : Bool) : Nat → OpenSet → List OpenSet → Cursor →
    Except Flaw (Tree × Cursor)
  | 0, inner, _, _ => refuse .classUnclosed inner.opening
  | limit + 1, inner, outer, c => do
    let c := c.skip spaced
    match c.rest with
    | [] => refuse .classUnclosed inner.opening
    | '[' :: _ =>
      match readNamed? c with
      | some (item, rest) => readItemsFor spaced limit (inner.push item) outer rest
      | none =>
        let (opened, rest) ← readOpening spaced c
        readItemsFor spaced limit opened (inner :: outer) rest
    | ']' :: _ =>
      let rest := c.next
      let span := rest.since inner.opening.first
      match outer with
      | [] => return (.bracket span inner.negated inner.set, rest)
      | next :: outer =>
        let closed := SetTree.bracket span inner.negated inner.set
        readItemsFor spaced limit (next.push closed) outer rest
    | '&' :: '&' :: _ =>
      let rest := c.next.next
      readItemsFor spaced limit (inner.operate .intersection rest) outer rest
    | '-' :: '-' :: _ =>
      let rest := c.next.next
      readItemsFor spaced limit (inner.operate .difference rest) outer rest
    | '~' :: '~' :: _ =>
      let rest := c.next.next
      readItemsFor spaced limit (inner.operate .symmetricDifference rest) outer rest
    | _ =>
      let (item, rest) ← readItem spaced inner.opening c
      readItemsFor spaced limit (inner.push item) outer rest

/-- Reads a set in brackets, at its opening bracket. Every item has a character, so
    there are no more items than characters. -/
def readBracket (spaced : Bool) (c : Cursor) : Except Flaw (Tree × Cursor) := do
  let (opened, rest) ← readOpening spaced c
  readItemsFor spaced (rest.rest.length + 1) opened [] rest

end Pattern

end WordMachine
