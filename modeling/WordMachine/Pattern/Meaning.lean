import WordMachine.Pattern.Expression

/-!
# Meaning of Written Patterns

From a written pattern to a regular expression.

What a part means depends on the switches in force where it stands. A setting holds
from its place to the end of the group it is in, through all alternatives that
follow. Where the characters are those of Unicode, nothing is known of their cases,
classes and properties, so a pattern that asks for these is refused. Where they are
those of ASCII, a pattern that asks for a byte outside of ASCII is refused, since it
might stop in the middle of a character.

## Main definitions

* `Pattern.Switches`: The positions of all switches.
* `Pattern.Gathered`: A set in brackets that is being put together.
* `Pattern.SetTree.gather`: Puts a set in brackets together.
* `Pattern.Tree.meaning`: The expression of a written pattern.
-/

namespace WordMachine

namespace Pattern

/-- The positions of the switches that matter for the meaning of a pattern. -/
structure Switches where
  caseless : Bool := false
  multiline : Bool := false
  dotAll : Bool := false
  swapped : Bool := false
  unicode : Bool := true
  crlf : Bool := false
  deriving DecidableEq, Repr

namespace Switches

/-- Puts one switch in a position. -/
def put (s : Switches) (switch : Switch) (position : Bool) : Switches :=
  match switch with
  | .caseless => { s with caseless := position }
  | .multiline => { s with multiline := position }
  | .dotAll => { s with dotAll := position }
  | .swapped => { s with swapped := position }
  | .unicode => { s with unicode := position }
  | .crlf => { s with crlf := position }
  | .spaced => s

/-- Puts switches in their positions. -/
def putAll (s : Switches) (setting : Setting) : Switches :=
  setting.foldl (fun s (switch, position) => s.put switch position) s

/-- The largest number of a character. -/
def top (s : Switches) : Nat := if s.unicode then CharSet.maxChar else CharSet.maxByte

end Switches

/-! ### Single parts -/

/-- The name of a property as it is compared: in small letters, without blanks, hyphens,
    underscores and a leading `is`. -/
def Property.plainName (name : Text) : Text :=
  let name := if (name.take 2).map Char.toLower = ['i', 's'] then name.drop 2 else name
  (name.filter fun c => c.toNat < 128 && c != ' ' && c != '_' && c != '-').map Char.toLower

/-- Why a property is refused. Nothing is known of any, but three names are taken for
    values and not for properties. -/
def Property.flaw (s : Switches) : Property → FlawKind
  | .named name =>
    if !s.unicode then .unicodeForbidden
    else if (plainName name).str ∈ ["cf", "sc", "lc"] then .propertyValueUnknown
    else .propertyUnknown
  | .valued _ _ => if s.unicode then .propertyUnknown else .unicodeForbidden

/-- The set of a class that a letter after a backslash names. -/
def Shorthand.set (s : Switches) (span : Span) (kind : Shorthand) (negated : Bool) :
    Except Flaw CharSet :=
  if s.unicode then refuse .shorthandUnavailable span
  else if negated then refuse .notUtf8 span
  else .ok (.ofShorthand kind)

/-- The character that a literal stands for. -/
def Literal.scalar (s : Switches) (l : Literal) : Except Flaw Char :=
  if !s.unicode && l.isByte && l.char.toNat > 127 then refuse .notUtf8 l.span else .ok l.char

/-- The expression of a literal. -/
def Literal.meaning (s : Switches) (l : Literal) : Except Flaw Expression := do
  let c ← l.scalar s
  if !s.caseless then return .literal [c]
  if s.unicode then refuse .caseUnavailable l.span
  if c.isAlpha then return .ofSet (CharSet.fold ⟨[(c.toNat, c.toNat)]⟩)
  return .literal [c]

/-- The condition that an assertion makes. -/
def Assertion.look (s : Switches) : Assertion → Look
  | .lineStart =>
    if !s.multiline then .textStart else if s.crlf then .crlfStart else .lineStart
  | .lineEnd => if !s.multiline then .textEnd else if s.crlf then .crlfEnd else .lineEnd
  | .textStart => .textStart
  | .textEnd => .textEnd
  | .edge => .word .edge s.unicode
  | .inner => .word .inner s.unicode
  | .wordStart => .word .start s.unicode
  | .wordEnd => .word .stop s.unicode
  | .wordStartHalf => .word .startHalf s.unicode
  | .wordEndHalf => .word .stopHalf s.unicode

/-- The expression of an atom. -/
def Atom.meaning (s : Switches) : Atom → Except Flaw Expression
  | .literal l => l.meaning s
  | .shorthand span kind negated => (kind.set s span negated).map .ofSet
  | .property span asked _ => refuse (asked.flaw s) span
  | .assertion _ kind => .ok (.look (kind.look s))

/-- The expression of a dot. -/
def dotMeaning (s : Switches) (span : Span) : Except Flaw Expression :=
  if !s.unicode then refuse .notUtf8 span
  else if s.dotAll then .ok (.oneOf ⟨[(0, CharSet.maxChar)]⟩)
  else if s.crlf then .ok (.oneOf ⟨[(0, 9), (11, 12), (14, CharSet.maxChar)]⟩)
  else .ok (.oneOf ⟨[(0, 9), (11, CharSet.maxChar)]⟩)

/-! ### Sets in brackets -/

/-- A set in brackets that is being put together. -/
structure Gathered where
  set : CharSet := .empty
  /-- Whether the set holds the other case of all its letters. It does while no
      character was named. -/
  folded : Bool := true

namespace Gathered

/-- Adds a range of characters. -/
def insert (g : Gathered) (first last : Nat) : Gathered := ⟨g.set.insert first last, false⟩

/-- Adds what another holds. -/
def union (g h : Gathered) : Gathered :=
  if h.set.ranges.isEmpty || g.set == h.set then g
  else ⟨g.set.union h.set, g.folded && h.folded⟩

/-- Keeps what another holds too. -/
def intersection (g h : Gathered) : Gathered :=
  if g.set.ranges.isEmpty then g
  else if h.set.ranges.isEmpty then {}
  else ⟨g.set.intersection h.set, g.folded && h.folded⟩

/-- Takes away what another holds. -/
def difference (g h : Gathered) : Gathered :=
  if g.set.ranges.isEmpty || h.set.ranges.isEmpty then g
  else ⟨g.set.difference h.set, g.folded && h.folded⟩

/-- Combines two as an operator says. -/
def combine (operator : SetOperator) (g h : Gathered) : Gathered :=
  match operator with
  | .intersection => g.intersection h
  | .difference => g.difference h
  | .symmetricDifference => (g.union h).difference (g.intersection h)

/-- All characters up to the number `top` that are not held. -/
def complement (top : Nat) (g : Gathered) : Gathered :=
  ⟨g.set.complement top, g.folded || g.set.ranges.isEmpty⟩

/-- Adds the other case of all letters if case does not matter. The set comes from
    `span`. -/
def fold (s : Switches) (span : Span) (g : Gathered) : Except Flaw Gathered :=
  if !s.caseless || g.folded || g.set.ranges.isEmpty then .ok g
  else if s.unicode then refuse .caseUnavailable span
  else .ok ⟨g.set.fold, true⟩

/-- Ends a set that comes from `span`. -/
def close (s : Switches) (span : Span) (negated : Bool) (g : Gathered) :
    Except Flaw Gathered := do
  let g ← g.fold s span
  let g := if negated then g.complement s.top else g
  if !s.unicode && !g.set.isAscii then refuse .notUtf8 span
  return g

end Gathered

/-- The number of a character in brackets. -/
def Literal.number (s : Switches) (l : Literal) : Except Flaw Nat := do
  let c ← l.scalar s
  if !s.unicode && c.toNat > 127 then refuse .unicodeForbidden l.span
  return c.toNat

mutual

/-- Adds a set in brackets to one that is being put together. -/
def SetTree.gather (s : Switches) : SetTree → Gathered → Except Flaw Gathered
  | .empty _, g => .ok g
  | .literal l, g => do
    let n ← l.number s
    return g.insert n n
  | .range _ first last, g => do return g.insert (← first.number s) (← last.number s)
  | .named span name negated, g => do
    return g.union (← (Gathered.mk (.ofName name) false).close s span negated)
  | .shorthand span kind negated, g => do
    return g.union ⟨← kind.set s span negated, false⟩
  | .property span asked _, _ => refuse (asked.flaw s) span
  | .bracket span negated set, g => do
    return g.union (← (← set.gather s {}).close s span negated)
  | .union _ items, g => SetTree.gatherAll s items g
  | .combine _ operator left right, g => do
    let l ← left.gather s {}
    let r ← right.gather s {}
    let r ← r.fold s right.span
    let l ← l.fold s left.span
    return g.union (l.combine operator r)

/-- Adds some sets in brackets to one that is being put together. -/
def SetTree.gatherAll (s : Switches) : List SetTree → Gathered → Except Flaw Gathered
  | [], g => .ok g
  | item :: rest, g => do SetTree.gatherAll s rest (← item.gather s g)

end

/-! ### Whole patterns -/

mutual

/-- The expression of a written pattern, and the switches behind it. -/
def Tree.meaning (s : Switches) : Tree → Except Flaw (Expression × Switches)
  | .empty _ => .ok (.empty, s)
  | .setting _ changes => .ok (.empty, s.putAll changes)
  | .dot span => do return (← dotMeaning s span, s)
  | .atom a => do return (← a.meaning s, s)
  | .bracket span negated set => do
    let g ← (← set.gather s {}).close s span negated
    return (.ofSet g.set, s)
  | .repetition _ least most greedy body => do
    let (e, s) ← body.meaning s
    return (.times least most (greedy != s.swapped) e, s)
  | .group _ (.capture index) body => do
    let (e, _) ← body.meaning s
    return (.capture index e, s)
  | .group _ (.plain changes) body => do
    let (e, _) ← body.meaning (s.putAll changes)
    return (e, s)
  | .concat _ parts => do
    let (es, s) ← Tree.meaningAll s [] parts
    return (.ofParts es, s)
  | .alternation _ branches => do
    let (es, s) ← Tree.meaningAll s [] branches
    return (.ofBranches es, s)

/-- The expressions of written patterns, one after another, behind those in `done`,
    of which the last is first. -/
def Tree.meaningAll (s : Switches) (done : List Expression) :
    List Tree → Except Flaw (List Expression × Switches)
  | [] => .ok (done.reverse, s)
  | tree :: rest => do
    let (e, s) ← tree.meaning s
    Tree.meaningAll s (e :: done) rest

end

end Pattern

end WordMachine
