import WordMachine.Pattern.Expression

/-!
# Matching

Where a text holds a match of an expression.

An expression moves places of a text: from the places where a match can start to
those where it can end. Sets of places are numbers with a bit for each place, so an
expression moves all places at once, and a text holds a match if some place is left
when all places are moved. What depends on the text alone is computed before any
place is moved, since a repetition moves many times.

No repetition needs more rounds than there are places. Rounds that only add places
add at least one each. Of an exact number of rounds, all but as many as there are
places must stay where they are, and the set does not change with their number.

## Main definitions

* `Pattern.Places`: A set of places of a text.
* `Pattern.Move`: A way to move places.
* `Pattern.Expression.move`: How an expression moves places.
* `Pattern.Expression.occursIn`: Whether a text holds a match.
-/

namespace WordMachine

namespace Pattern

/-- A set of places of a text: a number whose bit for each place in the set is set.
    Place zero is before the first character. -/
abbrev Places := Nat

namespace Places

/-- The set of places where a list says so. -/
def ofBools (places : List Bool) : Places :=
  places.foldr (fun holds places => 2 * places + holds.toNat) 0

/-- All places of a text. -/
def all (text : Text) : Places := ofBools (List.replicate (text.length + 1) true)

/-- The places before a character of a kind. -/
def before (text : Text) (kind : Char → Bool) : Places := ofBools (text.map kind)

/-- The places before some characters, one after another. -/
def beforeAll (text : Text) (chars : List Char) : Places :=
  chars.foldr (fun c places => before text (· == c) &&& (places >>> 1)) (all text)

/-- The places of one set that are not in another. -/
def without (s t : Places) : Places := s ^^^ (s &&& t)

end Places

namespace Look

/-- Whether a character is a word character. -/
def isWordChar (c : Char) : Bool := c.isAlphanum || c == '_'

/-- Whether a condition holds between two characters, of which there may be none. -/
def holds (l : Look) (before behind : Option Char) : Bool :=
  let isWord (c : Option Char) : Bool := c.any isWordChar
  match l with
  | .textStart => before.isNone
  | .textEnd => behind.isNone
  | .lineStart => before.all (· == '\n')
  | .lineEnd => behind.all (· == '\n')
  | .crlfStart =>
    before.all (· == '\n') || (before == some '\r' && behind != some '\n')
  | .crlfEnd => behind.all (· == '\r') || (behind == some '\n' && before != some '\r')
  | .word .edge _ => isWord before != isWord behind
  | .word .inner _ => isWord before == isWord behind
  | .word .start _ => !isWord before && isWord behind
  | .word .stop _ => isWord before && !isWord behind
  | .word .startHalf _ => !isWord before
  | .word .stopHalf _ => !isWord behind

/-- The places of a text where a condition holds. -/
def places (l : Look) (text : Text) : Places :=
  let chars := text.map some
  Places.ofBools ((none :: chars).zipWith l.holds (chars ++ [none]))

end Look

/-- A way to move places. -/
structure Move where
  apply : Places → Places

namespace Move

/-- Stays where a set of places allows it. -/
def stay (allowed : Places) : Move := ⟨fun s => s &&& allowed⟩

/-- Goes a number of characters on where a set of places allows it. -/
def go (allowed : Places) (distance : Nat) : Move := ⟨fun s => (s &&& allowed) <<< distance⟩

/-- Moves twice. -/
def andThen (m n : Move) : Move where
  apply s :=
    let t := m.apply s
    if t = 0 then 0 else n.apply t

/-- Moves in either of two ways. -/
def orElse (m n : Move) : Move := ⟨fun s => m.apply s ||| n.apply s⟩

/-- Moves an exact number of times. When a round changes nothing, no other does. -/
def rounds (m : Move) : Nat → Places → Places
  | 0, s => s
  | count + 1, s =>
    let t := m.apply s
    if t = s then s else m.rounds count t

/-- Moves up to a number of times. Of the places that are reached, only the latest
    have not been moved. -/
def spread (m : Move) : Nat → Places → Places → Places
  | 0, _, reached => reached
  | count + 1, latest, reached =>
    let fresh := (m.apply latest).without reached
    if fresh = 0 then reached else m.spread count fresh (reached ||| fresh)

/-- Moves at least `least` times, and at most `most` times if that is given, where
    there are at most `limit` places. -/
def times (limit least : Nat) (most : Option Nat) (m : Move) : Move where
  apply s :=
    let t := m.rounds (min least limit) s
    let more := (most.map (· - least)).getD limit
    m.spread (min more limit) t t

end Move

namespace Expression

mutual

/-- How an expression moves places of a text. -/
def move (text : Text) : Expression → Move
  | .empty => .stay (Places.all text)
  | .literal chars => .go (Places.beforeAll text chars) chars.length
  | .oneOf set => .go (Places.before text set.contains) 1
  | .look l => .stay (l.places text)
  | .repetition least most _ body => (body.move text).times (text.length + 1) least most
  | .capture _ body => body.move text
  | .concat parts => moveAll text parts
  | .alternation branches => moveAny text branches

/-- How some expressions move places, one after another. -/
def moveAll (text : Text) : List Expression → Move
  | [] => .stay (Places.all text)
  | e :: rest => (e.move text).andThen (moveAll text rest)

/-- How one of some expressions moves places. -/
def moveAny (text : Text) : List Expression → Move
  | [] => .stay 0
  | e :: rest => (e.move text).orElse (moveAny text rest)

end

/-- Whether a text holds a match. -/
def occursIn (e : Expression) (text : Text) : Bool :=
  (e.move text).apply (Places.all text) != 0

end Expression

end Pattern

end WordMachine
