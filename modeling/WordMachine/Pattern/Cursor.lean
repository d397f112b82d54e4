import WordMachine.Pattern.Flaw

/-!
# Reading Places

A place in a text that is being read.

Where blanks in a pattern count for nothing, remarks from a sharp sign to the end
of the line count for nothing either. Readers move over both as they move over a
character, so each says where it allows them by how it moves on.

## Main definitions

* `Pattern.Cursor`: A place in a text, and what follows it.
* `Pattern.Cursor.next`, `Pattern.Cursor.skip`, `Pattern.Cursor.advance`: Moving on.
* `Pattern.Cursor.takeWhile`: Moving over characters of a kind.
-/

namespace WordMachine

namespace Pattern

/-- A place in a text, and what follows it. -/
structure Cursor where
  place : Nat
  rest : Text
  deriving DecidableEq, Repr

namespace Cursor

/-- The character at a place. -/
def char? (c : Cursor) : Option Char := c.rest.head?

/-- Whether the text ends at a place. -/
def atEnd (c : Cursor) : Bool := c.rest.isEmpty

/-- The empty stretch at a place. -/
def here (c : Cursor) : Span := ⟨c.place, c.place⟩

/-- The stretch of the character at a place. -/
def one (c : Cursor) : Span := ⟨c.place, c.place + 1⟩

/-- The stretch from an earlier place. -/
def since (first : Nat) (c : Cursor) : Span := ⟨first, c.place⟩

/-- The place behind the character at a place. -/
def next (c : Cursor) : Cursor :=
  match c.rest with
  | [] => c
  | _ :: rest => ⟨c.place + 1, rest⟩

/-- The first place that is neither a blank nor in a remark. -/
def skipFrom (inRemark : Bool) (place : Nat) : Text → Cursor
  | [] => ⟨place, []⟩
  | c :: rest =>
    if inRemark then skipFrom (c != '\n') (place + 1) rest
    else if Text.isBlank c then skipFrom false (place + 1) rest
    else if c = '#' then skipFrom true (place + 1) rest
    else ⟨place, c :: rest⟩

/-- The first place that counts. -/
def skip (spaced : Bool) (c : Cursor) : Cursor :=
  if spaced then skipFrom false c.place c.rest else c

/-- The first place that counts behind the character at a place. -/
def advance (spaced : Bool) (c : Cursor) : Cursor := c.next.skip spaced

/-- The place behind a given beginning, if the text has it here. -/
def after? (beginning : String) (c : Cursor) : Option Cursor :=
  let beginning := beginning.toList
  if beginning.isPrefixOf c.rest then
    some ⟨c.place + beginning.length, c.rest.drop beginning.length⟩
  else none

/-- The first character that is neither a blank nor the first sharp sign. -/
def significant? (inRemark : Bool) : Text → Option Char
  | [] => none
  | c :: rest =>
    if Text.isBlank c then significant? inRemark rest
    else if !inRemark && c = '#' then significant? true rest
    else some c

/-- The character that counts behind the one at a place, looked at without moving.
    The look goes over blanks and over one sharp sign, but not over a remark. -/
def peek? (spaced : Bool) (c : Cursor) : Option Char :=
  let rest := c.rest.tail
  if spaced then (significant? false rest).or rest.head? else rest.head?

/-- Moves over at most a number of characters of a kind, adding them to those that
    were taken before, the last first. -/
def takeFor (spaced : Bool) (kind : Char → Bool) :
    Nat → List (Nat × Char) → Cursor → List (Nat × Char) × Cursor
  | 0, taken, c => (taken, c)
  | limit + 1, taken, c =>
    match c.rest with
    | [] => (taken, c)
    | d :: _ =>
      if kind d then takeFor spaced kind limit ((c.place, d) :: taken) (c.advance spaced)
      else (taken, c)

/-- Moves over the characters of a kind. Gives them with their places. -/
def takeWhile (spaced : Bool) (kind : Char → Bool) (c : Cursor) : List (Nat × Char) × Cursor :=
  let (taken, rest) := takeFor spaced kind c.rest.length [] c
  (taken.reverse, rest)

end Cursor

end Pattern

end WordMachine
