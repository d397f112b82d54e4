import WordMachine.Pattern.Tree

/-!
# Sets of Characters

Sets of characters as ranges of their numbers.

The ranges of a set increase, and between two of them there is a gap. So a set has
one form only, and the number of its ranges says how much it takes to write it down.
Numbers that no character has can lie in a range. They make no difference to which
characters are in the set.

## Main definitions

* `Pattern.CharSet`: A set of characters.
* `Pattern.CharSet.union`, `Pattern.CharSet.intersection`, `Pattern.CharSet.difference`,
  `Pattern.CharSet.complement`: Combining sets.
* `Pattern.CharSet.fold`: A set with the other case of its ASCII letters.
* `Pattern.CharSet.ofName`: The class with a name.
-/

namespace WordMachine

namespace Pattern

/-- A set of characters: the first and the last number of each range. -/
structure CharSet where
  ranges : List (Nat × Nat)
  deriving DecidableEq, Repr

open Text (isInRanges)

namespace CharSet

/-- The set without characters. -/
def empty : CharSet := ⟨[]⟩

/-- Whether a character is in a set. -/
def contains (s : CharSet) (c : Char) : Bool := isInRanges c.toNat s.ranges

/-- Adds a range to ranges, joined with those that it touches. -/
def insertRange (r : Nat × Nat) : List (Nat × Nat) → List (Nat × Nat)
  | [] => [r]
  | s :: rest =>
    if r.2 + 1 < s.1 then r :: s :: rest
    else if s.2 + 1 < r.1 then s :: insertRange r rest
    else insertRange (min r.1 s.1, max r.2 s.2) rest

/-- Adds a range. -/
def insert (s : CharSet) (first last : Nat) : CharSet := ⟨insertRange (first, last) s.ranges⟩

/-- The set of some ranges. -/
def ofRanges (ranges : List (Nat × Nat)) : CharSet := ⟨ranges.foldr insertRange []⟩

/-- The characters of two sets. -/
def union (s t : CharSet) : CharSet := ⟨t.ranges.foldr insertRange s.ranges⟩

/-- The characters that two sets share. -/
def intersection (s t : CharSet) : CharSet :=
  ⟨s.ranges.flatMap fun (first, last) => t.ranges.filterMap fun (low, high) =>
    if max first low ≤ min last high then some (max first low, min last high) else none⟩

/-- The number of the character after a given one. -/
def succ (n : Nat) : Nat := if n = 0xD7FF then 0xE000 else n + 1

/-- The number of the character before a given one. -/
def pred (n : Nat) : Nat := if n = 0xE000 then 0xD7FF else n - 1

/-- What a range leaves of ranges. -/
def withoutRange (low high : Nat) (ranges : List (Nat × Nat)) : List (Nat × Nat) :=
  ranges.flatMap fun (first, last) =>
    if high < first || last < low then [(first, last)]
    else (if first < low then [(first, pred low)] else [])
      ++ (if high < last then [(succ high, last)] else [])

/-- The characters of a set that are not in another. -/
def difference (s t : CharSet) : CharSet :=
  ⟨t.ranges.foldl (fun ranges (low, high) => withoutRange low high ranges) s.ranges⟩

/-- The gaps between ranges, and behind the last of them up to the number `top`. The
    gap between two ranges that only the numbers of no character divide is taken to
    be the characters at its ends. -/
def gaps (top : Nat) : List (Nat × Nat) → List (Nat × Nat)
  | [] => []
  | [(_, last)] => if last < top then [(succ last, top)] else []
  | (_, last) :: (first, last') :: rest =>
    let low := succ last
    let high := pred first
    (min low high, max low high) :: gaps top ((first, last') :: rest)

/-- The characters up to the number `top` that are not in a set. -/
def complement (top : Nat) (s : CharSet) : CharSet :=
  match s.ranges with
  | [] => ⟨[(0, top)]⟩
  | (first, last) :: rest =>
    ⟨(if first = 0 then [] else [(0, pred first)]) ++ gaps top ((first, last) :: rest)⟩

/-- The largest number of a character. -/
def maxChar : Nat := 0x10FFFF

/-- The largest number of a byte. -/
def maxByte : Nat := 0xFF

/-- Whether all characters of a set are ASCII characters. -/
def isAscii (s : CharSet) : Bool := s.ranges.all fun (_, last) => last < 128

/-- The only character of a set. -/
def single? (s : CharSet) : Option Char :=
  match s.ranges with
  | [(first, last)] => if first = last then some (Char.ofNat first) else none
  | _ => none

/-- A set with the other case of its ASCII letters. -/
def fold (s : CharSet) : CharSet :=
  let upper := s.intersection ⟨[(65, 90)]⟩
  let lower := s.intersection ⟨[(97, 122)]⟩
  let shifted (t : CharSet) (f : Nat → Nat) : CharSet :=
    ⟨t.ranges.map fun (first, last) => (f first, f last)⟩
  (s.union (shifted upper (· + 32))).union (shifted lower (· - 32))

/-- The class with a name. -/
def ofName : ClassName → CharSet
  | .alnum => ⟨[(48, 57), (65, 90), (97, 122)]⟩
  | .alpha => ⟨[(65, 90), (97, 122)]⟩
  | .ascii => ⟨[(0, 127)]⟩
  | .blank => ⟨[(9, 9), (32, 32)]⟩
  | .cntrl => ⟨[(0, 31), (127, 127)]⟩
  | .digit => ⟨[(48, 57)]⟩
  | .graph => ⟨[(33, 126)]⟩
  | .lower => ⟨[(97, 122)]⟩
  | .print => ⟨[(32, 126)]⟩
  | .punct => ⟨[(33, 47), (58, 64), (91, 96), (123, 126)]⟩
  | .space => ⟨[(9, 13), (32, 32)]⟩
  | .upper => ⟨[(65, 90)]⟩
  | .word => ⟨[(48, 57), (65, 90), (95, 95), (97, 122)]⟩
  | .xdigit => ⟨[(48, 57), (65, 70), (97, 102)]⟩

/-- The class that a letter after a backslash names, among the ASCII characters. -/
def ofShorthand : Shorthand → CharSet
  | .digit => ofName .digit
  | .space => ofName .space
  | .word => ofName .word

end CharSet

end Pattern

end WordMachine
