import WordMachine.Pattern.Expression

/-!
# Size of Expressions

How much memory it takes to get an expression ready for matching.

An expression is turned into a network of states, and one that takes too much memory
is refused. The network reads bytes: a state takes one byte, or chooses between other
states, or marks a place. Each state has a size, and so has each range of bytes that a
choice of bytes has and each link that a fork has. A fork at the end of a part gets a
link to what follows the part.

The network is built twice. Forward it marks the ends of groups, and backward it does
not. A set of characters beyond ASCII takes several states, one behind another for the
bytes of a character. Forward, states from which the same bytes follow are shared, and
backward those before which the same bytes stand.

## Main definitions

* `Pattern.Utf8.sequences`: The byte sequences of a range of characters.
* `Pattern.Cost`: What a part of a network takes.
* `Pattern.Expression.cost`: What an expression takes.
* `Pattern.Expression.networkSize`: The memory that an expression takes in one direction.
-/

namespace WordMachine

namespace Pattern

/-! ### Characters as bytes -/

namespace Utf8

/-- Byte sequences of one length: a range for each byte. -/
abbrev Sequence := List (UInt8 × UInt8)

/-- The ranges of characters whose encodings have one length. Behind each length, no
    number is passed over but those of no character. -/
def bands : List (Nat × Nat) :=
  [(0, 0x7F), (0x80, 0x7FF), (0x800, 0xD7FF), (0xE000, 0xFFFF), (0x10000, 0x10FFFF)]

/-- The numbers of characters that share all but their last byte, or their last two or
    three. -/
def blocks : List Nat := [0x40, 0x1000, 0x40000]

/-- Cuts a range of numbers so that in each piece every byte has a range that does not
    depend on the others. A piece is in one block, or begins and ends with whole
    blocks. -/
def cut : List Nat → Nat → Nat → List (Nat × Nat)
  | [], first, last => [(first, last)]
  | size :: sizes, first, last =>
    if first / size = last / size then [(first, last)]
    else
      let low := (first + size - 1) / size * size
      let high := (last + 1) / size * size
      (if first < low then [(first, low - 1)] else [])
        ++ (if low < high then cut sizes low (high - 1) else [])
        ++ (if high ≤ last then [(high, last)] else [])

/-- The byte sequences of a range of characters. An ASCII character is one byte, so a
    range of these is one sequence. -/
def sequences (first last : Nat) : List Sequence :=
  bands.flatMap fun (low, high) =>
    let first := max first low
    let last := min last high
    if last < first then []
    else (cut (if last < 128 then [] else blocks) first last).map fun (first, last) =>
      (String.utf8EncodeChar (Char.ofNat first)).zip (String.utf8EncodeChar (Char.ofNat last))

/-- A state that chooses by a byte: for each range of bytes the state that follows. -/
abbrev Choice := List ((UInt8 × UInt8) × Nat)

/-- Adds the states for byte sequences of at most a length to other states, without
    adding one that is there. Gives the state that the sequences start in. State zero is
    behind all sequences. -/
def share : Nat → List Sequence → List Choice → Nat × List Choice
  | 0, _, states => (0, states)
  | length + 1, sequences, states =>
    if sequences.all List.isEmpty then (0, states)
    else
      let groups := sequences.splitBy fun s t => s.head? == t.head?
      let (choice, states) := groups.foldl
        (fun (choice, states) group =>
          let (next, states) := share length (group.map List.tail) states
          (choice ++ (group.filterMap List.head?).head?.toList.map (·, next), states))
        (([] : Choice), states)
      match states.idxOf? choice with
      | some i => (i + 1, states)
      | none => (states.length + 1, states ++ [choice])

end Utf8

/-! ### Costs -/

/-- The memory that a state takes. -/
def stateSize : Nat := 32

/-- The memory that a range of bytes takes in a choice. -/
def rangeSize : Nat := 8

/-- The memory that a link takes in a fork. -/
def linkSize : Nat := 4

/-- What a part of a network takes. -/
structure Cost where
  size : Nat
  /-- Whether the part ends with a fork. -/
  forked : Bool := false
  deriving DecidableEq, Repr

namespace Cost

/-- What it takes to link a part with what follows. -/
def link (c : Cost) : Nat := if c.forked then linkSize else 0

/-- What a part takes with the link behind it. -/
def linked (c : Cost) : Nat := c.size + c.link

/-- What some parts take, one after another. -/
def row : List Cost → Cost
  | [] => ⟨stateSize, false⟩
  | [c] => c
  | c :: rest =>
    let others := row rest
    ⟨c.linked + others.size, others.forked⟩

/-- What one of some parts takes. -/
def choice (parts : List Cost) : Cost :=
  ⟨2 * stateSize + parts.foldl (fun sum c => sum + linkSize + c.linked) 0, false⟩

/-- What a number of copies of a part takes, one after another. -/
def copies (count : Nat) (c : Cost) : Cost :=
  if count = 0 then row [] else ⟨count * c.size + (count - 1) * c.link, c.forked⟩

/-- What a repetition takes. `filled` says that no match of its body is empty. -/
def times (least : Nat) (most : Option Nat) (filled : Bool) (c : Cost) : Cost :=
  match least, most with
  | 0, none =>
    if filled then ⟨stateSize + linkSize + c.linked, true⟩
    else ⟨3 * stateSize + 4 * linkSize + c.linked, false⟩
  | least + 1, none => ⟨(least + 1) * c.linked + stateSize + linkSize, true⟩
  | least, some most =>
    if least = most then c.copies least
    else if least = 0 && most = 1 then ⟨2 * stateSize + 2 * linkSize + c.linked, false⟩
    else
      ⟨(c.copies least).size + (if least = 0 then 0 else c.link) + stateSize
        + (most - least) * (stateSize + 2 * linkSize + c.linked), false⟩

/-- What a set takes. -/
def ofSet (backward : Bool) (set : CharSet) : Cost :=
  if set.isAscii then ⟨2 * stateSize + set.ranges.length * rangeSize, false⟩
  else
    let sequences := set.ranges.flatMap fun (first, last) => Utf8.sequences first last
    if backward then
      let starts :=
        (sequences.flatMap fun s => (List.range s.length).map fun i => s.take (i + 1)).eraseDups
      ⟨(2 + starts.length) * stateSize + sequences.length * linkSize, false⟩
    else
      let (_, states) := Utf8.share 4 sequences []
      ⟨stateSize + states.foldl (fun sum s => sum + stateSize + s.length * rangeSize) 0, false⟩

/-! ### Alternatives that are characters -/

/-- Alternatives with the same first byte, by that byte. -/
def byFirst (words : List (List UInt8)) : List (List (List UInt8)) :=
  let firsts := (words.filterMap List.head?).eraseDups
  firsts.map fun b => (words.filter (·.head? == some b)).map List.tail

/-- Alternatives cut where one of them is empty. -/
def stages : List (List UInt8) → List (List (List UInt8))
  | [] => [[]]
  | [] :: rest => [] :: stages rest
  | word :: rest =>
    match stages rest with
    | [] => [[word]]
    | stage :: others => (word :: stage) :: others

/-- The stages of alternatives, of which several empty ones at the start count once. -/
def stagesOf (words : List (List UInt8)) : List (List (List UInt8)) :=
  let leading := words.takeWhile List.isEmpty
  stages (leading.take 1 ++ words.dropWhile List.isEmpty)

/-- What alternatives of at most a length take behind the bytes they share. Where an
    alternative ends, those that come after it are kept apart from those before. -/
def trie : Nat → List (List UInt8) → Nat
  | 0, _ => 0
  | length + 1, words =>
    if words.all List.isEmpty then 0
    else
      let all := stagesOf words
      let filled := (all.filter (!·.isEmpty)).map byFirst
      let links := filled.length + (all.length - 1)
      let sizes := filled.map fun groups =>
        stateSize + (if groups.length = 1 then 0 else groups.length * rangeSize)
          + groups.foldl (fun sum group => sum + trie length group) 0
      stateSize + links * linkSize + sizes.foldl (· + ·) 0

/-- What alternatives that are characters take. -/
def ofWords (words : List (List UInt8)) : Cost :=
  ⟨stateSize + trie (words.foldl (fun n word => max n word.length) 0 + 1) words, false⟩

end Cost

namespace Expression

/-- The bytes of some characters, the last first if `backward` holds. -/
def bytesOf (backward : Bool) (chars : List Char) : List UInt8 :=
  let bytes := chars.flatMap String.utf8EncodeChar
  if backward then bytes.reverse else bytes

/-- The bytes of alternatives, if all are characters. -/
def words? (backward : Bool) (branches : List Expression) : Option (List (List UInt8)) :=
  branches.mapM fun
    | .literal chars => some (bytesOf backward chars)
    | _ => none

mutual

/-- What an expression takes. -/
def cost (backward : Bool) : Expression → Cost
  | .empty | .look _ => ⟨stateSize, false⟩
  | .literal chars => ⟨(bytesOf backward chars).length * stateSize, false⟩
  | .oneOf set => .ofSet backward set
  | .repetition least most _ body =>
    (body.cost backward).times least most (body.minLength.any (· > 0))
  | .capture _ body =>
    let c := body.cost backward
    if backward then c else ⟨2 * stateSize + c.linked, false⟩
  | .concat parts =>
    let costs := costsOf backward parts
    .row (if backward then costs.reverse else costs)
  | .alternation branches =>
    match words? backward branches with
    | some words => .ofWords words
    | none => .choice (costsOf backward branches)

/-- What each of some expressions takes. -/
def costsOf (backward : Bool) : List Expression → List Cost
  | [] => []
  | e :: rest => e.cost backward :: costsOf backward rest

end

/-- The memory that may be taken. -/
def maxSize : Nat := 10485760

/-- The memory that an expression takes in one direction. Unless every match is at the
    edge of the text, the network also reads what comes before a match. -/
def networkSize (backward : Bool) (e : Expression) : Nat :=
  let c := e.cost backward
  let isTied := e.demands backward (if backward then .textEnd else .textStart)
  let lead := if isTied then stateSize else 3 * stateSize + rangeSize + 2 * linkSize
  let marks := if backward then 0 else 2 * stateSize
  lead + marks + c.linked + stateSize

end Expression

end Pattern

end WordMachine
