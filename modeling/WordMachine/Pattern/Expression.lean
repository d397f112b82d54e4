import WordMachine.Pattern.CharSet

/-!
# Regular Expressions

What a pattern means, without how it is written.

The functions that put expressions together keep them in a simple form: parts in a
row are not nested and their characters are joined, alternatives are not nested,
alternatives that are single characters are a set, and what all alternatives begin
with is taken out of them. The form does not change what is matched, but it decides
how large an expression is.

## Main definitions

* `Pattern.Look`: A condition on a place.
* `Pattern.Expression`: A regular expression.
* `Pattern.Expression.minLength`, `Pattern.Expression.maxLength`: How long matches are.
* `Pattern.Expression.ofSet`, `Pattern.Expression.ofParts`, `Pattern.Expression.ofBranches`,
  `Pattern.Expression.times`: Putting expressions together.
-/

namespace WordMachine

namespace Pattern

/-- A condition on the characters before and behind a place, which are word
    characters or not. -/
inductive WordLook
  /-- One of the two is a word character. -/
  | edge
  /-- Both are or none is. -/
  | inner
  /-- Only the one behind is. -/
  | start
  /-- Only the one before is. -/
  | stop
  /-- The one before is none. -/
  | startHalf
  /-- The one behind is none. -/
  | stopHalf
  deriving DecidableEq, Repr

/-- A condition on a place. -/
inductive Look
  | textStart
  | textEnd
  | lineStart
  | lineEnd
  /-- The start of a line, where a carriage return ends lines too. -/
  | crlfStart
  /-- The end of a line, where a carriage return ends lines too. -/
  | crlfEnd
  /-- A condition on words. Their characters are those of Unicode if `unicode` holds
      and else those of ASCII. -/
  | word (kind : WordLook) (unicode : Bool)
  deriving DecidableEq, Repr

/-- A regular expression. -/
inductive Expression
  | empty
  /-- Some characters, one after another. -/
  | literal (chars : List Char)
  /-- One character of a set. -/
  | oneOf (set : CharSet)
  /-- The empty text, where a condition holds. -/
  | look (look : Look)
  /-- An expression some number of times. -/
  | repetition (least : Nat) (most : Option Nat) (greedy : Bool) (body : Expression)
  /-- An expression whose match has a number. -/
  | capture (index : Nat) (body : Expression)
  | concat (parts : List Expression)
  | alternation (branches : List Expression)

namespace Expression

/-! ### Comparing -/

mutual

/-- Whether two expressions are the same. -/
def same : Expression → Expression → Bool
  | .empty, .empty => true
  | .literal chars, .literal chars' => chars == chars'
  | .oneOf set, .oneOf set' => set == set'
  | .look l, .look l' => l == l'
  | .repetition least most greedy body, .repetition least' most' greedy' body' =>
    least == least' && most == most' && greedy == greedy' && same body body'
  | .capture index body, .capture index' body' => index == index' && same body body'
  | .concat parts, .concat parts' => sameAll parts parts'
  | .alternation branches, .alternation branches' => sameAll branches branches'
  | _, _ => false

/-- Whether the expressions of two lists are the same. -/
def sameAll : List Expression → List Expression → Bool
  | [], [] => true
  | e :: rest, e' :: rest' => same e e' && sameAll rest rest'
  | _, _ => false

end

/-! ### Lengths -/

/-- The sum of lengths, if all of them are known. -/
def totalLength : List (Option Nat) → Option Nat
  | [] => some 0
  | length :: rest => length.bind fun n => (totalLength rest).map (n + ·)

/-- The length that `choose` takes from some lengths, if all of them are known. -/
def chosenLength (choose : Nat → Nat → Nat) : List (Option Nat) → Option Nat
  | [] => none
  | [length] => length
  | length :: rest => length.bind fun n => (chosenLength choose rest).map (choose n)

mutual

/-- The length of the shortest match. An expression with an empty set in it has none. -/
def minLength : Expression → Option Nat
  | .empty | .look _ => some 0
  | .literal chars => some chars.length
  | .oneOf set => if set.ranges.isEmpty then none else some 1
  | .repetition least _ _ body => body.minLength.map (least * ·)
  | .capture _ body => body.minLength
  | .concat parts => totalLength (minLengths parts)
  | .alternation branches => chosenLength min (minLengths branches)

/-- The lengths of the shortest matches of some expressions. -/
def minLengths : List Expression → List (Option Nat)
  | [] => []
  | e :: rest => e.minLength :: minLengths rest

end

mutual

/-- The length of the longest match. An expression with an empty set in it has none,
    and neither has one whose matches can be of any length. -/
def maxLength : Expression → Option Nat
  | .empty | .look _ => some 0
  | .literal chars => some chars.length
  | .oneOf set => if set.ranges.isEmpty then none else some 1
  | .repetition _ most _ body => most.bind fun n => body.maxLength.map (n * ·)
  | .capture _ body => body.maxLength
  | .concat parts => totalLength (maxLengths parts)
  | .alternation branches => chosenLength max (maxLengths branches)

/-- The lengths of the longest matches of some expressions. -/
def maxLengths : List Expression → List (Option Nat)
  | [] => []
  | e :: rest => e.maxLength :: maxLengths rest

end

/-! ### Conditions -/

/-- Whether one of the first conditions holds, where a condition is followed by others
    only if nothing is matched between them. -/
def anyLeading : List (Bool × Option Nat) → Bool
  | [] => false
  | (holds, length) :: rest => holds || (length == some 0 && anyLeading rest)

mutual

/-- Whether every match has a condition at its start, or at its end if `backward` holds. -/
def demands (backward : Bool) (wanted : Look) : Expression → Bool
  | .look l => l == wanted
  | .repetition least _ _ body => least > 0 && body.demands backward wanted
  | .capture _ body => body.demands backward wanted
  | .concat parts =>
    let demanded := demandsOf backward wanted parts
    anyLeading (if backward then demanded.reverse else demanded)
  | .alternation branches => (demandsOf backward wanted branches).all Prod.fst
  | _ => false

/-- For each of some expressions, whether it demands a condition, and its length. -/
def demandsOf (backward : Bool) (wanted : Look) : List Expression → List (Bool × Option Nat)
  | [] => []
  | e :: rest => (e.demands backward wanted, e.maxLength) :: demandsOf backward wanted rest

end

mutual

/-- Whether an expression asks for the word characters of Unicode. -/
def usesWords : Expression → Bool
  | .look (.word _ unicode) => unicode
  | .repetition _ _ _ body | .capture _ body => body.usesWords
  | .concat parts => anyUsesWords parts
  | .alternation branches => anyUsesWords branches
  | _ => false

/-- Whether one of some expressions asks for the word characters of Unicode. -/
def anyUsesWords : List Expression → Bool
  | [] => false
  | e :: rest => e.usesWords || anyUsesWords rest

end

/-! ### Putting expressions together -/

/-- One character of a set. -/
def ofSet (set : CharSet) : Expression :=
  match set.single? with
  | some c => .literal [c]
  | none => .oneOf set

/-- An expression some number of times. A match of the empty text need not be
    repeated. -/
def times (least : Nat) (most : Option Nat) (greedy : Bool) (body : Expression) : Expression :=
  let (least, most) :=
    if body.maxLength = some 0 then (min least 1, some (min (most.getD 1) 1)) else (least, most)
  if most = some 0 then .empty
  else if least = 1 && most = some 1 then body
  else .repetition least most greedy body

/-- Puts an expression before others, characters joined with characters. -/
def joinLiteral (e : Expression) (rest : List Expression) : List Expression :=
  match e, rest with
  | .literal chars, .literal chars' :: rest => .literal (chars ++ chars') :: rest
  | e, rest => e :: rest

/-- Some expressions, one after another. -/
def ofParts (parts : List Expression) : Expression :=
  let flat := parts.flatMap fun
    | .empty => []
    | .concat parts => parts
    | e => [e]
  match flat.foldr joinLiteral [] with
  | [] => .empty
  | [e] => e
  | parts => .concat parts

/-- The number of expressions that two lists have in common at the start. -/
def commonLength : List Expression → List Expression → Nat
  | e :: rest, e' :: rest' => if same e e' then commonLength rest rest' + 1 else 0
  | _, _ => 0

/-- The characters that are the alternatives, if all are single characters. -/
def singles? (branches : List Expression) : Option (List Char) :=
  branches.mapM fun
    | .literal [c] => some c
    | _ => none

/-- The sets that are the alternatives, if all are sets. -/
def sets? (branches : List Expression) : Option (List CharSet) :=
  branches.mapM fun
    | .oneOf set => some set
    | _ => none

/-- The parts of the alternatives, if all have several. -/
def rows? (branches : List Expression) : Option (List (List Expression)) :=
  branches.mapM fun
    | .concat parts => some parts
    | _ => none

/-- The number of parts that all rows have in common at the start. -/
def commonStart : List (List Expression) → Nat
  | [] => 0
  | first :: others => others.foldl (fun n row => min n (commonLength first row)) first.length

/-- One of some expressions. What they begin with is taken out at most `limit` times. -/
def ofBranchesFor : Nat → List Expression → Expression
  | limit, branches =>
    let flat := branches.flatMap fun
      | .alternation branches => branches
      | e => [e]
    match flat, singles? flat, sets? flat, rows? flat with
    | [], _, _, _ => .oneOf .empty
    | [e], _, _, _ => e
    | _, some chars, _, _ => ofSet (.ofRanges (chars.map fun c => (c.toNat, c.toNat)))
    | _, none, some sets, _ => ofSet (sets.foldl .union .empty)
    | _, none, none, none => .alternation flat
    | _, none, none, some rows =>
      let shared := commonStart rows
      match limit with
      | 0 => .alternation flat
      | limit + 1 =>
        if shared = 0 then .alternation flat
        else
          let others := ofBranchesFor limit (rows.map fun row => ofParts (row.drop shared))
          ofParts ((rows.head?.getD []).take shared ++ [others])

/-- One of some expressions. -/
def ofBranches (branches : List Expression) : Expression := ofBranchesFor maxNesting branches

end Expression

end Pattern

end WordMachine
