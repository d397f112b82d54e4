import WordMachine.Pattern.Match
import WordMachine.Pattern.Meaning
import WordMachine.Pattern.Reader
import WordMachine.Pattern.Size

/-!
# Patterns

Texts that select other texts.

A pattern is written as a regular expression. Reading it, giving it a meaning and
getting it ready for matching can each fail, in this order, and the first failure is
the one that is told.

## Main definitions

* `Pattern`: What a text is searched for.
* `Pattern.parse`: The pattern that a text denotes.
* `Pattern.occursIn`: Whether a text holds a match.
* `Pattern.Refusal`: Why a text denotes no pattern.
-/

namespace WordMachine

/-- What a text is searched for. -/
structure Pattern where
  expression : Pattern.Expression

namespace Pattern

/-- Why a text denotes no pattern. -/
inductive Refusal
  /-- Something is wrong with the text. -/
  | flaw (flaw : Flaw)
  /-- Getting the pattern ready takes too much memory. -/
  | tooLarge
  /-- The pattern asks for the word characters of Unicode, of which nothing is known. -/
  | words
  deriving DecidableEq, Repr

/-- The wording of a refusal of a text. -/
def Refusal.message (text : Text) : Refusal → String
  | .flaw f => f.message text
  | .tooLarge => s!"Compiled regex exceeds size limit of {Expression.maxSize} bytes."
  | .words => "error building NFA"

/-- The pattern that a text denotes, or why it denotes none. -/
def parse (text : Text) : Except Refusal Pattern := do
  let tree ← (Tree.parse text).mapError .flaw
  let (e, _) ← (tree.meaning {}).mapError .flaw
  if e.networkSize false > Expression.maxSize then .error .tooLarge
  else if e.usesWords then .error .words
  else if e.networkSize true > Expression.maxSize then .error .tooLarge
  else return ⟨e⟩

/-- Whether a text holds a match. -/
def occursIn (p : Pattern) (text : String) : Bool := p.expression.occursIn text.toList

end Pattern

end WordMachine
