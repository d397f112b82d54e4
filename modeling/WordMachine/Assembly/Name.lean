import WordMachine.Text.Basic

/-!
# Names

The names of labels and data.

A name starts with an ASCII letter, goes on with ASCII letters, digits, `_` and
`-`, and is at most thirty-two bytes long in UTF-8. The length is checked before
the characters, so a name that is both too long and badly formed is reported as
too long.

## Main definitions

* `Name.check`: Why a text is not a name.
* `Name.Refusal`: The ways a text can fail to be a name.
-/

namespace WordMachine

namespace Name

/-- Why a text is not a name. -/
inductive Refusal
  | empty
  | tooLong (name : Text)
  /-- The first character is not a letter. -/
  | badStart (char : Char)
  /-- A later character is not allowed in names. -/
  | badCharacter (char : Char)
  deriving DecidableEq, Repr

/-- The wording of a refusal. -/
def Refusal.message : Refusal → String
  | .empty => "name cannot be empty"
  | .tooLong name => s!"name too long (max 32 characters): {name.str}"
  | .badStart char => s!"name must start with a letter, not '{char}'"
  | .badCharacter char =>
    s!"name contains invalid character '{char}' (only letters, digits, '_' and '-' allowed)"

/-- The largest length of a name in bytes. -/
def maxBytes : Nat := 32

/-- The length of a text in UTF-8. -/
def byteLength (t : Text) : Nat := t.foldr (fun c length => c.utf8Size + length) 0

/-- Whether a character can stand in a name after the first place. -/
def isNameChar (c : Char) : Bool := c.isAlphanum || c == '_' || c == '-'

/-- Accepts names, and says why any other text is none. -/
def check (name : Text) : Except Refusal Unit :=
  match name with
  | [] => .error .empty
  | first :: rest =>
    if byteLength name > maxBytes then .error (.tooLong name)
    else if !first.isAlpha then .error (.badStart first)
    else match rest.find? (!isNameChar ·) with
      | some c => .error (.badCharacter c)
      | none => .ok ()

end Name

end WordMachine
