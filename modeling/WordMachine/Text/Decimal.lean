import WordMachine.Text.Basic
import WordMachine.Word

/-!
# Decimal Numbers

The one notation for numbers in source text, listings and messages.

A number is written without sign and without leading zeros, and read with as
many leading zeros as its writer liked. Only the ASCII digits count as digits.
Reading names what is wrong with a text it refuses, since the assembler quotes
that in its error messages.

## Main definitions

* `Decimal.write`: A number as text.
* `Decimal.read`: The word a text denotes, or why it denotes none.
* `Decimal.Refusal`: The ways a text can fail to be a number.
-/

namespace WordMachine

namespace Decimal

/-- Why a text is not the decimal form of a word. -/
inductive Refusal
  /-- There is nothing to read. -/
  | empty
  /-- Some character is not a digit. -/
  | notDecimal (text : Text)
  /-- The number does not fit in sixteen bits. -/
  | tooLarge (text : Text)
  deriving DecidableEq, Repr

/-- The wording of a refusal. -/
def Refusal.message : Refusal → String
  | .empty => "empty number string"
  | .notDecimal text => s!"'{text.str}' is not a decimal number"
  | .tooLarge text =>
    s!"invalid decimal number '{text.str}': number too large to fit in target type"

/-- A number without leading zeros. -/
def write (n : Nat) : Text := Nat.toDigits 10 n

/-- A word without leading zeros. -/
def writeWord (w : Word) : Text := write w.toNat

/-- The number that a text of digits denotes. -/
def value (digits : Text) : Nat := Nat.ofDigitChars 10 digits 0

/-- The word that a text denotes, blanks around it ignored. -/
def read (text : Text) : Except Refusal Word :=
  let digits := Text.trim text
  if digits.isEmpty then .error .empty
  else if !digits.all Char.isDigit then .error (.notDecimal digits)
  else if value digits < 65536 then .ok (UInt16.ofNat (value digits))
  else .error (.tooLarge digits)

end Decimal

end WordMachine
