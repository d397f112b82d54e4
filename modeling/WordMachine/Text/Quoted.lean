import WordMachine.Text.Hidden

/-!
# Quoted Text

File names as messages show them.

A name stands between double quotes. The double quote and the backslash are
escaped by a backslash, so are the control characters that have a letter of their
own, and the other hidden characters are given by their number.

## Main definitions

* `Quoted.encodeChar`: A character inside quotes.
* `Quoted.encode`: A text in quotes.
-/

namespace WordMachine

namespace Quoted

/-- A character inside quotes. -/
def encodeChar (c : Char) : Text :=
  match c with
  | '"' => ['\\', '"']
  | '\\' => ['\\', '\\']
  | '\n' => ['\\', 'n']
  | '\r' => ['\\', 'r']
  | '\t' => ['\\', 't']
  | c =>
    if c.toNat = 0 then ['\\', '0']
    else if Text.isHidden c then
      "\\u\x7b".toList ++ Nat.toDigits 16 c.toNat ++ "\x7d".toList
    else [c]

/-- A text in quotes. -/
def encode (t : Text) : Text := '"' :: t.flatMap encodeChar ++ ['"']

end Quoted

end WordMachine
