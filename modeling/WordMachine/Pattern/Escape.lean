import WordMachine.Pattern.Cursor
import WordMachine.Pattern.Tree

/-!
# Escape Sequences

What a backslash and the characters behind it stand for.

A backslash takes away the special meaning of a sign. Before a letter it gives one:
a control character, a character by its hexadecimal number, a class of characters,
or a condition on a place. Letters and digits without a meaning are refused.

## Main definitions

* `Pattern.readEscape`: Reads an escape sequence.
-/

namespace WordMachine

namespace Pattern

/-- The value of a hexadecimal digit. -/
def hexValue? (c : Char) : Option Nat :=
  if c.isDigit then some (c.toNat - 48)
  else if 'a' ≤ c && c ≤ 'f' then some (c.toNat - 87)
  else if 'A' ≤ c && c ≤ 'F' then some (c.toNat - 55)
  else none

/-- The character with a given number. -/
def charOf? (n : Nat) : Option Char := if n.isValidChar then some (Char.ofNat n) else none

/-- Reads a fixed number of hexadecimal digits that go on a number. -/
def readDigits (spaced : Bool) : Nat → Nat → Cursor → Except Flaw (Nat × Cursor)
  | 0, value, c => .ok (value, c)
  | count + 1, value, c =>
    match c.char? with
    | none => refuse .escapeEnd c.here
    | some d =>
      match hexValue? d with
      | none => refuse .hexDigit c.one
      | some digit => readDigits spaced count (16 * value + digit) (c.advance spaced)

/-- Reads a character from its number in braces, at the opening brace. -/
def readBracedHex (spaced : Bool) (start : Nat) (c : Cursor) : Except Flaw (Atom × Cursor) :=
  let (inside, closing) := (c.advance spaced).takeWhile spaced (· != '\x7d')
  match inside.find? fun (_, d) => (hexValue? d).isNone with
  | some (place, _) => refuse .hexDigit ⟨place, place + 1⟩
  | none =>
    if closing.atEnd then refuse .escapeEnd (closing.since c.place)
    else
      let rest := closing.advance spaced
      if inside.isEmpty then refuse .hexEmpty (rest.since c.place)
      else
        let value := inside.foldl (fun value (_, d) => 16 * value + (hexValue? d).getD 0) 0
        match charOf? value with
        | none => refuse .hexInvalid (closing.since (c.place + 1))
        | some char => .ok (.literal { char, span := rest.since start }, rest)

/-- Reads a character from its number, at the letter that says how many digits
    there are. The sequence starts at `start`. -/
def readHex (spaced : Bool) (start : Nat) (letter : Char) (c : Cursor) :
    Except Flaw (Atom × Cursor) := do
  let digits := c.advance spaced
  if digits.atEnd then refuse .escapeEnd digits.here
  else if digits.char? = some '\x7b' then readBracedHex spaced start digits
  else
    let count := match letter with
      | 'x' => 2
      | 'u' => 4
      | _ => 8
    let (value, rest) ← readDigits spaced count 0 digits
    match charOf? value with
    | none => refuse .hexInvalid (rest.since digits.place)
    | some char =>
      return (.literal { char, span := rest.since start, isByte := letter = 'x' }, rest)

/-- A text cut at the first place where `mark` stands. -/
def cutAt? (mark : Text) : Text → Option (Text × Text)
  | [] => none
  | c :: rest =>
    if mark.isPrefixOf (c :: rest) then some ([], (c :: rest).drop mark.length)
    else (cutAt? mark rest).map fun (before, behind) => (c :: before, behind)

/-- The property that is asked for by the text in braces. -/
def Property.ofText (text : Text) : Property :=
  match (cutAt? ['!', '='] text).or ((cutAt? [':'] text).or (cutAt? ['='] text)) with
  | some (name, value) => .valued name value
  | none => .named text

/-- Reads a property, at the letter that announces it. The sequence starts at
    `start`. -/
def readProperty (spaced : Bool) (start : Nat) (negated : Bool) (c : Cursor) :
    Except Flaw (Atom × Cursor) :=
  let name := c.advance spaced
  match name.char? with
  | none => refuse .escapeEnd name.here
  | some '\x7b' =>
    let (inside, closing) := (name.advance spaced).takeWhile spaced (· != '\x7d')
    if closing.atEnd then refuse .escapeEnd closing.here
    else
      let rest := closing.next
      .ok (.property (rest.since start) (Property.ofText (inside.map Prod.snd)) negated, rest)
  | some '\\' => refuse .propertyInvalid name.one
  | some letter =>
    let rest := name.advance spaced
    .ok (.property (rest.since start) (.named [letter]) negated, rest)

/-- Reads what makes a word edge a special one, at the opening brace. A brace behind
    which neither a letter nor a hyphen stands does not belong to the edge, which
    starts at `start`. -/
def readEdge (spaced : Bool) (start : Nat) (c : Cursor) : Except Flaw (Atom × Cursor) :=
  let isPart (d : Char) : Bool := d.isAlpha || d == '-'
  let inside := c.advance spaced
  match inside.char? with
  | none => refuse .edgeEnd (inside.since start)
  | some d =>
    if !isPart d then .ok (.assertion (c.since start) .edge, c)
    else
      let (name, closing) := inside.takeWhile spaced isPart
      if closing.char? ≠ some '\x7d' then refuse .edgeUnclosed (closing.since c.place)
      else
        let rest := closing.next
        let kind? : Option Assertion := match Text.str (name.map Prod.snd) with
          | "start" => some .wordStart
          | "end" => some .wordEnd
          | "start-half" => some .wordStartHalf
          | "end-half" => some .wordEndHalf
          | _ => none
        match kind? with
        | some kind => .ok (.assertion (rest.since start) kind, rest)
        | none => refuse .edgeUnknown (closing.since inside.place)

/-- The control character that a letter stands for. -/
def controlOf? : Char → Option Char
  | 'a' => some '\x07'
  | 'f' => some '\x0c'
  | 't' => some '\t'
  | 'n' => some '\n'
  | 'r' => some '\r'
  | 'v' => some '\x0b'
  | _ => none

/-- The condition that a letter or an angle stands for. -/
def assertionOf? : Char → Option Assertion
  | 'A' => some .textStart
  | 'z' => some .textEnd
  | 'B' => some .inner
  | '<' => some .wordStart
  | '>' => some .wordEnd
  | _ => none

/-- Whether a backslash lets a character stand for itself. -/
def isEscapable (c : Char) : Bool :=
  c.toNat < 128 && !c.isAlphanum && c != '<' && c != '>'

/-- Reads an escape sequence, at its backslash. -/
def readEscape (spaced : Bool) (c : Cursor) : Except Flaw (Atom × Cursor) :=
  let start := c.place
  let c := c.next
  let rest := c.next
  let span := rest.since start
  match c.char? with
  | none => refuse .escapeEnd (c.since start)
  | some d =>
    if d.isDigit then refuse .backreference span
    else match d with
      | 'x' | 'u' | 'U' => readHex spaced start d c
      | 'p' => readProperty spaced start false c
      | 'P' => readProperty spaced start true c
      | 'd' => .ok (.shorthand span .digit false, rest)
      | 's' => .ok (.shorthand span .space false, rest)
      | 'w' => .ok (.shorthand span .word false, rest)
      | 'D' => .ok (.shorthand span .digit true, rest)
      | 'S' => .ok (.shorthand span .space true, rest)
      | 'W' => .ok (.shorthand span .word true, rest)
      | 'b' =>
        if rest.char? = some '\x7b' then readEdge spaced start rest
        else .ok (.assertion span .edge, rest)
      | _ =>
        if isEscapable d then .ok (.literal { char := d, span }, rest)
        else match controlOf? d, assertionOf? d with
          | some char, _ => .ok (.literal { char, span }, rest)
          | none, some kind => .ok (.assertion span kind, rest)
          | none, none => refuse .escapeUnknown span

end Pattern

end WordMachine
