import WordMachine.Text.Basic

/-!
# Terminal Control

Text without what a terminal would act on.

Some characters are instructions to a terminal: single control characters, and
sequences that an escape character begins. A message that quotes such text must
not move the cursor or change colours, so it is shown without them.

An escape character begins a sequence wherever it stands. What ends the sequence
depends on the character after it, and `Mode` says which end is awaited. The four
controls that only lay out text stay; inside a sequence that takes no free text
they suspend it, and what follows is shown like plain text until the next control
character, with which the sequence goes on. Beyond ASCII nothing is a control
character, but inside a sequence nothing is shown, and in its free text one byte
is the terminator, even as part of the encoding of another character.

## Main definitions

* `Terminal.Mode`: The part of a sequence that is being read.
* `Terminal.State`: A mode, and whether its sequence is suspended.
* `Terminal.step`: Reading one character.
* `Terminal.plain`: A text without control characters and sequences.
-/

namespace WordMachine

namespace Terminal

/-- The part of a sequence that is being read. -/
inductive Mode
  /-- Plain text, outside all sequences. -/
  | text
  /-- After an escape character. -/
  | escape
  /-- In an escape sequence of more than two characters. -/
  | longEscape
  /-- In a control sequence, which a letter or a sign ends. -/
  | sequence
  /-- In a command to the operating system, which a bell ends. -/
  | command
  /-- At the head of a device control string, before its parameters. -/
  | device
  /-- Among the parameters of a device control string. -/
  | deviceParameter
  /-- After the parameters of a device control string. -/
  | deviceIntermediate
  /-- In free text that a terminator ends. -/
  | content
  deriving DecidableEq, Repr

/-- The controls that lay out text: tab, line feed, form feed and carriage return. -/
def isLayout (c : Char) : Bool := c.toNat ∈ [9, 10, 12, 13]

/-- The controls that end every sequence at once: cancel and substitute. -/
def isCancel (c : Char) : Bool := c.toNat ∈ [0x18, 0x1A]

/-- Whether a character is shown outside all sequences. -/
def isShown (c : Char) : Bool := isLayout c || (32 ≤ c.toNat && c.toNat != 127)

/-- Whether the number of a character lies in a range. -/
def within (first last : Nat) (c : Char) : Bool := first ≤ c.toNat && c.toNat ≤ last

/-- The mode after the character that follows an escape character. -/
def afterEscape (c : Char) : Mode :=
  if within 0x20 0x2F c then .longEscape
  else match c with
    | '[' => .sequence
    | ']' => .command
    | 'P' => .device
    | 'X' | '^' | '_' => .content
    | c => if within 0x30 0x7E c then .text else .escape

/-- The mode after a character of a device control string that is in `mode`. Its
    free text begins after the first letter or sign, and also where a parameter
    comes too late. -/
def afterDevice (mode : Mode) (c : Char) : Mode :=
  let isLate := match mode with
    | .device => false
    | .deviceParameter => within 0x3C 0x3F c
    | _ => within 0x30 0x3F c
  if isLate || within 0x40 0x7E c then .content
  else if within 0x20 0x2F c then .deviceIntermediate
  else if within 0x30 0x3F c then .deviceParameter
  else mode

/-- Whether the encoding of a character holds the byte that ends free text. -/
def holdsTerminator (c : Char) : Bool := (String.utf8EncodeChar c).contains 0x9C

/-- The mode after a character of a sequence that is not suspended, and whether the
    character is shown. -/
def advance (mode : Mode) (c : Char) : Mode × Bool :=
  if c.toNat = 0x1B then (.escape, false)
  else if isCancel c then (.text, false)
  else match mode with
    | .text => (.text, isShown c)
    | .escape => if isLayout c then (.escape, true) else (afterEscape c, false)
    | .longEscape =>
      if isLayout c then (.longEscape, true)
      else (if within 0x30 0x7E c then .text else .longEscape, false)
    | .sequence =>
      if isLayout c then (.sequence, true)
      else (if within 0x40 0x7E c then .text else .sequence, false)
    | .command => (if c.toNat = 7 then .text else .command, false)
    | .content => (if holdsTerminator c then .text else .content, false)
    | mode => (afterDevice mode c, false)

/-- A place in a text that is being read. -/
structure State where
  mode : Mode := .text
  /-- Whether the character before was shown, so that a sequence that is not over
      is suspended. -/
  running : Bool := false
  deriving DecidableEq, Repr

/-- The state after a character, and whether the character is shown. While a
    sequence is suspended, a character beyond ASCII puts an end to it. -/
def step (s : State) (c : Char) : State × Bool :=
  if s.running && isShown c then (⟨if c.toNat < 128 then s.mode else .text, true⟩, true)
  else
    let (mode, shown) := advance s.mode c
    (⟨mode, shown⟩, shown)

/-- What is shown of a text that is read from a given state. -/
def plainFrom : State → Text → Text
  | _, [] => []
  | s, c :: rest =>
    match step s c with
    | (next, true) => c :: plainFrom next rest
    | (next, false) => plainFrom next rest

/-- A text without control characters and sequences. -/
def plain (t : Text) : Text := plainFrom {} t

end Terminal

end WordMachine
