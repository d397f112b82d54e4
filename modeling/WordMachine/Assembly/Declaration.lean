import WordMachine.Assembly.Line

/-!
# Data Declarations

The lines that reserve words after the code.

A declaration `.name value count` asks for `count` words that hold `value`, and
for one word if it gives no count. Declarations can stand anywhere in a source;
they are taken out of it before anything else is looked at, and keep their order.

## Main definitions

* `Declaration`: A parsed declaration.
* `Declaration.parse`: Reading one line.
* `Declaration.parseAll`: Reading all of them, each name once.
* `Declaration.extract`: Splitting a source into code and declarations.
-/

namespace WordMachine

/-- A block of data to be placed after the code. -/
structure Declaration where
  /-- The name, without the leading dot. -/
  name : Text
  /-- The word that fills the block. -/
  value : Word
  /-- The number of words of the block. -/
  count : Word
  /-- The source line. -/
  line : Nat
  deriving DecidableEq, Repr

namespace Declaration

/-- The words of the block. -/
def words (d : Declaration) : List Word := List.replicate d.count.toNat d.value

/-- Whether a line is a declaration. -/
def isDeclaration (line : Line) : Bool := Text.startsWith '.' line.text

/-- The size of a block, given as a token. -/
def parseCount (line : Line) (token : Text) : Except AssemblyError Word :=
  match Decimal.read token with
  | .ok count =>
    if count.toNat ≤ memorySize then .ok count else .error (line.error (.dataSize line.text token))
  | .error _ => .error (line.error (.dataSize line.text token))

/-- A declaration from its name, value and, if given, size. -/
def ofTokens (line : Line) (name value : Text) (count : Option Text) :
    Except AssemblyError Declaration := do
  (Name.check name).mapError fun reason => line.error (.dataName line.text reason)
  let value ← (Decimal.read value).mapError fun reason =>
    line.error (.dataValue line.text reason)
  let count ← match count with
    | some token => parseCount line token
    | none => pure 1
  return ⟨name, value, count, line.number⟩

/-- The declaration on a line that starts with a dot. -/
def parse (line : Line) : Except AssemblyError Declaration :=
  match line.tokens with
  | [name, value] => ofTokens line (name.drop 1) value none
  | [name, value, count] => ofTokens line (name.drop 1) value (some count)
  | tokens => .error (line.error (.dataTokens line.text tokens.length))

/-- The declaration on a line, if no accepted one has its name. -/
def parseNew (accepted : List Declaration) (line : Line) : Except AssemblyError Declaration := do
  let declaration ← parse line
  match accepted.find? (·.name == declaration.name) with
  | some earlier => .error (line.error (.dataDuplicate declaration.name earlier.line))
  | none => return declaration

/-- The result of each line in turn. Only declarations that are accepted make
    their names unavailable. -/
def parseAll (accepted : List Declaration) :
    List Line → List (Except AssemblyError Declaration)
  | [] => []
  | line :: rest =>
    match parseNew accepted line with
    | .ok declaration => .ok declaration :: parseAll (declaration :: accepted) rest
    | .error e => .error e :: parseAll accepted rest

/-- The lines that are no declarations, and the declarations. -/
def extract (lines : List Line) :
    Except (List AssemblyError) (List Line × List Declaration) := do
  let declarations ← gather (parseAll [] (lines.filter isDeclaration))
  return (lines.filter (!isDeclaration ·), declarations)

end Declaration

end WordMachine
