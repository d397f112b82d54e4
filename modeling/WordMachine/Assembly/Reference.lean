import WordMachine.Assembly.Symbol
import WordMachine.Assembly.Line

/-!
# References

Names as operands.

Once everything has its place, an operand `:name` or `.name` is replaced by the
address of what it names, written as a number. The first word of a line is never
a reference. A line whose references are replaced is written with single spaces.

## Main definitions

* `Reference.resolveToken`: The text that replaces an operand.
* `Reference.resolveLine`: A line without references.
* `Reference.resolve`: A source without references.
-/

namespace WordMachine

namespace Reference

/-- The address that a reference stands for, as text. -/
def address (symbols : SymbolTable) (line : Line) (space : Namespace) (token : Text) :
    Except AssemblyError Text :=
  match symbols.find? space (token.drop 1) with
  | some symbol => .ok (Decimal.writeWord symbol.address)
  | none => .error (line.error (.undefined space token))

/-- The text that replaces an operand. -/
def resolveToken (symbols : SymbolTable) (line : Line) (token : Text) :
    Except AssemblyError Text :=
  if Text.startsWith ':' token then address symbols line .label token
  else if Text.startsWith '.' token then address symbols line .data token
  else .ok token

/-- A line without references. -/
def resolveLine (symbols : SymbolTable) (line : Line) : Except (List AssemblyError) Line := do
  let operands ← gather (line.operands.map (resolveToken symbols line))
  return { line with text := Text.unwords (line.tokens.take 1 ++ operands) }

/-- A source without references. -/
def resolve (symbols : SymbolTable) (lines : List Line) : Except (List AssemblyError) (List Line) :=
  (gather (lines.map (resolveLine symbols))).mapError List.flatten

end Reference

end WordMachine
