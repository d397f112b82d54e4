import WordMachine.Assembly.Line

/-!
# Encoding

Instructions as words.

A line without references is its instruction's word followed by one word for each
operand. A line that starts with `??` is the word it gives.

## Main definitions

* `Encoding.encodeLine`: The words of a line.
* `Encoding.encode`: The words of a source without references.
-/

namespace WordMachine

namespace Encoding

/-- The operands of a line, if there are as many as expected. -/
def operandTokens (line : Line) (expected : Nat) : Except AssemblyError (List Text) :=
  if line.operands.length = expected then .ok line.operands
  else .error (line.error (.operandCount line.text expected line.operands.length))

/-- The word of an operand token. -/
def encodeOperand (line : Line) (token : Text) : Except AssemblyError Word :=
  (Operand.parse token).mapError fun reason => line.error (.operand line.text reason)

/-- The word of a token that gives it as a number. -/
def encodeRaw (line : Line) (token : Text) : Except AssemblyError Word :=
  (Decimal.read token).mapError fun reason => line.error (.rawValue line.text reason)

/-- The words of a line. -/
def encodeLine (line : Line) : Except AssemblyError (List Word) :=
  if line.head = Opcode.rawName then do
    (← operandTokens line 1).mapM (encodeRaw line)
  else
    match Opcode.ofMnemonic? line.head with
    | some op => do
      return op.word :: (← (← operandTokens line op.arity).mapM (encodeOperand line))
    | none => .error (line.error (.unknownInstruction line.head line.text))

/-- The words of a source without references. -/
def encode (lines : List Line) : Except (List AssemblyError) (List Word) :=
  (gather (lines.map encodeLine)).map List.flatten

end Encoding

end WordMachine
