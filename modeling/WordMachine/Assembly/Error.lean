import WordMachine.Assembly.Name
import WordMachine.Assembly.Symbol
import WordMachine.Opcode
import WordMachine.Operand

/-!
# Assembly Errors

What can be wrong with a source.

An error is a line number and a cause. The cause holds what the message quotes
and nothing else; its kind and its wording are functions of it. Several causes
share a kind, since kinds classify errors by what the writer of the source got
wrong.

Passes over the source report all their errors at once. `gather` is how: from the
results of the single lines it makes the result of the pass.

## Main definitions

* `AssemblyError`: A cause and the line it was found on.
* `AssemblyError.Kind`: The classes of errors.
* `AssemblyError.Cause`: The things that can be wrong.
* `AssemblyError.Cause.message`: The wording.
* `gather`: All results, or all errors.

## Theorems

* `gather_eq_ok_iff`: When gathering succeeds.
* `gather_eq_error_iff`: When gathering fails, and with which errors.
-/

namespace WordMachine

namespace AssemblyError

/-- The classes of errors. -/
inductive Kind
  /-- A line that starts with no known instruction. -/
  | unknownInstruction
  /-- A wrong number of operands. -/
  | arityMismatch
  /-- An operand or data value that is no number or register. -/
  | invalidOperand
  /-- A reference to a name that is not defined. -/
  | undefinedSymbol
  /-- A shorthand that is unknown or badly formed. -/
  | malformedShorthand
  /-- A data name that is taken or is no name. -/
  | badDataName
  /-- A label that is taken or is no name. -/
  | badLabel
  /-- More words than memory has cells. -/
  | programTooLarge
  deriving DecidableEq, Repr

/-- What is wrong with a line. -/
inductive Cause
  /-- A declaration with too few or too many tokens. -/
  | dataTokens (text : Text) (got : Nat)
  /-- A declaration whose name is no name. -/
  | dataName (text : Text) (reason : Name.Refusal)
  /-- A declaration whose value is no number. -/
  | dataValue (text : Text) (reason : Decimal.Refusal)
  /-- A declaration whose size is no number or is too large. -/
  | dataSize (text token : Text)
  /-- A declaration of a name that an earlier line declares. -/
  | dataDuplicate (name : Text) (line : Nat)
  /-- A shorthand that does not exist. -/
  | shorthandUnknown (name text : Text)
  /-- A shorthand with too few or too many tokens. -/
  | shorthandTokens (text : Text) (got : Nat)
  /-- A print shorthand without a quoted text. -/
  | shorthandQuotes (text : Text)
  /-- A print shorthand with a character whose code is no value. -/
  | shorthandCharacter (char : Char) (text : Text)
  /-- A label after the end of memory. -/
  | labelBeyondMemory (name : Text) (offset : Nat)
  /-- A label that shares its line. -/
  | labelNotAlone (text : Text)
  /-- A label that is no name. -/
  | labelName (reason : Name.Refusal)
  /-- A label that an earlier line defines. -/
  | labelDuplicate (name : Text) (line : Nat)
  /-- A line that starts with no instruction. -/
  | unknownInstruction (head text : Text)
  /-- Data that would start after the end of memory. -/
  | dataBeyondMemory (name : Text) (offset : Nat)
  /-- Data whose name the table already holds. -/
  | dataRedefined (name : Text)
  /-- A program that does not fit in memory. -/
  | programTooLarge (size : Nat)
  /-- A reference to a name that is not defined. -/
  | undefined (space : Namespace) (token : Text)
  /-- An instruction with too few or too many operands. -/
  | operandCount (text : Text) (expected got : Nat)
  /-- A raw word that is no number. -/
  | rawValue (text : Text) (reason : Decimal.Refusal)
  /-- An operand that is neither a number nor a register. -/
  | operand (text : Text) (reason : Operand.Refusal)
  deriving DecidableEq, Repr

namespace Cause

/-- The class of a cause. -/
def kind : Cause → Kind
  | .dataTokens .. => .arityMismatch
  | .dataName .. => .badDataName
  | .dataValue .. => .invalidOperand
  | .dataSize .. => .invalidOperand
  | .dataDuplicate .. => .badDataName
  | .shorthandUnknown .. => .malformedShorthand
  | .shorthandTokens .. => .malformedShorthand
  | .shorthandQuotes .. => .malformedShorthand
  | .shorthandCharacter .. => .malformedShorthand
  | .labelBeyondMemory .. => .programTooLarge
  | .labelNotAlone .. => .badLabel
  | .labelName .. => .badLabel
  | .labelDuplicate .. => .badLabel
  | .unknownInstruction .. => .unknownInstruction
  | .dataBeyondMemory .. => .programTooLarge
  | .dataRedefined .. => .badDataName
  | .programTooLarge .. => .programTooLarge
  | .undefined .. => .undefinedSymbol
  | .operandCount .. => .arityMismatch
  | .rawValue .. => .invalidOperand
  | .operand .. => .invalidOperand

/-- What a reference is called in messages. -/
def spaceName : Namespace → String
  | .label => "label"
  | .data => "data"

/-- The wording of a cause. -/
def message : Cause → String
  | .dataTokens text got =>
    s!"invalid data definition in '{text.str}' (expected 2 or 3 tokens, got {got})"
  | .dataName text reason => s!"invalid data name in '{text.str}': {reason.message}"
  | .dataValue text reason => s!"invalid data value in '{text.str}': {reason.message}"
  | .dataSize text token =>
    s!"invalid data size in '{text.str}' (must be 0~{memorySize}, got {token.str})"
  | .dataDuplicate name line => s!"data '.{name.str}' is already defined on line {line}"
  | .shorthandUnknown name text => s!"invalid macro '{name.str}' in '{text.str}'"
  | .shorthandTokens text got =>
    s!"wrong arguments number in '{text.str}' (expected 3, got {got})"
  | .shorthandQuotes text =>
    s!"malformed expression in '{text.str}' (missing backticks?)"
  | .shorthandCharacter char text =>
    s!"character '{char}' in '{text.str}' cannot be printed"
  | .labelBeyondMemory name offset =>
    s!"label ':{name.str}' at offset {offset} is beyond the end of memory"
  | .labelNotAlone text => s!"label definition '{text.str}' must stand alone on its line"
  | .labelName reason => reason.message
  | .labelDuplicate name line => s!"label ':{name.str}' is already defined on line {line}"
  | .unknownInstruction head text => s!"invalid instruction '{head.str}' in '{text.str}'"
  | .dataBeyondMemory name offset =>
    s!"data '.{name.str}' would start at offset {offset}, beyond the end of memory"
  | .dataRedefined name => s!"data '.{name.str}' is already defined"
  | .programTooLarge size => s!"program needs {size} words but memory holds {memorySize}"
  | .undefined space token => s!"{spaceName space} '{token.str}' is not defined"
  | .operandCount text expected got =>
    s!"wrong number of operands in '{text.str}' (expected {expected}, got {got})"
  | .rawValue text reason => s!"invalid raw value in '{text.str}': {reason.message}"
  | .operand text reason => s!"invalid operand in '{text.str}': {reason.message}"

end Cause

end AssemblyError

/-- Something wrong with a source. -/
structure AssemblyError where
  /-- The number of the line, counted from one. -/
  line : Nat
  cause : AssemblyError.Cause
  deriving DecidableEq, Repr

namespace AssemblyError

/-- The class of an error. -/
def kind (e : AssemblyError) : Kind := e.cause.kind

/-- The wording of an error, without its place. -/
def message (e : AssemblyError) : String := e.cause.message

/-- An error with its place. -/
def display (e : AssemblyError) : String := s!"line {e.line}: {e.message}"

end AssemblyError

/-- The error of a result, if it is one. -/
def failure? {ε α : Type} : Except ε α → Option ε
  | .error e => some e
  | .ok _ => none

/-- The value of a result, if it is one. -/
def success? {ε α : Type} : Except ε α → Option α
  | .error _ => none
  | .ok a => some a

/-- All values if every result is one, and all errors otherwise. -/
def gather {ε α : Type} (results : List (Except ε α)) : Except (List ε) (List α) :=
  match results.filterMap failure? with
  | [] => .ok (results.filterMap success?)
  | errors => .error errors

/-- Gathering succeeds exactly when every result is a value. -/
theorem gather_eq_ok_iff {ε α : Type} (results : List (Except ε α)) (values : List α) :
    gather results = .ok values ↔ results = values.map .ok := by
  constructor
  · intro h
    induction results generalizing values with
    | nil =>
        cases h
        rfl
    | cons r rest ih =>
        cases r with
        | error e =>
            rw [gather, List.filterMap_cons_some (show failure? (Except.error e) = some e from rfl)] at h
            cases h
        | ok a =>
            rw [gather, List.filterMap_cons_none (show failure? (Except.ok a) = none from rfl),
              List.filterMap_cons_some (show success? (Except.ok a) = some a from rfl)] at h
            split at h
            · rename_i hnone
              cases h
              rw [List.map_cons, ← ih (rest.filterMap success?) (by rw [gather, hnone])]
            · cases h
  · intro h
    subst h
    have hf : (values.map (fun a => (Except.ok a : Except ε α))).filterMap failure? = [] := by
      simp [List.filterMap_map, Function.comp_def, failure?]
    have hs : (values.map (fun a => (Except.ok a : Except ε α))).filterMap success? = values := by
      simp [List.filterMap_map, Function.comp_def, success?]
    rw [gather, hf, hs]

/-- Gathering fails exactly when some result is an error, with all of them. -/
theorem gather_eq_error_iff {ε α : Type} (results : List (Except ε α)) (errors : List ε) :
    gather results = .error errors ↔ errors ≠ [] ∧ results.filterMap failure? = errors := by
  unfold gather
  split
  · rename_i h
    constructor
    · intro hc
      cases hc
    · rintro ⟨hne, rfl⟩
      exact absurd h hne
  · rename_i hne
    constructor
    · intro h
      cases h
      exact ⟨hne, rfl⟩
    · rintro ⟨_, rfl⟩
      rfl

end WordMachine
