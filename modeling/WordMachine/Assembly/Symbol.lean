import WordMachine.Text.Basic
import WordMachine.Word

/-!
# Symbols

The names a source defines, and where they ended up.

Labels and data have separate namespaces: the label `:buffer` and the data
`.buffer` can both be defined. Within a namespace the first definition of a name
stands, and later ones are refused by showing the one that stands. The table
keeps its symbols in the order they were added.

## Main definitions

* `Symbol`: A name with its address and the line that defines it.
* `SymbolTable`: Symbols in order of definition.
* `SymbolTable.find?`: The symbol of a name.
* `SymbolTable.add`: Adding a symbol whose name is free.

## Theorems

* `SymbolTable.find?_of_add`: Looking a name up after adding a symbol.
-/

namespace WordMachine

/-- The namespaces. -/
inductive Namespace
  | label | data
  deriving DecidableEq, Repr

/-- What a symbol names. -/
inductive SymbolKind
  /-- An instruction. -/
  | label
  /-- A block of `count` words that all hold `value`. -/
  | data (value count : Word)
  deriving DecidableEq, Repr

/-- The namespace of a kind of symbol. -/
def SymbolKind.space : SymbolKind → Namespace
  | .label => .label
  | .data _ _ => .data

/-- A defined name. -/
structure Symbol where
  /-- The name, without the character that marks its namespace. -/
  name : Text
  kind : SymbolKind
  address : Word
  /-- The source line of the definition. -/
  line : Nat
  deriving DecidableEq, Repr

/-- Whether a symbol is the one that a name refers to. -/
def Symbol.answers (s : Symbol) (space : Namespace) (name : Text) : Bool :=
  s.kind.space == space && s.name == name

/-- The defined names, in order of definition. -/
structure SymbolTable where
  symbols : List Symbol
  deriving DecidableEq, Repr

namespace SymbolTable

/-- The table that defines nothing. -/
def empty : SymbolTable := ⟨[]⟩

/-- The symbol that a name refers to. -/
def find? (t : SymbolTable) (space : Namespace) (name : Text) : Option Symbol :=
  t.symbols.find? (·.answers space name)

/-- The table with one symbol more, or the symbol that already has its name. -/
def add (t : SymbolTable) (s : Symbol) : Except Symbol SymbolTable :=
  match t.find? s.kind.space s.name with
  | some existing => .error existing
  | none => .ok ⟨t.symbols ++ [s]⟩

/-- Looking a name up after adding a symbol: what was found before is found still,
    and the new symbol answers to its own name. -/
theorem find?_of_add {t u : SymbolTable} {s : Symbol} (h : t.add s = .ok u)
    (space : Namespace) (name : Text) :
    u.find? space name =
      if s.answers space name then some s else t.find? space name := by
  unfold add at h
  split at h
  · cases h
  · rename_i hfree
    cases h
    by_cases hs : s.answers space name
    · -- The name is free, so the new symbol is the only one that answers to it.
      have hname : s.kind.space = space ∧ s.name = name := by
        simpa [Symbol.answers] using hs
      rw [hname.1, hname.2] at hfree
      unfold find? at hfree ⊢
      simp [List.find?_append, hfree, hs]
    · unfold find?
      simp [List.find?_append, hs]

end SymbolTable

end WordMachine
