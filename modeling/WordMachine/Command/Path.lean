import WordMachine.Text.Quoted

/-!
# File Names

The computations on file names that the command line needs.

The last component of a path is what follows its last slash. The extension of a
component is what follows its last dot, provided that something precedes the dot:
a component that only starts with a dot has no extension.

## Main definitions

* `Path.component`: The last component of a path.
* `Path.stem`: A path without the extension of its last component.
* `Path.withExtension`: A path with its extension replaced.
-/

namespace WordMachine

namespace Path

/-- A reversed path without the extension of its last component. -/
def stemReversed (reversed : Text) : Text :=
  let component := reversed.takeWhile (· != '/')
  let beforeDot := (component.dropWhile (· != '.')).drop 1
  if beforeDot.isEmpty then reversed
  else beforeDot ++ reversed.drop component.length

/-- A path without the extension of its last component. -/
def stem (path : Text) : Text := (stemReversed path.reverse).reverse

/-- The last component of a path. -/
def component (path : Text) : Text := (path.reverse.takeWhile (· != '/')).reverse

/-- A path with `extension` in place of the extension it has, if it has one. Where
    two dots are all that precedes the old extension, what is left of the component
    is the name of the directory above, which takes no extension. -/
def withExtension (extension : Text) (path : Text) : Text :=
  let rest := stem path
  if rest ≠ path ∧ component rest = ['.'] then rest ++ ['.'] else rest ++ '.' :: extension

/-- A path as messages show it. -/
def quoted (path : Text) : String := (Quoted.encode path).str

end Path

end WordMachine
