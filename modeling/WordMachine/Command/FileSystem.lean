import WordMachine.Command.Perform

/-!
# Files

Commands in a tree of files.

A command reads one file and writes at most one, and it is a function of the files
it is given. So that every path has a meaning, the working directory lies in a
small tree: a root with the directories that every system has, the working
directory two steps below it, and a few devices. A path is walked from left to
right, and each name but the last must lead to a directory. What the last name
leads to decides whether the file can be read or written. The directories are the
same in every tree, and only files come and go.

## Main definitions

* `Place`: Where something stands in the tree.
* `Node`: What stands at a place.
* `FileSystem`: The files of the tree.
* `FileSystem.resolve`: Where a path leads.
* `FileSystem.read`, `FileSystem.write`: Reading and writing a file.
* `Command.performIn`: A command in a given tree of files.
-/

namespace WordMachine

/-- Where something stands in the tree: the names on the way from the root, the
    last one first. -/
abbrev Place := List Text

/-- A file that is no stored content. -/
inductive Device
  /-- Holds nothing and takes everything. -/
  | null
  /-- Takes nothing. -/
  | full
  /-- The input of the command. -/
  | input
  /-- The output of the command. -/
  | output
  deriving DecidableEq, Repr

/-- What stands at a place. -/
inductive Node
  | directory
  | device (device : Device)
  | file (content : List UInt8)
  deriving DecidableEq, Repr

namespace Place

/-- The root of the tree. -/
def root : Place := []

/-- The working directory. -/
def working : Place := ["work".toList, "tmp".toList]

/-- The directories at the root. -/
def standard : List String :=
  ["bin", "boot", "dev", "etc", "home", "lib", "media", "mnt", "opt", "proc", "root", "run",
   "sbin", "srv", "sys", "tmp", "usr", "var"]

/-- Whether a directory stands at a place. -/
def isDirectory (p : Place) : Bool :=
  match p with
  | [] => true
  | [name] => name.str ∈ standard
  | _ => p = working

/-- The device at a place. -/
def device? (p : Place) : Option Device :=
  match p with
  | [name, parent] =>
    if parent.str = "dev" then
      match name.str with
      | "null" => some .null
      | "full" => some .full
      | "stdin" => some .input
      | "stdout" => some .output
      | _ => none
    else none
  | _ => none

/-- The place one step on, if the step leads to a directory. An empty name and a dot
    stay where they are, and two dots go up, but not beyond the root. -/
def enter? (p : Place) (name : Text) : Option Place :=
  if name.isEmpty || name = ['.'] then some p
  else if name = ['.', '.'] then some p.tail
  else if isDirectory (name :: p) then some (name :: p)
  else none

end Place

/-- Where a path leads. -/
inductive Destination
  /-- To a directory, by a last step that names no entry of one. -/
  | directory
  /-- To the entry `name` of the directory `parent`. If `closed` holds, a slash
      follows the name, so that only a directory would do. -/
  | entry (parent : Place) (name : Text) (closed : Bool)
  deriving DecidableEq, Repr

/-- The files of the tree, and the bytes that wait in the input and those that went
    to the output. -/
structure FileSystem where
  files : List (Place × List UInt8)
  input : List UInt8 := []
  output : List UInt8 := []
  deriving DecidableEq, Repr

namespace FileSystem

/-- The length in bytes of the longest name. -/
def maxNameSize : Nat := 255

/-- The length in bytes of the longest path. -/
def maxPathSize : Nat := 4095

/-- The tree with the given files in the working directory. -/
def ofFiles (files : List (Text × List UInt8)) : FileSystem :=
  { files := files.map fun (name, content) => (name :: Place.working, content) }

/-- What an entry of a directory is, or why there is none. -/
def find (fs : FileSystem) (parent : Place) (name : Text) : Except FileFault Node :=
  let place : Place := name :: parent
  if name.str.utf8ByteSize > maxNameSize then .error .nameTooLong
  else if place.isDirectory then .ok .directory
  else match place.device? with
    | some device => .ok (.device device)
    | none =>
      match fs.files.lookup place with
      | some content => .ok (.file content)
      | none => .error .missing

/-- The place where some steps lead, each to a directory. -/
def walk (fs : FileSystem) : Place → List Text → Except FileFault Place
  | place, [] => .ok place
  | place, name :: rest =>
    match place.enter? name with
    | some next => fs.walk next rest
    | none =>
      match fs.find place name with
      | .error fault => .error fault
      | .ok _ => .error .notDirectory

/-- Where a path leads, or why it leads nowhere. -/
def resolve (fs : FileSystem) (path : Text) : Except FileFault Destination :=
  if path.isEmpty then .error .missing
  else if path.str.utf8ByteSize > maxPathSize then .error .nameTooLong
  else
    let steps := (path.splitOn '/').reverse
    match steps.dropWhile List.isEmpty with
    | [] => .ok .directory
    | last :: before => do
      let start := if path.head? = some '/' then Place.root else Place.working
      let parent ← fs.walk start before.reverse
      if last = ['.'] || last = ['.', '.'] then return .directory
      else return .entry parent last (steps.head? == some [])

/-- The content of a file, and the tree afterwards, which has no input left if it
    was the input that was read. -/
def read (fs : FileSystem) (path : Text) : Except FileFault (List UInt8 × FileSystem) := do
  match ← fs.resolve path with
  | .directory => .error .isDirectory
  | .entry parent name closed =>
    let node ← fs.find parent name
    if node = .directory then .error .isDirectory
    else if closed then .error .notDirectory
    else match node with
      | .file content => return (content, fs)
      | .device .input => return (fs.input, { fs with input := [] })
      | .device .full => .error (.other "Cannot allocate memory (os error 12)")
      | _ => return ([], fs)

/-- The tree after a file is written. A file that is not there is made, but a name
    with a slash behind it is refused before it is looked for. -/
def write (fs : FileSystem) (path : Text) (content : List UInt8) : Except FileFault FileSystem := do
  match ← fs.resolve path with
  | .directory | .entry _ _ true => .error .isDirectory
  | .entry parent name false =>
    match fs.find parent name with
    | .ok .directory => .error .isDirectory
    | .ok (.device .output) => return { fs with output := fs.output ++ content }
    | .ok (.device .full) => if content.isEmpty then return fs else .error .noSpace
    | .ok (.device _) => return fs
    | .ok (.file _) | .error .missing =>
      return { fs with
        files := (name :: parent, content) :: fs.files.filter (·.1 != name :: parent) }
    | .error fault => .error fault

end FileSystem

namespace Command

/-- The characters of bytes that went to the output. Bytes that are no text show as
    replacement characters. -/
def outputText (bytes : List UInt8) : Text :=
  match String.fromUTF8? bytes.toByteArray with
  | some text => text.toList
  | none => bytes.map fun b => if b < 128 then Char.ofNat b.toNat else Char.ofNat 0xFFFD

/-- Does what a command asks for with given files. Gives its report and the files
    afterwards. What the command writes to its output comes before what it prints. -/
def performIn (command : Command) (fs : FileSystem) (filter : Log.Filter) : Report × FileSystem :=
  let (contents, rest) : Contents × FileSystem := match fs.read command.inputFile with
    | .ok (content, rest) => (.ok content, rest)
    | .error fault => (.error fault, fs)
  let written := match command.product contents with
    | some (path, content) => rest.write path content
    | none => .ok rest
  let after := written.toOption.getD rest
  let report := command.report filter contents (written.map fun _ => ()) rest.input
  ({ report with printed := outputText after.output ++ report.printed }, after)

end Command

end WordMachine
