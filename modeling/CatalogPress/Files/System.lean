import CatalogPress.Files.Fault
import CatalogPress.Files.Path
import CatalogPress.Table
import CatalogPress.Text.Line

/-!
File systems as values. Files and directories are found by their location, the names that lead to
them from the root; the root itself is always there. A path is followed name by name from the root
or the working directory, and every name but the last must lead to a directory.
-/
namespace CatalogPress

/-- The name of a file or directory consists of bytes. -/
abbrev FileName := List UInt8

namespace FileName

def here : FileName := [0x2e]

def above : FileName := [0x2e, 0x2e]

def separator : UInt8 := 0x2f

def longest : Nat := 255

end FileName

/-- The names that lead from the root to a file or directory. -/
abbrev Location := List FileName

/-- Where a location is found once what is at `source` has been moved to `target`. -/
def Location.moved (location source target : Location) : Location :=
  if source <+: location then target ++ location.drop source.length else location

inductive FileNode where
  | file (bytes : ByteArray)
  | directory
deriving Inhabited

instance : DecidableEq FileNode
  | .file a, .file b =>
    match ByteArray.instDecidableEq a b with
    | isTrue h => isTrue (congrArg FileNode.file h)
    | isFalse h => isFalse fun eq => h (FileNode.file.inj eq)
  | .directory, .directory => isTrue rfl
  | .file _, .directory | .directory, .file _ => isFalse nofun

structure FileSystem where
  workingDirectory : Path
  nodes : Table Location FileNode
deriving Inhabited

namespace FileSystem

def longestPath : Nat := 4095

def node? (files : FileSystem) (location : Location) : Option FileNode :=
  if location = [] then some .directory else Table.get? location files.nodes

def put (files : FileSystem) (location : Location) (node : FileNode) : FileSystem :=
  { files with nodes := Table.put location node files.nodes }

/-- Follows names from a location. What the last name leads to need not exist. -/
def walk (files : FileSystem) (location : Location) : List FileName → Except SystemFault Location
  | [] => .ok location
  | name :: rest =>
    match files.node? location with
    | none => .error .notFound
    | some (.file _) => .error .notADirectory
    | some .directory =>
      if name = [] ∨ name = .here then walk files location rest
      else if name = .above then walk files location.dropLast rest
      else if FileName.longest < name.length then .error .nameTooLong
      else walk files (location ++ [name]) rest

def base (files : FileSystem) : Location :=
  files.workingDirectory.names.map Utf8.nameBytes

def start (files : FileSystem) (path : List UInt8) : Location :=
  if path.head? = some FileName.separator then [] else files.base

def resolve (files : FileSystem) (path : Text) : Except FileError Location := do
  let bytes ← (Utf8.encodeName path).mapError .unencodable
  if bytes.contains 0 then .error .nulInPath
  else if bytes.isEmpty then .error (.system .notFound path)
  else if longestPath < bytes.length then .error (.system .nameTooLong path)
  else
    (files.walk (files.start bytes) (Text.splitList FileName.separator bytes)).mapError
      (.system · path)

/-- Whether a path leads to something, if it can be followed at all. -/
def lookup (files : FileSystem) (path : Text) : Except FileError (Option FileNode) :=
  (files.resolve path).map files.node?

def holds (files : FileSystem) (path : Text) : Bool :=
  match files.lookup path with
  | .ok (some _) => true
  | _ => false

def isDirectory (files : FileSystem) (path : Text) : Bool :=
  match files.lookup path with
  | .ok (some .directory) => true
  | _ => false

def read (files : FileSystem) (path : Text) : Except FileError ByteArray := do
  match ← files.lookup path with
  | none => .error (.system .notFound path)
  | some .directory => .error (.system .isADirectory path)
  | some (.file bytes) => .ok bytes

def readText (files : FileSystem) (path : Text) : Except ReadError String := do
  let bytes ← (files.read path).mapError .file
  let text ← (Utf8.decode bytes).mapError .undecodable
  return String.ofList (Text.unifyNewlines text)

/-- Changes the contents of a file, which are empty before if the file is new. -/
def update (files : FileSystem) (path : Text) (change : ByteArray → ByteArray) :
    Except FileError FileSystem := do
  let location ← files.resolve path
  match files.node? location with
  | none => .ok (files.put location (.file (change .empty)))
  | some .directory => .error (.system .isADirectory path)
  | some (.file bytes) => .ok (files.put location (.file (change bytes)))

/-- Writes a text to a file, which is left empty if the text has no bytes. -/
def write (files : FileSystem) (path text : Text) : Except FileError Unit × FileSystem :=
  let encoded := Utf8.encode text
  match files.update path fun _ => encoded.toOption.getD .empty with
  | .error error => (.error error, files)
  | .ok written => ((encoded.map fun _ => ()).mapError .unencodable, written)

/-- Opens a file, which changes its contents as for `update`. What is written later goes to its
location. -/
def openFile (files : FileSystem) (path : Text) (change : ByteArray → ByteArray) :
    Except FileError (Location × FileSystem) := do
  let location ← files.resolve path
  let opened ← files.update path change
  return (location, opened)

def alter (files : FileSystem) (location : Location) (change : ByteArray → ByteArray) :
    FileSystem :=
  match files.node? location with
  | some (.file bytes) => files.put location (.file (change bytes))
  | _ => files

def erase (files : FileSystem) (location : Location) : FileSystem :=
  { files with nodes := Table.erase location files.nodes }

def remove (files : FileSystem) (path : Text) : Except FileError (Location × FileSystem) := do
  let location ← files.resolve path
  match files.node? location with
  | none => .error (.system .notFound path)
  | some .directory => .error (.system .isADirectory path)
  | some (.file _) => .ok (location, files.erase location)

def move (files : FileSystem) (source target : Location) : FileSystem :=
  { files with
    nodes := files.nodes.map fun (location, node) => (location.moved source target, node) }

/-- Moves a file, or a directory with all that is below it, to a path where nothing is. A directory
that the program works in stays where it is. -/
def rename (files : FileSystem) (source target : Text) :
    Except FileError (Location × Location × FileSystem) := do
  let old ← files.resolve source
  let new ← files.resolve target
  if files.node? old = none then .error (.system .notFound source)
  else if files.node? new ≠ none then .error (.system .alreadyExists target)
  else if old <+: new ∨ old <+: files.base then .error (.system .busy source)
  else .ok (old, new, files.move old new)

def dropTrailingSlashes (path : Text) : Text :=
  let kept := (path.points.reverse.dropWhile (· = Path.slash)).reverse
  if kept.isEmpty ∧ !path.isEmpty then "/" else ⟨kept⟩

def makeDirectory (files : FileSystem) (path : Text) : Except FileError FileSystem := do
  let location ← (files.resolve (dropTrailingSlashes path)).mapError fun
    | .system fault _ => .system fault path
    | error => error
  match files.node? location with
  | some _ => .error (.system .alreadyExists path)
  | none => .ok (files.put location .directory)

def ensureDirectory (files : FileSystem) (path : Text) : Except FileError FileSystem :=
  match files.makeDirectory path with
  | .ok made => .ok made
  | .error error => if files.isDirectory path then .ok files else .error error

/-- Makes a directory and, where they are missing, those above it. The names are given last first.
Directories that were made stay if a later one fails. -/
def ensureNames (slashes : Nat) : List Text → FileSystem → Except FileError Unit × FileSystem
  | [], files =>
    match files.ensureDirectory (Path.text ⟨slashes, []⟩) with
    | .ok made => (.ok (), made)
    | .error error => (.error error, files)
  | name :: above, files =>
    let path := Path.text ⟨slashes, (name :: above).reverse⟩
    match files.ensureDirectory path with
    | .ok made => (.ok (), made)
    | .error error =>
      if error = .system .notFound path then
        match ensureNames slashes above files with
        | (.ok (), files) =>
          match files.ensureDirectory path with
          | .ok made => (.ok (), made)
          | .error error => (.error error, files)
        | (.error error, files) => (.error error, files)
      else (.error error, files)

def ensureDirectories (files : FileSystem) (path : Path) : Except FileError Unit × FileSystem :=
  ensureNames path.slashes path.names.reverse files

def splitLast (path : Text) : Text × Text :=
  let name := (path.points.reverse.takeWhile (· ≠ Path.slash)).reverse
  let head := path.points.take (path.length - name.length)
  let trimmed := (head.reverse.dropWhile (· = Path.slash)).reverse
  (⟨if trimmed.isEmpty then head else trimmed⟩, ⟨name⟩)

def aboveAndName (path : Text) : Text × Text :=
  let (head, name) := splitLast path
  if name.isEmpty then splitLast head else (head, name)

/-- Makes a directory from the top down: first those above it that are missing. At most `depth`
directories are looked at. -/
def ensureFromTop : Nat → Text → FileSystem → Except FileError Unit × FileSystem
  | 0, _, files => (.ok (), files)
  | depth + 1, path, files =>
    let (head, name) := aboveAndName path
    let last (files : FileSystem) : Except FileError Unit × FileSystem :=
      match files.ensureDirectory path with
      | .ok made => (.ok (), made)
      | .error error => (.error error, files)
    if !head.isEmpty && !name.isEmpty && !files.holds head then
      match ensureFromTop depth head files with
      | (.error (.system .alreadyExists _), files) | (.ok (), files) =>
        if name = "." then (.ok (), files) else last files
      | (.error error, files) => (.error error, files)
    else last files

def ensureTree (files : FileSystem) (path : Text) : Except FileError Unit × FileSystem :=
  ensureFromTop (path.length + 1) path files

end FileSystem
end CatalogPress
