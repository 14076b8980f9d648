import CatalogPress.CommandLine
import Std.Time.Zoned

/-!
The program. What a run can look at is read first, the run is computed on it as a value, and what
the run changed is written back.
-/
namespace CatalogPress.Program

def absolute? (location : Location) : Option String :=
  String.fromUTF8? ⟨(location.flatMap (FileName.separator :: ·)).toArray⟩

def observe (files : FileSystem) (location : Location) : IO FileSystem := do
  if (files.node? location).isSome then return files
  let some path := absolute? location | return files
  let path := (← IO.currentDir) / path
  if ← path.isDir then return files.put location .directory
  if ← path.pathExists then return files.put location (.file (← IO.FS.readBinFile path))
  return files

def observePath (files : FileSystem) (path : Text) : IO FileSystem := do
  let .ok bytes := Utf8.encodeName path | return files
  let mut files := files
  let mut location := files.start bytes
  for name in Text.splitList FileName.separator bytes do
    if name = FileName.above then location := location.dropLast
    else if name ≠ [] ∧ name ≠ FileName.here then
      location := location ++ [name]
      files ← observe files location
  return files

def observeTree (files : FileSystem) (path : Text) : IO FileSystem := do
  let files ← observePath files path
  unless files.isDirectory path do return files
  let below ← ((← IO.currentDir) / path.shown).walkDir
  below.foldlM (fun files found => observePath files found.toString) files

def observeLog (files : FileSystem) (directory : String) (file : LogFile) : IO FileSystem := do
  let path : Text := directory ++ "/" ++ file.name
  (List.range file.backups).foldlM (fun files number =>
    observeTree files (Session.backup path (number + 1))) (← observePath files path)

def observeJobs (files : FileSystem) (jobs : List Job) : IO FileSystem :=
  jobs.foldlM (fun files job => do
    observePath (← observePath files job.template.text) job.output.text) files

def surroundings : IO FileSystem := do
  let here := (← IO.currentDir).toString
  observePath ⟨Path.ofText here, []⟩ here

def environment (files : FileSystem) : IO Environment := do
  let mentioned :=
    match files.readText Settings.variablesPath with
    | .ok text => Dotenv.references text.toList
    | .error _ => []
  (Settings.variableNames ++ mentioned).foldlM (fun environment name => do
    match ← IO.getEnv name with
    | some value => return Table.put name value environment
    | none => return environment) []

def observeRun (files : FileSystem) (settings : Settings) (arguments : Arguments) :
    IO FileSystem := do
  let catalog := arguments.catalog.getD (Path.ofText settings.catalogPath)
  let files ← observePath files catalog.text
  let files ← observePath files settings.projectPath
  let files ← observeJobs files (arguments.documents.getD [])
  let files ← settings.logDirectory.elim (pure files) fun directory => do
    observeLog (← observeLog files directory .main) directory .errors
  match Project.load files settings none with
  | .ok (project, _) => observeJobs files project.documents
  | .error _ => return files

/-- Removes what is gone, makes the directories that are new and writes the files that are new or
changed. What was below a directory comes after it, so it is removed before it. -/
def writeBack (before after : FileSystem) : IO Unit := do
  before.nodes.reverse.forM fun (location, node) => do
    if (after.node? location).isNone then
      if let some path := absolute? location then
        match node with
        | .directory => IO.FS.removeDir path
        | .file _ => IO.FS.removeFile path
  after.nodes.forM fun (location, node) => do
    if before.node? location ≠ some node then
      if let some path := absolute? location then
        match node with
        | .directory => IO.FS.createDirAll path
        | .file bytes => IO.FS.writeBinFile path bytes

def twoDigits (n : Nat) : String :=
  if n < 10 then "0" ++ toString n else toString n

def stamp : IO Stamp := do
  let now ← Std.Time.PlainDateTime.now
  let day := "-".intercalate
    [toString now.date.year.toInt, twoDigits now.date.month.toNat, twoDigits now.date.day.toNat]
  let time := ":".intercalate [twoDigits now.time.hour.toNat,
    twoDigits now.time.minute.toNat, twoDigits now.time.second.toNat]
  return ⟨day ++ " " ++ time, "0"⟩

/-- The workers take their steps in turn. Any other schedule would do as well. -/
def inTurn (count : Nat) : Nat := count

def run (arguments : List String) : IO UInt32 := do
  let files ← observePath (← surroundings) Settings.variablesPath
  match Settings.reload files (← environment files) {} with
  | (some error, _, _) =>
    IO.eprintln error.message
    return 1
  | (none, _, settings) =>
    let files ←
      match Arguments.read arguments with
      | .ok arguments => observeRun files settings arguments
      | .error _ => pure files
    let (result, session) :=
      CommandLine.execute settings inTurn arguments
        { files, logging := { stamps := Function.const _ (← stamp) } }
    writeBack files session.files
    IO.eprint session.console
    match result with
    | .ok report =>
      IO.print report.output
      return report.exitCode.toUInt32
    | .error failure =>
      IO.eprintln (failure.message?.getD "The data are nested too deeply").shown
      return 1

end CatalogPress.Program

def main (arguments : List String) : IO UInt32 :=
  CatalogPress.Program.run arguments
