import CatalogPress.Failure
import CatalogPress.Files.System
import CatalogPress.Log.Record

/-!
The state of a run, and logging in it. A record that reaches the threshold goes to every handler
whose own level it reaches: as a line to the console, or to the end of a file. A file that would get
too large becomes the first of its backups and is started anew, and the last backup is given up.
-/
namespace CatalogPress

inductive Sink where
  | console
  | file (path : Text) (backups : Nat)
deriving DecidableEq, Inhabited, Repr

structure Handler where
  sink : Sink
  level : Int
deriving DecidableEq, Inhabited, Repr

/-- What a handler has open. A file stays open where it is moved to, and even when it is removed. -/
inductive Stream where
  | closed
  | opened (location : Location)
  | removed (size : Nat)
deriving DecidableEq, Inhabited, Repr

structure Logging where
  threshold : Int := LogRecord.infoLevel
  handlers : List Handler := []
  configured : Bool := false
  /-- The stamps of the records that are taken, in their order. -/
  stamps : Nat → Stamp

/-- The state of a run: the files, how logging is set up, what its handlers have open, by their
numbers, what has been written to the console and which records have reached the threshold. -/
structure Session where
  files : FileSystem
  logging : Logging
  streams : Nat → Stream := fun _ => .closed
  console : String := ""
  taken : List LogRecord := []

namespace Stream

def moved (source target : Location) : Stream → Stream
  | .opened location => .opened (location.moved source target)
  | stream => stream

def without (location : Location) (size : Nat) (stream : Stream) : Stream :=
  if stream = .opened location then .removed size else stream

end Stream

namespace Session

def sizeLimit : Nat := 10 * 1024 * 1024

/-- The path of a backup of a file. The file itself has the number 0. -/
def backup (path : Text) (number : Nat) : Text :=
  if number = 0 then path else path ++ "." ++ toString number

def sizeAt (session : Session) (location : Location) : Nat :=
  match session.files.node? location with
  | some (.file bytes) => bytes.size
  | _ => 0

def streamSize (session : Session) (number : Nat) : Nat :=
  match session.streams number with
  | .closed => 0
  | .opened location => session.sizeAt location
  | .removed size => size

def setStream (session : Session) (number : Nat) (stream : Stream) : Session :=
  { session with streams := fun other => if other = number then stream else session.streams other }

def openStream (number : Nat) (path : Text) (session : Session) : Except FileError Session := do
  let (location, files) ← session.files.openFile path id
  return { session with files }.setStream number (.opened location)

def close (number : Nat) (session : Session) : Except FileError Session :=
  .ok (session.setStream number .closed)

def ensureOpen (number : Nat) (path : Text) (session : Session) : Except FileError Session :=
  if session.streams number = .closed then session.openStream number path else .ok session

def clear (path : Text) (session : Session) : Except FileError Session :=
  if session.files.holds path then do
    let (location, files) ← session.files.remove path
    return { session with
      files
      streams := fun number => (session.streams number).without location (session.sizeAt location) }
  else .ok session

def makeWay (path : Text) (number : Nat) (session : Session) : Except FileError Session :=
  if session.files.holds (backup path number) then session.clear (backup path (number + 1))
  else .ok session

def passOn (path : Text) (number : Nat) (session : Session) : Except FileError Session :=
  if session.files.holds (backup path number) then do
    let (source, target, files) ←
      session.files.rename (backup path number) (backup path (number + 1))
    return { session with
      files
      streams := fun number => (session.streams number).moved source target }
  else .ok session

def perform : List (Session → Except FileError Session) → Session → Session
  | [], session => session
  | step :: steps, session =>
    match step session with
    | .ok next => perform steps next
    | .error _ => session

def passBackups (path : Text) : Nat → List (Session → Except FileError Session)
  | 0 => []
  | number + 1 => makeWay path (number + 1) :: passOn path (number + 1) :: passBackups path number

/-- Makes the file of a handler its first backup, if backups are kept, and opens it anew. -/
def rotate (number : Nat) (path : Text) : Nat → List (Session → Except FileError Session)
  | 0 => [close number, openStream number path]
  | backups + 1 =>
    close number :: (passBackups path backups ++
      [clear (backup path 1), passOn path 0, openStream number path])

/-- Adds to the open file of a handler. A text with a surrogate has no bytes and is not added. -/
def addText (number : Nat) (text : Text) (session : Session) : Session :=
  match Utf8.encode text, session.streams number with
  | .ok bytes, .opened location =>
    { session with files := session.files.alter location (· ++ bytes) }
  | .ok bytes, .removed size => session.setStream number (.removed (size + bytes.size))
  | _, _ => session

/-- Whether a file would get too large by a text. Where its path leads to a directory it never
does. -/
def isFull (number : Nat) (path text : Text) (session : Session) : Bool :=
  !session.files.isDirectory path && sizeLimit ≤ session.streamSize number + text.length

/-- Writes to the file of a handler. Where anything fails, the text is lost. -/
def writeFile (number : Nat) (path : Text) (backups : Nat) (text : Text) (session : Session) :
    Session :=
  match session.ensureOpen number path with
  | .error _ => session
  | .ok session =>
    let steps := if session.isFull number path text then rotate number path backups else []
    perform (steps ++ [fun session => .ok (session.addText number text)]) session

def write (number : Nat) (text : Text) (session : Session) : Sink → Session
  | .console => { session with console := session.console ++ text.shown }
  | .file path backups => session.writeFile number path backups text

def handle (level : Int) (line : Text) (session : Session) (entry : Handler × Nat) : Session :=
  if entry.1.level ≤ level then session.write entry.2 line entry.1.sink else session

/-- Logs a record. Where there are no handlers at all, the message of a warning or worse goes to the
console as it stands. -/
def log (record : LogRecord) (session : Session) : Session :=
  if record.reaches session.logging.threshold then
    let line := record.line (session.logging.stamps session.taken.length)
    let session := { session with taken := session.taken ++ [record] }
    if session.logging.handlers.isEmpty then
      if LogRecord.warningLevel ≤ record.level then
        { session with console := session.console ++ (record.message ++ "\n" : Text).shown }
      else session
    else session.logging.handlers.zipIdx.foldl (handle record.level line) session
  else session

def logAll (records : List LogRecord) (session : Session) : Session :=
  records.foldl (fun session record => session.log record) session

end Session
end CatalogPress
