import CatalogPress.Log.Session

/-!
Setting up logging. Handlers are set up once; where this fails half-way, what was set up so far
stays, and setting up may be tried again.
-/
namespace CatalogPress

structure LogFile where
  name : String
  level : Int
  backups : Nat
deriving DecidableEq, Inhabited, Repr

/-- The path of a file in the log directory, from the root and without two points. -/
def FileSystem.logPath (files : FileSystem) (directory name : String) : Text :=
  (files.workingDirectory ++ Path.ofText directory ++ Path.ofText name).withoutParents.text

namespace LogFile

def main : LogFile := ⟨"shaderdocs.log", LogRecord.debugLevel, 5⟩

def errors : LogFile := ⟨"shaderdocs_errors.log", LogRecord.errorLevel, 3⟩

def handler (file : LogFile) (files : FileSystem) (directory : String) : Handler :=
  ⟨.file (files.logPath directory file.name) file.backups, file.level⟩

end LogFile

namespace Session

def addHandler (handler : Handler) (session : Session) : Session :=
  { session with
    logging := { session.logging with handlers := session.logging.handlers ++ [handler] } }

def addFile (directory : String) (file : LogFile) (session : Session) :
    Except FileError Unit × Session :=
  match session.openStream session.logging.handlers.length
      (session.files.logPath directory file.name) with
  | .ok opened => (.ok (), opened.addHandler (file.handler session.files directory))
  | .error error => (.error error, session)

def addFiles (directory : String) (session : Session) : Except FileError Unit × Session :=
  match session.files.ensureTree directory with
  | (.error error, files) => (.error error, { session with files })
  | (.ok (), files) =>
    match { session with files }.addFile directory .main with
    | (.error error, session) => (.error error, session)
    | (.ok (), session) => session.addFile directory .errors

def setUpLogging (directory : Option String) (levelName : String) (session : Session) :
    Except Failure Unit × Session :=
  if session.logging.configured then (.ok (), session)
  else
    match Level.ofName levelName with
    | .text text => (.error (.unknownLevel text), session)
    | .table shown => (.error (.notALevel shown), session)
    | .level level =>
      let session :=
        { session with logging := { session.logging with threshold := level } }.addHandler
          ⟨.console, level⟩
      let finish (session : Session) : Session :=
        { session with logging := { session.logging with configured := true } }
      match directory.filter (!·.isEmpty) with
      | none => (.ok (), finish session)
      | some directory =>
        match session.addFiles directory with
        | (.ok (), session) => (.ok (), finish session)
        | (.error error, session) => (.error (.file error), session)

end Session
end CatalogPress
