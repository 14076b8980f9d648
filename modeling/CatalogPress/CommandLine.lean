import CatalogPress.Log.SetUp
import CatalogPress.Run

/-!
The command line. The first argument is the catalog, the others are templates and outputs in pairs.
The exit code is 0 if every document was rendered, 1 if one failed, and 2 if the arguments, the
project or the catalog are no good.
-/
namespace CatalogPress

/-- What the arguments say: the catalog and the documents, as far as they are given. -/
structure Arguments where
  catalog : Option Path := none
  documents : Option (List Job) := none
deriving DecidableEq, Inhabited, Repr

inductive ArgumentsError where
  | unpaired
deriving DecidableEq, Inhabited, Repr

def ArgumentsError.message : ArgumentsError → String
  | unpaired => "Templates and outputs must be given in pairs"

namespace Arguments

def jobs : List String → Except ArgumentsError (List Job)
  | [] => .ok []
  | [_] => .error .unpaired
  | template :: output :: rest =>
    (jobs rest).map (⟨Path.ofText template, Path.ofText output⟩ :: ·)

def read : List String → Except ArgumentsError Arguments
  | [] => .ok {}
  | [catalog] => .ok { catalog := some (Path.ofText catalog) }
  | catalog :: pairs =>
    (jobs pairs).map fun jobs => { catalog := some (Path.ofText catalog), documents := some jobs }

end Arguments

namespace CommandLine

def logger : String := "shaderdocs.cli"

def usage : String :=
  "Usage: shaderdocs-render [<catalog.json> [<template> <output> ...]]"

structure Report where
  exitCode : Nat
  output : String := ""
deriving DecidableEq, Inhabited, Repr

def asksForHelp (arguments : List String) : Bool :=
  arguments.head?.any (["-h", "--help"].contains ·)

def runWith (settings : Settings) (schedule : Nat → Nat) (arguments : Arguments)
    (session : Session) : Except Failure Report × Session :=
  let request : Request := { catalog := arguments.catalog, documents := arguments.documents }
  let abort (message : Text) (session : Session) : Except Failure Report × Session :=
    (.ok { exitCode := 2 },
      session.log ⟨LogRecord.errorLevel, logger, "Aborting run: " ++ message⟩)
  match Run.run settings schedule request session with
  | (.ok summary, session) => (.ok { exitCode := if summary.isOk then 0 else 1 }, session)
  | (.error (.catalog error), session) => abort error.message session
  | (.error (.config error), session) => abort error.message session
  | (.error failure, session) => (.error failure, session)

def execute (settings : Settings) (schedule : Nat → Nat) (arguments : List String)
    (session : Session) : Except Failure Report × Session :=
  if asksForHelp arguments then (.ok { exitCode := 0, output := usage ++ "\n" }, session)
  else
    match Arguments.read arguments with
    | .error error =>
      (.ok { exitCode := 2, output := "Error: " ++ error.message ++ "\n" ++ usage ++ "\n" },
        session)
    | .ok arguments =>
      match session.setUpLogging settings.logDirectory settings.logLevel with
      | (.error failure, session) => (.error failure, session)
      | (.ok (), session) => runWith settings schedule arguments session

end CommandLine
end CatalogPress
