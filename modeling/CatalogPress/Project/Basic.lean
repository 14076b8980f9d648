import CatalogPress.Failure
import CatalogPress.Json.Basic
import CatalogPress.Json.Reader
import CatalogPress.Log.Record
import CatalogPress.Settings.Basic

/-!
The configuration of a project: its version, default licence, order of categories and documents.
What its file does not give comes from the settings; without a file everything does. Relative paths
of documents start at the root of the project, which lies above a directory named `config`.
-/
namespace CatalogPress

structure Job where
  template : Path
  output : Path
deriving DecidableEq, BEq, Inhabited, Repr

structure Project where
  root : Path
  version : Option Text := none
  /-- Any datum may be given as text or code of the licence; only texts suppress. -/
  licenceText : Json
  licenceCode : Json
  categories : List Text
  documents : List Job := []
deriving BEq, Inhabited, Repr

namespace Project

def licenceDefaults (project : Project) : LicenceDefaults :=
  ⟨project.licenceText.str?, project.licenceCode.str?⟩

def rootOf (path : Path) : Path :=
  if path.parent.name = "config" then path.parent.parent else path.parent

def ofSettings (root : Path) (settings : Settings) : Project where
  root := root
  licenceText := .str settings.licenceText
  licenceCode := .str settings.licenceCode
  categories := settings.categories.map Text.ofString

def readLicence (settings : Settings) (fields : Fields Json) : Except Failure (Json × Json) :=
  let text := Json.str settings.licenceText
  let code := Json.str settings.licenceCode
  match Fields.get? "defaultLicence" fields with
  | none | some .null => .ok (text, code)
  | some (.record licence) =>
    .ok ((Fields.get? "text" licence).getD text, (Fields.get? "code" licence).getD code)
  | some _ => .error (.config .licenceNotObject)

def readCategories (settings : Settings) (fields : Fields Json) : Except Failure (List Text) :=
  match Fields.get? "categoryOrder" fields with
  | none => .ok (settings.categories.map Text.ofString)
  | some (.list items) =>
    match items.mapM Json.str? with
    | some categories => .ok categories
    | none => .error (.config .categoriesNotKeys)
  | some _ => .error (.config .categoriesNotKeys)

/-- What a datum is made of when it is gone through: items, names of fields or code points. -/
def parts? : Json → Option (List Json)
  | .list items => some items
  | .record fields => some ((Table.keys fields).map .str)
  | .str text => some (text.points.map fun point => .str ⟨[point]⟩)
  | _ => none

def resolvePath (root : Path) : Json → Except Failure Path
  | .str text => .ok (root ++ Path.ofText text)
  | data => .error (.notAPath data.typeName)

def readDocument (root : Path) (index : Nat) (data : Json) : Except Failure Job := do
  match data.field? "template", data.field? "output" with
  | some template, some output =>
    let template ← resolvePath root template
    let output ← resolvePath root output
    return ⟨template, output⟩
  | _, _ => throw (.config (.incompleteDocument index))

def readDocuments (root : Path) (index : Nat) : List Json → Except Failure (List Job)
  | [] => .ok []
  | item :: rest => do
    let head ← readDocument root index item
    let tail ← readDocuments root (index + 1) rest
    return head :: tail

/-- A version that is not a text is displayed as one; null counts as not given. -/
def readVersion (fields : Fields Json) : Option Text :=
  match Fields.get? "version" fields with
  | none | some .null => none
  | some data => some data.display

def ofFields (root : Path) (settings : Settings) (fields : Fields Json) :
    Except Failure Project := do
  let (licenceText, licenceCode) ← readLicence settings fields
  let categories ← readCategories settings fields
  let given := (Fields.get? "documents" fields).getD (.list [])
  let documents ←
    match parts? given with
    | some items => readDocuments root 0 items
    | none => throw (.notIterable given.typeName)
  return { root, version := readVersion fields, licenceText, licenceCode, categories, documents }

def ofFile (files : FileSystem) (path : Path) : Except Failure Json := do
  let text ← (files.readText path.text).mapError fun
    | .file (.system fault path') =>
      .config (.unreadable path.text (FileError.system fault path').message)
    | .file error => .file error
    | .undecodable fault => .undecodable fault
  (Json.read .file text).mapError fun
    | .malformed => .config (.invalidJson path.text)
    | .nestedTooDeeply => .nestedTooDeeply
    | .integerTooLong digits => .integerTooLong digits

/-- Whether there is a project file. A path that cannot name a file names none, unless it is too
long to be looked up. -/
def isThere (files : FileSystem) (path : Path) : Except Failure Bool :=
  match files.lookup path.text with
  | .ok node => .ok node.isSome
  | .error (.system .nameTooLong path') => .error (.file (.system .nameTooLong path'))
  | .error _ => .ok false

def logger : String := "shaderdocs.config"

def load (files : FileSystem) (settings : Settings) (path : Option Path) :
    Except Failure (Project × List LogRecord) := do
  let path := path.getD (Path.ofText settings.projectPath)
  let root := rootOf path
  if !(← isThere files path) then
    return (ofSettings root settings, [⟨LogRecord.infoLevel, logger,
      "No project config at " ++ path.text ++ ", using environment defaults"⟩])
  match ← ofFile files path with
  | .record fields => return (← ofFields root settings fields, [])
  | _ => throw (.config (.notObject path.text))

end Project
end CatalogPress
