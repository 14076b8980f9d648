import CatalogPress.Failure
import CatalogPress.Files.System
import CatalogPress.Json.Reader
import CatalogPress.Log.Record

/-!
Catalogs. A catalog is given as a list of entry objects, as a list in a section of an object, or in
groups by category, again in a section or as the whole object. Entries are checked in order and the
first fault is reported; that no two entries share a file name is checked last.
-/
namespace CatalogPress

/-- The entries in order; the groups are kept if the catalog was given in groups. -/
structure Catalog where
  entries : List Entry
  groups : Option (Table Text (List Entry)) := none
deriving BEq, Inhabited, Repr

namespace Catalog

def defaultCategories : List String :=
  ["BGX", "GFX", "LFX", "VFX", "AFX"]

def listSections : List Text :=
  ["shaders", "entries"]

/-- The type of an entry: its own unless it is missing, null or empty, or else that of its group. -/
def effectiveType? (group : Option Text) (fields : Fields Json) : Option Text :=
  match FieldName.type.text? fields with
  | some type => if type.isEmpty then group else some type
  | none => group

def readEntry (known : List Text) (group : Option Text) (place : Text) (item : Json) :
    Except CatalogError Entry :=
  match item with
  | .record fields =>
    let faults := Entry.faults fields
    let filename := (FieldName.filename.text? fields).getD ""
    if !faults.isEmpty then .error (.invalidEntry place faults)
    else
      match effectiveType? group fields with
      | none => .error (.noType place filename)
      | some type =>
        match group with
        | some group =>
          if type ≠ group then .error (.misplaced place filename type group)
          else if type ∉ known then .error (.unknownType place filename type known)
          else .ok (Entry.ofFields type fields)
        | none =>
          if type ∉ known then .error (.unknownType place filename type known)
          else .ok (Entry.ofFields type fields)
  | _ => .error (.entryNotObject place)

def readItems (known : List Text) (group : Option Text) (place : Text) (first : Nat) :
    List Json → Except CatalogError (List Entry)
  | [] => .ok []
  | item :: rest => do
    let head ← readEntry known group (place ++ "[" ++ toString first ++ "]") item
    let tail ← readItems known group place (first + 1) rest
    return head :: tail

def repeatedFilename? (seen : List Text) : List Entry → Option Text
  | [] => none
  | entry :: rest =>
    if entry.filename ∈ seen then some entry.filename
    else repeatedFilename? (entry.filename :: seen) rest

def finish (entries : List Entry) (groups : Option (Table Text (List Entry))) :
    Except CatalogError Catalog :=
  match repeatedFilename? [] entries with
  | some filename => .error (.duplicateFilename filename)
  | none => .ok ⟨entries, groups⟩

def readGroup (known : List Text) (key : Text) (items : Json) :
    Except CatalogError (Text × List Entry) :=
  if key ∉ known then .error (.unknownCategory key known)
  else
    match items with
    | .list items => (readItems known (some key) ("grouped." ++ key) 0 items).map (key, ·)
    | _ => .error (.categoryNotList key)

def ofGroups (known : List Text) (groups : Fields Json) : Except CatalogError Catalog := do
  let groups ← groups.mapM fun (key, items) => readGroup known key items
  finish (groups.flatMap (·.2)) (some groups)

def ofList (known : List Text) (place : Text) (items : List Json) :
    Except CatalogError Catalog := do
  finish (← readItems known none place 0 items) none

def listSection? (fields : Fields Json) : Option (Text × List Json) :=
  listSections.findSome? fun key => ((Fields.get? key fields).bind (·.list?)).map (key, ·)

def ofJson (known : List Text) (data : Json) : Except CatalogError Catalog :=
  match data with
  | .list items => ofList known "" items
  | .record fields =>
    match (Fields.get? "grouped" fields).bind (·.record?) with
    | some groups => ofGroups known groups
    | none =>
      match listSection? fields with
      | some (key, items) => ofList known key items
      | none =>
        if !fields.isEmpty && (Table.keys fields).all (· ∈ known) then ofGroups known fields
        else .error .noSection
  | data => .error (.notListOrObject data.typeName)

def logger : String := "shaderdocs.catalog.loader"

/-- A file that cannot be read and text that is no JSON are faults of the catalog. A path that no
file can have, bytes that are no text and integers that are too long are not. -/
def load (files : FileSystem) (path : Path) (known : List Text) : Except Failure Catalog := do
  let text ← (files.readText path.text).mapError fun
    | .file (.system fault path') =>
      .catalog (.unreadable path.text (FileError.system fault path').message)
    | .file error => .file error
    | .undecodable fault => .undecodable fault
  let data ← (Json.read .file text).mapError fun
    | .malformed | .nestedTooDeeply => .catalog (.invalidJson path.text)
    | .integerTooLong digits => .integerTooLong digits
  (ofJson known data).mapError .catalog

def log (path : Path) (catalog : Catalog) : List LogRecord := [
  ⟨LogRecord.infoLevel, logger,
    "Loaded " ++ toString catalog.entries.length ++ " catalog entries from " ++ path.text⟩]

end Catalog
end CatalogPress
