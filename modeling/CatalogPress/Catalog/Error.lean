import CatalogPress.Catalog.Field

/-!
What can be wrong with a catalog, and how it is put into words.
-/
namespace CatalogPress

inductive CatalogError where
  | unreadable (path reason : Text)
  | invalidJson (path : Text)
  | notListOrObject (typeName : String)
  | noSection
  | unknownCategory (key : Text) (known : List Text)
  | categoryNotList (key : Text)
  | entryNotObject (place : Text)
  | invalidEntry (place : Text) (faults : List FieldFault)
  | noType (place filename : Text)
  | misplaced (place filename type group : Text)
  | unknownType (place filename type : Text) (known : List Text)
  | duplicateFilename (filename : Text)
deriving DecidableEq, Inhabited, Repr

namespace CatalogError

def expected (known : List Text) : Text :=
  "(expected one of " ++ Text.intercalate ", " known ++ ")"

def entryAt (place filename : Text) : Text :=
  "Entry " ++ place ++ " (" ++ filename ++ ")"

def message : CatalogError → Text
  | unreadable path reason => "Cannot read catalog " ++ path ++ ": " ++ reason
  | invalidJson path => "Invalid JSON in catalog " ++ path
  | notListOrObject typeName => "Catalog must be a list or an object, got " ++ typeName
  | noSection =>
    "Catalog object has no 'grouped', 'shaders' or 'entries' section and is not a category map"
  | unknownCategory key known => "Unknown category '" ++ key ++ "' " ++ expected known
  | categoryNotList key => "Category '" ++ key ++ "' must hold a list of entries"
  | entryNotObject place => "Entry " ++ place ++ " must be an object"
  | invalidEntry place _ => "Invalid entry " ++ place
  | noType place filename => entryAt place filename ++ " has no type"
  | misplaced place filename type group =>
    entryAt place filename ++ " has type '" ++ type ++ "' but is grouped under '" ++ group ++ "'"
  | unknownType place filename type known =>
    entryAt place filename ++ " has unknown type '" ++ type ++ "' " ++ expected known
  | duplicateFilename filename => "Duplicate catalog filename '" ++ filename ++ "'"

end CatalogError
end CatalogPress
