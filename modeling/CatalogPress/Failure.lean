import CatalogPress.Catalog.Error
import CatalogPress.Files.Fault
import CatalogPress.Number.Integer

/-!
Why a run ends without a result. Faulty catalogs and project configurations are expected and
reported; the other failures are not handled anywhere.
-/
namespace CatalogPress

inductive ConfigError where
  | unreadable (path reason : Text)
  | invalidJson (path : Text)
  | notObject (path : Text)
  | licenceNotObject
  | categoriesNotKeys
  | incompleteDocument (index : Nat)
deriving DecidableEq, Inhabited, Repr

def ConfigError.message : ConfigError → Text
  | unreadable path reason => "Cannot load project config " ++ path ++ ": " ++ reason
  | invalidJson path => "Cannot load project config " ++ path
  | notObject path => "Project config " ++ path ++ " must be a JSON object"
  | licenceNotObject => "'defaultLicence' must be an object with 'text' and 'code'"
  | categoriesNotKeys => "'categoryOrder' must be a list of category keys"
  | incompleteDocument index =>
    "documents[" ++ toString index ++ "] needs 'template' and 'output'"

inductive Failure where
  | catalog (error : CatalogError)
  | config (error : ConfigError)
  | undecodable (fault : Utf8.Fault)
  | integerTooLong (digits : Nat)
  | nestedTooDeeply
  | file (error : FileError)
  /-- Documents are not given as something that can be gone through. -/
  | notIterable (typeName : String)
  | notAPath (typeName : String)
  | unknownLevel (text : String)
  /-- A name that should stand for a log level stands for something else than a level or a text. -/
  | notALevel (shown : String)
deriving DecidableEq, Inhabited, Repr

namespace Failure

def message? : Failure → Option Text
  | catalog error => some error.message
  | config error => some error.message
  | undecodable fault => some fault.message
  | integerTooLong digits => some (IntegerFault.tooLong digits).message
  | nestedTooDeeply => none
  | file error => some error.message
  | notIterable typeName => some ("'" ++ typeName ++ "' object is not iterable")
  | notAPath typeName =>
    some ("unsupported operand type(s) for /: 'PosixPath' and '" ++ typeName ++ "'")
  | unknownLevel text => some ("Unknown level: " ++ Text.quoted text)
  | notALevel shown => some ("Level not an integer or a valid string: " ++ shown)

end Failure
end CatalogPress
