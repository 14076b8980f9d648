import CatalogPress.Text.Quoted
import CatalogPress.Text.Utf8

/-!
Why a file operation fails, and how it is put into words.
-/
namespace CatalogPress

inductive SystemFault where
  | notFound
  | busy
  | alreadyExists
  | notADirectory
  | isADirectory
  | nameTooLong
deriving DecidableEq, Inhabited, Repr

namespace SystemFault

def number : SystemFault → Nat
  | notFound => 2
  | busy => 16
  | alreadyExists => 17
  | notADirectory => 20
  | isADirectory => 21
  | nameTooLong => 36

def message : SystemFault → String
  | notFound => "No such file or directory"
  | busy => "Device or resource busy"
  | alreadyExists => "File exists"
  | notADirectory => "Not a directory"
  | isADirectory => "Is a directory"
  | nameTooLong => "File name too long"

end SystemFault

inductive FileError where
  | system (fault : SystemFault) (path : Text)
  /-- The path holds a NUL character, which no file name can. -/
  | nulInPath
  /-- The path, or the text that is to be written, has no bytes. -/
  | unencodable (fault : Utf8.Unencodable)
deriving DecidableEq, Inhabited, Repr

def FileError.message : FileError → String
  | system fault path =>
    "[Errno " ++ toString fault.number ++ "] " ++ fault.message ++ ": " ++ Text.quoted path
  | nulInPath => "embedded null byte"
  | unencodable fault => fault.message

inductive ReadError where
  | file (error : FileError)
  | undecodable (fault : Utf8.Fault)
deriving DecidableEq, Inhabited, Repr

end CatalogPress
