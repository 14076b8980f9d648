import CatalogPress.Value.Basic

/-!
Entries of a catalog. An entry and its credits may each carry a licence, a text and a code, which
stay under the keys that they were supplied with. Fields that the catalog does not know are kept.
-/
namespace CatalogPress

structure Licence where
  text : Option Text := none
  code : Option Text := none
  textKey : String := "licence"
  codeKey : String := "licenseCode"
deriving DecidableEq, BEq, Inhabited, Repr

structure Credits where
  author : Option Text := none
  title : Option Text := none
  description : Option Text := none
  externalUrl : Option Text := none
  licence : Licence := {}
  extra : Fields Json := []
deriving BEq, Inhabited, Repr

structure Entry where
  name : Text
  filename : Text
  type : Text
  shortDescription : Option Text := none
  longDescription : Option Text := none
  imageUrl : Option Text := none
  licence : Licence := {}
  credits : Option Credits := none
  extra : Fields Json := []
deriving BEq, Inhabited, Repr

def putText (key : Text) (text : Option Text) (fields : Fields Json) : Fields Json :=
  Fields.putIfSome key (text.map .str) fields

def Licence.put (licence : Licence) (fields : Fields Json) : Fields Json :=
  putText licence.codeKey licence.code (putText licence.textKey licence.text fields)

def Credits.fields (credits : Credits) : Fields Json :=
  credits.extra
    |> putText "originalAuthor" credits.author
    |> putText "originalTitle" credits.title
    |> putText "description" credits.description
    |> putText "externalUrl" credits.externalUrl
    |> credits.licence.put

namespace Entry

def isAdapted (entry : Entry) : Bool :=
  (entry.credits.bind (·.author)).any (!·.isEmpty)

def fields (entry : Entry) : Fields Json :=
  entry.extra
    |> Fields.put "name" (.str entry.name)
    |> Fields.put "filename" (.str entry.filename)
    |> Fields.put "type" (.str entry.type)
    |> putText "shortDescription" entry.shortDescription
    |> putText "longDescription" entry.longDescription
    |> putText "imageUrl" entry.imageUrl
    |> entry.licence.put
    |> Fields.putIfSome "credits" (entry.credits.map fun credits => .record credits.fields)

def value (entry : Entry) : Value :=
  Value.ofJson (.record entry.fields)

end Entry
end CatalogPress
