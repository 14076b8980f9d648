import CatalogPress.Catalog.Entry

/-!
The fields of an entry object and of its credits. Each has a key and some have a second key, which
counts only where the first is missing. Checking an object lists all its faults, in the order in
which the fields are declared; the two spellings of a licence are compared only if every field is
sound.
-/
namespace CatalogPress

structure FieldName where
  key : String
  alternative : Option String := none
deriving DecidableEq, Inhabited, Repr

namespace FieldName

def supplied? (name : FieldName) (fields : Fields Json) : Option (String × Json) :=
  match Fields.get? name.key fields with
  | some data => some (name.key, data)
  | none => name.alternative.bind fun key => (Fields.get? key fields).map (key, ·)

def text? (name : FieldName) (fields : Fields Json) : Option Text :=
  (name.supplied? fields).bind (·.2.str?)

end FieldName

inductive FieldFaultKind where
  | missing
  | notText
  | notCredits
  | unwritableKey
  | bothSpellings (first second : String)
deriving DecidableEq, Inhabited, Repr

structure FieldFault where
  location : List String
  kind : FieldFaultKind
deriving DecidableEq, Inhabited, Repr

namespace FieldFaultKind

def code : FieldFaultKind → String
  | missing => "missing"
  | notText => "string_type"
  | notCredits => "model_type"
  | unwritableKey => "string_unicode"
  | bothSpellings _ _ => "value_error"

def message : FieldFaultKind → String
  | missing => "Field required"
  | notText => "Input should be a valid string"
  | notCredits => "Input should be a valid dictionary or instance of CreditsModel"
  | unwritableKey =>
    "Input should be a valid string, unable to parse raw data as a unicode string"
  | bothSpellings first second =>
    "Value error, give either '" ++ first ++ "' or '" ++ second ++ "', not both"

end FieldFaultKind

namespace FieldName

def licence : FieldName := ⟨"licence", none⟩
def license : FieldName := ⟨"license", none⟩
def licenceCode : FieldName := ⟨"licenceCode", some "licence_code"⟩
def licenseCode : FieldName := ⟨"licenseCode", some "license_code"⟩
def name : FieldName := ⟨"name", none⟩
def filename : FieldName := ⟨"filename", none⟩
def type : FieldName := ⟨"type", none⟩
def shortDescription : FieldName := ⟨"shortDescription", some "short_description"⟩
def longDescription : FieldName := ⟨"longDescription", some "long_description"⟩
def imageUrl : FieldName := ⟨"imageUrl", some "image_url"⟩
def credits : FieldName := ⟨"credits", none⟩
def author : FieldName := ⟨"originalAuthor", some "original_author"⟩
def title : FieldName := ⟨"originalTitle", some "original_title"⟩
def description : FieldName := ⟨"description", none⟩
def externalUrl : FieldName := ⟨"externalUrl", some "external_url"⟩

def ofLicence : List FieldName :=
  [licence, license, licenceCode, licenseCode]

def ofCredits : List FieldName :=
  ofLicence ++ [author, title, description, externalUrl]

def ofEntry : List FieldName :=
  ofLicence ++ [name, filename, type, shortDescription, longDescription, imageUrl, credits]

def requiredFaults (name : FieldName) (fields : Fields Json) : List FieldFault :=
  match name.supplied? fields with
  | none => [⟨[name.key], .missing⟩]
  | some (_, .str _) => []
  | some (key, _) => [⟨[key], .notText⟩]

def optionalFaults (name : FieldName) (fields : Fields Json) : List FieldFault :=
  match name.supplied? fields with
  | none | some (_, .null) | some (_, .str _) => []
  | some (key, _) => [⟨[key], .notText⟩]

def unknown (names : List FieldName) (fields : Fields Json) : Fields Json :=
  let known : List Text := names.filterMap fun name => (name.supplied? fields).map (·.1)
  fields.filter fun field => !known.contains field.1

end FieldName

namespace Licence

/-- A licence text and a licence code may each be given in one spelling only. -/
def spellingFaults (fields : Fields Json) : List FieldFault :=
  if (FieldName.licence.text? fields).isSome && (FieldName.license.text? fields).isSome then
    [⟨[], .bothSpellings "licence" "license"⟩]
  else if (FieldName.licenceCode.text? fields).isSome
      && (FieldName.licenseCode.text? fields).isSome then
    [⟨[], .bothSpellings "licenceCode" "licenseCode"⟩]
  else []

def ofFields (fields : Fields Json) : Licence :=
  let (text, textKey) :=
    match FieldName.licence.text? fields, FieldName.license.text? fields with
    | none, some text => (some text, "license")
    | text, _ => (text, "licence")
  let (code, codeKey) :=
    match FieldName.licenseCode.text? fields, FieldName.licenceCode.text? fields with
    | none, some code => (some code, "licenceCode")
    | code, _ => (code, "licenseCode")
  { text, code, textKey, codeKey }

end Licence

/-- The faults of an object: that it has a key which cannot be written, or else those of its fields,
or else those of its licence spellings. -/
def objectFaults (fieldFaults : List FieldFault) (fields : Fields Json) : List FieldFault :=
  if (Table.keys fields).any (·.string?.isNone) then [⟨[], .unwritableKey⟩]
  else if fieldFaults.isEmpty then Licence.spellingFaults fields
  else fieldFaults

namespace Credits

def faults (fields : Fields Json) : List FieldFault :=
  objectFaults (FieldName.ofCredits.flatMap (·.optionalFaults fields)) fields

def faultsIn (fields : Fields Json) : List FieldFault :=
  match FieldName.credits.supplied? fields with
  | none | some (_, .null) => []
  | some (key, .record credits) =>
    (faults credits).map fun fault => { fault with location := key :: fault.location }
  | some (key, _) => [⟨[key], .notCredits⟩]

def ofFields (fields : Fields Json) : Credits where
  author := FieldName.author.text? fields
  title := FieldName.title.text? fields
  description := FieldName.description.text? fields
  externalUrl := FieldName.externalUrl.text? fields
  licence := Licence.ofFields fields
  extra := FieldName.unknown FieldName.ofCredits fields

end Credits

namespace Entry

def faults (fields : Fields Json) : List FieldFault :=
  objectFaults
    (FieldName.ofLicence.flatMap (·.optionalFaults fields) ++
      [FieldName.name, .filename].flatMap (·.requiredFaults fields) ++
      [FieldName.type, .shortDescription, .longDescription, .imageUrl].flatMap
        (·.optionalFaults fields) ++
      Credits.faultsIn fields)
    fields

def ofFields (type : Text) (fields : Fields Json) : Entry where
  name := (FieldName.name.text? fields).getD ""
  filename := (FieldName.filename.text? fields).getD ""
  type := type
  shortDescription := FieldName.shortDescription.text? fields
  longDescription := FieldName.longDescription.text? fields
  imageUrl := FieldName.imageUrl.text? fields
  licence := Licence.ofFields fields
  credits :=
    ((FieldName.credits.supplied? fields).bind (·.2.record?)).map Credits.ofFields
  extra := FieldName.unknown FieldName.ofEntry fields

end Entry
end CatalogPress
