import CatalogPress.Catalog.Basic
import CatalogPress.Context.Basic
import CatalogPress.Files.System
import CatalogPress.Number.Integer
import CatalogPress.Settings.Dotenv

/-!
Settings, taken from the environment and from a file of variables, whose bindings win and stay in
the environment. Settings are taken one after another: if one of them is not an integer, those after
it keep their values.
-/
namespace CatalogPress

abbrev Environment := Table String String

structure Settings where
  catalogPath : String := "config/shader-catalog.json"
  projectPath : String := "config/package-config.json"
  licenceText : String := "Creative Commons Attribution 4.0 International"
  licenceCode : String := "CC BY 4.0"
  categories : List String := Catalog.defaultCategories
  renderDepth : Int := 32
  workers : Int := 4
  logDirectory : Option String := none
  logLevel : String := "INFO"
deriving DecidableEq, Inhabited, Repr

inductive SettingsError where
  | integer (fault : IntegerFault)
  | undecodable (fault : Utf8.Fault)
  | nulInVariable
  | illegalName
deriving DecidableEq, Inhabited, Repr

namespace SettingsError

def message : SettingsError → String
  | integer fault => fault.message
  | undecodable fault => fault.message
  | nulInVariable => "embedded null byte"
  | illegalName => "illegal environment variable name"

end SettingsError

namespace Environment

def get (environment : Environment) (name default : String) : String :=
  (Table.get? name environment).getD default

/-- Sets variables in order. A variable that cannot be set ends this, and those before it stay. -/
def setAll (environment : Environment) :
    Table String (Option String) → Option SettingsError × Environment
  | [] => (none, environment)
  | (_, none) :: rest => setAll environment rest
  | (name, some value) :: rest =>
    if name.toList.contains '\x00' || value.toList.contains '\x00' then
      (some .nulInVariable, environment)
    else if name.toList.contains '=' then (some .illegalName, environment)
    else setAll (Table.put name value environment) rest

def load (environment : Environment) (text : String) : Option SettingsError × Environment :=
  environment.setAll (Dotenv.resolve environment (Dotenv.read text))

end Environment

namespace Settings

def variablesPath : String := ".env"

def variableNames : List String := [
  "SHADERDOCS_CATALOG_PATH", "SHADERDOCS_PROJECT_CONFIG", "SHADERDOCS_DEFAULT_LICENCE",
  "SHADERDOCS_DEFAULT_LICENCE_CODE", "SHADERDOCS_CATEGORIES", "SHADERDOCS_MAX_RENDER_DEPTH",
  "SHADERDOCS_RENDER_WORKERS", "LOG_DIR", "LOG_LEVEL"]

def licenceDefaults (settings : Settings) : LicenceDefaults :=
  ⟨some settings.licenceText, some settings.licenceCode⟩

def takeTexts (environment : Environment) (settings : Settings) : Settings :=
  { settings with
    catalogPath := environment.get "SHADERDOCS_CATALOG_PATH" "config/shader-catalog.json"
    projectPath := environment.get "SHADERDOCS_PROJECT_CONFIG" "config/package-config.json"
    licenceText := environment.get "SHADERDOCS_DEFAULT_LICENCE"
      "Creative Commons Attribution 4.0 International"
    licenceCode := environment.get "SHADERDOCS_DEFAULT_LICENCE_CODE" "CC BY 4.0"
    categories := Text.split ',' (environment.get "SHADERDOCS_CATEGORIES" "BGX,GFX,LFX,VFX,AFX") }

def takeLog (environment : Environment) (settings : Settings) : Settings :=
  { settings with
    logDirectory := (Table.get? "LOG_DIR" environment).filter (!·.isEmpty)
    logLevel := environment.get "LOG_LEVEL" "INFO" }

def take (environment : Environment) (settings : Settings) : Option SettingsError × Settings :=
  let settings := settings.takeTexts environment
  match Integer.read (environment.get "SHADERDOCS_MAX_RENDER_DEPTH" "32") with
  | .error fault => (some (.integer fault), settings)
  | .ok depth =>
    let settings := { settings with renderDepth := depth }
    match Integer.read (environment.get "SHADERDOCS_RENDER_WORKERS" "4") with
    | .error fault => (some (.integer fault), settings)
    | .ok workers => (none, takeLog environment { settings with workers })

def reload (files : FileSystem) (environment : Environment) (settings : Settings) :
    Option SettingsError × Environment × Settings :=
  let loaded :=
    match files.readText variablesPath with
    | .ok text => environment.load text
    | .error (.undecodable fault) => (some (.undecodable fault), environment)
    | .error (.file _) => (none, environment)
  match loaded with
  | (some error, environment) => (some error, environment, settings)
  | (none, environment) =>
    let (error, settings) := settings.take environment
    (error, environment, settings)

end Settings
end CatalogPress
