import ScreenTree.Error
import ScreenTree.Json.Reader

/-! # Options of code generation -/

namespace ScreenTree

/-- What becomes of a malformed node: empty text, or an error. -/
inductive Mode
  | lenient
  | strict
  deriving DecidableEq

namespace Mode

def ofName? (name : String) : Option Mode :=
  if name = "lenient" then some .lenient
  else if name = "strict" then some .strict
  else none

def name : Mode → String
  | .lenient => "lenient"
  | .strict => "strict"

/-- A mode is written by its name, or as an object with that name for a member `null`. -/
def form? : Json.Form.Reader Mode
  | _, .string (some name) => ofName? name
  | _ + 1, .object [(some name, .null)] => ofName? name
  | _, _ => none

end Mode

structure Options where
  mode : Mode
  /-- Where supplied components are imported from. -/
  registryRoot : String
  /-- Where other components are imported from. -/
  userRoot : String
  appName : String
  deriving DecidableEq

namespace Options

open Json.Form

def standard : Options where
  mode := .lenient
  registryRoot := "../../../componentregistry"
  userRoot := "../../../usercomponents"
  appName := "GeneratedApp"

def strict : Options :=
  { standard with mode := .strict }

def shape : Shape where
  names := ["mode", "registryImportRoot", "userImportRoot", "appComponentName"]
  aliases := []
  closed := false

def form? : Reader Options
  | 0, _ => none
  | room + 1, form =>
    (shape.fields? form).bind fun field => do
      let mode ← default? Mode.form? standard.mode room (field "mode")
      let registryRoot ←
        default? string? standard.registryRoot room (field "registryImportRoot")
      let userRoot ← default? string? standard.userRoot room (field "userImportRoot")
      let appName ← default? string? standard.appName room (field "appComponentName")
      return { mode, registryRoot, userRoot, appName }

def toJson (o : Options) : Json :=
  .object [
    ("mode", .string o.mode.name),
    ("registryImportRoot", .string o.registryRoot),
    ("userImportRoot", .string o.userRoot),
    ("appComponentName", .string o.appName)]

def read (text : String) : Except Error Options :=
  Error.ofParse (Json.Form.read? form? text)

end Options
end ScreenTree
