import ScreenTree.Markup.Options
import ScreenTree.Path

/-! # Configuration of a workspace

Where generated modules go, and how they are generated. Every field has a default. -/

namespace ScreenTree

/-- What stands at the place of a file to be read. -/
inductive Source
  | missing
  | directory
  | bytes (content : ByteArray)

/-- The text of a file. -/
def Source.text : Source → Except Error String
  | .missing => .error (.file ⟨.notFound, none⟩)
  | .directory => .error (.file ⟨.isDirectory, none⟩)
  | .bytes content =>
    match String.fromUTF8? content with
    | some text => .ok text
    | none => .error (.file ⟨.invalidData, none⟩)

structure Config where
  /-- Where the app module goes. -/
  appDirectory : String
  /-- Where the modules of registered components go. -/
  componentDirectory : String
  appFile : String
  options : Options
  deriving DecidableEq

namespace Config

open Json.Form

def standard : Config where
  appDirectory := "app/src/generated"
  componentDirectory := "usercomponents"
  appFile := "GeneratedApp.jsx"
  options := .standard

def shape : Shape where
  names := ["generatedDir", "userComponentsDir", "appFileName", "generator"]
  aliases := []
  closed := false

def form? : Reader Config
  | 0, _ => none
  | room + 1, form =>
    (shape.fields? form).bind fun field => do
      let appDirectory ← default? string? standard.appDirectory room (field "generatedDir")
      let componentDirectory ←
        default? string? standard.componentDirectory room (field "userComponentsDir")
      let appFile ← default? string? standard.appFile room (field "appFileName")
      let options ← default? Options.form? standard.options room (field "generator")
      return { appDirectory, componentDirectory, appFile, options }

def toJson (c : Config) : Json :=
  .object [
    ("generatedDir", .string c.appDirectory),
    ("userComponentsDir", .string c.componentDirectory),
    ("appFileName", .string c.appFile),
    ("generator", c.options.toJson)]

def read (text : String) : Except Error Config :=
  match Json.Form.read? form? text with
  | some c => .ok c
  | none => .error .configuration

def readSource (source : Source) : Except Error Config :=
  source.text.bind read

def appModulePath (c : Config) : String :=
  Path.join c.appDirectory c.appFile

def componentModulePath (c : Config) (name : String) : String :=
  Path.join c.componentDirectory (name ++ ".jsx")

end Config
end ScreenTree
