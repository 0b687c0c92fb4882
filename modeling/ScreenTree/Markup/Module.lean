import ScreenTree.Markup.Import
import ScreenTree.Markup.Screen
import ScreenTree.Markup.Template

/-! # Generated modules

The app module imports the components of a tree and wraps its markup in one element. A component
module exports the function of one definition; components in its template are not imported. -/

namespace ScreenTree

/-- The names of declared properties as one pattern, or nothing. -/
def Markup.parameters (names : List String) : String :=
  if names.isEmpty then "" else "\x7b " ++ Text.join ", " names ++ " \x7d"

namespace Options

/-- The app module around the markup of its tree. -/
def appText (options : Options) (tree : Tree) (markup : String) : String :=
  Import.lines options tree ++ "\nexport default function " ++ options.appName ++
    "() \x7b\n    return (\n        <div>\n" ++ markup ++
    "\n        </div>\n    );\n\x7d"

/-- The markup of a node at a depth of nesting. -/
def markup (options : Options) (node : Node) (depth : Nat) : Except Error String :=
  (Markup.render options.mode depth node).mapError Error.malformed

/-- The app module of a tree. -/
def appModule (options : Options) (tree : Tree) : Except Error String :=
  (options.markup tree.root 0).map (options.appText tree)

/-- The module of a component around the parts of its template. -/
def componentText (d : Definition) (parts : List String) : String :=
  "export function " ++ Tag.identifier d.name ++ "(" ++ Markup.parameters d.propNames ++
    ") \x7b\n    return (\n" ++ Text.joinLines parts ++ "\n    );\n\x7d"

/-- The module of a component. -/
def componentModule (options : Options) (d : Definition) : Except Error String :=
  ((Markup.renderTemplates options.mode d.name 1 d.children).mapError Error.malformed).map
    (componentText d)

end Options
end ScreenTree
