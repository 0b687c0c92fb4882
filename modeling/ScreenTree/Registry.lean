import ScreenTree.Definition

/-! # The registry of components

Registered definitions hide supplied ones of the same name; the last registration of a name
counts. -/

namespace ScreenTree

namespace Supplied

/-- A text property with a default. -/
def textProp (name default : String) : Property :=
  .declared name .string (.text default)

/-- A template element with text properties. -/
def element (tag : String) (props : List (String × String)) (children : List Node) : Node :=
  ((Node.element tag).withProps (props.map fun (name, default) => textProp name default))
    |>.withChildren children

def literal (text : String) : Node :=
  .literal (.text text)

def definition (name : String) (props : List (String × String)) (children : List Node) :
    Definition :=
  ⟨name, props.map fun (name, default) => textProp name default, [], children⟩

def card : Definition :=
  definition "card"
    [("className", "bg-white rounded-lg shadow-md p-4"),
      ("cardFooter", "Card Footer"),
      ("cardHeader", "Card Header"),
      ("cardImage", "https://via.placeholder.com/150")]
    [element "div" [("className", "font-bold text-lg mb-2")] [literal "$cardHeader"],
      element "img"
        [("src", "$cardImage"),
          ("alt", "Card Image"),
          ("className", "w-full h-48 object-cover rounded mb-4")]
        [],
      element "div" [("className", "text-gray-600")] [literal "$cardFooter"]]

def button : Definition :=
  definition "button"
    [("className", "bg-blue-500 hover:bg-blue-700 text-white font-bold py-2 px-4 rounded"),
      ("text", "Click me"),
      ("type", "button")]
    [literal "$text"]

def container : Definition :=
  definition "container" [("className", "max-w-4xl mx-auto p-4")] []

def text : Definition :=
  definition "text"
    [("className", "text-gray-900"), ("content", "Sample text")]
    [literal "$content"]

def input : Definition :=
  definition "input"
    [("type", "text"),
      ("placeholder", "Enter text..."),
      ("className",
        "border border-gray-300 rounded px-3 py-2 focus:outline-none focus:border-blue-500")]
    []

/-- The supplied definitions, sorted by name. -/
def all : List Definition :=
  [button, card, container, input, text]

def find? (name : String) : Option Definition :=
  all.find? fun d => d.name == name

end Supplied

/-- Own registrations, the last one first. -/
structure Registry where
  registered : List (String × Definition)
  deriving DecidableEq

namespace Registry

def empty : Registry := ⟨[]⟩

def register (r : Registry) (name : String) (d : Definition) : Registry :=
  ⟨(name, d) :: r.registered⟩

def get? (r : Registry) (name : String) : Option Definition :=
  match r.registered.lookup name with
  | some d => some d
  | none => Supplied.find? name

def contains (r : Registry) (name : String) : Bool :=
  (r.get? name).isSome

/-- Puts a name at its place in a sorted list, unless it is there. -/
def insertName (name : String) : List String → List String
  | [] => [name]
  | k :: ks =>
    if name < k then name :: k :: ks
    else if name = k then k :: ks
    else k :: insertName name ks

/-- All known names, sorted by characters. -/
def types (r : Registry) : List String :=
  (r.registered.map Prod.fst).foldr insertName (Supplied.all.map Definition.name)

end Registry
end ScreenTree
