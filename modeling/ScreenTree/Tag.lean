import ScreenTree.Node.Basic
import ScreenTree.Text.Uppercase

/-! # Classes of tags

What an element is follows from its tag by fixed tables. All look-ups but those of special tags
and promoted children ignore case. -/

namespace ScreenTree.Tag

/-- Lower case for a comparison with ASCII text. Above ASCII only the Kelvin sign has a lower-case
form in ASCII, so no other character can make a difference. -/
def foldChar (c : Char) : Char :=
  if c = '\u212a' then 'k' else c.toLower

def fold (tag : String) : String :=
  String.ofList (tag.toList.map foldChar)

def hostElements : List String :=
  ["div", "span", "p", "h1", "h2", "h3", "h4", "h5", "h6", "section", "article", "nav", "aside",
    "header", "footer", "img", "form", "label", "select", "option", "textarea", "ul", "ol", "li",
    "table", "tr", "td", "th", "br", "hr", "a", "strong", "em", "code", "pre"]

/-- Components that come with the library of registered ones. -/
def suppliedComponents : List String :=
  ["card", "button", "text", "container", "input", "icon", "imagecontainer"]

/-- Components that are written with their children. -/
def containers : List String :=
  ["container"]

def voidElements : List String :=
  ["img", "input", "br", "hr", "meta", "link"]

/-- Components whose literal children become a property. -/
def promotions : List (String × String) :=
  [("button", "text"), ("text", "content")]

def isSpecial (tag : String) : Bool :=
  tag == Kind.groupTag || tag == Kind.literalTag

def isHost (tag : String) : Bool :=
  hostElements.contains (fold tag)

/-- A tag is a component if it is neither special nor a host element. -/
def isComponent (tag : String) : Bool :=
  !tag.isEmpty && !isSpecial tag && !isHost tag

def isSupplied (tag : String) : Bool :=
  suppliedComponents.contains (fold tag)

def takesChildren (tag : String) : Bool :=
  containers.contains (fold tag)

def isVoid (tag : String) : Bool :=
  voidElements.contains (fold tag)

/-- The property that the literal children of this component become. -/
def promotion? (tag : String) : Option String :=
  promotions.lookup tag

/-- The identifier of a component in generated code. -/
def identifier (tag : String) : String :=
  Uppercase.capitalize tag

/-- The first character of a plain tag name. -/
def isPlainStart (c : Char) : Bool :=
  c.isAlpha || c == '_'

def isPlainPart (c : Char) : Bool :=
  c.isAlphanum || c == '_' || c == '.' || c == ':' || c == '-'

/-- Tag names that strict rendering accepts. -/
def isPlain (tag : String) : Bool :=
  match tag.toList with
  | [] => false
  | c :: cs => isPlainStart c && cs.all isPlainPart

end ScreenTree.Tag
