import ScreenTree.Json.Value

/-! # Written JSON

The grammar of a JSON text without the limits that only a kept value has to meet: the range of
numbers, the pairing of surrogates in strings and the depth of nesting. Reading a typed value from
a form checks those limits on the parts that it keeps. -/

namespace ScreenTree.Json

/-- A JSON text after its grammar has been checked. A string is missing where its escapes hold a
surrogate without its partner. -/
inductive Form
  | null
  | bool (b : Bool)
  | number (n : NumberText)
  | string (s : Option String)
  | array (items : List Form)
  | object (members : List (Option String × Form))
  deriving Inhabited

namespace Form

/-- Arrays and objects that may be open at once in a kept value. -/
def maxDepth : Nat := 127

/-- How a value of a type is read from a form, given how many arrays and objects may still be
opened. -/
abbrev Reader (α : Type) := Nat → Form → Option α

def string? : Reader String
  | _, .string s => s
  | _, _ => none

/-- Reads every item of an array that is already open. -/
def items? {α : Type} (item : Form → Option α) : Form → Option (List α)
  | .array items => items.mapM item
  | _ => none

/-- Opens an array and reads every item. -/
def list? {α : Type} (item : Reader α) : Reader (List α)
  | 0, _ => none
  | room + 1, form => items? (item room) form

/-- Reads a field that may be missing; `null` counts as missing. -/
def optional? {α : Type} (value : Reader α) (room : Nat) : Option Form → Option (Option α)
  | none | some .null => some none
  | some form => (value room form).map some

/-- Reads a field that may be missing and then has a default; `null` is a value like any other. -/
def default? {α : Type} (value : Reader α) (fallback : α) (room : Nat) :
    Option Form → Option α
  | none => some fallback
  | some form => value room form

/-- The fields of a record: their names in order, other spellings of them, and whether other names
are refused. -/
structure Shape where
  names : List String
  aliases : List (String × String)
  closed : Bool

/-- The field that a written name stands for. -/
def Shape.field? (shape : Shape) (name : String) : Option String :=
  if name ∈ shape.names then some name else shape.aliases.lookup name

/-- The members that stand for fields; `none` if a name cannot be read, or is refused. -/
def Shape.known? (shape : Shape) :
    List (Option String × Form) → Option (List (String × Form))
  | [] => some []
  | (none, _) :: _ => none
  | (some name, form) :: ms =>
    match shape.field? name with
    | some field => (shape.known? ms).map ((field, form) :: ·)
    | none => if shape.closed then none else shape.known? ms

/-- The forms of a record's fields. An object may hold each field once, in any order; an array
holds the first fields in their order. -/
def Shape.fields? (shape : Shape) : Form → Option (String → Option Form)
  | .object members =>
    (shape.known? members).bind fun known =>
      if (known.map Prod.fst).Nodup then some (fun name => known.lookup name) else none
  | .array items =>
    if items.length ≤ shape.names.length then
      some (fun name => (shape.names.zip items).lookup name)
    else none
  | _ => none

/-- Puts a member at its place in an object sorted by name, in place of one of the same name. -/
def insertMember (name : String) (value : Json) : List (String × Json) → List (String × Json)
  | [] => [(name, value)]
  | (k, v) :: ms =>
    if name < k then (name, value) :: (k, v) :: ms
    else if name = k then (name, value) :: ms
    else (k, v) :: insertMember name value ms

mutual

/-- Reads any value. The members of objects are sorted by name, and the last of equal names
counts. -/
def json? : Reader Json
  | _, .null => some .null
  | _, .bool b => some (.bool b)
  | _, .number n => n.value?.map .number
  | _, .string s => s.map .string
  | 0, .array _ => none
  | room + 1, .array items => (jsonItems? room items).map .array
  | 0, .object _ => none
  | room + 1, .object members => (jsonMembers? room [] members).map .object

def jsonItems? (room : Nat) : List Form → Option (List Json)
  | [] => some []
  | f :: fs => (json? room f).bind fun v => (jsonItems? room fs).map (v :: ·)

def jsonMembers? (room : Nat) (acc : List (String × Json)) :
    List (Option String × Form) → Option (List (String × Json))
  | [] => some acc
  | (none, _) :: _ => none
  | (some k, f) :: ms => (json? room f).bind fun v => jsonMembers? room (insertMember k v acc) ms

end

end Form
end ScreenTree.Json
