/-! # Errors

Every operation that fails says why by one of these causes; `message` is its wording. -/

namespace ScreenTree

/-- A node that cannot be written as markup. -/
inductive Malformed
  | untyped
  | untypedTemplate
  | literalWithoutValue
  | invalidTag (tag : String)
  deriving DecidableEq

def Malformed.message : Malformed → String
  | .untyped => "node without a type tag"
  | .untypedTemplate => "template node without a type tag"
  | .literalWithoutValue => "string literal without a value"
  | .invalidTag tag => "invalid tag name '" ++ tag ++ "'"

/-- An operation that a tree or a script does not allow. -/
inductive Refusal
  | rootRetyped (tag : String)
  | moveIntoSelf (id : String)
  | notDetached (id : String)
  | importWithoutStatement (name : String)
  deriving DecidableEq

def Refusal.message : Refusal → String
  | .rootRetyped tag => "Root node must stay a fragment, got " ++ tag
  | .moveIntoSelf id => "Cannot move node with ID " ++ id ++ " into its own subtree"
  | .notDetached id => "Failed to remove node with ID " ++ id
  | .importWithoutStatement name => "import of " ++ name ++ " produced no statement"

/-- A text that cannot be read. -/
inductive Unreadable
  | json
  | script
  | importKind (name : String)
  | importName (name : String)
  deriving DecidableEq

def Unreadable.message : Unreadable → String
  | .json => "invalid JSON"
  | .script => "invalid script"
  | .importKind name => "unknown import source kind '" ++ name ++ "'"
  | .importName name => "'" ++ name ++ "' is not a valid import binding"

/-- Why a file could not be read or written. -/
inductive FileFault
  | notFound
  | permissionDenied
  | alreadyExists
  | storageFull
  | isDirectory
  | notDirectory
  | invalidData
  | other
  deriving DecidableEq

/-- A failed access to a file, and the path of a write that was turned down on purpose. -/
structure FileError where
  fault : FileFault
  rejected : Option String
  deriving DecidableEq

inductive Error
  | notFound (id : String)
  | refused (cause : Refusal)
  | unreadable (cause : Unreadable)
  | file (cause : FileError)
  | malformed (cause : Malformed)
  | configuration
  deriving DecidableEq

namespace Error

def ofParse {α : Type} : Option α → Except Error α
  | some a => .ok a
  | none => .error (.unreadable .json)

end Error

def FileFault.message : FileFault → String
  | .notFound => "entity not found"
  | .permissionDenied => "permission denied"
  | .alreadyExists => "entity already exists"
  | .storageFull => "no storage space"
  | .isDirectory => "is a directory"
  | .notDirectory => "not a directory"
  | .invalidData => "invalid data"
  | .other => "other error"

def FileError.message (e : FileError) : String :=
  match e.rejected with
  | some path => "write to " ++ path ++ " rejected"
  | none => e.fault.message

def Error.message : Error → String
  | .notFound id => "Node with ID " ++ id ++ " not found"
  | .refused cause => "Operation failed: " ++ cause.message
  | .unreadable cause => "Parse error: " ++ cause.message
  | .file cause => cause.message
  | .malformed cause => "Malformed node: " ++ cause.message
  | .configuration => "Invalid configuration"

end ScreenTree
