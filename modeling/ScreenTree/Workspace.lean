import ScreenTree.Config
import ScreenTree.Markup.Module
import ScreenTree.Node.Edit
import ScreenTree.Output.Basic
import ScreenTree.Registry

/-! # The workspace

A tree, a registry, a configuration and an output. Every change of the tree is followed by writing
the app module; the tree has then changed already, so a failure to generate or to write the module
is reported and leaves the change in place. -/

namespace ScreenTree

structure Workspace (σ : Type) where
  tree : Tree
  registry : Registry
  config : Config
  output : σ

namespace Workspace

variable {σ : Type}

/-- The outcome of an operation, with the workspace after it. -/
abbrev Outcome (σ α : Type) := Except Error α × Workspace σ

def new (config : Config) (output : σ) : Workspace σ :=
  ⟨.empty, .empty, config, output⟩

def withTree (w : Workspace σ) (tree : Tree) : Workspace σ :=
  { w with tree }

def options (w : Workspace σ) : Options :=
  w.config.options

/-- The text of the app module. -/
def render (w : Workspace σ) : Except Error String :=
  w.options.appModule w.tree

def find? (w : Workspace σ) (id : String) : Option Node :=
  w.tree.find? id

def types (w : Workspace σ) : List String :=
  w.registry.types

def definition? (w : Workspace σ) (name : String) : Option Definition :=
  w.registry.get? name

def save (w : Workspace σ) : String :=
  w.tree.save

/-- Loads a tree. The app module is not written. -/
def load (w : Workspace σ) (text : String) : Outcome σ Tree :=
  match Tree.load text with
  | .ok tree => (.ok tree, w.withTree tree)
  | .error e => (.error e, w)

variable [Output σ]

/-- One attempt to write a text, whose success has the given result. -/
def write {α : Type} (w : Workspace σ) (path text : String) (result : α) : Outcome σ α :=
  match Output.write w.output path text with
  | (.ok _, output) => (.ok result, { w with output })
  | (.error e, output) => (.error (.file e), { w with output })

/-- Writes the app module. -/
def publish {α : Type} (w : Workspace σ) (result : α) : Outcome σ α :=
  match w.render with
  | .ok text => w.write w.config.appModulePath text result
  | .error e => (.error e, w)

/-- Starts over with an empty tree. -/
def reset (w : Workspace σ) : Outcome σ Tree :=
  (w.withTree .empty).publish .empty

/-- Appends a node under a parent, or under the root, and answers its id; a node without one gets
the fresh id. -/
def add (w : Workspace σ) (fresh : String) (n : Node) (parent : Option String) :
    Outcome σ String :=
  let id := n.id.getD fresh
  match w.tree.add (n.withId id) (parent.getD Node.rootId) with
  | .ok tree => (w.withTree tree).publish id
  | .error e => (.error e, w)

/-- Removes a node below the root, and answers whether there was one. -/
def remove (w : Workspace σ) (id : String) : Outcome σ Bool :=
  match w.tree.remove? id with
  | some tree => (w.withTree tree).publish true
  | none => (.ok false, w)

/-- Updates a node and answers it as it is afterwards. -/
def update (w : Workspace σ) (id : String) (u : Update) : Outcome σ Node :=
  match w.tree.update id u with
  | .error e => (.error e, w)
  | .ok tree =>
    match (w.withTree tree).publish () with
    | (.error e, w) => (.error e, w)
    | (.ok _, w) =>
      match w.find? id with
      | some n => (.ok n, w)
      | none => (.error (.notFound id), w)

/-- Moves a node under another one. -/
def move (w : Workspace σ) (id parent : String) (position : Option Nat) : Outcome σ String :=
  match w.tree.move id parent position with
  | (.ok _, tree) => (w.withTree tree).publish id
  | (.error e, tree) => (.error e, w.withTree tree)

/-- Registers a definition under a name, which becomes its own, and writes the module of the
component. A definition that cannot be written is not registered. -/
def register (w : Workspace σ) (name : String) (d : Definition) : Outcome σ Unit :=
  let d := d.withName name
  match w.options.componentModule d with
  | .error e => (.error e, w)
  | .ok text =>
    Workspace.write { w with registry := w.registry.register name d }
      (w.config.componentModulePath name) text ()

end Workspace
end ScreenTree
