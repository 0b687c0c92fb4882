import ScreenTree.Script.Term

/-! # The marks of a script

The marks of a term are the tags, the imports and the exported names in it, from left to right.
`Term.revise` visits the tags and the imports in this order, changes them and keeps a state. -/

namespace ScreenTree.Script

/-- A part of a script that is found by what it names. -/
inductive Mark
  | opening (tag : TagName)
  | closing (tag : TagName)
  | importing (declaration : Import)
  | exported (name : Literal)
  deriving DecidableEq, Inhabited

namespace Mark

def import? : Mark → Option Import
  | .importing i => some i
  | _ => none

def exported? : Mark → Option Literal
  | .exported n => some n
  | _ => none

end Mark

/-- The name of the default export. -/
def defaultName : Literal :=
  .ofString "default"

/-- What becomes of each tag and each import of a script, with a state that may take note of it. The
attributes that an opening tag gets are not looked at themselves. -/
structure Revision (σ : Type) where
  /-- The new name of an opening tag and the attributes that it gets. -/
  opening : TagName → StateM σ (TagName × List Term)
  closing : TagName → StateM σ TagName
  importing : Import → StateM σ Import

namespace Term

mutual

def marks : Term → List Mark
  | .name _ | .constant _ | .number _ | .string _ | .gap | .leave | .empty | .flag _ | .quoted _
  | .text _ | .emptyHole => []
  | .member t _ | .grouped t | .negation t | .property _ t | .spread t | .expression t | .answer t
  | .attribute _ t | .hole t => marks t
  | .index a b | .conjunction a b | .fallback a b | .condition a b => marks a ++ marks b
  | .choice a b c => marks a ++ marks b ++ marks c
  | .array ts | .object ts | .pattern ts | .declaration _ ts | .block _ ts | .fragment ts =>
    marksAll ts
  | .call t ts => marks t ++ marksAll ts
  | .arrow ts t | .function _ ts t => marksAll ts ++ marks t
  | .element n as cs close =>
    .opening n :: marksAll as ++ marksAll cs ++ (close.map Mark.closing).toList
  | .importing i => [.importing i]
  | .exporting t => t.bound.map (fun n => .exported (.ofString n)) ++ marks t
  | .exportingDefault t => .exported defaultName :: marks t
  | .exportingNames ns _ => ns.map fun n => .exported n.exported.letters
  | .exportingAll n _ _ => (n.map fun k => .exported k.letters).toList

def marksAll : List Term → List Mark
  | [] => []
  | t :: ts => marks t ++ marksAll ts

end

variable {σ : Type}

mutual

/-- Revises the tags and the imports of a term from left to right. -/
def revise (r : Revision σ) : Term → StateM σ Term
  | .name t => return .name t
  | .constant t => return .constant t
  | .number x => return .number x
  | .string v => return .string v
  | .member o p => return .member (← revise r o) p
  | .index o p => return .index (← revise r o) (← revise r p)
  | .call c as => return .call (← revise r c) (← reviseAll r as)
  | .arrow ps b => return .arrow (← reviseAll r ps) (← revise r b)
  | .grouped t => return .grouped (← revise r t)
  | .negation t => return .negation (← revise r t)
  | .conjunction a b => return .conjunction (← revise r a) (← revise r b)
  | .choice t a b => return .choice (← revise r t) (← revise r a) (← revise r b)
  | .array ts => return .array (← reviseAll r ts)
  | .gap => return .gap
  | .object ts => return .object (← reviseAll r ts)
  | .property k v => return .property k (← revise r v)
  | .spread t => return .spread (← revise r t)
  | .pattern ts => return .pattern (← reviseAll r ts)
  | .fallback t v => return .fallback (← revise r t) (← revise r v)
  | .expression t => return .expression (← revise r t)
  | .declaration k ts => return .declaration k (← reviseAll r ts)
  | .function n ps b => return .function n (← reviseAll r ps) (← revise r b)
  | .leave => return .leave
  | .answer t => return .answer (← revise r t)
  | .condition t b => return .condition (← revise r t) (← revise r b)
  | .block ds ts => return .block ds (← reviseAll r ts)
  | .empty => return .empty
  | .importing i => return .importing (← r.importing i)
  | .exporting t => return .exporting (← revise r t)
  | .exportingDefault t => return .exportingDefault (← revise r t)
  | .exportingNames ns source => return .exportingNames ns source
  | .exportingAll n source clause => return .exportingAll n source clause
  | .element n as cs close => do
    let (n, extra) ← r.opening n
    let as ← reviseAll r as
    let cs ← reviseAll r cs
    return .element n (as ++ extra) cs (← close.mapM r.closing)
  | .fragment cs => return .fragment (← reviseAll r cs)
  | .flag n => return .flag n
  | .attribute n v => return .attribute n (← revise r v)
  | .quoted t => return .quoted t
  | .text t => return .text t
  | .hole t => return .hole (← revise r t)
  | .emptyHole => return .emptyHole

def reviseAll (r : Revision σ) : List Term → StateM σ (List Term)
  | [] => return []
  | t :: ts => return (← revise r t) :: (← reviseAll r ts)

end

end Term

namespace Module

def marks (m : Module) : List Mark :=
  Term.marksAll m.statements

def revise {σ : Type} (r : Revision σ) (m : Module) : StateM σ Module :=
  return { m with statements := ← Term.reviseAll r m.statements }

def imports (m : Module) : List Import :=
  m.marks.filterMap Mark.import?

/-- A module exports nothing twice under one name. -/
def exportsOnce (m : Module) : Bool :=
  (m.marks.filterMap Mark.exported?).Nodup

end Module
end ScreenTree.Script
