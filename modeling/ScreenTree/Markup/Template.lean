import ScreenTree.Definition
import ScreenTree.Markup.Element

/-! # Markup of a template

A template is written tag by tag without regard to components. An element at the first level that
bears the name of the definition is written as its children. -/

namespace ScreenTree.Markup

mutual

def renderTemplate (mode : Mode) (name : String) (depth : Nat) : Node → Except Malformed String
  | ⟨_, .untyped, _, _, _⟩ => malformed mode .untypedTemplate
  | ⟨_, .literal value, _, _, _⟩ => literal mode value
  | ⟨_, .group, _, _, children⟩ =>
    (renderTemplates mode name depth children).map Text.joinLines
  | ⟨_, .element tag, props, _, children⟩ =>
    if depth = 1 ∧ tag = name then (renderTemplates mode name depth children).map Text.joinLines
    else
      (requirePlain mode tag).bind fun _ =>
        if Tag.isVoid tag then .ok (single depth tag (templateAttributes props))
        else
          (renderTemplates mode name (depth + 1) children).map fun parts =>
            paired depth tag (templateAttributes props) (body parts)

def renderTemplates (mode : Mode) (name : String) (depth : Nat) :
    List Node → Except Malformed (List String)
  | [] => .ok []
  | n :: ns =>
    (renderTemplate mode name depth n).bind fun part =>
      (renderTemplates mode name depth ns).map (part :: ·)

end

end ScreenTree.Markup
