/-! # Texts put together -/

namespace ScreenTree.Text

/-- The texts one after another. -/
def concat : List String → String
  | [] => ""
  | s :: ss => s ++ concat ss

/-- The texts with `separator` between neighbours. -/
def join (separator : String) : List String → String
  | [] => ""
  | [s] => s
  | s :: ss => s ++ separator ++ join separator ss

/-- The texts on lines of their own. -/
def joinLines (parts : List String) : String :=
  join "\n" parts

end ScreenTree.Text
