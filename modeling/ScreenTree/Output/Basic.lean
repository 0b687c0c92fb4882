import ScreenTree.Error

/-! # Outputs

An output takes texts under paths, and either accepts a write or says why not. -/

namespace ScreenTree

class Output (σ : Type) where
  /-- One attempt to write a text under a path. -/
  write : σ → (path text : String) → Except FileError Unit × σ

end ScreenTree
