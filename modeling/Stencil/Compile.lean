import Stencil.Token.Lexer
import Stencil.Tree

/-! Compiling a template: its source is read as tokens, trimmed line by line and built as a tree. -/

namespace Stencil

structure CompileOptions where
  delimiters : Delimiters := {}
  registry : Registry := {}
  trimLines : Bool := true

def compile (options : CompileOptions) (name source : String) : Except Error Template := do
  let tokens ← tokenize name options.delimiters source
  let items := itemsOf options.registry options.trimLines tokens
  let segments ← Tree.ofItems options.registry name items
  pure ⟨name, segments⟩

end Stencil
