/-! The lexical units of a template: literal texts and tags between delimiters. -/

namespace Stencil

structure Delimiters where
  opening : String := "\x7b\x7b"
  closing : String := "\x7d\x7d"
deriving DecidableEq

inductive TagKind where
  | escaped
  | unescaped
  /-- Opens a section or a helper block. -/
  | opening
  /-- Opens a section for values that are missing or falsy. -/
  | inverted
  | closing
  | inclusion
  | comment
deriving DecidableEq

/-- Tags that may stand alone on a line. -/
def TagKind.isBlock : TagKind → Bool
  | .escaped => false
  | .unescaped => false
  | _ => true

inductive Token where
  /-- Text of one line at most, with the newline that ends it. -/
  | literal (text : String) (line : Nat)
  /-- A tag and its content without blanks around it. -/
  | tag (kind : TagKind) (content : String) (line : Nat)
  /-- From here on tags stand between other delimiters. -/
  | delimiterChange (opening closing : String) (line : Nat)
deriving DecidableEq

/-- The line a token starts on, counted from one. -/
def Token.line : Token → Nat
  | .literal _ line => line
  | .tag _ _ line => line
  | .delimiterChange _ _ line => line

end Stencil
