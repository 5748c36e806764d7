import Stencil.Helper
import Stencil.Text.Blank
import Stencil.Token

/-! Lines that hold only blanks and block tags leave no trace of their own in the output. -/

namespace Stencil

/-- A token, and the blanks in front of it if it is an inclusion that stands alone on its line. -/
structure Item where
  token : Token
  indent : String := ""
deriving DecidableEq

def Token.endsLine : Token → Bool
  | .literal text _ => text.toList.getLast? == some '\n'
  | _ => false

def tokenLines : List Token → List (List Token)
  | [] => []
  | token :: later =>
    if token.endsLine then [token] :: tokenLines later
    else
      match tokenLines later with
      | [] => [[token]]
      | line :: lines => (token :: line) :: lines

/-- Which of the open blocks are helper blocks, innermost first. -/
abbrev OpenKinds := List Bool

/-- The open blocks behind a token. -/
def OpenKinds.after (registry : Registry) (kinds : OpenKinds) : Token → OpenKinds
  | .tag .opening content _ =>
    registry.contains (String.ofList (Text.firstWord content.toList)) :: kinds
  | .tag .inverted _ _ => false :: kinds
  | .tag .closing _ _ => kinds.tail
  | _ => kinds

def isElse (kind : TagKind) (content : String) (inHelper : Bool) : Bool :=
  inHelper && kind == .escaped && content == "else"

/-- The token may stand on a line of its own, where `kinds` are the open blocks behind it. -/
def Token.mayStandAlone (kinds : OpenKinds) : Token → Bool
  | .literal text _ => Text.allBlank text.toList
  | .tag kind content _ => kind.isBlock || isElse kind content (kinds.head? == some true)
  | .delimiterChange .. => true

def Token.isLiteral : Token → Bool
  | .literal .. => true
  | _ => false

/-- Whether every token of a line may stand alone, and the open blocks behind the line. -/
def allMayStandAlone (registry : Registry) : OpenKinds → List Token → Bool × OpenKinds
  | kinds, [] => (true, kinds)
  | kinds, token :: later =>
    let behind := kinds.after registry token
    let (rest, last) := allMayStandAlone registry behind later
    (token.mayStandAlone behind && rest, last)

def lineIndent : List Token → String
  | .literal text _ :: _ => text
  | _ => ""

/-- A token of a line that stands alone; only inclusions keep the indent of the line. -/
def Item.ofStandalone (indent : String) : Token → Item
  | .tag .inclusion content line => ⟨.tag .inclusion content line, indent⟩
  | token => ⟨token, ""⟩

/-- The items of one line, without its blanks if it stands alone. -/
def lineItems (standsAlone : Bool) (line : List Token) : List Item :=
  if standsAlone && line.any (fun token => !token.isLiteral) then
    (line.filter fun token => !token.isLiteral).map (.ofStandalone (lineIndent line))
  else line.map fun token => ⟨token, ""⟩

/-- The items of lines, where `kinds` are the open blocks in front of them. -/
def standaloneItems (registry : Registry) : OpenKinds → List (List Token) → List Item
  | _, [] => []
  | kinds, line :: later =>
    let (standsAlone, behind) := allMayStandAlone registry kinds line
    lineItems standsAlone line ++ standaloneItems registry behind later

def itemsOf (registry : Registry) (trimLines : Bool) (tokens : List Token) : List Item :=
  if trimLines then standaloneItems registry [] (tokenLines tokens)
  else tokens.map fun token => ⟨token, ""⟩

end Stencil
