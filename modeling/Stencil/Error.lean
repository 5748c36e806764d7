import Stencil.Text.Quoted

/-! Everything that can go wrong with a template, by cause, and the message for each cause. -/

namespace Stencil

inductive TagFault where
  /-- The text that should end the tag does not occur after it. -/
  | unterminated (terminator : String)
  | empty
  | delimiterChange (content : String)
  | missingValue (key : String)
  | unterminatedString (content : String)
  | duplicateElse
deriving DecidableEq

inductive UsageFault where
  | tooFewParameters (required given line : Nat)
  | unsupportedKey (key : String) (line : Nat) (supported : List String)
  | notIterable (kind : String) (line : Nat)
  | notFunction (key kind : String)
  /-- A reason in the words of the helper. -/
  | other (reason : String)
deriving DecidableEq

inductive ConfigFault where
  | emptyDelimiter (key : String)
  | delimiterCharacter (key delimiter : String)
  | iterationAlias (name : String)
  | zeroScopeDepth
  | unreadable (reason : String)
  /-- A reason in the words of the host. -/
  | other (reason : String)
deriving DecidableEq

inductive Error where
  | malformedTag (template : String) (line : Nat) (fault : TagFault)
  /-- A closing tag found where another name, or no closing tag at all, was expected. -/
  | unmatchedTag (template : String) (line : Nat) (expected : Option String) (found : String)
  | unclosedTag (template name : String) (line : Nat)
  | invalidHelperUsage (helper : String) (fault : UsageFault)
  | recursionLimit (template : String) (limit : Nat)
  | templateNotFound (name : String)
  | locator (name path message : String)
  | config (fault : ConfigFault)
  | serialization (reason : String)
  | write
deriving DecidableEq

open Text (quoted quotedList)

def TagFault.message : TagFault → String
  | .unterminated terminator => "unterminated tag, expected " ++ quoted terminator
  | .empty => "empty tag"
  | .delimiterChange content => "invalid delimiter change " ++ quoted content
  | .missingValue key => "missing value for helper key " ++ quoted key
  | .unterminatedString content => "unterminated string literal in " ++ quoted content
  | .duplicateElse => "duplicate \x7b\x7belse\x7d\x7d in helper block"

def UsageFault.message : UsageFault → String
  | .tooFewParameters required given line =>
    s!"at least {required} parameter(s) required, {given} given (line {line})"
  | .unsupportedKey key line supported =>
    "unsupported key " ++ quoted key ++ s!" (line {line}), supported: " ++ quotedList supported
  | .notIterable kind line => s!"{kind} is neither a list nor an iterable object (line {line})"
  | .notFunction key kind => s!"{key} must be a function, got {kind}"
  | .other reason => reason

def ConfigFault.message : ConfigFault → String
  | .emptyDelimiter key => s!"{key} must not be empty"
  | .delimiterCharacter key delimiter =>
    s!"{key} must not contain whitespace or '=': " ++ quoted delimiter
  | .iterationAlias name => "iteration_alias must be a non-empty name without dots: " ++ quoted name
  | .zeroScopeDepth => "scope_depth_limit must be at least 1"
  | .unreadable reason => reason
  | .other reason => reason

/-- The message of an error; names of tags, templates and helpers stand in it as they are. -/
def Error.message : Error → String
  | .malformedTag template line fault =>
    s!"malformed tag in template \"{template}\" at line {line}: " ++ fault.message
  | .unmatchedTag template line expected found =>
    s!"unmatched tag \"{found}\" in \"{template}\" at line {line}, expected \"" ++
      expected.getD "(none)" ++ "\""
  | .unclosedTag template name line =>
    s!"unclosed tag \"{name}\" in template \"{template}\" opened at line {line}"
  | .invalidHelperUsage helper fault => s!"invalid usage of helper \"{helper}\": " ++ fault.message
  | .recursionLimit template limit =>
    s!"recursion limit of {limit} exceeded while rendering \"{template}\""
  | .templateNotFound name => s!"template not found: \"{name}\""
  | .locator name path message =>
    s!"failed to load template \"{name}\" from " ++ quoted path ++ s!": {message}"
  | .config fault => "invalid configuration: " ++ fault.message
  | .serialization reason => s!"data serialization error: {reason}"
  | .write => "failed to write rendered output"

def Error.isCompileError : Error → Bool
  | .malformedTag .. => true
  | .unmatchedTag .. => true
  | .unclosedTag .. => true
  | _ => false

end Stencil
