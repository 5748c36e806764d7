import Stencil.Decimal.Layout
import Stencil.Error
import Stencil.Text.Blank
import Stencil.Text.Quoted
import Stencil.Token

/-! The settings of an engine, their defaults, and what makes them unusable. -/

namespace Stencil

def defaultIterationAlias : String := "iter"

structure Config where
  startDelimiter : String := "\x7b\x7b"
  endDelimiter : String := "\x7d\x7d"
  cacheEnabled : Bool := true
  /-- After so many seconds a cached template is compiled again. -/
  cacheExpiration : Option Nat := none
  inclusionLimit : Nat := 10
  scopeLimit : Nat := 1024
  iterationAlias : String := defaultIterationAlias
  trimLines : Bool := true
  skipEscaping : Bool := false
  precompile : Bool := false
deriving DecidableEq

namespace Config

def delimiters (config : Config) : Delimiters := ⟨config.startDelimiter, config.endDelimiter⟩

def delimiterFault? (key delimiter : String) : Option ConfigFault :=
  if delimiter.isEmpty then some (.emptyDelimiter key)
  else if delimiter.toList.any fun c => Text.isBlank c || c == '=' then
    some (.delimiterCharacter key delimiter)
  else none

/-- The first thing that is wrong with a configuration. -/
def fault? (config : Config) : Option ConfigFault :=
  match delimiterFault? "start_delimiter" config.startDelimiter with
  | some fault => some fault
  | none =>
    match delimiterFault? "end_delimiter" config.endDelimiter with
    | some fault => some fault
    | none =>
      if config.iterationAlias.isEmpty || config.iterationAlias.toList.contains '.' then
        some (.iterationAlias config.iterationAlias)
      else if config.scopeLimit = 0 then some .zeroScopeDepth
      else none

def validate (config : Config) : Except Error Unit :=
  match config.fault? with
  | some fault => .error (.config fault)
  | none => .ok ()

def boolText (b : Bool) : String := if b then "true" else "false"

def natText (n : Nat) : String := String.ofList (Decimal.natText n)

def settings (config : Config) : List (String × String) := [
  ("start_delimiter", Text.quoted config.startDelimiter),
  ("end_delimiter", Text.quoted config.endDelimiter),
  ("cache_enabled", boolText config.cacheEnabled),
  ("cache_expiration_secs",
    match config.cacheExpiration with
    | none => "None"
    | some seconds => "Some(" ++ natText seconds ++ ")"),
  ("partial_recursion_limit", natText config.inclusionLimit),
  ("scope_depth_limit", natText config.scopeLimit),
  ("iteration_alias", Text.quoted config.iterationAlias),
  ("remove_standalone_lines", boolText config.trimLines),
  ("skip_value_escaping", boolText config.skipEscaping),
  ("precompile_all", boolText config.precompile)]

def describe (config : Config) : String :=
  "EngineConfig \x7b " ++
    String.intercalate ", " (config.settings.map fun (name, text) => name ++ ": " ++ text) ++
    " \x7d"

end Config

end Stencil
