import Stencil.Config
import Stencil.Decimal.Numeral
import Stencil.Yaml.Mapping

/-! Configurations written as YAML documents; settings that are not written keep their defaults. -/

namespace Stencil.Config

open Yaml (Scalar)

def digitValue? (base : Nat) (c : Char) : Option Nat :=
  match Yaml.hexDigit? c with
  | some n => if n < base then some n else none
  | none => none

def readBase? (base : Nat) (digits : List Char) : Option Nat :=
  if digits.isEmpty then none
  else digits.foldlM (fun n c => (digitValue? base c).map (base * n + ·)) 0

/-- A natural number as YAML writes it: in base sixteen, eight or two behind a mark, or in base ten
without a zero at its start. -/
def readNatural? (text : List Char) : Option Nat :=
  let unsigned :=
    match text with
    | '+' :: rest => rest
    | _ => text
  let marked :=
    match unsigned with
    | '0' :: 'x' :: digits => readBase? 16 digits
    | '0' :: 'o' :: digits => readBase? 8 digits
    | '0' :: 'b' :: digits => readBase? 2 digits
    | _ => none
  match marked with
  | some n => some n
  | none =>
    if unsigned.length > 1 && unsigned.head? == some '0' then none else readBase? 10 unsigned

/-- The text of a scalar that may be a number or a truth value: it is plain, or a literal block that
says so by its tag. -/
def bareText? (tag : List Char) (scalar : Scalar) : Option (List Char) :=
  match scalar.style with
  | .plain => some scalar.text
  | .literal => if scalar.tag = some tag then some scalar.text else none
  | _ => none

def word? (scalar : Scalar) : Option Nat :=
  ((bareText? Yaml.intTag scalar).bind readNatural?).filter (· < UInt64.size)

def truth? (text : List Char) : Option Bool :=
  if ["true".toList, "True".toList, "TRUE".toList].contains text then some true
  else if ["false".toList, "False".toList, "FALSE".toList].contains text then some false
  else none

def bool? (scalar : Scalar) : Option Bool := (bareText? Yaml.boolTag scalar).bind truth?

def isNullWord (text : List Char) : Bool :=
  ["~".toList, "null".toList, "Null".toList, "NULL".toList].contains text

/-- A word of 64 bits, or none for a plain scalar that is empty or null. A tag says what the scalar
is: null, which has to be written as a word, or something else. -/
def optionalWord? (scalar : Scalar) : Option (Option Nat) :=
  let present := (word? scalar).map some
  if scalar.style ≠ .plain then present
  else
    match scalar.tag with
    | none => if scalar.text.isEmpty || isNullWord scalar.text then some none else present
    | some tag =>
      if tag = Yaml.nullTag then if isNullWord scalar.text then some none else none
      else present

def set? (config : Config) (name : String) (value : Scalar) : Option Config :=
  match name with
  | "start_delimiter" => some { config with startDelimiter := String.ofList value.text }
  | "end_delimiter" => some { config with endDelimiter := String.ofList value.text }
  | "cache_enabled" => (bool? value).map fun b => { config with cacheEnabled := b }
  | "cache_expiration_secs" =>
    (optionalWord? value).map fun seconds => { config with cacheExpiration := seconds }
  | "partial_recursion_limit" => (word? value).map fun n => { config with inclusionLimit := n }
  | "scope_depth_limit" => (word? value).map fun n => { config with scopeLimit := n }
  | "iteration_alias" => some { config with iterationAlias := String.ofList value.text }
  | "remove_standalone_lines" => (bool? value).map fun b => { config with trimLines := b }
  | "skip_value_escaping" => (bool? value).map fun b => { config with skipEscaping := b }
  | "precompile_all" => (bool? value).map fun b => { config with precompile := b }
  | _ => none

/-- The settings of a mapping, each written once. -/
def ofEntries? : List String → Config → List (Scalar × Scalar) → Option Config
  | _, config, [] => some config
  | seen, config, (key, value) :: later => do
    let name := String.ofList key.text
    if seen.contains name then none
    else ofEntries? (name :: seen) (← config.set? name value) later

def ofYaml (source : String) : Except Error Config :=
  match (Yaml.readMapping? source).bind (ofEntries? [] {}) with
  | none => .error (.config (.unreadable "no mapping of the settings to their values"))
  | some config =>
    match config.validate with
    | .error error => .error error
    | .ok () => .ok config

end Stencil.Config
