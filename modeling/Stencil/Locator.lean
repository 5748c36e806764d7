import Stencil.Effect
import Stencil.Ordered

/-! Where the sources of templates come from. -/

namespace Stencil

/-- A supply of sources in a world that may change between questions. -/
structure Locator (ω : Type) where
  /-- Higher priorities are asked first. -/
  priority : Int32 := 0
  locate : String → Effect ω (Option String)
  identifiers : Effect ω (List String)
  refresh : ω → ω := id

namespace Locator

variable {ω τ : Type}

/-- A locator that never changes, with entries in ascending order of names. -/
def ofEntries (priority : Int32) (entries : List (String × String)) : Locator ω where
  priority := priority
  locate := fun name => pure (entries.lookup name)
  identifiers := pure (entries.map Prod.fst)

def onPart (part : Part ω τ) (locator : Locator τ) : Locator ω where
  priority := locator.priority
  locate := fun name => (locator.locate name).onPart part
  identifiers := locator.identifiers.onPart part
  refresh := fun world => part.set (locator.refresh (part.get world)) world

/-- The source that the first locator with one has. -/
def firstSource (name : String) : List (Locator ω) → Effect ω (Option String)
  | [] => pure none
  | locator :: later => do
    match ← locator.locate name with
    | some source => pure (some source)
    | none => firstSource name later

def allIdentifiers : List (Locator ω) → Effect ω (List String)
  | [] => pure []
  | locator :: later => do
    let names ← locator.identifiers
    let others ← allIdentifiers later
    pure (names ++ others)

def refreshAll (locators : List (Locator ω)) (world : ω) : ω :=
  locators.foldl (fun world locator => locator.refresh world) world

end Locator

end Stencil
