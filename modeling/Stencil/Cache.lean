import Stencil.Effect
import Stencil.Segment

/-! Compiled templates kept by name. An entry that is too old counts as missing; while an entry is
good it is only ever evicted, never replaced. -/

namespace Stencil

/-- A compilation of a template, told apart from others of the same source. -/
structure Instance where
  serial : Nat
  /-- The reading of the clock at its compilation, in nanoseconds. -/
  compiledAt : Nat
  template : Template

structure Cache where
  /-- In ascending order of names. -/
  entries : List (String × Instance) := []
  /-- The age in seconds from which on an entry is too old. -/
  expiration : Option Nat := none

namespace Cache

def isExpired (cache : Cache) (now : Nat) (entry : Instance) : Bool :=
  match cache.expiration with
  | none => false
  | some seconds => now - entry.compiledAt ≥ seconds * 1_000_000_000

def get? (cache : Cache) (now : Nat) (name : String) : Option Instance :=
  (cache.entries.lookup name).filter fun found => !cache.isExpired now found

def contains (cache : Cache) (now : Nat) (name : String) : Bool := (cache.get? now name).isSome

/-- Adds an entry unless there is a good one, and gives the entry that the name then has. -/
def publish (cache : Cache) (now : Nat) (name : String) (compiled : Instance) :
    Instance × Cache :=
  match cache.get? now name with
  | some kept => (kept, cache)
  | none => (compiled, { cache with entries := insertEntry name compiled cache.entries })

def invalidate (cache : Cache) (matched : String → Bool) : Nat × Cache :=
  let kept := cache.entries.filter fun (name, _) => !matched name
  (cache.entries.length - kept.length, { cache with entries := kept })

def clear (cache : Cache) : Cache := { cache with entries := [] }

def size (cache : Cache) : Nat := cache.entries.length

end Cache

/-- What outlives a rendering: the host's world, the cache, the clock, and a count of all
compilations. -/
structure Store (ω : Type) where
  world : ω
  cache : Cache
  clock : Nat := 0
  compilations : Nat := 0

namespace Store

variable {ω : Type}

def worldPart : Part (Store ω) ω := ⟨Store.world, fun world store => { store with world }⟩

def compiled (template : Template) : Effect (Store ω) Instance := fun store =>
  (.ok ⟨store.compilations, store.clock, template⟩,
    { store with compilations := store.compilations + 1 })

def publish (name : String) (compiled : Instance) : Effect (Store ω) Instance := fun store =>
  let (kept, cache) := store.cache.publish store.clock name compiled
  (.ok kept, { store with cache })

/-- The entry of a name, or what `compile` makes of it. Nothing is kept of a failed compilation, nor
of a name without a source. -/
def getOrCompile (name : String) (compile : Effect (Store ω) (Option Template)) :
    Effect (Store ω) (Option Instance) := do
  let store ← get
  match store.cache.get? store.clock name with
  | some found => pure (some found)
  | none =>
    match ← compile with
    | none => pure none
    | some template => do
      let fresh ← compiled template
      some <$> publish name fresh

end Store

end Stencil
