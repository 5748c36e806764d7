import Stencil.Engine
import Stencil.Proofs.Chain

/-! The strategies of an engine, in the order in which its chain asks them. -/

namespace Stencil

def RankedResolver.standard : List RankedResolver := [
  ⟨Resolver.thisPriority, .this⟩,
  ⟨Resolver.mapPriority, .map⟩,
  ⟨Resolver.listIndexPriority, .listIndex⟩,
  ⟨Resolver.objectPriority, .object⟩]

namespace Setup

variable {ω : Type}

def globalStrategies (setup : Setup ω) : List RankedResolver :=
  if setup.globals.isEmpty then []
  else [⟨Resolver.globalDataPriority, .globalData (sortEntries setup.globals)⟩]

/-- The strategies of an engine as they are added: the standard ones, its own, its global data. -/
def strategies (setup : Setup ω) : List RankedResolver :=
  RankedResolver.standard ++ setup.resolvers ++ setup.globalStrategies

theorem chain_eq_addAll (setup : Setup ω) : setup.chain = Chain.addAll {} setup.strategies := by
  have hstandard : Chain.standard = Chain.addAll {} RankedResolver.standard := rfl
  rw [strategies, Chain.addAll_append, Chain.addAll_append, ← hstandard, chain, globalStrategies]
  split <;> rfl

/-- Strategies that are added to a chain one by one are asked in descending order of priority, those
of equal priority in the order added, and the first that answers without failing and not with null
decides what is found. So nothing is found differently where a strategy that fails or answers null
gives way to one that finds nothing there. The chain of an engine asks the standard strategies, its
own and its global data in this way, added in this order. -/
theorem strategies_asked_in_order (setup : Setup ω) (given : List RankedResolver) :
    (Chain.addAll {} given).AsksInOrder given ∧
      setup.toEngine.resolvers = Chain.addAll {} setup.strategies :=
  ⟨Chain.asksInOrder_addAll given, setup.chain_eq_addAll⟩

def unreachable : Resolver where
  name := "unreachable"
  answer _ _ := .error ⟨"no connection"⟩

def silent : Resolver where
  name := "silent"
  answer _ _ := .ok none

def remoteSetup (remote : Resolver) : Setup Unit where
  resolvers := [⟨Resolver.globalDataPriority, remote⟩]
  globals := [("site", .string "Home")]

theorem strategies_asked_in_order_unreachable :
    silent.Quiets unreachable ∧
      (remoteSetup silent).toEngine.resolvers.resolve none "site" =
        (remoteSetup unreachable).toEngine.resolvers.resolve none "site" := by
  have hquiets : silent.Quiets unreachable := {
    failed := fun _ _ _ _ => rfl
    null := fun _ _ h => nomatch h
    same := fun _ _ _ h => nomatch h }
  obtain ⟨-, hsilent⟩ := strategies_asked_in_order (remoteSetup silent) []
  obtain ⟨horder, hunreachable⟩ :=
    strategies_asked_in_order (remoteSetup unreachable) (remoteSetup unreachable).strategies
  rw [hsilent, hunreachable]
  exact ⟨hquiets, horder.quieted RankedResolver.standard
    ⟨Resolver.globalDataPriority, unreachable⟩ (remoteSetup unreachable).globalStrategies silent rfl
    hquiets none "site"⟩

end Setup

end Stencil
