import Stencil.Proofs.Bisection
import Stencil.Proofs.Resolver

/-! The order in which a chain asks its strategies, and whose answer it takes. -/

namespace Stencil

namespace Resolver

variable {resolver quiet loud : Resolver} {candidate : Option Value} {name : String}

def Answers (resolver : Resolver) (candidate : Option Value) (name : String) (value : Value) :
    Prop :=
  resolver.answer candidate name = .ok (some value) ∧ value ≠ .null

theorem find?_eq_some_iff {value : Value} :
    resolver.find? candidate name = some value ↔ resolver.Answers candidate name value := by
  rw [find?, Answers]
  split
  · rename_i hnull
    simp [hnull, eq_comm]
  · rename_i found hnull hfound
    rw [hfound]
    refine ⟨fun h => ⟨congrArg Except.ok h, ?_⟩, fun h => Except.ok.inj h.1⟩
    rintro rfl
    exact hnull h
  · rename_i error herror
    simp [herror]

theorem find?_eq_none_iff :
    resolver.find? candidate name = none ↔ ∀ value, ¬ resolver.Answers candidate name value := by
  simp only [← find?_eq_some_iff, Option.eq_none_iff_forall_ne_some, ne_eq]

/-- Finds nothing where the other strategy fails or finds null, and is like it everywhere else. -/
structure Quiets (quiet loud : Resolver) : Prop where
  failed : ∀ candidate name error, loud.answer candidate name = .error error →
    quiet.answer candidate name = .ok none
  null : ∀ candidate name, loud.answer candidate name = .ok (some .null) →
    quiet.answer candidate name = .ok none
  same : ∀ candidate name answer, loud.answer candidate name = .ok answer → answer ≠ some .null →
    quiet.answer candidate name = .ok answer

theorem Quiets.find?_eq (h : quiet.Quiets loud) (candidate : Option Value) (name : String) :
    quiet.find? candidate name = loud.find? candidate name := by
  cases hloud : loud.answer candidate name with
  | error error => simp only [find?, hloud, h.failed candidate name error hloud]
  | ok answer =>
    by_cases hnull : answer = some .null
    · subst hnull
      simp only [find?, hloud, h.null candidate name hloud]
    · simp only [find?, hloud, h.same candidate name answer hloud hnull]

end Resolver

namespace Chain

variable {chain : Chain} {candidate : Option Value} {name : String}

theorem entries_addAll (given : List RankedResolver) :
    (addAll {} given).entries = sortRanked RankedResolver.priority given := by
  induction given using List.reverseRecOn with
  | nil => rfl
  | append_singleton earlier last ih =>
    have hlast : (addAll {} (earlier ++ [last])).entries =
        insertRanked RankedResolver.priority last (addAll {} earlier).entries := by
      simp [addAll, add]
    rw [hlast, ih, sortRanked_concat]

theorem addAll_append (chain : Chain) (earlier later : List RankedResolver) :
    chain.addAll (earlier ++ later) = (chain.addAll earlier).addAll later :=
  List.foldl_append

theorem resolve_eq_some_iff {value : Value} :
    chain.resolve candidate name = some value ↔
      ∃ before entry after, chain.entries = before ++ entry :: after ∧
        entry.resolver.Answers candidate name value ∧
        ∀ earlier ∈ before, ∀ other, ¬ earlier.resolver.Answers candidate name other := by
  rw [resolve, List.findSome?_eq_some_iff]
  simp only [Resolver.find?_eq_some_iff, Resolver.find?_eq_none_iff]

theorem resolve_eq_none_iff :
    chain.resolve candidate name = none ↔
      ∀ entry ∈ chain.entries, ∀ value, ¬ entry.resolver.Answers candidate name value := by
  rw [resolve, List.findSome?_eq_none_iff]
  simp only [Resolver.find?_eq_none_iff]

def seen (entry : RankedResolver) : Int32 × (Option Value → String → Option Value) :=
  (entry.priority, entry.resolver.find?)

theorem resolve_congr {other : Chain} (h : chain.entries.map seen = other.entries.map seen) :
    chain.resolve candidate name = other.resolve candidate name := by
  have hseen (asked : Chain) : asked.resolve candidate name =
      (asked.entries.map seen).findSome? fun entry => entry.2 candidate name := by
    rw [List.findSome?_map]
    rfl
  rw [hseen, hseen, h]

theorem resolve_addAll_congr {given others : List RankedResolver}
    (h : given.map seen = others.map seen) :
    (addAll {} given).resolve candidate name = (addAll {} others).resolve candidate name := by
  apply resolve_congr
  have hrank : ∀ entry, Prod.fst (seen entry) = entry.priority := fun _ => rfl
  rw [entries_addAll, entries_addAll, map_sortRanked hrank, map_sortRanked hrank, h]

/-- A chain asks the strategies it was given one after the other, in their order, and takes the
first answer. -/
structure AsksInOrder (chain : Chain) (given : List RankedResolver) : Prop where
  order : StablyDescending RankedResolver.priority given chain.entries
  /-- Searching for each place by halving leads to the same order. -/
  bisected :
    given.foldl (fun sorted entry => insertBisecting RankedResolver.priority entry sorted) [] =
      chain.entries
  found : ∀ candidate name value, chain.resolve candidate name = some value ↔
    ∃ before entry after, chain.entries = before ++ entry :: after ∧
      entry.resolver.Answers candidate name value ∧
      ∀ earlier ∈ before, ∀ other, ¬ earlier.resolver.Answers candidate name other
  missed : ∀ candidate name, chain.resolve candidate name = none ↔
    ∀ entry ∈ given, ∀ value, ¬ entry.resolver.Answers candidate name value
  /-- Failing, or finding null, is as good as finding nothing. -/
  quieted : ∀ before loud after quiet, given = before ++ loud :: after →
    Resolver.Quiets quiet loud.resolver → ∀ candidate name,
      (addAll {} (before ++ ⟨loud.priority, quiet⟩ :: after)).resolve candidate name =
        chain.resolve candidate name

theorem asksInOrder_addAll (given : List RankedResolver) : (addAll {} given).AsksInOrder given where
  order := by
    rw [entries_addAll]
    exact stablyDescending_sortRanked RankedResolver.priority given
  bisected := by rw [foldl_insertBisecting, entries_addAll]
  found _ _ _ := resolve_eq_some_iff
  missed candidate name := by
    simp only [resolve_eq_none_iff, entries_addAll, mem_sortRanked]
  quieted := by
    rintro before loud after quiet rfl hquiets candidate name
    -- Entries are placed by priority alone, so both chains have them at the same places.
    have hfind : quiet.find? = loud.resolver.find? := by
      funext candidate name
      exact hquiets.find?_eq candidate name
    apply resolve_addAll_congr
    simp [seen, hfind]

end Chain

end Stencil
