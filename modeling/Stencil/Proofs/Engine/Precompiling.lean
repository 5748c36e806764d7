import Stencil.Proofs.Engine.Caching
import Stencil.Proofs.Locator.Files
import Stencil.Proofs.Tree.Renaming

/-! What is left to fail once everything that the locators report has been compiled. -/

namespace Stencil

/-- A map of sources, or a directory of files in one of the parts of the world. -/
def Locator.IsStandard {ω ι : Type} (parts : ι → Part ω Directory) (locator : Locator ω) : Prop :=
  (∃ priority entries, locator = .ofEntries priority entries) ∨
    ∃ priority i, locator = (Directory.locator priority).onPart (parts i)

/-- If the directory has been searched, searching it again would find the same. -/
def Directory.UpToDate (directory : Directory) : Prop :=
  ∀ index ∈ directory.index, directory.search = .ok index

def SameFiles {ω ι : Type} (parts : ι → Part ω Directory) (now world : ω) : Prop :=
  ∀ i, ((parts i).get now).Unchanged ((parts i).get world)

theorem Locator.IsStandard.supplies {ω ι : Type} {parts : ι → Part ω Directory}
    (hparts : Independent parts) {locator : Locator ω} (h : locator.IsStandard parts) (now : ω) :
    ∃ answers names, locator.Supplies (SameFiles parts now) answers names := by
  rcases h with ⟨priority, entries, rfl⟩ | ⟨priority, i, rfl⟩
  · exact ⟨_, _, supplies_ofEntries _ priority entries⟩
  · let still := fun i => ((parts i).get now).Unchanged
    have hfiles : (Directory.locator priority).Supplies (still i) _ _ :=
      supplies_directory ((parts i).get now) priority
    exact ⟨_, _, hfiles.onPart hparts⟩

namespace Engine

variable {ω : Type} {engine : Engine ω}

section Twins

variable {alike : ω → ω → Prop} {answers : String → Except Error (Option String)}
  {store second after : Store ω}

theorem Twin.get_of_compiles (hlocated : engine.Located alike answers)
    (h : Twin engine alike answers store second) {name : String} {template : Template}
    (hcompiles : engine.compileFound name (answers name) = .ok (some template)) :
    ∃ found, ((engine.get name).outcome store).1 = .ok found := by
  obtain ⟨hfound, -, -⟩ := h.find hlocated name
  rw [hcompiles] at hfound
  rw [get_outcome]
  rcases hfind : (engine.find name).outcome store with ⟨error | _ | found, next⟩ <;>
    rw [hfind] at hfound
  · cases hfound
  · cases hfound
  · exact ⟨found, rfl⟩

/-- Where all names have been found, what is located for each of them compiles. -/
theorem Twin.compiles_of_getAll (hlocated : engine.Located alike answers)
    (h : Twin engine alike answers store second) {names : List String}
    (hall : (engine.getAll names).outcome store = (.ok (), after)) :
    (∀ name ∈ names, ∃ template, engine.compileFound name (answers name) = .ok (some template)) ∧
      ∃ last, Twin engine alike answers after last := by
  induction names generalizing store second with
  | nil =>
    obtain rfl : store = after := congrArg Prod.snd hall
    exact ⟨fun _ hmem => (nomatch hmem), second, h⟩
  | cons name later ih =>
    rw [getAll_cons_outcome] at hall
    rcases hget : (engine.get name).outcome store with ⟨error | found, next⟩ <;>
      rw [hget] at hall
    · cases hall
    · obtain ⟨hfound, -, hnext⟩ := h.find hlocated name
      rw [find_of_get_eq_ok hget] at hfound hnext
      obtain ⟨hlater, hlast⟩ := ih hnext hall
      exact ⟨List.forall_mem_cons.mpr ⟨⟨found.template, hfound.symm⟩, hlater⟩, hlast⟩

end Twins

section Supplies

variable {still : ω → Prop} {answers : String → Except Error (Option String)}
  {names : Except Error (List String)}

theorem located_of_supplies (h : (Locator.several engine.locators).Supplies still answers names) :
    engine.Located (fun world second => still world ∧ still second) answers := by
  rintro name world second ⟨hworld, hsecond⟩
  obtain ⟨hfirst, hafter⟩ := h.locate name world hworld
  obtain ⟨hother, hbehind⟩ := h.locate name second hsecond
  exact ⟨hfirst, hother, ⟨hafter, hbehind⟩, hworld, hbehind⟩

/-- Where everything reported has been compiled, what is located for each of these names compiles,
and the cache has nothing else. -/
theorem compiles_of_precompileAll
    (hsupplies : (Locator.several engine.locators).Supplies still answers names)
    {store after : Store ω} (hworld : still store.world)
    (hcache : ∀ entry ∈ store.cache.entries,
      engine.compileFound entry.1 (answers entry.1) = .ok (some entry.2.template))
    {count : Nat} (h : engine.precompileAll.outcome store = (.ok count, after)) :
    ∃ known, names = .ok known ∧
      (∀ name ∈ known, ∃ template,
        engine.compileFound name (answers name) = .ok (some template)) ∧
      ∃ last, Twin engine (fun world second => still world ∧ still second) answers after last := by
  have hreported : ((Locator.allIdentifiers engine.locators).outcome store.world).1 = names ∧
      still ((Locator.allIdentifiers engine.locators).outcome store.world).2 :=
    hsupplies.identifiers store.world hworld
  obtain ⟨hnames, hlisted⟩ := hreported
  rw [precompileAll_outcome] at h
  rcases hlist : (Locator.allIdentifiers engine.locators).outcome store.world with
      ⟨error | known, world⟩ <;>
    rw [hlist] at h hnames hlisted
  · cases h
  · simp only [Prod.mk.injEq] at h
    obtain ⟨hcount, hafter⟩ := h
    have hall :
        (engine.getAll (sortNames known)).outcome { store with world } = (.ok (), after) := by
      rcases hgot : (engine.getAll (sortNames known)).outcome { store with world } with
          ⟨error | ⟨⟩, last⟩ <;>
        rw [hgot] at hcount hafter
      · cases hcount
      · exact congrArg _ hafter
    have hstart : Twin engine (fun world second => still world ∧ still second) answers
        { store with world } { store with world } := ⟨⟨hlisted, hlisted⟩, hcache⟩
    obtain ⟨hcompiles, hlast⟩ := hstart.compiles_of_getAll (located_of_supplies hsupplies) hall
    exact ⟨known, hnames.symm, fun name hname => hcompiles name (mem_sortNames.mpr hname), hlast⟩

end Supplies

/-- A name that no locator reports: it is the name of a file, with its extension, but under the name
without it, which is reported, there is not the source of this file. -/
def Shadows (engine : Engine ω) (world : ω) (name source : String) : Prop :=
  ∃ known, ((Locator.allIdentifiers engine.locators).outcome world).1 = .ok known ∧ name ∉ known ∧
    ∃ short ∈ known, ∃ extension ∈ templateExtensions, name = short ++ extension ∧
      (engine.located short world).1 ≠ .ok (some source)

/-- Precompiling leaves no defect to be found while rendering, but in files that are shadowed under
their short names: with maps and directories of files that stay as they are, once all that the
locators report has been compiled, every name with a source is found, unless it is the full name of
such a file. -/
theorem precompiling_covers {ι : Type} {parts : ι → Part ω Directory}
    (hparts : Locator.Independent parts)
    (hlocators : ∀ locator ∈ engine.locators, locator.IsStandard parts) {store after : Store ω}
    (hfiles : ∀ i, ((parts i).get store.world).UpToDate)
    (hcache : ∀ entry ∈ store.cache.entries,
      engine.compileFound entry.1 (engine.located entry.1 store.world).1 =
        .ok (some entry.2.template))
    {count : Nat} (hcompiled : engine.precompileAll.outcome store = (.ok count, after))
    {name source : String} (hserved : (engine.located name store.world).1 = .ok (some source)) :
    (∃ found, ((engine.get name).outcome after).1 = .ok found) ∨
      engine.Shadows store.world name source := by
  have hnow : SameFiles parts store.world store.world := fun i => ⟨rfl, rfl, hfiles i⟩
  obtain ⟨answers, names, hsupplies⟩ :=
    Locator.supplies_several fun locator hmem =>
      (hlocators locator hmem).supplies hparts store.world
  have hanswers : ∀ asked, (engine.located asked store.world).1 = answers asked :=
    fun asked => (hsupplies.locate asked store.world hnow).1
  simp only [hanswers] at hcache hserved
  obtain ⟨known, rfl, hcompiles, last, hlast⟩ :=
    compiles_of_precompileAll hsupplies hnow hcache hcompiled
  -- It is enough to compile the source under some name.
  have hfound : ∀ other, answers other = .ok (some source) → other ∈ known →
      ∃ found, ((engine.get name).outcome after).1 = .ok found := by
    intro other hother hmem
    obtain ⟨template, hcompile⟩ := hcompiles other hmem
    rw [hother] at hcompile
    obtain ⟨_, ⟨⟩, hsource⟩ := compileFound_eq_ok_iff.mp hcompile
    have hrenamed := compileFound_eq_ok_iff.mpr ⟨source, hserved, compile_renamed hsource name⟩
    exact hlast.get_of_compiles (located_of_supplies hsupplies) hrenamed
  by_cases hknown : name ∈ known
  · exact .inl (hfound name hserved hknown)
  · obtain hmem | ⟨short, hshort, extension, hextension, hname⟩ :=
      hsupplies.reported known name source rfl hserved
    · exact absurd hmem hknown
    · by_cases hsame : answers short = .ok (some source)
      · exact .inl (hfound short hsame hshort)
      · have hnames := (hsupplies.identifiers store.world hnow).1
        exact .inr ⟨known, hnames, hknown, short, hshort, extension, hextension, hname,
          hanswers short ▸ hsame⟩

def cardFiles : Directory where
  tree := ⟨[(["card.mustache"], .file "ok".toUTF8),
    (["card.txt"], .file "\x7b\x7b#a\x7d\x7d".toUTF8)]⟩
  root := []

def directoryItself : Part Directory Directory := ⟨id, fun directory _ => directory⟩

def cardSetup : Setup Directory where
  locators := [(Directory.locator 0).onPart directoryItself]
  templates := [("page", "\x7b\x7b> card\x7d\x7d")]

theorem independent_directoryItself : Locator.Independent fun _ : Unit => directoryItself where
  get_set _ _ _ := rfl
  get_set_ne i j _ _ hne := absurd (Subsingleton.elim i j) hne

theorem isStandard_cardSetup :
    ∀ locator ∈ cardSetup.toEngine.locators,
      locator.IsStandard fun _ : Unit => directoryItself := by
  intro locator hlocator
  have hmem : locator ∈ [.ofEntries Int32.maxValue cardSetup.templates,
      (Directory.locator 0).onPart directoryItself] := hlocator
  simp only [List.mem_cons, List.not_mem_nil, or_false] at hmem
  rcases hmem with rfl | rfl
  · exact .inl ⟨_, _, rfl⟩
  · exact .inr ⟨0, (), rfl⟩

theorem not_shadows_card :
    ¬ cardSetup.toEngine.Shadows cardFiles "card.mustache" "ok" := by
  rintro ⟨known, -, -, short, -, extension, hextension, hname, hother⟩
  have hcard : ∀ extension ∈ templateExtensions,
      (dropEnding? extension "card.mustache").all (· = "card") = true := by
    decide +kernel
  have hshort := hcard extension hextension
  rw [dropEnding?_eq_some_iff.mpr hname, Option.all_some, decide_eq_true_eq] at hshort
  subst hshort
  exact hother (by decide +kernel)

theorem precompiling_covers_card :
    let engine := cardSetup.toEngine
    let store := engine.emptyStore cardFiles
    let done := engine.precompileAll.outcome store
    done.1 = .ok 2 ∧ (engine.located "card.mustache" cardFiles).1 = .ok (some "ok") ∧
      ¬ engine.Shadows cardFiles "card.mustache" "ok" ∧
      ∃ found, ((engine.get "card.mustache").outcome done.2).1 = .ok found := by
  intro engine store done
  have hcount : done.1 = .ok 2 := by decide +kernel
  have hserved : (engine.located "card.mustache" cardFiles).1 = .ok (some "ok") := by
    decide +kernel
  have hcompiled : engine.precompileAll.outcome store = (.ok 2, done.2) := Prod.ext hcount rfl
  have hfiles : ∀ _ : Unit, (directoryItself.get store.world).UpToDate :=
    fun _ _ hmem => nomatch hmem
  have hcache : ∀ entry ∈ store.cache.entries,
      engine.compileFound entry.1 (engine.located entry.1 store.world).1 =
        .ok (some entry.2.template) := fun _ hmem => nomatch hmem
  have hcovers := precompiling_covers independent_directoryItself isStandard_cardSetup hfiles hcache
    hcompiled hserved
  exact ⟨hcount, hserved, not_shadows_card, hcovers.resolve_right not_shadows_card⟩

/-- The second file is served under its full name only, which is not reported. -/
theorem not_precompiling_covers_shadowed_file :
    ¬ ∀ (engine : Engine Directory) (directory : Directory) (count : Nat) (name source : String),
      (∀ locator ∈ engine.locators, locator.IsStandard fun _ : Unit => directoryItself) →
      directory.UpToDate →
      (engine.precompileAll.outcome (engine.emptyStore directory)).1 = .ok count →
      (engine.located name directory).1 = .ok (some source) →
      ∃ found, ((engine.get name).outcome
        (engine.precompileAll.outcome (engine.emptyStore directory)).2).1 = .ok found := by
  intro h
  obtain ⟨found, hfound⟩ := h cardSetup.toEngine cardFiles 2 "card.txt" "\x7b\x7b#a\x7d\x7d"
    isStandard_cardSetup (fun _ hmem => nomatch hmem) (by decide +kernel) (by decide +kernel)
  have hfails : ((cardSetup.toEngine.get "card.txt").outcome
      (cardSetup.toEngine.precompileAll.outcome
        (cardSetup.toEngine.emptyStore cardFiles)).2).1.toOption.isNone := by
    decide +kernel
  rw [hfound] at hfails
  contradiction

end Engine

end Stencil
