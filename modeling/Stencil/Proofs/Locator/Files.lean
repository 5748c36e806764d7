import Stencil.Proofs.Effect
import Stencil.Proofs.Locator.FileIndex

/-! Locators with a supply that does not change: maps, directories of files, and several of them
asked in order. They report every name that they serve, but for the full names of files. -/

namespace Stencil

/-- A name is among some others, or is the name of a template file with one of them and an
extension behind it. -/
def IsReported (names : List String) (name : String) : Prop :=
  name ∈ names ∨ ∃ short ∈ names, ∃ extension ∈ templateExtensions, name = short ++ extension

theorem IsReported.mono {names more : List String} (hmore : ∀ name ∈ names, name ∈ more)
    {name : String} (h : IsReported names name) : IsReported more name := by
  rcases h with hmem | ⟨short, hshort, extension, hextension, rfl⟩
  · exact .inl (hmore name hmem)
  · exact .inr ⟨short, hmore short hshort, extension, hextension, rfl⟩

/-! ### The index of a directory -/

namespace FileIndex

def ReportsPaths (index : FileIndex) : Prop :=
  ∀ name path, index.path? name = some path → IsReported index.names name

theorem reportsPaths_ofPaths (paths : List String) : (ofPaths paths).ReportsPaths := by
  intro name path hpath
  cases path?_ofPaths_eq_some_iff.mp hpath with
  | full htemplate hmem =>
    obtain ⟨extension, hextension, short, rfl⟩ := htemplate
    have hshort := mem_names_ofPaths.mpr ⟨extension, hextension, hmem⟩
    exact .inr ⟨short, hshort, extension, hextension, rfl⟩
  | short _ hsplit hmem _ => exact .inl (mem_names_ofPaths.mpr ⟨_, by simp [hsplit], hmem⟩)

end FileIndex

namespace Directory

/-- The files are those of `start`, and if they have been searched, the index is what a search of
them finds. -/
structure Unchanged (start directory : Directory) : Prop where
  tree : directory.tree = start.tree
  root : directory.root = start.root
  index : ∀ index ∈ directory.index, start.search = .ok index

variable {start directory : Directory}

theorem search_reportsPaths {index : FileIndex} (h : start.search = .ok index) :
    index.ReportsPaths := by
  unfold search at h
  split at h
  · contradiction
  · contradiction
  · exact Except.ok.inj h ▸ FileIndex.reportsPaths_ofPaths _

/-- The index that is asked for is that of the files, searched before or now. -/
theorem getIndex_outcome (h : start.Unchanged directory) :
    (getIndex.outcome directory).1 = start.search ∧
      start.Unchanged (getIndex.outcome directory).2 := by
  obtain ⟨htree, hroot, hindex⟩ := h
  have hsearch : directory.search = start.search := by
    simp only [search, htree, hroot]
  unfold Effect.outcome getIndex
  cases hsearched : directory.index with
  | some index => exact ⟨(hindex index hsearched).symm, htree, hroot, hindex⟩
  | none =>
    simp only [hsearch]
    cases hfound : start.search with
    | error error => exact ⟨rfl, htree, hroot, by simp [hsearched]⟩
    | ok index => exact ⟨rfl, htree, hroot, fun _ hmem => Option.mem_some.mp hmem ▸ hfound⟩

def answer (directory : Directory) (name : String) : Except Error (Option String) :=
  match directory.search with
  | .error error => .error error
  | .ok index =>
    match index.path? name with
    | none => .ok none
    | some path => (directory.readFile name path).map some

theorem locate_outcome (h : start.Unchanged directory) (name : String) :
    ((locate name).outcome directory).1 = start.answer name ∧
      start.Unchanged ((locate name).outcome directory).2 := by
  obtain ⟨hsearched, hafter⟩ := getIndex_outcome h
  rw [locate, Effect.outcome_bind, answer, ← hsearched]
  rcases hindex : getIndex.outcome directory with ⟨error | index, after⟩ <;>
    rw [hindex] at hafter
  · exact ⟨rfl, hafter⟩
  · simp only []
    cases index.path? name with
    | none => exact ⟨rfl, hafter⟩
    | some path =>
      have hfiles : start.Unchanged after := hafter
      have hread : after.readFile name path = start.readFile name path := by
        simp only [readFile, hfiles.tree, hfiles.root]
      exact ⟨congrArg (Except.map some) hread, hfiles⟩

theorem identifiers_outcome (h : start.Unchanged directory) :
    (identifiers.outcome directory).1 = start.search.map FileIndex.names ∧
      start.Unchanged (identifiers.outcome directory).2 := by
  obtain ⟨hsearched, hafter⟩ := getIndex_outcome h
  rw [identifiers, Effect.outcome_bind, ← hsearched]
  rcases hindex : getIndex.outcome directory with ⟨error | index, after⟩ <;>
    rw [hindex] at hafter
  · exact ⟨rfl, hafter⟩
  · exact ⟨rfl, hafter⟩

end Directory

namespace Locator

variable {ω τ : Type}

/-- In worlds of one kind, which it never leaves, a locator gives the same answers and reports the
same names, and every name with a source is reported. -/
structure Supplies (still : ω → Prop) (answers : String → Except Error (Option String))
    (names : Except Error (List String)) (locator : Locator ω) : Prop where
  locate : ∀ name world, still world →
    ((locator.locate name).outcome world).1 = answers name ∧
      still ((locator.locate name).outcome world).2
  identifiers : ∀ world, still world →
    (locator.identifiers.outcome world).1 = names ∧ still (locator.identifiers.outcome world).2
  reported : ∀ known name source, names = .ok known → answers name = .ok (some source) →
    IsReported known name

theorem supplies_ofEntries (still : ω → Prop) (priority : Int32)
    (entries : List (String × String)) :
    (ofEntries priority entries : Locator ω).Supplies still
      (fun name => .ok (entries.lookup name)) (.ok (entries.map Prod.fst)) where
  locate _ _ h := ⟨rfl, h⟩
  identifiers _ h := ⟨rfl, h⟩
  reported := by
    rintro _ name source ⟨⟩ hanswer
    obtain ⟨earlier, later, rfl, -⟩ := List.lookup_eq_some_iff.mp (Except.ok.inj hanswer)
    exact .inl (by simp)

theorem supplies_directory (start : Directory) (priority : Int32) :
    (Directory.locator priority).Supplies start.Unchanged start.answer
      (start.search.map FileIndex.names) where
  locate name _ h := Directory.locate_outcome h name
  identifiers _ h := Directory.identifiers_outcome h
  reported := by
    intro known name source hnames hanswer
    unfold Directory.answer at hanswer
    cases hsearch : start.search with
    | error error =>
      rw [hsearch] at hnames
      contradiction
    | ok index =>
      rw [hsearch] at hnames hanswer
      obtain rfl : index.names = known := Except.ok.inj hnames
      simp only at hanswer
      split at hanswer
      · simp at hanswer
      · rename_i path hpath
        exact Directory.search_reportsPaths hsearch name path hpath

structure Independent {ι : Type} (parts : ι → Part ω τ) : Prop where
  get_set : ∀ i state world, (parts i).get ((parts i).set state world) = state
  get_set_ne : ∀ i j state world, i ≠ j →
    (parts j).get ((parts i).set state world) = (parts j).get world

section Parts

variable {ι : Type} {parts : ι → Part ω τ} {still : ι → τ → Prop} {i : ι} {world : ω}

theorem Independent.still_set (h : Independent parts)
    (hworld : ∀ j, still j ((parts j).get world)) {state : τ} (hstate : still i state) (j : ι) :
    still j ((parts j).get ((parts i).set state world)) := by
  by_cases hij : i = j
  · subst hij
    rwa [h.get_set]
  · rw [h.get_set_ne i j state world hij]
    exact hworld j

theorem Supplies.onPart (hparts : Independent parts) {locator : Locator τ}
    {answers : String → Except Error (Option String)} {names : Except Error (List String)}
    (h : locator.Supplies (still i) answers names) :
    (locator.onPart (parts i)).Supplies (fun world => ∀ j, still j ((parts j).get world)) answers
      names where
  locate name world hworld := by
    obtain ⟨hanswer, hafter⟩ := h.locate name _ (hworld i)
    exact ⟨hanswer, hparts.still_set hworld hafter⟩
  identifiers world hworld := by
    obtain ⟨hnames, hafter⟩ := h.identifiers _ (hworld i)
    exact ⟨hnames, hparts.still_set hworld hafter⟩
  reported := h.reported

end Parts

def several (locators : List (Locator ω)) : Locator ω where
  locate name := firstSource name locators
  identifiers := allIdentifiers locators

variable {still : ω → Prop}

theorem supplies_nil :
    (several []).Supplies still (fun _ => .ok none) (.ok []) where
  locate _ _ h := ⟨rfl, h⟩
  identifiers _ h := ⟨rfl, h⟩
  reported _ _ _ _ hanswer := nomatch hanswer

def answersOr (answers others : String → Except Error (Option String)) (name : String) :
    Except Error (Option String) :=
  match answers name with
  | .ok none => others name
  | found => found

def namesAnd (names others : Except Error (List String)) : Except Error (List String) := do
  let known ← names
  let more ← others
  pure (known ++ more)

theorem Supplies.cons {locator : Locator ω} {later : List (Locator ω)}
    {answers others : String → Except Error (Option String)}
    {names more : Except Error (List String)} (h : locator.Supplies still answers names)
    (hlater : (several later).Supplies still others more) :
    (several (locator :: later)).Supplies still (answersOr answers others)
      (namesAnd names more) where
  locate name world hworld := by
    obtain ⟨hanswer, hafter⟩ := h.locate name world hworld
    simp only [several, firstSource, Effect.outcome_bind, answersOr, ← hanswer]
    rcases hasked : (locator.locate name).outcome world with ⟨error | _ | source, after⟩ <;>
      rw [hasked] at hafter
    · exact ⟨rfl, hafter⟩
    · exact hlater.locate name after hafter
    · exact ⟨rfl, hafter⟩
  identifiers world hworld := by
    obtain ⟨hnames, hafter⟩ := h.identifiers world hworld
    simp only [several, allIdentifiers, Effect.outcome_bind, namesAnd, ← hnames]
    rcases hasked : locator.identifiers.outcome world with ⟨error | known, after⟩ <;>
      rw [hasked] at hafter
    · exact ⟨rfl, hafter⟩
    · obtain ⟨hmore, hlast⟩ := hlater.identifiers after hafter
      simp only [several] at hmore hlast
      simp only [← hmore]
      rcases hothers : (allIdentifiers later).outcome after with ⟨error | others, last⟩ <;>
        rw [hothers] at hlast
      · exact ⟨rfl, hlast⟩
      · exact ⟨rfl, hlast⟩
  reported := by
    intro known name source hknown hanswer
    rcases names with error | own
    · contradiction
    · rcases more with error | others
      · contradiction
      · obtain rfl : own ++ _ = known := Except.ok.inj hknown
        unfold answersOr at hanswer
        split at hanswer
        · exact (hlater.reported _ name source rfl hanswer).mono fun _ hmem =>
            List.mem_append_right _ hmem
        · exact (h.reported own name source rfl hanswer).mono fun _ hmem =>
            List.mem_append_left _ hmem

theorem supplies_several {locators : List (Locator ω)}
    (h : ∀ locator ∈ locators, ∃ answers names, locator.Supplies still answers names) :
    ∃ answers names, (several locators).Supplies still answers names := by
  induction locators with
  | nil => exact ⟨_, _, supplies_nil⟩
  | cons locator later ih =>
    obtain ⟨⟨answers, names, hfirst⟩, hlater⟩ := List.forall_mem_cons.mp h
    obtain ⟨others, more, hothers⟩ := ih hlater
    exact ⟨_, _, hfirst.cons hothers⟩

end Locator

end Stencil
