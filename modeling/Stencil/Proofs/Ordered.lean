import Mathlib.Data.List.Induction
import Stencil.Ordered

/-! What putting entries and elements in order keeps, what is found under a key then, and in which
order elements of one rank stand. -/

namespace Stencil

theorem mem_insertEntry {α : Type} {key : String} {value : α} {entries : List (String × α)}
    {entry : String × α} (h : entry ∈ insertEntry key value entries) :
    entry = (key, value) ∨ entry ∈ entries := by
  induction entries with
  | nil => exact .inl (by simpa [insertEntry] using h)
  | cons first later ih =>
    obtain ⟨k, v⟩ := first
    rw [insertEntry] at h
    split at h
    · rcases List.mem_cons.mp h with hnew | hold
      · exact .inl hnew
      · exact .inr hold
    · split at h
      · rcases List.mem_cons.mp h with hnew | hold
        · exact .inl hnew
        · exact .inr (by simp [hold])
      · rcases List.mem_cons.mp h with hfirst | hlater
        · exact .inr (by simp [hfirst])
        · exact (ih hlater).imp_right fun hold => by simp [hold]

theorem lookup_cons_eq_ite {α : Type} (key : String) (value : α) (later : List (String × α))
    (name : String) :
    ((key, value) :: later).lookup name = if name = key then some value else later.lookup name := by
  rw [List.lookup_cons]
  by_cases h : name = key
  · simp [h]
  · simp [h, beq_eq_false_iff_ne.mpr h]

theorem lookup_insertEntry {α : Type} (key : String) (value : α) (entries : List (String × α))
    (name : String) :
    (insertEntry key value entries).lookup name =
      if name = key then some value else entries.lookup name := by
  induction entries with
  | nil => exact lookup_cons_eq_ite key value [] name
  | cons first later ih =>
    obtain ⟨k, v⟩ := first
    rw [insertEntry]
    split
    · exact lookup_cons_eq_ite key value _ name
    · split
      · rename_i hsame
        subst hsame
        simp only [lookup_cons_eq_ite]
        split <;> rfl
      · rename_i hother
        rw [lookup_cons_eq_ite, lookup_cons_eq_ite, ih]
        by_cases h : name = key
        · simp [h, hother]
        · simp [h]

/-- Dropping entries by their keys leaves the others to be found. -/
theorem lookup_filter_key {α : Type} (kept : String → Bool) (entries : List (String × α))
    (name : String) :
    (entries.filter fun entry => kept entry.1).lookup name =
      if kept name then entries.lookup name else none := by
  induction entries with
  | nil => simp
  | cons first later ih =>
    obtain ⟨key, value⟩ := first
    rw [List.filter_cons]
    by_cases hsame : name = key
    · subst hsame
      cases hkept : kept name with
      | false => simpa [hkept] using ih
      | true => simp
    · cases hkept : kept key with
      | false => simp [lookup_cons_eq_ite, hsame, ih]
      | true => simp [lookup_cons_eq_ite, hsame, ih]

def Ascending {α : Type} (entries : List (String × α)) : Prop :=
  entries.Pairwise fun a b => a.1 < b.1

theorem Ascending.insertEntry {α : Type} {entries : List (String × α)} (h : Ascending entries)
    (key : String) (value : α) : Ascending (insertEntry key value entries) := by
  induction entries with
  | nil => exact List.pairwise_singleton _ _
  | cons first later ih =>
    obtain ⟨k, v⟩ := first
    obtain ⟨hfirst, hlater⟩ := List.pairwise_cons.mp h
    rw [Stencil.insertEntry]
    split
    · rename_i hlt
      refine List.pairwise_cons.mpr ⟨?_, h⟩
      intro entry hentry
      rcases List.mem_cons.mp hentry with rfl | hold
      · exact hlt
      · exact String.lt_trans hlt (hfirst entry hold)
    · rename_i hnot
      split
      · rename_i hsame
        subst hsame
        exact List.pairwise_cons.mpr ⟨hfirst, hlater⟩
      · rename_i hother
        have hle : k ≤ key := String.not_lt.mp hnot
        have hlt : k < key :=
          String.not_le.mp fun hge => hother (String.le_antisymm hge hle)
        refine List.pairwise_cons.mpr ⟨?_, ih hlater⟩
        intro entry hentry
        rcases mem_insertEntry hentry with rfl | hold
        · exact hlt
        · exact hfirst entry hold

theorem Ascending.nodup {α : Type} {entries : List (String × α)} (h : Ascending entries) :
    (entries.map Prod.fst).Nodup :=
  List.pairwise_map.mpr (h.imp String.ne_of_lt)

theorem Ascending.lookup_eq_some_iff {α : Type} {entries : List (String × α)}
    (h : Ascending entries) {name : String} {value : α} :
    entries.lookup name = some value ↔ (name, value) ∈ entries := by
  induction entries with
  | nil => simp
  | cons first later ih =>
    obtain ⟨key, other⟩ := first
    obtain ⟨hfirst, hlater⟩ := List.pairwise_cons.mp h
    rw [lookup_cons_eq_ite, List.mem_cons]
    by_cases hsame : name = key
    · subst hsame
      have hnone : (name, value) ∉ later := fun hmem =>
        String.lt_irrefl name (hfirst (name, value) hmem)
      simp [hnone, eq_comm]
    · simp [hsame, ih hlater]

theorem insertEntry_last {α : Type} {key : String} {entries : List (String × α)}
    (h : ∀ entry ∈ entries, entry.1 < key) (value : α) :
    insertEntry key value entries = entries ++ [(key, value)] := by
  induction entries with
  | nil => rfl
  | cons first later ih =>
    obtain ⟨k, v⟩ := first
    have hlt : k < key := h (k, v) List.mem_cons_self
    have hlater := ih fun entry hmem => h entry (List.mem_cons_of_mem _ hmem)
    rw [insertEntry, if_neg (String.lt_asymm hlt), if_neg (String.ne_of_lt hlt).symm, hlater,
      List.cons_append]

theorem sortEntries_concat {α : Type} (entries : List (String × α)) (last : String × α) :
    sortEntries (entries ++ [last]) = insertEntry last.1 last.2 (sortEntries entries) := by
  simp [sortEntries]

/-- Entries that are in order stay as they are. -/
theorem Ascending.sortEntries_eq {α : Type} {entries : List (String × α)} (h : Ascending entries) :
    sortEntries entries = entries := by
  induction entries using List.reverseRecOn with
  | nil => rfl
  | append_singleton earlier last ih =>
    obtain ⟨hearlier, -, hlast⟩ := List.pairwise_append.mp h
    rw [sortEntries_concat, ih hearlier]
    exact insertEntry_last (fun entry hmem => hlast entry hmem last List.mem_cons_self) last.2

theorem ascending_sortEntries {α : Type} (entries : List (String × α)) :
    Ascending (sortEntries entries) := by
  induction entries using List.reverseRecOn with
  | nil => exact List.Pairwise.nil
  | append_singleton earlier last ih =>
    rw [sortEntries_concat]
    exact ih.insertEntry last.1 last.2

/-- Of several entries with one key the last one stays. -/
theorem lookup_sortEntries {α : Type} (entries : List (String × α)) (name : String) :
    (sortEntries entries).lookup name = entries.reverse.lookup name := by
  induction entries using List.reverseRecOn with
  | nil => rfl
  | append_singleton earlier last ih =>
    rw [sortEntries_concat, lookup_insertEntry, ih, List.reverse_concat, lookup_cons_eq_ite]

theorem mem_insertName {name n : String} {names : List String} :
    n ∈ insertName name names ↔ n = name ∨ n ∈ names := by
  induction names with
  | nil => simp [insertName]
  | cons first later ih =>
    rw [insertName]
    split
    · simp
    · split
      · rename_i hsame
        simp [hsame]
      · simp only [List.mem_cons, ih, or_left_comm]

theorem sortNames_concat (names : List String) (last : String) :
    sortNames (names ++ [last]) = insertName last (sortNames names) := by
  simp [sortNames]

theorem mem_sortNames {n : String} {names : List String} : n ∈ sortNames names ↔ n ∈ names := by
  induction names using List.reverseRecOn with
  | nil => rfl
  | append_singleton earlier last ih =>
    rw [sortNames_concat, mem_insertName, ih, List.mem_append, List.mem_singleton, or_comm]

theorem pairwise_insertName {names : List String} (h : names.Pairwise (· < ·)) (name : String) :
    (insertName name names).Pairwise (· < ·) := by
  induction names with
  | nil => exact List.pairwise_singleton _ name
  | cons first later ih =>
    obtain ⟨hfirst, hlater⟩ := List.pairwise_cons.mp h
    rw [insertName]
    split
    · rename_i hlt
      refine List.pairwise_cons.mpr ⟨?_, h⟩
      intro n hn
      rcases List.mem_cons.mp hn with rfl | hmem
      · exact hlt
      · exact String.lt_trans hlt (hfirst n hmem)
    · rename_i hnot
      split
      · exact h
      · rename_i hother
        have hle : first ≤ name := String.not_lt.mp hnot
        have hlt : first < name := String.not_le.mp fun hge => hother (String.le_antisymm hge hle)
        refine List.pairwise_cons.mpr ⟨?_, ih hlater⟩
        intro n hn
        rcases mem_insertName.mp hn with rfl | hmem
        · exact hlt
        · exact hfirst n hmem

theorem pairwise_sortNames (names : List String) : (sortNames names).Pairwise (· < ·) := by
  induction names using List.reverseRecOn with
  | nil => exact .nil
  | append_singleton earlier last ih =>
    rw [sortNames_concat]
    exact pairwise_insertName ih last

/-- In one strict order, lists with the same members are the same. -/
theorem eq_of_pairwise_of_mem_iff {α : Type} {precedes : α → α → Prop}
    (hasymm : ∀ a b, precedes a b → ¬ precedes b a) {elements others : List α}
    (h : elements.Pairwise precedes) (hothers : others.Pairwise precedes)
    (hsame : ∀ a, a ∈ elements ↔ a ∈ others) : elements = others := by
  have hne : ∀ {a b}, precedes a b → a ≠ b := by
    rintro a _ hab rfl
    exact hasymm a a hab hab
  have hperm : elements.Perm others :=
    (List.perm_ext_iff_of_nodup (h.imp hne) (hothers.imp hne)).mpr hsame
  exact hperm.eq_of_pairwise (fun a b _ _ hab hba => absurd hba (hasymm a b hab)) h hothers

theorem Ascending.eq_of_lookup_eq {α : Type} {entries others : List (String × α)}
    (h : Ascending entries) (hothers : Ascending others)
    (hsame : ∀ name, entries.lookup name = others.lookup name) : entries = others := by
  refine eq_of_pairwise_of_mem_iff (fun _ _ => String.lt_asymm) h hothers ?_
  rintro ⟨name, value⟩
  rw [← h.lookup_eq_some_iff, ← hothers.lookup_eq_some_iff, hsame]

theorem insertRanked_eq {α : Type} (rank : α → Int32) (element : α) (elements : List α) :
    insertRanked rank element elements =
      elements.takeWhile (fun a => rank element ≤ rank a) ++
        element :: elements.dropWhile (fun a => rank element ≤ rank a) := by
  induction elements with
  | nil => rfl
  | cons first later ih =>
    rw [insertRanked]
    by_cases h : rank element ≤ rank first
    · simp [h, ih]
    · simp [h]

theorem perm_insertRanked {α : Type} (rank : α → Int32) (element : α) (elements : List α) :
    (insertRanked rank element elements).Perm (element :: elements) := by
  rw [insertRanked_eq]
  refine List.perm_middle.trans ?_
  rw [List.takeWhile_append_dropWhile]

theorem mem_insertRanked {α : Type} {rank : α → Int32} {element a : α} {elements : List α} :
    a ∈ insertRanked rank element elements ↔ a = element ∨ a ∈ elements :=
  (perm_insertRanked rank element elements).mem_iff.trans List.mem_cons

/-- Where an element goes depends on ranks alone. -/
theorem map_insertRanked {α β : Type} {rank : α → Int32} {rankOf : β → Int32} {f : α → β}
    (h : ∀ a, rankOf (f a) = rank a) (element : α) (elements : List α) :
    (insertRanked rank element elements).map f =
      insertRanked rankOf (f element) (elements.map f) := by
  induction elements with
  | nil => rfl
  | cons first later ih =>
    rw [insertRanked, List.map_cons, insertRanked, h, h]
    split
    · rw [List.map_cons, ih]
    · rfl

def Descending {α : Type} (rank : α → Int32) (elements : List α) : Prop :=
  elements.Pairwise fun a b => rank b ≤ rank a

section Ranks

variable {α : Type} {rank : α → Int32} {element : α} {elements : List α}

theorem Descending.takeWhile_eq (h : Descending rank elements) (least : Int32) :
    elements.takeWhile (fun a => least ≤ rank a) = elements.filter fun a => least ≤ rank a := by
  induction elements with
  | nil => rfl
  | cons first later ih =>
    obtain ⟨hfirst, hlater⟩ := List.pairwise_cons.mp h
    by_cases hleast : least ≤ rank first
    · simp [hleast, ih hlater]
    · have hnone : later.filter (fun a => decide (least ≤ rank a)) = [] := by
        rw [List.filter_eq_nil_iff]
        intro a ha hle
        exact hleast (Int32.le_trans (of_decide_eq_true hle) (hfirst a ha))
      simp [hleast, hnone]

theorem Descending.lt_of_mem_dropWhile (h : Descending rank elements) {least : Int32} {a : α}
    (ha : a ∈ elements.dropWhile fun a => least ≤ rank a) : rank a < least := by
  induction elements with
  | nil => contradiction
  | cons first later ih =>
    obtain ⟨hfirst, hlater⟩ := List.pairwise_cons.mp h
    by_cases hleast : least ≤ rank first
    · exact ih hlater (by simpa [hleast] using ha)
    · have hmem : a ∈ first :: later := by simpa [hleast] using ha
      rcases List.mem_cons.mp hmem with rfl | hmem
      · exact Int32.not_le.mp hleast
      · exact Int32.not_le.mp fun hle => hleast (Int32.le_trans hle (hfirst a hmem))

theorem Descending.insertRanked (h : Descending rank elements) (element : α) :
    Descending rank (insertRanked rank element elements) := by
  induction elements with
  | nil => exact List.pairwise_singleton _ element
  | cons first later ih =>
    obtain ⟨hfirst, hlater⟩ := List.pairwise_cons.mp h
    rw [Stencil.insertRanked]
    split
    · rename_i hle
      refine List.pairwise_cons.mpr ⟨?_, ih hlater⟩
      intro a ha
      rcases mem_insertRanked.mp ha with rfl | hold
      · exact hle
      · exact hfirst a hold
    · rename_i hnot
      have hlt : rank first < rank element := Int32.not_le.mp hnot
      refine List.pairwise_cons.mpr ⟨?_, h⟩
      intro a ha
      rcases List.mem_cons.mp ha with rfl | hmem
      · exact Int32.le_of_lt hlt
      · exact Int32.le_trans (hfirst a hmem) (Int32.le_of_lt hlt)

/-- A new element stands behind those of its rank, and leaves the others as they were. -/
theorem Descending.filter_insertRanked (h : Descending rank elements) (element : α) (r : Int32) :
    (Stencil.insertRanked rank element elements).filter (fun a => rank a = r) =
      elements.filter (fun a => rank a = r) ++ [element].filter fun a => rank a = r := by
  have hsplit : elements.filter (fun a => rank a = r) =
      (elements.takeWhile fun a => rank element ≤ rank a).filter (fun a => rank a = r) ++
        (elements.dropWhile fun a => rank element ≤ rank a).filter fun a => rank a = r := by
    rw [← List.filter_append, List.takeWhile_append_dropWhile]
  rw [insertRanked_eq, List.filter_append, hsplit]
  by_cases hrank : rank element = r
  · subst hrank
    have hnone : (elements.dropWhile fun a => rank element ≤ rank a).filter
        (fun a => rank a = rank element) = [] := by
      rw [List.filter_eq_nil_iff]
      intro a ha hsame
      have hlt := h.lt_of_mem_dropWhile ha
      rw [of_decide_eq_true hsame] at hlt
      exact Int32.lt_irrefl hlt
    simp [hnone]
  · simp [hrank]

end Ranks

theorem sortRanked_concat {α : Type} (rank : α → Int32) (elements : List α) (last : α) :
    sortRanked rank (elements ++ [last]) = insertRanked rank last (sortRanked rank elements) := by
  simp [sortRanked]

theorem perm_sortRanked {α : Type} (rank : α → Int32) (elements : List α) :
    (sortRanked rank elements).Perm elements := by
  induction elements using List.reverseRecOn with
  | nil => exact .nil
  | append_singleton earlier last ih =>
    rw [sortRanked_concat]
    have hinserted := perm_insertRanked rank last (sortRanked rank earlier)
    exact hinserted.trans ((ih.cons last).trans (List.perm_append_singleton last earlier).symm)

theorem mem_sortRanked {α : Type} {rank : α → Int32} {a : α} {elements : List α} :
    a ∈ sortRanked rank elements ↔ a ∈ elements := (perm_sortRanked rank elements).mem_iff

theorem map_sortRanked {α β : Type} {rank : α → Int32} {rankOf : β → Int32} {f : α → β}
    (h : ∀ a, rankOf (f a) = rank a) (elements : List α) :
    (sortRanked rank elements).map f = sortRanked rankOf (elements.map f) := by
  induction elements using List.reverseRecOn with
  | nil => rfl
  | append_singleton earlier last ih =>
    rw [sortRanked_concat, map_insertRanked h, ih, List.map_append, List.map_singleton,
      sortRanked_concat]

theorem descending_sortRanked {α : Type} (rank : α → Int32) (elements : List α) :
    Descending rank (sortRanked rank elements) := by
  induction elements using List.reverseRecOn with
  | nil => exact List.Pairwise.nil
  | append_singleton earlier last ih =>
    rw [sortRanked_concat]
    exact ih.insertRanked last

/-- Elements of one rank keep the order in which they were given. -/
theorem filter_sortRanked {α : Type} (rank : α → Int32) (elements : List α) (r : Int32) :
    (sortRanked rank elements).filter (fun a => rank a = r) =
      elements.filter fun a => rank a = r := by
  induction elements using List.reverseRecOn with
  | nil => rfl
  | append_singleton earlier last ih =>
    rw [sortRanked_concat, (descending_sortRanked rank earlier).filter_insertRanked, ih,
      List.filter_append]

/-- The elements given, in descending order of rank, those of one rank in the order given. -/
structure StablyDescending {α : Type} (rank : α → Int32) (given ordered : List α) : Prop where
  descending : Descending rank ordered
  perm : ordered.Perm given
  stable : ∀ r, ordered.filter (fun a => rank a = r) = given.filter fun a => rank a = r

theorem stablyDescending_sortRanked {α : Type} (rank : α → Int32) (elements : List α) :
    StablyDescending rank elements (sortRanked rank elements) where
  descending := descending_sortRanked rank elements
  perm := perm_sortRanked rank elements
  stable := filter_sortRanked rank elements

/-- An element of the highest rank that is given last stands behind the others of this rank, and in
front of all the rest. -/
theorem sortRanked_concat_highest {α : Type} (rank : α → Int32) (elements : List α) {last : α}
    (h : rank last = Int32.maxValue) :
    ∃ lower, sortRanked rank (elements ++ [last]) =
      elements.filter (fun a => rank a = Int32.maxValue) ++ last :: lower := by
  have hdescending := descending_sortRanked rank elements
  have hhighest : ∀ a, Int32.maxValue ≤ rank a ↔ rank a = Int32.maxValue := fun a =>
    ⟨fun hle => Int32.le_antisymm (Int32.le_maxValue _) hle, fun heq => heq ▸ Int32.le_refl _⟩
  have hfront : (sortRanked rank elements).takeWhile (fun a => rank last ≤ rank a) =
      elements.filter fun a => rank a = Int32.maxValue := by
    rw [hdescending.takeWhile_eq, h]
    simp only [hhighest]
    exact filter_sortRanked rank elements _
  exact ⟨_, by rw [sortRanked_concat, insertRanked_eq, hfront]⟩

end Stencil
