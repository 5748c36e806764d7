import Stencil.Locator.Files
import Stencil.Proofs.Ordered
import Stencil.Proofs.Text.Search

/-! Which file a name stands for: the one with this path, or else the one whose path is the name
with the first possible extension behind it, in whatever order a directory lists its files. -/

namespace Stencil

theorem dropEnding?_eq_some_iff {ending text name : String} :
    dropEnding? ending text = some name ↔ text = name ++ ending := by
  constructor
  · intro h
    obtain ⟨rest, hrest, rfl⟩ := Option.map_eq_some_iff.mp h
    have hreversed := congrArg List.reverse (Text.isPrefixOf?_eq_some hrest)
    rw [List.reverse_reverse, List.reverse_append, List.reverse_reverse] at hreversed
    exact String.toList_inj.mp (by simpa using hreversed)
  · rintro rfl
    have hreversed : (name ++ ending).toList.reverse =
        ending.toList.reverse ++ name.toList.reverse := by
      rw [String.toList_append, List.reverse_append]
    rw [dropEnding?, hreversed, Text.isPrefixOf?_append]
    simp

theorem mem_filesWith {extension : String} {paths : List String} {file : TemplateFile} :
    file ∈ filesWith extension paths ↔ file.path ∈ paths ∧ file.path = file.name ++ extension := by
  rw [filesWith, List.mem_filterMap]
  constructor
  · rintro ⟨path, hpath, hfile⟩
    obtain ⟨name, hname, rfl⟩ := Option.map_eq_some_iff.mp hfile
    exact ⟨hpath, dropEnding?_eq_some_iff.mp hname⟩
  · rintro ⟨hpath, hname⟩
    exact ⟨file.path, hpath, by rw [dropEnding?_eq_some_iff.mpr hname]; rfl⟩

/-- A name has at most one file with a given extension. -/
theorem find?_filesWith (extension : String) (paths : List String) (name : String) :
    ((filesWith extension paths).find? fun file => file.name = name) =
      if name ++ extension ∈ paths then some ⟨name, name ++ extension⟩ else none := by
  split
  · rename_i hmem
    have hfile : (⟨name, name ++ extension⟩ : TemplateFile) ∈ filesWith extension paths :=
      mem_filesWith.mpr ⟨hmem, rfl⟩
    have hsome : ((filesWith extension paths).find? fun file => file.name = name).isSome = true :=
      List.find?_isSome.mpr ⟨_, hfile, by simp⟩
    obtain ⟨found, hfound⟩ := Option.isSome_iff_exists.mp hsome
    obtain ⟨-, hpath⟩ := mem_filesWith.mp (List.mem_of_find?_eq_some hfound)
    have hname : found.name = name := by simpa using List.find?_some hfound
    subst hname
    rw [hfound, ← hpath]
  · rename_i hmissing
    rw [List.find?_eq_none]
    rintro file hfile hname
    obtain ⟨hpath, hextended⟩ := mem_filesWith.mp hfile
    simp only [decide_eq_true_eq] at hname
    rw [hextended, hname] at hpath
    exact hmissing hpath

/-- The template files among some paths, those with the first extension before those with the
next. -/
def templateFiles (paths : List String) : List TemplateFile :=
  templateExtensions.flatMap fun extension => filesWith extension paths

def IsTemplatePath (path : String) : Prop :=
  ∃ extension ∈ templateExtensions, ∃ short, path = short ++ extension

theorem mem_templateFiles {paths : List String} {file : TemplateFile} :
    file ∈ templateFiles paths ↔
      ∃ extension ∈ templateExtensions, file.path ∈ paths ∧ file.path = file.name ++ extension := by
  simp only [templateFiles, List.mem_flatMap, mem_filesWith]

theorem mem_map_path_templateFiles {paths : List String} {path : String} :
    path ∈ (templateFiles paths).map TemplateFile.path ↔ IsTemplatePath path ∧ path ∈ paths := by
  rw [List.mem_map]
  constructor
  · rintro ⟨file, hfile, rfl⟩
    obtain ⟨extension, hextension, hmem, hpath⟩ := mem_templateFiles.mp hfile
    exact ⟨⟨extension, hextension, file.name, hpath⟩, hmem⟩
  · rintro ⟨⟨extension, hextension, short, rfl⟩, hmem⟩
    exact ⟨⟨short, short ++ extension⟩,
      mem_templateFiles.mpr ⟨extension, hextension, hmem, rfl⟩, rfl⟩

theorem mem_map_name_templateFiles {paths : List String} {name : String} :
    name ∈ (templateFiles paths).map TemplateFile.name ↔
      ∃ extension ∈ templateExtensions, name ++ extension ∈ paths := by
  rw [List.mem_map]
  constructor
  · rintro ⟨file, hfile, rfl⟩
    obtain ⟨extension, hextension, hmem, hpath⟩ := mem_templateFiles.mp hfile
    exact ⟨extension, hextension, hpath ▸ hmem⟩
  · rintro ⟨extension, hextension, hmem⟩
    exact ⟨⟨name, name ++ extension⟩, mem_templateFiles.mpr ⟨extension, hextension, hmem, rfl⟩, rfl⟩

namespace FileIndex

/-- A file takes its path from whatever had it, and its name only if nothing has it. -/
theorem path?_add (index : FileIndex) (file : TemplateFile) (name : String) :
    (index.add file).path? name =
      if name = file.path then some file.path
      else (index.path? name).or (if name = file.name then some file.path else none) := by
  have hnamed : (index.add file).path? name =
      ((insertEntry file.path file.path index.paths).lookup name).or
        (if name = file.name then some file.path else none) := by
    unfold path? FileIndex.add
    simp only
    split
    · rename_i htaken
      obtain ⟨kept, hkept⟩ := Option.isSome_iff_exists.mp htaken
      by_cases hname : name = file.name
      · rw [hname, hkept, Option.some_or]
      · rw [if_neg hname, Option.or_none]
    · rename_i hfree
      rw [Option.not_isSome_iff_eq_none] at hfree
      rw [lookup_insertEntry]
      by_cases hname : name = file.name
      · rw [hname, hfree, Option.none_or]
      · rw [if_neg hname, if_neg hname, Option.or_none]
  rw [hnamed, lookup_insertEntry]
  split
  · rw [Option.some_or]
  · rfl

/-- Of some files added one by one, the one with this path is found, or else the first one with this
name. -/
theorem path?_foldl_add (files : List TemplateFile) (name : String) :
    (files.foldl FileIndex.add {}).path? name =
      if name ∈ files.map TemplateFile.path then some name
      else (files.find? fun file => file.name = name).map TemplateFile.path := by
  induction files using List.reverseRecOn with
  | nil => rfl
  | append_singleton earlier last ih =>
    rw [List.foldl_append, List.foldl_cons, List.foldl_nil, path?_add, ih, List.map_append,
      List.find?_append]
    simp only [List.mem_append, List.map_cons, List.map_nil, List.mem_singleton]
    by_cases hlast : name = last.path
    · simp [hlast]
    · by_cases hearlier : name ∈ earlier.map TemplateFile.path
      · simp [hlast, hearlier]
      · have hnew : ¬ (name ∈ earlier.map TemplateFile.path ∨ name = last.path) :=
          not_or.mpr ⟨hearlier, hlast⟩
        have hfirst : ([last].find? fun file => file.name = name).map TemplateFile.path =
            if name = last.name then some last.path else none := by
          by_cases hname : name = last.name
          · simp [hname]
          · simp [hname, Ne.symm hname]
        rw [if_neg hlast, if_neg hearlier, if_neg hnew, Option.map_or, hfirst]

theorem names_foldl_add (files : List TemplateFile) :
    (files.foldl FileIndex.add {}).names = sortNames (files.map TemplateFile.name) := by
  induction files using List.reverseRecOn with
  | nil => rfl
  | append_singleton earlier last ih =>
    rw [List.foldl_append, List.foldl_cons, List.foldl_nil, List.map_append, List.map_singleton,
      sortNames_concat, ← ih]
    rfl

theorem ascending_foldl_add (files : List TemplateFile) :
    Ascending (files.foldl FileIndex.add {}).paths := by
  induction files using List.reverseRecOn with
  | nil => exact .nil
  | append_singleton earlier last ih =>
    rw [List.foldl_append, List.foldl_cons, List.foldl_nil]
    unfold FileIndex.add
    have hwithPath := ih.insertEntry last.path last.path
    simp only
    split
    · exact hwithPath
    · exact hwithPath.insertEntry last.name last.path

theorem names_ofPaths (paths : List String) :
    (ofPaths paths).names = sortNames ((templateFiles paths).map TemplateFile.name) :=
  names_foldl_add (templateFiles paths)

theorem mem_names_ofPaths {paths : List String} {name : String} :
    name ∈ (ofPaths paths).names ↔
      ∃ extension ∈ templateExtensions, name ++ extension ∈ paths := by
  rw [names_ofPaths, mem_sortNames, mem_map_name_templateFiles]

/-- Among the files with some paths, the one with a path is what a name stands for. -/
inductive Serves (paths : List String) (name : String) : String → Prop where
  /-- The full name of a template file is its path. -/
  | full (htemplate : IsTemplatePath name) (hmem : name ∈ paths) : Serves paths name name
  /-- Any other name stands for the file that has the first possible extension behind it. -/
  | short {earlier later : List String} {extension : String}
      (hother : ¬ (IsTemplatePath name ∧ name ∈ paths))
      (hsplit : templateExtensions = earlier ++ extension :: later)
      (hmem : name ++ extension ∈ paths) (hfirst : ∀ other ∈ earlier, name ++ other ∉ paths) :
      Serves paths name (name ++ extension)

theorem Serves.of_mem_iff {paths others : List String} (h : ∀ path, path ∈ paths ↔ path ∈ others)
    {name path : String} (hserves : Serves paths name path) : Serves others name path := by
  cases hserves with
  | full htemplate hmem => exact .full htemplate ((h name).mp hmem)
  | short hother hsplit hmem hfirst =>
    refine .short ?_ hsplit ((h _).mp hmem) fun other hearlier hfound => ?_
    · rwa [← h name]
    · exact hfirst other hearlier ((h _).mpr hfound)

theorem Serves.isTemplate {paths : List String} {name path : String} (h : Serves paths name path) :
    IsTemplatePath path ∧ path ∈ paths := by
  cases h with
  | full htemplate hmem => exact ⟨htemplate, hmem⟩
  | short _ hsplit hmem _ => exact ⟨⟨_, by simp [hsplit], name, rfl⟩, hmem⟩

theorem path?_ofPaths_eq_some_iff {paths : List String} {name path : String} :
    (ofPaths paths).path? name = some path ↔ Serves paths name path := by
  have hfound : (ofPaths paths).path? name = _ := path?_foldl_add (templateFiles paths) name
  rw [hfound]
  by_cases hfull : IsTemplatePath name ∧ name ∈ paths
  · rw [if_pos (mem_map_path_templateFiles.mpr hfull), Option.some.injEq]
    constructor
    · rintro rfl
      exact .full hfull.1 hfull.2
    · rintro (_ | ⟨hother, -, -, -⟩)
      · rfl
      · exact absurd hfull hother
  · rw [if_neg fun hmem => hfull (mem_map_path_templateFiles.mp hmem), templateFiles,
      List.find?_flatMap, List.map_findSome?, List.findSome?_eq_some_iff]
    simp only [Function.comp_apply, find?_filesWith]
    constructor
    · rintro ⟨earlier, extension, later, hsplit, hhere, hearlier⟩
      split at hhere
      · rename_i hmem
        obtain rfl : name ++ extension = path := Option.some.inj hhere
        refine .short hfull hsplit hmem fun other hother hfound => ?_
        have hnone := hearlier other hother
        simp [hfound] at hnone
      · contradiction
    · rintro (⟨htemplate, hmem⟩ | ⟨-, hsplit, hmem, hfirst⟩)
      · exact absurd ⟨htemplate, hmem⟩ hfull
      · refine ⟨_, _, _, hsplit, by simp [hmem], fun other hother => ?_⟩
        simp [hfirst other hother]

theorem exists_path?_of_extended {paths : List String} {name : String}
    (h : ∃ extension ∈ templateExtensions, name ++ extension ∈ paths) :
    ∃ path, (ofPaths paths).path? name = some path := by
  have hfound : (ofPaths paths).path? name = _ := path?_foldl_add (templateFiles paths) name
  rw [hfound]
  split
  · exact ⟨name, rfl⟩
  · obtain ⟨file, hfile, hname⟩ := List.mem_map.mp (mem_map_name_templateFiles.mpr h)
    have hsome : ((templateFiles paths).find? fun file => file.name = name).isSome = true :=
      List.find?_isSome.mpr ⟨file, hfile, by simpa using hname⟩
    obtain ⟨first, hfirst⟩ := Option.isSome_iff_exists.mp hsome
    exact ⟨first.path, by rw [hfirst]; rfl⟩

/-- Paths in another order have the same index. -/
theorem ofPaths_congr {paths others : List String} (h : ∀ path, path ∈ paths ↔ path ∈ others) :
    ofPaths paths = ofPaths others := by
  have hpaths : (ofPaths paths).paths = (ofPaths others).paths := by
    refine (ascending_foldl_add _).eq_of_lookup_eq (ascending_foldl_add _) fun name => ?_
    apply Option.ext
    intro path
    have hsame : Serves paths name path ↔ Serves others name path :=
      ⟨Serves.of_mem_iff h, Serves.of_mem_iff fun path => (h path).symm⟩
    rw [← path?_ofPaths_eq_some_iff, ← path?_ofPaths_eq_some_iff] at hsame
    exact hsame
  have hnames : (ofPaths paths).names = (ofPaths others).names := by
    rw [names_ofPaths, names_ofPaths]
    refine eq_of_pairwise_of_mem_iff (fun _ _ => String.lt_asymm) (pairwise_sortNames _)
      (pairwise_sortNames _) fun name => ?_
    simp only [← names_ofPaths, mem_names_ofPaths, h]
  calc ofPaths paths = ⟨(ofPaths paths).paths, (ofPaths paths).names⟩ := rfl
    _ = ⟨(ofPaths others).paths, (ofPaths others).names⟩ := by rw [hpaths, hnames]
    _ = ofPaths others := rfl

/-- A name is served by the template file that has it as its path. If there is none, it is served by
the file that has one of the extensions behind it, of several of them the one with the first
extension, and if there is none of these either, not at all. The names that are reported are those
of template files without extension, in ascending order, each of them once, and all of them are
served. The order in which the paths are listed does not matter. -/
theorem serves_by_extension (paths : List String) :
    (∀ name path, (ofPaths paths).path? name = some path ↔ Serves paths name path) ∧
    (∀ name path, (ofPaths paths).path? name = some path → IsTemplatePath path ∧ path ∈ paths) ∧
    (ofPaths paths).names.Pairwise (· < ·) ∧
    (∀ name, name ∈ (ofPaths paths).names ↔
      ∃ extension ∈ templateExtensions, name ++ extension ∈ paths) ∧
    (∀ name ∈ (ofPaths paths).names, ∃ path, (ofPaths paths).path? name = some path) ∧
    ∀ others : List String, others.Perm paths → ofPaths others = ofPaths paths := by
  refine ⟨fun _ _ => path?_ofPaths_eq_some_iff, ?_, ?_, fun _ => mem_names_ofPaths, ?_, ?_⟩
  · intro name path hpath
    exact (path?_ofPaths_eq_some_iff.mp hpath).isTemplate
  · rw [names_ofPaths]
    exact pairwise_sortNames _
  · intro name hname
    exact exists_path?_of_extended (mem_names_ofPaths.mp hname)
  · intro others hperm
    exact ofPaths_congr fun path => hperm.mem_iff

/-- A file whose full name is also the name of another file without its extension. -/
theorem serves_by_extension_twice :
    let paths := ["a.txt.mustache", "a.txt", "a.hbs", "notes.md"]
    (Serves paths "a.txt" "a.txt" ∧ (ofPaths paths).path? "a.txt" = some "a.txt") ∧
      (Serves paths "a" "a.hbs" ∧ (ofPaths paths).path? "a" = some "a.hbs") ∧
      paths.reverse.Perm paths ∧ ofPaths paths.reverse = ofPaths paths := by
  intro paths
  obtain ⟨hserves, -, -, -, -, horder⟩ := serves_by_extension paths
  have hfull : Serves paths "a.txt" "a.txt" :=
    .full ⟨".txt", by decide, "a", by decide⟩ (by decide)
  have hshort : Serves paths "a" ("a" ++ ".hbs") := by
    have hextensions : templateExtensions = [".mustache"] ++ ".hbs" :: [".html", ".txt"] := rfl
    refine .short ?_ hextensions (by decide) (by decide)
    rintro ⟨-, hmem⟩
    exact absurd hmem (by decide)
  exact ⟨⟨hfull, (hserves _ _).mpr hfull⟩, ⟨hshort, (hserves _ _).mpr hshort⟩,
    paths.reverse_perm, horder _ paths.reverse_perm⟩

end FileIndex

end Stencil
