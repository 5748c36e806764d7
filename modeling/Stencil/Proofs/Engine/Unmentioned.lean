import Stencil.Proofs.Engine.Reach
import Stencil.Proofs.Engine.Sinks
import Stencil.Proofs.Rendering.Overlooking

/-! Data that no template mentions does not show. Whatever else differs, two maps that agree on the
names that can come to be looked up render as the same text. -/

namespace Stencil

def Template.names (template : Template) : List String := template.parts.flatMap Segment.names

/-- The key is the first part of a name in a template that can come to be rendered. -/
def Setting.Mentions {κ : Type} (setting : Setting κ) (start : Template) (store : κ)
    (key : String) : Prop :=
  ∃ reached, setting.Reaches start store reached ∧
    ∃ name ∈ reached.names, Naming.firstPart name = key

section Chains

variable {key : String}

theorem Resolver.readsKey_this (h : key ≠ "this") : this.ReadsKey key := by
  intro entries others _
  simp [find?, this, h]

theorem Resolver.readsKey_map : map.ReadsKey key := by
  intro entries others hsame
  simp [find?, map, hsame]

theorem Resolver.readsKey_listIndex : listIndex.ReadsKey key := fun _ _ _ => rfl

theorem Resolver.readsKey_object : object.ReadsKey key := fun _ _ _ => rfl

theorem Resolver.readsKey_globalData (data : List (String × Value)) :
    (globalData data).ReadsKey key := fun _ _ _ => rfl

theorem Chain.ReadsKey.add {chain : Chain} (h : chain.ReadsKey key) {resolver : Resolver}
    (hresolver : resolver.ReadsKey key) (priority : Int32) :
    (chain.add priority resolver).ReadsKey key := by
  intro entry hentry
  rcases mem_insertRanked.mp hentry with rfl | hold
  · exact hresolver
  · exact h entry hold

theorem Chain.readsKey_standard (h : key ≠ "this") : Chain.standard.ReadsKey key := by
  have hempty : ReadsKey {} key := fun _ hmem => nomatch hmem
  have hthis := hempty.add (Resolver.readsKey_this h) Resolver.thisPriority
  have hmap := hthis.add Resolver.readsKey_map Resolver.mapPriority
  have hlist := hmap.add Resolver.readsKey_listIndex Resolver.listIndexPriority
  exact hlist.add Resolver.readsKey_object Resolver.objectPriority

/-- The global data of an engine stands for no key of a map. -/
theorem Setup.readsKey_chain {ω : Type} {setup : Setup ω} (hresolvers : setup.resolvers = [])
    (h : key ≠ "this") : setup.chain.ReadsKey key := by
  have hown : (Chain.standard.addAll setup.resolvers).ReadsKey key := by
    rw [hresolvers]
    exact Chain.readsKey_standard h
  unfold chain
  dsimp only
  split
  · exact hown
  · exact hown.add (Resolver.readsKey_globalData _) _

end Chains

namespace Engine

open Render Segment

variable {ω σ : Type}

/-- Unmentioned data cannot influence the output. Rendered by an engine with the standard
strategies, any global data and standard helpers, a template writes the same for two maps that agree
on all keys that are mentioned in it or in a template that it can come to include, if neither a dot
alone nor `this` is. It also ends with the same result and leaves the same store. -/
theorem unmentioned_data_overlooked {setup : Setup ω} (hresolvers : setup.resolvers = [])
    (hhelpers : ∀ entry ∈ setup.registry.helpers, entry.2.IsBuiltin) {template : Template}
    (hcalls : AllCallOnly Helper.IsBuiltin template.segments) {store : Store ω}
    (hstore : setup.toEngine.Sound store)
    (hdot : ∀ reached, setup.toEngine.setting.Reaches template store reached →
      "." ∉ reached.names)
    (hthis : ¬ setup.toEngine.setting.Mentions template store "this")
    {entries others : List (String × Value)}
    (hsame : ∀ key, setup.toEngine.setting.Mentions template store key →
      others.lookup key = entries.lookup key) (sink : Sink σ) (output : σ) :
    (setup.toEngine.renderTemplate sink template (.map others)).outcome (store, output) =
        (setup.toEngine.renderTemplate sink template (.map entries)).outcome (store, output) ∧
      (setup.toEngine.textOf template (.map others)).outcome store =
        (setup.toEngine.textOf template (.map entries)).outcome store := by
  let engine := setup.toEngine
  let keys := engine.setting.Mentions template store
  let templates (reached : Template) :=
    engine.setting.Reaches template store reached ∧
      AllCallOnly Helper.IsBuiltin reached.segments
  let stores (before : Store ω) := engine.setting.Leads template store before ∧ engine.Sound before
  have hencloses : engine.setting.Encloses templates stores :=
    engine.encloses_compiled template store fun _ hcompiles => hcompiles.allCallOnly hhelpers
  have hsettled : ∀ reached, templates reached →
      reached.Settled engine.setting.naming (Frame.AgreesOn keys) := by
    rintro reached ⟨hreached, hbuiltin⟩
    refine ⟨fun part hpart name hname => ?_, hbuiltin.mono fun _ h => h.discreet⟩
    have hnames : name ∈ reached.names := List.mem_flatMap.mpr ⟨part, hpart, hname⟩
    have hkey : keys (Naming.firstPart name) := ⟨reached, hreached, name, hnames, rfl⟩
    have hreads : setup.chain.ReadsKey (Naming.firstPart name) :=
      Setup.readsKey_chain hresolvers fun h => hthis (h ▸ hkey)
    exact Naming.settles_agreesOn (fun h => hdot reached hreached (h ▸ hnames)) hreads hkey
  have hscope : (Scope.ofRoot template.name (.map entries)).Alike (Frame.AgreesOn keys)
      (.ofRoot template.name (.map others)) :=
    ⟨rfl, rfl, .cons (.inr ⟨entries, others, rfl, rfl, hsame⟩) .nil⟩
  have hrendered {τ : Type} (sink : Sink τ) (output : τ) :
      (engine.renderTemplate sink template (.map others)).outcome (store, output) =
        (engine.renderTemplate sink template (.map entries)).outcome (store, output) := by
    obtain ⟨hresult, hlast⟩ := pairs_all (Frame.likeness_agreesOn keys) hencloses hsettled sink
      ⟨.start, hcalls⟩ ⟨_, store, output⟩ ⟨_, store, output⟩
      ⟨hscope, rfl, ⟨.start, hstore⟩, rfl⟩
    exact Prod.ext hresult (Prod.ext hlast.store hlast.output)
  refine ⟨hrendered sink output, ?_⟩
  rw [textOf_outcome, textOf_outcome, hrendered]

def profileSetup : Setup Unit where
  config := { cacheEnabled := false }
  templates := [("row", "\x7b\x7bname\x7d\x7d: \x7b\x7brank\x7d\x7d\n")]
  globals := [("rank", .string "guest")]
  registry := .builtin

def rowTemplate : Template :=
  ⟨"row", [.output "name" true 1, .text ": ", .output "rank" true 1, .text "\n"]⟩

def profileTemplate : Template :=
  ⟨"profile", [.invocation ⟨0, "if", ifHelper⟩ ⟨"if", [], [], true, 1⟩ [.inclusion "row" "" 1]
    none]⟩

def profileData : List (String × Value) := [("name", .string "Ann")]

def widerData : List (String × Value) := [("name", .string "Ann"), ("password", .string "b<c")]

theorem find_row (store : Store Unit) :
    ((profileSetup.toEngine.setting.find "row").outcome store).1 = .ok (some rowTemplate) := by
  let engine := profileSetup.toEngine
  let source := "\x7b\x7bname\x7d\x7d: \x7b\x7brank\x7d\x7d\n"
  have htokens : tokenize "row" {} source =
      .ok [.tag .escaped "name" 1, .literal ": " 1, .tag .escaped "rank" 1, .literal "\n" 1] := by
    decide +kernel
  have hcompile : engine.compileSource "row" source = .ok rowTemplate := by
    rw [compileSource, compile, show engine.compileOptions.delimiters = {} from rfl, htokens]
    rfl
  exact find_setting_of_uncached rfl rfl hcompile

theorem unmentioned_data_overlooked_profile :
    let engine := profileSetup.toEngine
    let store := engine.emptyStore ()
    ((engine.textOf profileTemplate (.map profileData)).outcome store).1 = .ok "Ann: guest\n" ∧
      ((engine.textOf profileTemplate (.map widerData)).outcome store).1 = .ok "Ann: guest\n" := by
  intro engine store
  have hhelpers : ∀ entry ∈ engine.registry.helpers, entry.2.IsBuiltin :=
    fun _ => List.mem_map_of_mem
  have hcalls : AllCallOnly Helper.IsBuiltin profileTemplate.segments :=
    ⟨⟨List.mem_cons_self, trivial, trivial⟩, trivial⟩
  have hencloses : engine.setting.Encloses
      (fun template => template = profileTemplate ∨ template = rowTemplate) fun _ => True := by
    refine Setting.encloses_pair ?_ ?_ find_row
    · rintro included ⟨indent, line, hmem⟩
      have hrow : included = "row" ∧ indent = "" ∧ line = 1 := by
        simpa [Template.parts, profileTemplate, partsAll, parts] using hmem
      exact hrow.1
    · rintro included ⟨indent, line, hmem⟩
      simp [Template.parts, rowTemplate, partsAll, parts] at hmem
  have hnames : ∀ reached, engine.setting.Reaches profileTemplate store reached →
      ∀ name ∈ reached.names, name = "name" ∨ name = "rank" := by
    intro reached hreached name hname
    rcases hencloses.reaches (.inl rfl) trivial hreached with rfl | rfl
    · simp [Template.names, Template.parts, profileTemplate, partsAll, parts, names,
        HelperTag.names] at hname
    · simpa [Template.names, Template.parts, rowTemplate, partsAll, parts, names] using hname
  have hmentioned : ∀ key, engine.setting.Mentions profileTemplate store key →
      key = "name" ∨ key = "rank" := by
    rintro key ⟨reached, hreached, name, hname, rfl⟩
    rcases hnames reached hreached name hname with rfl | rfl
    · exact .inl (by decide)
    · exact .inr (by decide)
  have hdot : ∀ reached, engine.setting.Reaches profileTemplate store reached →
      "." ∉ reached.names :=
    fun reached hreached hmem => by simpa using hnames reached hreached "." hmem
  have hthis : ¬ engine.setting.Mentions profileTemplate store "this" :=
    fun hmentions => by simpa using hmentioned "this" hmentions
  have hsame : ∀ key, engine.setting.Mentions profileTemplate store key →
      widerData.lookup key = profileData.lookup key := by
    intro key hkey
    rcases hmentioned key hkey with rfl | rfl <;> rfl
  obtain ⟨-, hoverlooked⟩ := unmentioned_data_overlooked rfl hhelpers hcalls
    (sound_emptyStore engine ()) hdot hthis hsame .text ""
  have htext : ((engine.textOf profileTemplate (.map profileData)).outcome store).1 =
      .ok "Ann: guest\n" := by
    decide +kernel
  exact ⟨htext, (congrArg Prod.fst hoverlooked).trans htext⟩

end Engine

end Stencil
