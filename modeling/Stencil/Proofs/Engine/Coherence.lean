import Mathlib.Data.List.Basic
import Stencil.Proofs.Engine.History

/-! A cache is coherent: each of its entries is what its name was compiled to where it was last
looked for in vain, however the sources change around it. -/

namespace Stencil

namespace Engine

variable {ω : Type} {engine : Engine ω} {store next : Store ω}

theorem cached?_eq_lookup (hcaching : engine.config.cacheEnabled = true)
    (hexpiration : store.cache.expiration = none) (name : String) :
    engine.cached? name store = store.cache.entries.lookup name := by
  have hgood : ∀ found, store.cache.isExpired store.clock found = false := by
    intro found
    rw [Cache.isExpired, hexpiration]
  rw [cached?, if_pos hcaching, Cache.get?]
  cases store.cache.entries.lookup name with
  | none => rfl
  | some found => simp [hgood]

/-- What comes of looking for a template: its entry is found, or nothing is, or the source that is
hit first is compiled and the entry made. -/
inductive Lookup (engine : Engine ω) (name : String) (store : Store ω) :
    Except Error (Option Instance) × Store ω → Prop where
  | cached {found : Instance} (hentry : store.cache.entries.lookup name = some found) :
    Lookup engine name store (.ok (some found), store)
  | vain {result : Except Error (Option Instance)} (world : ω)
      (hmissing : store.cache.entries.lookup name = none)
      (hnone : ∀ found, result ≠ .ok (some found)) :
    Lookup engine name store (result, { store with world })
  | made {source : String} {found : Instance} (world : ω) (compilations : Nat)
      (hmissing : store.cache.entries.lookup name = none)
      (hhit : Locator.FirstHit name engine.locators store.world source)
      (hcompiled : engine.compileSource name source = .ok found.template) :
    Lookup engine name store (.ok (some found), { store with
      world, compilations
      cache := { store.cache with entries := insertEntry name found store.cache.entries } })

theorem lookup_find (hcaching : engine.config.cacheEnabled = true)
    (hexpiration : store.cache.expiration = none) (name : String) :
    engine.Lookup name store ((engine.find name).outcome store) := by
  rw [find_outcome, cached?_eq_lookup hcaching hexpiration]
  cases hentry : store.cache.entries.lookup name with
  | some found => exact .cached hentry
  | none =>
    rcases hlocated : engine.located name store.world with ⟨error | _ | source, world⟩
    · exact .vain world hentry (by simp)
    · exact .vain world hentry (by simp)
    · simp only [compileFound]
      cases hcompiled : engine.compileSource name source with
      | error error => exact .vain world hentry (by simp)
      | ok template =>
        have hhit := Locator.firstHit_of_firstSource (congrArg Prod.fst hlocated)
        simp only [Except.map, keep, if_pos hcaching]
        exact .made world _ hentry hhit hcompiled

/-- In stores that follow each other, an entry has been made of the source that was hit first where
its name was missing, and has stayed in all stores since. -/
inductive Made (engine : Engine ω) (name : String) (found : Instance) : List (Store ω) → Prop where
  | intro {before : Store ω} {source : String} (earlier since : List (Store ω))
      (hmissing : before.cache.entries.lookup name = none)
      (hhit : Locator.FirstHit name engine.locators before.world source)
      (hcompiled : engine.compileSource name source = .ok found.template)
      (hsince : ∀ store ∈ ((engine.find name).outcome before).2 :: since,
        store.cache.entries.lookup name = some found) :
    Made engine name found (earlier ++ before :: ((engine.find name).outcome before).2 :: since)

theorem Made.stays {name : String} {found : Instance} {passed : List (Store ω)}
    (h : engine.Made name found passed) (hentry : next.cache.entries.lookup name = some found) :
    engine.Made name found (passed ++ [next]) := by
  obtain ⟨earlier, since, hmissing, hhit, hcompiled, hsince⟩ := h
  rename_i before source
  have hnext : ∀ store ∈ ((engine.find name).outcome before).2 :: (since ++ [next]),
      store.cache.entries.lookup name = some found := by
    intro store hstore
    rcases List.mem_append.mp (List.cons_append ▸ hstore) with hold | hnew
    · exact hsince store hold
    · obtain rfl := List.mem_singleton.mp hnew
      exact hentry
  rw [List.append_assoc, List.cons_append, List.cons_append]
  exact .intro earlier (since ++ [next]) hmissing hhit hcompiled hnext

/-- What holds of a store behind others: no entry gets too old, each name has one entry at most, and
each entry was made at one of these stores. -/
structure Coherent (engine : Engine ω) (passed : List (Store ω)) (store : Store ω) : Prop where
  lasting : store.cache.expiration = none
  ascending : Ascending store.cache.entries
  made : ∀ name found, store.cache.entries.lookup name = some found →
    engine.Made name found (passed ++ [store])

theorem coherent_of_empty (hlasting : store.cache.expiration = none)
    (hempty : store.cache.entries = []) (passed : List (Store ω)) :
    engine.Coherent passed store where
  lasting := hlasting
  ascending := by
    rw [hempty]
    exact List.Pairwise.nil
  made name found hentry := by
    rw [hempty] at hentry
    contradiction

theorem Coherent.kept {passed : List (Store ω)} (h : engine.Coherent passed store)
    (hlasting : next.cache.expiration = none) (hascending : Ascending next.cache.entries)
    (hkept : ∀ name found, next.cache.entries.lookup name = some found →
      store.cache.entries.lookup name = some found) : engine.Coherent (passed ++ [store]) next where
  lasting := hlasting
  ascending := hascending
  made name found hentry := (h.made name found (hkept name found hentry)).stays hentry

/-- A template that is looked for leaves all entries, and makes one if it is missing and found. -/
theorem Coherent.looks (hcaching : engine.config.cacheEnabled = true) {passed : List (Store ω)}
    (h : engine.Coherent passed store) (name : String) :
    engine.Coherent (passed ++ [store]) ((engine.find name).outcome store).2 := by
  have hlookup := lookup_find hcaching h.lasting name
  generalize houtcome : (engine.find name).outcome store = outcome at hlookup ⊢
  cases hlookup with
  | cached hentry => exact h.kept h.lasting h.ascending fun _ _ => id
  | vain world hmissing hnone => exact h.kept h.lasting h.ascending fun _ _ => id
  | made world compilations hmissing hhit hcompiled =>
    rename_i source found
    refine ⟨h.lasting, h.ascending.insertEntry name found, ?_⟩
    intro other entry hentry
    have hentries := hentry
    rw [lookup_insertEntry] at hentries
    split at hentries
    · rename_i hsame
      subst hsame
      obtain rfl := Option.some.inj hentries
      have hsince : ∀ after ∈ [((engine.find other).outcome store).2],
          after.cache.entries.lookup other = some found := by
        intro after hafter
        obtain rfl := List.mem_singleton.mp hafter
        rw [houtcome]
        exact hentry
      have hmade := Made.intro passed [] hmissing hhit hcompiled hsince
      rw [houtcome] at hmade
      rw [List.append_assoc]
      exact hmade
    · exact (h.made other entry hentries).stays hentry

theorem Coherent.step (hcaching : engine.config.cacheEnabled = true) {passed : List (Store ω)}
    (h : engine.Coherent passed store) (hstep : engine.Step store next) :
    engine.Coherent (passed ++ [store]) next := by
  cases hstep with
  | looks name => exact h.looks hcaching name
  | elsewhere world clock => exact h.kept h.lasting h.ascending fun _ _ => id
  | invalidates matched =>
    have hlasting : (invalidate store matched).2.cache.expiration = none := h.lasting
    apply h.kept hlasting (List.Pairwise.filter _ h.ascending)
    intro name found hentry
    have hfound := (lookup_filter_key (fun name => !matched name) _ name).symm.trans hentry
    split at hfound
    · exact hfound
    · contradiction
  | clears world =>
    have hlasting : (clearCache { store with world }).cache.expiration = none := h.lasting
    exact coherent_of_empty hlasting rfl _

/-- So is every store on the way, if the first one is. -/
theorem Coherent.passage (hcaching : engine.config.cacheEnabled = true) {earlier : List (Store ω)}
    (h : engine.Coherent earlier store) {stores : List (Store ω)} {last : Store ω}
    (hpassage : engine.Passage store stores last) {passed later : List (Store ω)}
    {moment : Store ω} (hstores : stores = passed ++ moment :: later) :
    engine.Coherent (earlier ++ passed) moment := by
  induction hpassage generalizing earlier passed with
  | stop store =>
    cases passed with
    | nil =>
      obtain rfl := (List.cons.inj hstores).1
      rw [List.append_nil]
      exact h
    | cons first passed =>
      have hrest := (List.cons.inj hstores).2
      simp at hrest
  | step hstep hlater ih =>
    cases passed with
    | nil =>
      obtain rfl := (List.cons.inj hstores).1
      rw [List.append_nil]
      exact h
    | cons first passed =>
      obtain ⟨rfl, hrest⟩ := List.cons.inj hstores
      have hcoherent := ih (h.step hcaching hstep) hrest
      rw [List.append_assoc] at hcoherent
      exact hcoherent

/-- At every moment behind an empty cache that never gets too old. -/
theorem coherent_history (hcaching : engine.config.cacheEnabled = true)
    (hlasting : store.cache.expiration = none) (hempty : store.cache.entries = [])
    {turns : List (Turn ω)} {passed later : List (Store ω)} {moment : Store ω}
    (hhistory : engine.history store turns = passed ++ moment :: later) :
    engine.Coherent passed moment :=
  (coherent_of_empty hlasting hempty []).passage hcaching (engine.passage_history turns store)
    hhistory

/-- A cached template is found as it is, whatever locators there are. -/
theorem find_entry (hcaching : engine.config.cacheEnabled = true)
    (hlasting : store.cache.expiration = none) {name : String} {found : Instance}
    (hentry : store.cache.entries.lookup name = some found) (locators : List (Locator ω)) :
    ({ engine with locators }.find name).outcome store = (.ok (some found), store) := by
  have hcached : ({ engine with locators } : Engine ω).cached? name store = some found :=
    (cached?_eq_lookup hcaching hlasting name).trans hentry
  rw [find_outcome, hcached]

theorem cache_of_find_in_vain (hcaching : engine.config.cacheEnabled = true)
    (hlasting : store.cache.expiration = none) {name : String}
    (hvain : ∀ found, ((engine.find name).outcome store).1 ≠ .ok (some found)) :
    ((engine.find name).outcome store).2.cache = store.cache := by
  have hlookup := lookup_find hcaching hlasting name
  generalize (engine.find name).outcome store = outcome at hlookup hvain ⊢
  cases hlookup with
  | cached hentry => exact absurd rfl (hvain _)
  | vain world hmissing hnone => rfl
  | made world compilations hmissing hhit hcompiled => exact absurd rfl (hvain _)

theorem count_invalidate (store : Store ω) (matched : String → Bool) :
    (Engine.invalidate store matched).1 =
      (store.cache.entries.filter fun entry => matched entry.1).length := by
  have hsplit : store.cache.entries.length = _ :=
    List.length_eq_length_filter_add fun entry => matched entry.1
  have hcount : (Engine.invalidate store matched).1 = store.cache.entries.length -
      (store.cache.entries.filter fun entry => !matched entry.1).length := rfl
  omega

/-- What is found behind a passage has been compiled from a source that was hit on the way. -/
theorem Coherent.source_of_found (hcaching : engine.config.cacheEnabled = true)
    {passed : List (Store ω)} (h : engine.Coherent passed store) {name : String} {found : Instance}
    (hfound : ((engine.find name).outcome store).1 = .ok (some found)) :
    ∃ before ∈ passed ++ [store], ∃ source,
      Locator.FirstHit name engine.locators before.world source ∧
      engine.compileSource name source = .ok found.template := by
  have hlookup := lookup_find hcaching h.lasting name
  generalize (engine.find name).outcome store = outcome at hlookup hfound
  cases hlookup with
  | cached hentry =>
    obtain rfl := Option.some.inj (Except.ok.inj hfound)
    have hmade := h.made name _ hentry
    generalize passed ++ [store] = stores at hmade ⊢
    obtain ⟨earlier, since, hmissing, hhit, hcompiled, hsince⟩ := hmade
    exact ⟨_, by simp, _, hhit, hcompiled⟩
  | vain world hmissing hnone => exact absurd hfound (hnone found)
  | made world compilations hmissing hhit hcompiled =>
    obtain rfl := Option.some.inj (Except.ok.inj hfound)
    exact ⟨store, by simp, _, hhit, hcompiled⟩

structure SameTemplates (store second : Store ω) : Prop where
  world : second.world = store.world
  lasting : store.cache.expiration = none
  secondLasting : second.cache.expiration = none
  entries : ∀ name, (second.cache.entries.lookup name).map Instance.template =
    (store.cache.entries.lookup name).map Instance.template

theorem SameTemplates.findsAlike (hcaching : engine.config.cacheEnabled = true) :
    FindsAlike SameTemplates engine engine where
  setting := Setting.Alike.refl engine.setting
  compile := rfl
  find name store second h := by
    have hentries := h.entries name
    rw [find_outcome, find_outcome, cached?_eq_lookup hcaching h.lasting,
      cached?_eq_lookup hcaching h.secondLasting, h.world]
    cases hentry : store.cache.entries.lookup name with
    | some found =>
      obtain ⟨other, hother, hsame⟩ : ∃ other, second.cache.entries.lookup name = some other ∧
          other.template = found.template := by
        simpa [hentry] using hentries
      rw [hother]
      exact ⟨.ok (congrArg some hsame), h⟩
    | none =>
      have hmissing : second.cache.entries.lookup name = none := by
        simpa [hentry] using hentries
      rw [hmissing]
      simp only []
      rcases engine.compileFound name (engine.located name store.world).1 with error | _ | template
      · exact ⟨.error error, rfl, h.lasting, h.secondLasting, h.entries⟩
      · exact ⟨.ok rfl, rfl, h.lasting, h.secondLasting, h.entries⟩
      · have hkept : ∀ asked : Store ω, (engine.keep name asked template).cache =
            { asked.cache with
              entries := insertEntry name (freshInstance asked template) asked.cache.entries } :=
          fun _ => if_pos hcaching
        refine ⟨.ok rfl, rfl, ?_, ?_, ?_⟩
        · rw [hkept]
          exact h.lasting
        · rw [hkept]
          exact h.secondLasting
        · intro other
          rw [hkept, hkept, lookup_insertEntry, lookup_insertEntry]
          split
          · rfl
          · exact h.entries other

/-- Behind a refresh an engine answers as one that is new in the world that the refresh leaves. -/
theorem render_refresh (hcaching : engine.config.cacheEnabled = true)
    (hexpiration : engine.config.cacheExpiration = none) (hlasting : store.cache.expiration = none)
    (name : String) (data : DataSource) :
    ((engine.render name data).outcome (engine.refresh store)).1 =
      ((engine.render name data).outcome
        (engine.emptyStore (Locator.refreshAll engine.locators store.world))).1 := by
  have hsame : SameTemplates (engine.refresh store)
      (engine.emptyStore (Locator.refreshAll engine.locators store.world)) :=
    ⟨rfl, hlasting, hexpiration, fun _ => rfl⟩
  obtain ⟨hagree, -⟩ := (SameTemplates.findsAlike hcaching).render name data _ _ hsame
  exact hagree.eq.symm

/-- What a cache promises at a moment behind the stores `passed`. -/
structure CacheContract (engine : Engine ω) (passed : List (Store ω)) (moment : Store ω) :
    Prop where
  distinct : (moment.cache.entries.map Prod.fst).Nodup
  /-- An entry serves its name without asking any locator. -/
  served : ∀ name found, (name, found) ∈ moment.cache.entries → ∀ locators,
    ({ engine with locators }.find name).outcome moment = (.ok (some found), moment)
  /-- It was made of the source that was hit first when its name was last missing. -/
  made : ∀ name found, (name, found) ∈ moment.cache.entries →
    engine.Made name found (passed ++ [moment])
  /-- Without a source, and where a locator or the compilation fails, all entries stay. -/
  vain : ∀ name, (∀ found, ((engine.find name).outcome moment).1 ≠ .ok (some found)) →
    ((engine.find name).outcome moment).2.cache = moment.cache
  invalidated : ∀ matched entry, entry ∈ (Engine.invalidate moment matched).2.cache.entries ↔
    entry ∈ moment.cache.entries ∧ matched entry.1 = false
  counted : ∀ matched, (Engine.invalidate moment matched).1 =
    (moment.cache.entries.filter fun entry => matched entry.1).length
  /-- Behind a refresh, whatever is found at any moment and at any depth of a rendering is compiled
  from a source that was hit behind it. -/
  refreshed : ∀ turns earlier now later,
    engine.history (engine.refresh moment) turns = earlier ++ now :: later →
    ∀ name found, ((engine.find name).outcome now).1 = .ok (some found) →
      ∃ before ∈ earlier ++ [now], ∃ source,
        Locator.FirstHit name engine.locators before.world source ∧
        engine.compileSource name source = .ok found.template
  /-- What is rendered next is what a new engine renders in the world that the refresh leaves. -/
  renewed : ∀ name data, ((engine.render name data).outcome (engine.refresh moment)).1 =
    ((engine.render name data).outcome
      (engine.emptyStore (Locator.refreshAll engine.locators moment.world))).1

theorem Coherent.contract (hcaching : engine.config.cacheEnabled = true)
    (hexpiration : engine.config.cacheExpiration = none) {passed : List (Store ω)}
    (h : engine.Coherent passed store) : engine.CacheContract passed store where
  distinct := h.ascending.nodup
  served name found hmem locators :=
    find_entry hcaching h.lasting (h.ascending.lookup_eq_some_iff.mpr hmem) locators
  made name found hmem := h.made name found (h.ascending.lookup_eq_some_iff.mpr hmem)
  vain name hvain := cache_of_find_in_vain hcaching h.lasting hvain
  invalidated matched entry := by
    simp [Engine.invalidate, Cache.invalidate]
  counted matched := count_invalidate store matched
  refreshed turns earlier now later hlater name found hfound := by
    have hlasting : (engine.refresh store).cache.expiration = none := h.lasting
    have hnow : engine.Coherent earlier now := coherent_history hcaching hlasting rfl hlater
    exact hnow.source_of_found hcaching hfound
  renewed := render_refresh hcaching hexpiration h.lasting

/-- However its world changes between any turns, an engine that caches and lets no entry get too old
passes from store to store in steps: a template is looked for, entries are dropped, or the cache
stays. At every moment, also in the middle of a rendering, its cache keeps what it promises. -/
theorem cache_coherent {engine : Engine ω} (hcaching : engine.config.cacheEnabled = true)
    (hexpiration : engine.config.cacheExpiration = none) (world : ω) (turns : List (Turn ω)) :
    engine.Passage (engine.emptyStore world) (engine.history (engine.emptyStore world) turns)
      (turns.foldl engine.afterTurn (engine.emptyStore world)) ∧
    ∀ passed moment later,
      engine.history (engine.emptyStore world) turns = passed ++ moment :: later →
        engine.CacheContract passed moment := by
  constructor
  · exact engine.passage_history turns (engine.emptyStore world)
  · intro passed moment later hhistory
    have hcoherent : engine.Coherent passed moment :=
      coherent_history hcaching hexpiration rfl hhistory
    exact hcoherent.contract hcaching hexpiration

def sourcesLocator : Locator (List (String × String)) where
  locate := fun name sources => (.ok (sources.lookup name), sources)
  identifiers := fun sources => (.ok (sources.map Prod.fst), sources)

def sourcesSetup : Setup (List (String × String)) where
  locators := [sourcesLocator]
  registry := .builtin

def oldSources : List (String × String) := [("page", "A\x7b\x7b> part\x7d\x7d"), ("part", "old")]

def newSources : List (String × String) := [("page", "A\x7b\x7b> part\x7d\x7d"), ("part", "new")]

def editingTurns : List (Turn (List (String × String))) :=
  [.request (.render "page" (.ok .null)), .edit fun _ => newSources]

theorem cache_coherent_edited :
    let engine := sourcesSetup.toEngine
    let last := editingTurns.foldl engine.afterTurn (engine.emptyStore oldSources)
    last.world.lookup "part" = some "new" ∧
      ((engine.render "page" (.ok .null)).outcome last).1 = .ok "Aold" ∧
      ((engine.render "page" (.ok .null)).outcome (engine.refresh last)).1 = .ok "Anew" ∧
      ∃ found, ("part", found) ∈ last.cache.entries ∧
        ({ engine with locators := [] }.find "part").outcome last = (.ok (some found), last) := by
  intro engine last
  have hcaching : engine.config.cacheEnabled = true := by decide
  have hexpiration : engine.config.cacheExpiration = none := by decide
  obtain ⟨hpassage, hmoments⟩ := cache_coherent hcaching hexpiration oldSources editingTurns
  obtain ⟨passed, hhistory⟩ := hpassage.exists_eq_append
  have hcontract := hmoments passed last [] hhistory
  have hsome : (last.cache.entries.lookup "part").isSome = true := by decide +kernel
  obtain ⟨found, hfound⟩ := Option.isSome_iff_exists.mp hsome
  have hmem : ("part", found) ∈ last.cache.entries := by
    obtain ⟨front, behind, hsplit, -⟩ := List.lookup_eq_some_iff.mp hfound
    simp [hsplit]
  have hworld : last.world.lookup "part" = some "new" := by decide +kernel
  have hstale : ((engine.render "page" (.ok .null)).outcome last).1 = .ok "Aold" := by
    decide +kernel
  have hfresh : ((engine.render "page" (.ok .null)).outcome (engine.refresh last)).1 =
      .ok "Anew" := by
    decide +kernel
  exact ⟨hworld, hstale, hfresh, found, hmem, hcontract.served "part" found hmem []⟩

end Engine

end Stencil
