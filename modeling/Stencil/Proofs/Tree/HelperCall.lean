import Stencil.Proofs.Argument.Words
import Stencil.Tree

/-! Which tags are calls of helpers, and what the tree reads them as. -/

namespace Stencil

namespace HelperTag

/-- The arguments can be read: every quote is closed, and every key has a value. -/
def WellFormed (content : String) : Prop :=
  ∃ words, Argument.words? content.toList = some words ∧
    ∀ word ∈ words.tail, ∀ key, Argument.named? word ≠ some (key, [])

def positional (words : List (List Char)) : List Argument :=
  (words.filter fun word => (Argument.named? word).isNone).map .ofWord

/-- Entries with the named arguments of some words; the last value of a key stays. -/
def withNamed (words : List (List Char)) (entries : List (String × Argument)) :
    List (String × Argument) :=
  (words.filterMap Argument.named?).foldl
    (fun entries (key, value) => insertEntry (String.ofList key) (.ofWord value) entries) entries

def ofContent (content : String) (block : Bool) (line : Nat) : HelperTag :=
  let words := (Argument.words? content.toList).getD []
  { name := String.ofList (words.headD [])
    params := positional words.tail
    named := withNamed words.tail []
    block, line }

theorem addWord_eq_ok {word : List Char} {tag next : HelperTag}
    (h : addWord tag word = .ok next) :
    (∀ key, Argument.named? word ≠ some (key, [])) ∧
      next = { tag with
        params := tag.params ++ positional [word]
        named := withNamed [word] tag.named } := by
  unfold addWord at h
  split at h
  · rename_i hnamed
    obtain rfl := Except.ok.inj h
    simp [hnamed, positional, withNamed]
  · rename_i key value hnamed
    split at h
    · contradiction
    · rename_i hvalue
      obtain rfl := Except.ok.inj h
      simp_all [positional, withNamed]

theorem addWord_of_value {word : List Char} (h : ∀ key, Argument.named? word ≠ some (key, []))
    (tag : HelperTag) : ∃ next, addWord tag word = .ok next := by
  unfold addWord
  split
  · exact ⟨_, rfl⟩
  · rename_i key value hnamed
    have hvalue : ¬ value.isEmpty = true := by
      intro hempty
      rw [List.isEmpty_iff.mp hempty] at hnamed
      exact h key hnamed
    rw [if_neg hvalue]
    exact ⟨_, rfl⟩

theorem positional_cons (word : List Char) (later : List (List Char)) :
    positional (word :: later) = positional [word] ++ positional later := by
  simp only [positional, ← List.map_append, ← List.filter_append, List.singleton_append]

theorem withNamed_cons (word : List Char) (later : List (List Char))
    (entries : List (String × Argument)) :
    withNamed (word :: later) entries = withNamed later (withNamed [word] entries) := by
  simp only [withNamed, ← List.foldl_append, ← List.filterMap_append, List.singleton_append]

/-- Words are added if every key has a value, and then these are the arguments. -/
theorem foldlM_addWord (words : List (List Char)) (tag last : HelperTag) :
    words.foldlM addWord tag = .ok last ↔
      (∀ word ∈ words, ∀ key, Argument.named? word ≠ some (key, [])) ∧
        last = { tag with
          params := tag.params ++ positional words
          named := withNamed words tag.named } := by
  induction words generalizing tag with
  | nil => simp [positional, withNamed, pure, Except.pure, eq_comm]
  | cons word later ih =>
    rw [List.foldlM_cons, positional_cons, withNamed_cons]
    cases hadd : addWord tag word with
    | error fault =>
      constructor
      · intro h
        contradiction
      · rintro ⟨hvalues, -⟩
        obtain ⟨next, hnext⟩ := addWord_of_value (hvalues word (by simp)) tag
        rw [hadd] at hnext
        contradiction
    | ok next =>
      obtain ⟨hvalue, rfl⟩ := addWord_eq_ok hadd
      refine (ih _).trans ?_
      simp only [List.forall_mem_cons, List.append_assoc]
      exact and_congr_left fun _ => (and_iff_right hvalue).symm

theorem words?_of_read_eq_none {content : String} {block : Bool} {line : Nat}
    (h : read content block line = .ok none) : Argument.words? content.toList = some [] := by
  unfold read at h
  split at h
  · contradiction
  · assumption
  · rename_i name words hwords
    cases hadd : words.foldlM addWord ⟨String.ofList name, [], [], block, line⟩ <;>
      simp [hadd, Except.map] at h

/-- Reading gives the tag that was written, if it has words and they are well formed. -/
theorem read_eq_some_iff {content : String} {block : Bool} {line : Nat} {tag : HelperTag} :
    read content block line = .ok (some tag) ↔
      Argument.words? content.toList ≠ some [] ∧ WellFormed content ∧
        tag = ofContent content block line := by
  unfold read WellFormed ofContent
  cases hwords : Argument.words? content.toList with
  | none => simp
  | some words =>
    cases words with
    | nil => simp
    | cons name words =>
      have hread := foldlM_addWord words ⟨String.ofList name, [], [], block, line⟩ tag
      simp only [Option.some.injEq, exists_eq_left', List.tail_cons, Option.getD_some,
        List.headD_cons, ne_eq, reduceCtorEq, not_false_eq_true, true_and]
      rw [List.nil_append] at hread
      rw [← hread]
      cases words.foldlM addWord ⟨String.ofList name, [], [], block, line⟩ <;>
        simp [Except.map]

end HelperTag

def Registry.Unquoted (registry : Registry) : Prop :=
  ∀ entry ∈ registry.helpers, ∀ c ∈ entry.1.toList, Argument.isQuote c = false

instance (registry : Registry) : Decidable registry.Unquoted :=
  have (entry : String × Helper) : Decidable (∀ c ∈ entry.1.toList, Argument.isQuote c = false) :=
    List.decidableBAll _ _
  List.decidableBAll _ _

def Registry.called? (registry : Registry) (content : String) : Option Registered :=
  (Text.words content.toList).head?.bind fun word => registry.get? (String.ofList word)

/-- A tag calls a helper with arguments that can be read and that the helper takes. -/
structure IsCall (registry : Registry) (content : String) (block : Bool) (line : Nat)
    (registered : Registered) : Prop where
  called : registry.called? content = some registered
  wellFormed : HelperTag.WellFormed content
  valid : registered.helper.validate (.ofContent content block line) = .ok ()

theorem Registry.get?_eq_some {registry : Registry} {name : String} {registered : Registered}
    (h : registry.get? name = some registered) :
    registered.name = name ∧ (name, registered.helper) ∈ registry.helpers := by
  rw [get?, Option.map_eq_some_iff] at h
  obtain ⟨helper, hlookup, rfl⟩ := h
  obtain ⟨earlier, later, hsplit, -⟩ := List.lookup_eq_some_iff.mp hlookup
  exact ⟨rfl, by simp [hsplit]⟩

theorem Registry.called?_eq_some {registry : Registry} {content : String}
    {registered : Registered} (h : registry.called? content = some registered) :
    (Text.words content.toList).head? = some registered.name.toList ∧
      registry.get? registered.name = some registered := by
  rw [called?, Option.bind_eq_some_iff] at h
  obtain ⟨word, hword, hget⟩ := h
  obtain ⟨hname, -⟩ := get?_eq_some hget
  rw [hname, String.toList_ofList]
  exact ⟨hword, hget⟩

/-- Helpers are looked up by the first word of a tag, which is empty if the tag has no words. -/
theorem Registry.get?_firstWord {registry : Registry} {content : String}
    (h : Text.words content.toList ≠ []) :
    registry.get? (String.ofList (Text.firstWord content.toList)) = registry.called? content := by
  obtain ⟨word, later, hwords⟩ := List.exists_cons_of_ne_nil h
  rw [Text.firstWord_eq, called?, hwords]
  rfl

namespace Tree

variable {registry : Registry} {template content : String} {block : Bool} {line : Nat}
  {registered : Registered} {tag : HelperTag}

theorem head?_words?_of_called (hnames : registry.Unquoted)
    (h : registry.called? content = some registered) {words : List (List Char)}
    (hwords : Argument.words? content.toList = some words) :
    words.head? = some registered.name.toList := by
  obtain ⟨hword, hget⟩ := Registry.called?_eq_some h
  obtain ⟨-, hmem⟩ := Registry.get?_eq_some hget
  rw [← hword]
  refine Argument.words?_head? hwords ?_
  rw [hword]
  rintro word ⟨⟩
  exact hnames _ hmem

theorem name_ofContent (hnames : registry.Unquoted)
    (h : IsCall registry content block line registered) :
    (HelperTag.ofContent content block line).name = registered.name := by
  obtain ⟨words, hwords, -⟩ := h.wellFormed
  have hhead := head?_words?_of_called hnames h.called hwords
  obtain ⟨name, later, rfl⟩ : ∃ name later, words = name :: later := by
    cases words with
    | nil => contradiction
    | cons name later => exact ⟨name, later, rfl⟩
  obtain rfl := Option.some.inj hhead
  simp [HelperTag.ofContent, hwords]

theorem words?_ne_nil_of_called (hnames : registry.Unquoted)
    (h : registry.called? content = some registered) :
    Argument.words? content.toList ≠ some [] := by
  intro hnil
  have hhead := head?_words?_of_called hnames h hnil
  contradiction

theorem helperCall_of_not_called (h : registry.called? content = none) :
    helperCall registry template content block line = .ok none := by
  unfold helperCall
  by_cases hwords : Text.words content.toList = []
  · have hread : HelperTag.read content block line = .ok none := by
      rw [HelperTag.read, Argument.words?_of_words_eq_nil hwords]
    rw [hread]
    split <;> rfl
  · rw [Registry.get?_firstWord hwords, h]

/-- A tag whose first word names a helper is read, and checked by that helper. -/
theorem helperCall_of_called (h : registry.called? content = some registered) :
    helperCall registry template content block line =
      match HelperTag.read content block line with
      | .error fault => .error (.malformedTag template line fault)
      | .ok none => .ok none
      | .ok (some tag) => (registered.helper.validate tag).map fun _ => some (registered, tag) := by
  have hwords : Text.words content.toList ≠ [] := by
    intro hnil
    have hhead := (Registry.called?_eq_some h).1
    rw [hnil] at hhead
    contradiction
  unfold helperCall
  rw [Registry.get?_firstWord hwords, h]
  rcases HelperTag.read content block line with fault | _ | tag
  · rfl
  · rfl
  · simp only
    cases registered.helper.validate tag <;> rfl

/-- A tag is no call exactly if its first word names no helper. -/
theorem helperCall_eq_none_iff (hnames : registry.Unquoted) :
    helperCall registry template content block line = .ok none ↔
      registry.called? content = none := by
  refine ⟨fun h => ?_, helperCall_of_not_called⟩
  cases hcalled : registry.called? content with
  | none => rfl
  | some registered =>
    have hwords := words?_ne_nil_of_called hnames hcalled
    rw [helperCall_of_called hcalled] at h
    split at h
    · contradiction
    · rename_i hread
      exact absurd (HelperTag.words?_of_read_eq_none hread) hwords
    · rename_i tag _
      cases hvalid : registered.helper.validate tag <;> simp [hvalid, Except.map] at h

/-- A tag is read as a call exactly if it is one, and then as what was written. -/
theorem helperCall_eq_some_iff (hnames : registry.Unquoted) :
    helperCall registry template content block line = .ok (some (registered, tag)) ↔
      IsCall registry content block line registered ∧
        tag = .ofContent content block line := by
  constructor
  · intro h
    cases hcalled : registry.called? content with
    | none =>
      rw [helperCall_of_not_called hcalled] at h
      cases Except.ok.inj h
    | some called =>
      rw [helperCall_of_called hcalled] at h
      split at h
      · contradiction
      · cases Except.ok.inj h
      · rename_i read hread
        obtain ⟨-, hwellFormed, hcontent⟩ := HelperTag.read_eq_some_iff.mp hread
        cases hvalid : called.helper.validate read with
        | error fault => simp [hvalid, Except.map] at h
        | ok =>
          simp only [hvalid, Except.map, Except.ok.injEq, Option.some.injEq, Prod.mk.injEq] at h
          obtain ⟨rfl, rfl⟩ := h
          exact ⟨⟨hcalled, hwellFormed, hcontent ▸ hvalid⟩, hcontent⟩
  · rintro ⟨⟨hcalled, hwellFormed, hvalid⟩, rfl⟩
    have hread : HelperTag.read content block line =
        .ok (some (.ofContent content block line)) :=
      HelperTag.read_eq_some_iff.mpr ⟨words?_ne_nil_of_called hnames hcalled, hwellFormed, rfl⟩
    rw [helperCall_of_called hcalled, hread]
    simp [hvalid, Except.map]

/-- A tag that names a helper is rejected for its arguments, or by the helper. -/
theorem helperCall_eq_error {error : Error}
    (h : helperCall registry template content block line = .error error) :
    ∃ registered, registry.called? content = some registered ∧
      ((∃ fault, HelperTag.read content block line = .error fault ∧
          error = .malformedTag template line fault) ∨
        HelperTag.WellFormed content ∧
          registered.helper.validate (.ofContent content block line) = .error error) := by
  cases hcalled : registry.called? content with
  | none =>
    rw [helperCall_of_not_called hcalled] at h
    contradiction
  | some registered =>
    refine ⟨registered, rfl, ?_⟩
    rw [helperCall_of_called hcalled] at h
    split at h
    · rename_i fault hread
      exact .inl ⟨fault, hread, (Except.error.inj h).symm⟩
    · contradiction
    · rename_i tag hread
      obtain ⟨-, hwellFormed, rfl⟩ := HelperTag.read_eq_some_iff.mp hread
      cases hvalid : registered.helper.validate (.ofContent content block line) with
      | ok => simp [hvalid, Except.map] at h
      | error fault =>
        rw [hvalid] at h
        exact .inr ⟨hwellFormed, congrArg _ (Except.error.inj h)⟩

end Tree

end Stencil
