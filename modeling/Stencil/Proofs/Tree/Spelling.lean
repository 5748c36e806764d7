import Stencil.Proofs.Argument.Printing

/-! Helper tags in any spelling: arguments in any order, with any quotes around their texts and any
blanks between them. The tree reads them as the arguments that were written. -/

namespace Stencil

namespace Argument

def StartsLikeNumber (word : List Char) : Prop :=
  ∃ d rest, (word = d :: rest ∨ word = '-' :: d :: rest) ∧ Decimal.isDigit d = true

theorem looksNumeric_iff {word : List Char} : looksNumeric word = true ↔ StartsLikeNumber word := by
  unfold looksNumeric
  split
  · rename_i d rest
    refine ⟨fun h => ⟨d, rest, .inr rfl, h⟩, ?_⟩
    rintro ⟨c, later, hword | hword, hdigit⟩
    · obtain ⟨rfl, -⟩ := List.cons.inj hword
      exact absurd hdigit (by decide)
    · obtain ⟨-, hrest⟩ := List.cons.inj hword
      obtain ⟨rfl, -⟩ := List.cons.inj hrest
      exact hdigit
  · rename_i d rest hminus
    refine ⟨fun h => ⟨d, rest, .inl rfl, h⟩, ?_⟩
    rintro ⟨c, later, hword | hword, hdigit⟩
    · obtain ⟨rfl, -⟩ := List.cons.inj hword
      exact hdigit
    · obtain ⟨rfl, rfl⟩ := List.cons.inj hword
      exact absurd rfl (hminus c later rfl)
  · simp [StartsLikeNumber]

instance (word : List Char) : Decidable (StartsLikeNumber word) :=
  decidable_of_iff _ looksNumeric_iff

theorem number?_eq_none {word : List Char} (h : ¬ StartsLikeNumber word) : number? word = none :=
  if_neg (looksNumeric_iff.not.mpr h)

inductive Spelling : List Char → Argument → Prop where
  | name {text : String} (hne : text ≠ "") (hplain : ∀ c ∈ text.toList, IsPlain c)
      (hequals : '=' ∉ text.toList) (hkeyword : text ∉ ["true", "false", "null"])
      (hnumber : ¬ StartsLikeNumber text.toList) : Spelling text.toList (.name text)
  | quoted {quote : Char} (hquote : isQuote quote = true) {text : String}
      (habsent : quote ∉ text.toList) :
      Spelling (between quote text.toList) (.literal (.string text))
  | integer {word : List Char} {n : Int64} (h : Decimal.Denotes word n.toInt) :
      Spelling word (.literal (.number (.signed n)))
  | bool (value : Bool) : Spelling (toString value).toList (.literal (.bool value))
  | null : Spelling "null".toList (.literal .null)

theorem Spelling.spelt {word : List Char} {argument : Argument} (h : Spelling word argument) :
    SpeltBy argument word := by
  cases h with
  | name hne hplain hequals hkeyword hnumber =>
    exact spelt_bareName ⟨hne, hplain, hequals, hkeyword, number?_eq_none hnumber⟩
  | quoted hquote habsent => exact spelt_between hquote (isWord_between hquote habsent)
  | integer h => exact spelt_integer h
  | bool value =>
    cases value <;> exact ⟨isWord_of_plain (by decide) (isPlain_of_all rfl), rfl, rfl⟩
  | null => exact ⟨isWord_of_plain (by decide) (isPlain_of_all rfl), rfl, rfl⟩

end Argument

open Argument (IsPlain IsKey Spelling keyed)

/-- An argument as it stands in a tag: a word behind blanks, with the key in front of it if there is
one. -/
structure WrittenArgument extends GivenArgument where
  blanks : List Char
  word : List Char
  blanks_ne_nil : blanks ≠ []
  allBlank : ∀ c ∈ blanks, Text.isBlank c = true
  isKey : ∀ key ∈ key?, IsKey key
  spelling : Spelling word argument

namespace WrittenArgument

def run (written : WrittenArgument) : List Char :=
  match written.key? with
  | none => written.word
  | some key => keyed key written.word

def text (written : WrittenArgument) : List Char := written.blanks ++ written.run

theorem writtenAs_run (written : WrittenArgument) :
    written.toGivenArgument.WrittenAs written.run := by
  obtain ⟨⟨_ | key, argument⟩, blanks, word, hne, hall, hkey, hspelling⟩ := written
  · exact .positional hspelling.spelt
  · exact .named (hkey key rfl) hspelling.spelt

end WrittenArgument

def writtenCall (name : String) (written : List WrittenArgument) : String :=
  String.ofList (name.toList ++ written.flatMap WrittenArgument.text)

section WrittenCall

variable {name : String} (hne : name ≠ "") (hplain : ∀ c ∈ name.toList, IsPlain c)

include hne hplain

theorem words?_writtenCall (written : List WrittenArgument) :
    Argument.words? (writtenCall name written).toList =
      some (name.toList :: written.map WrittenArgument.run) := by
  rw [writtenCall, String.toList_ofList]
  exact Argument.words?_spread (Argument.isWord_of_plain (by simpa using hne) hplain)
    (fun argument _ => ⟨argument.blanks_ne_nil, argument.allBlank⟩)
    fun argument _ => argument.writtenAs_run.isWord

theorem called?_writtenCall {registry : Registry} {registered : Registered}
    (hget : registry.get? name = some registered) (written : List WrittenArgument) :
    registry.called? (writtenCall name written) = some registered := by
  have hword : Text.IsWord name.toList :=
    ⟨by simpa using hne, fun c hmem => (hplain c hmem).1⟩
  have hblank : ∀ c ∈ (written.flatMap WrittenArgument.text).head?, Text.isBlank c = true := by
    cases written with
    | nil => simp
    | cons first later =>
      obtain ⟨d, rest, hcons⟩ := List.exists_cons_of_ne_nil first.blanks_ne_nil
      have hd : Text.isBlank d = true := first.allBlank d (by simp [hcons])
      simp [WrittenArgument.text, hcons, hd]
  rw [Registry.called?, writtenCall, String.toList_ofList, Text.head?_words_append hword hblank,
    Option.bind_some, String.ofList_toList, hget]

end WrittenCall

/-- A tag that names a helper is read back as what was written, whatever the helper then says of it:
the arguments without a key in order, and under each key the argument that was written for it
last. -/
theorem Tree.helperCall_written {registry : Registry} {name : String} {registered : Registered}
    (hne : name ≠ "") (hplain : ∀ c ∈ name.toList, IsPlain c)
    (hget : registry.get? name = some registered) (written : List WrittenArgument)
    (template : String) (block : Bool) (line : Nat) :
    ∃ tag : HelperTag,
      tag.name = name ∧ tag.block = block ∧ tag.line = line ∧
      tag.params = (written.filterMap fun argument => argument.positional?) ∧
      Ascending tag.named ∧
      (∀ key, tag.named.lookup key =
        (written.filterMap fun argument => argument.keyed?).reverse.lookup key) ∧
      (registered.helper.validate tag = .ok () →
        helperCall registry template (writtenCall name written) block line =
          .ok (some (registered, tag))) ∧
      ∀ error, registered.helper.validate tag = .error error →
        helperCall registry template (writtenCall name written) block line = .error error := by
  let tag : HelperTag :=
    { name, block, line
      params := written.filterMap fun argument => argument.positional?
      named := sortEntries (written.filterMap fun argument => argument.keyed?) }
  have hread : HelperTag.read (writtenCall name written) block line = .ok (some tag) :=
    HelperTag.read_of_writtenAs (words?_writtenCall hne hplain written)
      (fun argument _ => argument.writtenAs_run) block line
  refine ⟨tag, rfl, rfl, rfl, rfl, ascending_sortEntries _, lookup_sortEntries _, ?_⟩
  rw [helperCall_of_called (called?_writtenCall hne hplain hget written), hread]
  constructor
  · intro hvalid
    simp [hvalid, Except.map]
  · intro error hvalid
    simp [hvalid, Except.map]

def cardRegistry : Registry where
  helpers := [("card", { execute := fun _ => pure () })]

def cardArguments : List WrittenArgument :=
  [{ blanks := [' '], key? := none, word := "guest".toList, argument := .name "guest"
     blanks_ne_nil := by decide, allBlank := List.all_eq_true.mp rfl, isKey := by simp
     spelling :=
       .name (by decide) (Argument.isPlain_of_all rfl) (by decide) (by decide) (by decide) },
   { blanks := [' ', '\t'], key? := some "title"
     word := Argument.between '\'' "a \"b\" = c".toList
     argument := .literal (.string "a \"b\" = c")
     blanks_ne_nil := by decide, allBlank := List.all_eq_true.mp rfl
     isKey := by
       rintro _ ⟨⟩
       exact ⟨by decide, Argument.isPlain_of_all rfl, by decide⟩
     spelling := .quoted (by decide) (by decide) },
   { blanks := ['\n'], key? := none, word := "-7".toList
     argument := .literal (.number (.signed (-7)))
     blanks_ne_nil := by decide, allBlank := List.all_eq_true.mp rfl, isKey := by simp
     spelling := .integer (Decimal.denotes_intText (-7 : Int64).toInt) },
   { blanks := [' '], key? := some "title", word := "null".toList, argument := .literal .null
     blanks_ne_nil := by decide, allBlank := List.all_eq_true.mp rfl
     isKey := by
       rintro _ ⟨⟩
       exact ⟨by decide, Argument.isPlain_of_all rfl, by decide⟩
     spelling := .null }]

theorem Tree.helperCall_written_card :
    ∃ tag registered, cardRegistry.get? "card" = some registered ∧
      helperCall cardRegistry "t" "card guest \ttitle='a \"b\" = c'\n-7 title=null" false 1 =
        .ok (some (registered, tag)) ∧
      tag.params = [.name "guest", .literal (.number (.signed (-7)))] ∧
      tag.named.lookup "title" = some (.literal .null) := by
  have hget : cardRegistry.get? "card" = some ⟨0, "card", { execute := fun _ => pure () }⟩ := rfl
  obtain ⟨tag, -, -, -, hparams, -, hnamed, hcall, -⟩ :=
    helperCall_written (by decide) (Argument.isPlain_of_all rfl) hget cardArguments "t" false 1
  have hvalid : checkUsage 1 .any tag = .ok () := by
    rw [checkUsage, hparams]
    rfl
  exact ⟨tag, _, hget, hcall hvalid, hparams, hnamed "title"⟩

/-- Helpers may have any name, also the empty one. -/
def namelessRegistry : Registry where
  helpers := [("", { execute := fun _ => pure () })]

/-- A helper without a name is not called: the first of the arguments stands where its name
would. -/
theorem Tree.not_helperCall_written_nameless :
    ¬ ∀ (registry : Registry) (name : String) (registered : Registered),
      (∀ c ∈ name.toList, IsPlain c) → registry.get? name = some registered →
      ∀ (written : List WrittenArgument) (template : String) (block : Bool) (line : Nat),
        ∃ tag : HelperTag,
          tag.name = name ∧ tag.params = (written.filterMap fun argument => argument.positional?) ∧
          (registered.helper.validate tag = .ok () →
            helperCall registry template (writtenCall name written) block line =
              .ok (some (registered, tag))) := by
  intro h
  obtain ⟨tag, -, hparams, hcall⟩ :=
    h namelessRegistry "" _ (by simp) rfl (cardArguments.take 1) "t" false 1
  have hvalid : checkUsage 1 .any tag = .ok () := by
    rw [checkUsage, hparams]
    rfl
  have hnone : helperCall namelessRegistry "t" (writtenCall "" (cardArguments.take 1)) false 1 =
      .ok none := rfl
  rw [hnone] at hcall
  cases Except.ok.inj (hcall hvalid)

end Stencil
