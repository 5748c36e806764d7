import Mathlib.Data.List.Basic
import Stencil.Proofs.Decimal.Numeral
import Stencil.Proofs.Ordered
import Stencil.Proofs.Tree.HelperCall

/-! Arguments and helper tags written out as the content of a tag. Reading what was written gives
them back. -/

namespace Stencil

namespace Argument

open Text (isBlank)

def quoteBehind (quote : Option Char) (c : Char) : Option Char :=
  match quote with
  | none => if isQuote c then some c else none
  | some q => if c = q then none else some q

theorem leadingWord_cons {quote : Option Char} {c : Char} (h : quote = none → isBlank c = false)
    (rest : List Char) :
    leadingWord quote (c :: rest) =
      (leadingWord (quoteBehind quote c) rest).map fun (run, later) => (c :: run, later) := by
  cases quote with
  | none =>
    rw [leadingWord, quoteBehind]
    split
    · rfl
    · rw [if_neg (by simp [h rfl])]
  | some q => rfl

/-- A text, in which a quote may be open at the start, that is cut nowhere: no blank stands outside
of quotes, and every quote is closed. -/
def Uncut (quote : Option Char) (text : List Char) : Prop :=
  leadingWord quote text = some (text, [])

instance (quote : Option Char) (text : List Char) : Decidable (Uncut quote text) :=
  inferInstanceAs (Decidable (leadingWord quote text = some (text, [])))

theorem Uncut.quote_eq_none {quote : Option Char} (h : Uncut quote []) : quote = none := by
  cases quote with
  | none => rfl
  | some q => contradiction

theorem uncut_cons_iff {quote : Option Char} {c : Char} {rest : List Char} :
    Uncut quote (c :: rest) ↔
      (quote = none → isBlank c = false) ∧ Uncut (quoteBehind quote c) rest := by
  unfold Uncut
  constructor
  · intro h
    have hblank : quote = none → isBlank c = false := by
      rintro rfl
      by_contra hc
      rw [leadingWord_blank (by simpa using hc), Option.map_eq_some_iff] at h
      obtain ⟨_, -, hcut⟩ := h
      simp at hcut
    rw [leadingWord_cons hblank, Option.map_eq_some_iff] at h
    obtain ⟨⟨run, later⟩, hread, hword⟩ := h
    simp only [Prod.mk.injEq, List.cons.injEq, true_and] at hword
    obtain ⟨rfl, rfl⟩ := hword
    exact ⟨hblank, hread⟩
  · rintro ⟨hblank, hread⟩
    rw [leadingWord_cons hblank, hread]
    rfl

/-- A text that is cut nowhere ends at a blank behind it. -/
theorem Uncut.leadingWord_append {quote : Option Char} {text : List Char} (h : Uncut quote text)
    {c : Char} (hc : isBlank c = true) (rest : List Char) :
    leadingWord quote (text ++ c :: rest) = (words? rest).map fun later => (text, later) := by
  induction text generalizing quote with
  | nil =>
    obtain rfl := h.quote_eq_none
    rw [List.nil_append, leadingWord_blank hc, words?, Option.map_map]
    rfl
  | cons d text ih =>
    obtain ⟨hblank, hlater⟩ := uncut_cons_iff.mp h
    rw [List.cons_append, leadingWord_cons hblank, ih hlater, Option.map_map]
    rfl

/-- Only a quote can be the last character where one is open, and it is no blank either. -/
theorem Uncut.last_not_blank {quote : Option Char} {text : List Char} (h : Uncut quote text)
    (hquote : ∀ q ∈ quote, isQuote q = true) : ∀ c ∈ text.getLast?, isBlank c = false := by
  induction text generalizing quote with
  | nil => simp
  | cons d text ih =>
    obtain ⟨hblank, hlater⟩ := uncut_cons_iff.mp h
    cases text with
    | nil =>
      rintro c ⟨⟩
      have hclosed := hlater.quote_eq_none
      cases quote with
      | none => exact hblank rfl
      | some q =>
        by_contra hd
        have hnot := isQuote_of_isBlank (by simpa using hd)
        have hsame : d ≠ q := fun heq => by simp [heq, hquote q rfl] at hnot
        simp [quoteBehind, hsame] at hclosed
    | cons e text =>
      refine ih hlater ?_
      unfold quoteBehind
      split
      · split <;> simp_all
      · split <;> simp_all

structure IsWord (word : List Char) : Prop where
  ne_nil : word ≠ []
  uncut : Uncut none word

theorem IsWord.words?_eq {word : List Char} (h : IsWord word) : words? word = some [word] := by
  have hread : leadingWord none word = some (word, []) := h.uncut
  rw [words?, hread]
  simp [Text.consWord, h.ne_nil]

theorem IsWord.words?_append {word : List Char} (h : IsWord word) {c : Char}
    (hc : isBlank c = true) (rest : List Char) :
    words? (word ++ c :: rest) = (words? rest).map fun later => word :: later := by
  rw [words?, h.uncut.leadingWord_append hc, Option.map_map]
  simp [Function.comp_def, Text.consWord, h.ne_nil]

theorem words?_blanks {blanks : List Char} (h : ∀ c ∈ blanks, isBlank c = true)
    (rest : List Char) : words? (blanks ++ rest) = words? rest := by
  induction blanks with
  | nil => rfl
  | cons c blanks ih =>
    rw [List.cons_append, words?_blank (h c List.mem_cons_self)]
    exact ih fun d hmem => h d (List.mem_cons_of_mem _ hmem)

/-- Words with blanks in front of each but the first are read as these words. -/
theorem words?_spread {α : Type} {blanks run : α → List Char} {word : List Char}
    (h : IsWord word) {later : List α}
    (hblanks : ∀ a ∈ later, blanks a ≠ [] ∧ ∀ c ∈ blanks a, isBlank c = true)
    (hlater : ∀ a ∈ later, IsWord (run a)) :
    words? (word ++ later.flatMap fun a => blanks a ++ run a) = some (word :: later.map run) := by
  induction later generalizing word with
  | nil => simpa using h.words?_eq
  | cons next later ih =>
    have hnext := ih (hlater next List.mem_cons_self)
      (fun a hmem => hblanks a (List.mem_cons_of_mem _ hmem))
      fun a hmem => hlater a (List.mem_cons_of_mem _ hmem)
    obtain ⟨hne, hall⟩ := hblanks next List.mem_cons_self
    obtain ⟨c, rest, hcons⟩ := List.exists_cons_of_ne_nil hne
    rw [hcons] at hall
    obtain ⟨hc, hrest⟩ := List.forall_mem_cons.mp hall
    rw [List.flatMap_cons, hcons, List.cons_append, List.cons_append, h.words?_append hc,
      List.append_assoc, words?_blanks hrest, hnext]
    rfl

theorem words?_spaced {word : List Char} (h : IsWord word) {later : List (List Char)}
    (hlater : ∀ w ∈ later, IsWord w) :
    words? (word ++ later.flatMap fun w => ' ' :: w) = some (word :: later) := by
  have hspace : ∀ w ∈ later, [' '] ≠ [] ∧ ∀ c ∈ [' '], isBlank c = true :=
    fun _ _ => ⟨by simp, List.all_eq_true.mp rfl⟩
  have hread : words? (word ++ later.flatMap fun w => [' '] ++ w) =
      some (word :: later.map fun w => w) :=
    words?_spread h hspace hlater
  rwa [List.map_id'] at hread

def IsPlain (c : Char) : Prop := isBlank c = false ∧ isQuote c = false

instance (c : Char) : Decidable (IsPlain c) := inferInstanceAs (Decidable (_ ∧ _))

theorem isPlain_of_all {word : List Char} (h : (word.all fun c => decide (IsPlain c)) = true) :
    ∀ c ∈ word, IsPlain c := by
  simpa using h

theorem Uncut.plain_append {run text : List Char} (hrun : ∀ c ∈ run, IsPlain c)
    (h : Uncut none text) : Uncut none (run ++ text) := by
  induction run with
  | nil => exact h
  | cons c run ih =>
    obtain ⟨hblank, hquote⟩ := hrun c List.mem_cons_self
    have hlater := ih fun d hmem => hrun d (List.mem_cons_of_mem _ hmem)
    refine uncut_cons_iff.mpr ⟨fun _ => hblank, ?_⟩
    rwa [quoteBehind, if_neg (by simp [hquote])]

theorem isWord_of_plain {word : List Char} (hne : word ≠ []) (h : ∀ c ∈ word, IsPlain c) :
    IsWord word := by
  have hword := Uncut.plain_append h (show Uncut none [] from rfl)
  exact ⟨hne, by rwa [List.append_nil] at hword⟩

def between (quote : Char) (text : List Char) : List Char := quote :: (text ++ [quote])

theorem unquote?_between {quote : Char} (h : isQuote quote = true) (text : List Char) :
    unquote? (between quote text) = some text := by
  simp [between, unquote?, h]

/-- Quotes that do not occur in a text make one word of it. -/
theorem isWord_between {quote : Char} (hquote : isQuote quote = true) {text : List Char}
    (h : quote ∉ text) : IsWord (between quote text) := by
  have hinside : Uncut (some quote) (text ++ [quote]) := by
    induction text with
    | nil => exact uncut_cons_iff.mpr ⟨by simp, by simp [quoteBehind, Uncut, leadingWord]⟩
    | cons c text ih =>
      obtain ⟨hc, hlater⟩ := not_or.mp (List.mem_cons.not.mp h)
      refine uncut_cons_iff.mpr ⟨by simp, ?_⟩
      rw [quoteBehind, if_neg fun heq => hc heq.symm]
      exact ih hlater
  refine ⟨by simp [between], uncut_cons_iff.mpr ⟨fun _ => ?_, ?_⟩⟩
  · by_contra hblank
    have hnot := isQuote_of_isBlank (by simpa using hblank)
    simp [hquote] at hnot
  · rwa [quoteBehind, if_pos hquote]

/-- Double quotes, but single ones for a text with double ones in it, if it can stand between
these. -/
def quoteFor (text : List Char) : Char :=
  if '"' ∈ text ∧ Uncut none (between '\'' text) then '\'' else '"'

def printed : Argument → List Char
  | .name text => text.toList
  | .literal (.string text) => between (quoteFor text.toList) text.toList
  | .literal (.number n) => n.text
  | .literal (.bool true) => "true".toList
  | .literal (.bool false) => "false".toList
  | .literal _ => "null".toList

structure IsBareName (name : String) : Prop where
  ne_empty : name ≠ ""
  plain : ∀ c ∈ name.toList, IsPlain c
  noEquals : '=' ∉ name.toList
  noKeyword : name ∉ ["true", "false", "null"]
  noNumber : number? name.toList = none

/-- An argument that can stand in a tag: a bare name, a text that quotes can be put around, an
integer of 64 bits, `true`, `false` or `null`. -/
def Expressible : Argument → Prop
  | .name text => IsBareName text
  | .literal (.string text) =>
    ∃ quote, isQuote quote = true ∧ IsWord (between quote text.toList)
  | .literal (.number (.signed _)) => True
  | .literal (.bool _) => True
  | .literal .null => True
  | .literal _ => False

structure SpeltBy (argument : Argument) (word : List Char) : Prop where
  isWord : IsWord word
  ofWord_eq : ofWord word = argument
  keyless : named? word = none

theorem splitEquals_eq_none {text : List Char} (h : '=' ∉ text) : splitEquals text = none := by
  induction text with
  | nil => rfl
  | cons c text ih =>
    obtain ⟨hc, hlater⟩ := not_or.mp (List.mem_cons.not.mp h)
    rw [splitEquals, if_neg fun heq => hc heq.symm, ih hlater]
    rfl

theorem splitEquals_append {key : List Char} (h : '=' ∉ key) (value : List Char) :
    splitEquals (key ++ '=' :: value) = some (key, value) := by
  induction key with
  | nil => rfl
  | cons c key ih =>
    obtain ⟨hc, hlater⟩ := not_or.mp (List.mem_cons.not.mp h)
    rw [List.cons_append, splitEquals, if_neg fun heq => hc heq.symm, ih hlater]
    rfl

theorem named?_eq_none {word : List Char} (h : '=' ∉ word) : named? word = none := by
  rw [named?, splitEquals_eq_none h]
  split <;> rfl

theorem unquote?_eq_none {c : Char} (h : isQuote c = false) (rest : List Char) :
    unquote? (c :: rest) = none := by
  rw [unquote?]
  split
  · rfl
  · simp [h]

theorem spelt_between {quote : Char} (hquote : isQuote quote = true) {text : String}
    (h : IsWord (between quote text.toList)) :
    SpeltBy (.literal (.string text)) (between quote text.toList) := by
  refine ⟨h, ?_, ?_⟩
  · rw [ofWord, unquote?_between hquote]
    simp
  · simp [named?, between, hquote]

/-- A word without quotes that is no keyword is a number or a name. -/
theorem ofWord_of_plain {word : List Char} (h : IsWord word) (hplain : ∀ c ∈ word, IsPlain c)
    (hkeyword : ∀ keyword ∈ ["true", "false", "null"], word ≠ keyword.toList) :
    ofWord word =
      match number? word with
      | some n => .literal (.number n)
      | none => .name (String.ofList word) := by
  obtain ⟨c, rest, hcons⟩ := List.exists_cons_of_ne_nil h.ne_nil
  have hquote : unquote? word = none := by
    rw [hcons]
    exact unquote?_eq_none (hplain c (by simp [hcons])).2 rest
  have htrue := hkeyword "true" (by simp)
  have hfalse := hkeyword "false" (by simp)
  have hnull := hkeyword "null" (by simp)
  cases hnumber : number? word <;>
    simp only [ofWord, hquote, if_neg htrue, if_neg hfalse, if_neg hnull, hnumber]

theorem spelt_bareName {text : String} (h : IsBareName text) :
    SpeltBy (.name text) text.toList := by
  have hword : IsWord text.toList := isWord_of_plain (by simpa using h.ne_empty) h.plain
  have hkeyword : ∀ keyword ∈ ["true", "false", "null"], text.toList ≠ keyword.toList :=
    fun keyword hmem heq => h.noKeyword (String.toList_inj.mp heq ▸ hmem)
  refine ⟨hword, ?_, named?_eq_none h.noEquals⟩
  rw [ofWord_of_plain hword h.plain hkeyword, h.noNumber]
  simp

theorem isPlain_of_isDigit {c : Char} (h : Decimal.isDigit c = true) : IsPlain c ∧ c ≠ '=' := by
  obtain ⟨hle, hge⟩ : 48 ≤ c.toNat ∧ c.toNat ≤ 57 := by
    simpa [Decimal.isDigit, Char.le_def, UInt32.le_iff_toNat_le] using h
  refine ⟨⟨?_, ?_⟩, ?_⟩
  · simp only [isBlank, Bool.or_eq_false_iff, Bool.and_eq_false_iff, beq_eq_false_iff_ne,
      decide_eq_false_iff_not]
    omega
  · by_contra hquote
    simp only [isQuote, Bool.not_eq_false, Bool.or_eq_true, beq_iff_eq] at hquote
    rcases hquote with rfl | rfl <;> simp at hle
  · rintro rfl
    simp at hge

section Integers

variable {word : List Char} {z : Int}

theorem isPlain_of_denotes (h : Decimal.Denotes word z) : ∀ c ∈ word, IsPlain c ∧ c ≠ '=' := by
  obtain ⟨sign, d, later, rfl, hsign, hdigits⟩ := h.exists_digit
  intro c hmem
  rcases List.mem_append.mp hmem with hminus | hdigit
  · rcases hsign with rfl | rfl
    · contradiction
    · obtain rfl := List.mem_singleton.mp hminus
      decide
  · exact isPlain_of_isDigit (hdigits c hdigit)

theorem looksNumeric_of_denotes (h : Decimal.Denotes word z) : looksNumeric word = true := by
  obtain ⟨sign, d, later, rfl, hsign, hdigits⟩ := h.exists_digit
  have hdigit : Decimal.isDigit d = true := hdigits d List.mem_cons_self
  rcases hsign with rfl | rfl
  · rw [List.nil_append, looksNumeric]
    · exact hdigit
    · rintro c rest rfl
      exact absurd hdigit (by decide)
  · exact hdigit

theorem isWord_of_denotes (h : Decimal.Denotes word z) : IsWord word := by
  refine isWord_of_plain ?_ fun c hmem => (isPlain_of_denotes h c hmem).1
  obtain ⟨sign, d, later, rfl, -⟩ := h.exists_digit
  simp

/-- A word that writes an integer is no keyword, so it is read as a number if it is one. -/
theorem ofWord_of_denotes (h : Decimal.Denotes word z) :
    ofWord word =
      match number? word with
      | some n => .literal (.number n)
      | none => .name (String.ofList word) := by
  have hkeyword : ∀ keyword ∈ ["true", "false", "null"], word ≠ keyword.toList := by
    rintro keyword hmem rfl
    have hletters : ∀ keyword ∈ ["true", "false", "null"],
        looksNumeric keyword.toList = false := by
      decide
    have hnumeric := looksNumeric_of_denotes h
    rw [hletters keyword hmem] at hnumeric
    contradiction
  exact ofWord_of_plain (isWord_of_denotes h) (fun c hmem => (isPlain_of_denotes h c hmem).1)
    hkeyword

theorem int64?_of_denotes {n : Int64} (h : Decimal.Denotes word n.toInt) :
    int64? word = some n := by
  have hleast : decide (Int64.minValue.toInt ≤ n.toInt) = true := decide_eq_true n.minValue_le_toInt
  have hgreatest : decide (n.toInt ≤ Int64.maxValue.toInt) = true := decide_eq_true n.toInt_le
  simp only [int64?, h.readInt?_eq, hleast, hgreatest, Bool.and_self, if_true, Int64.ofInt_toInt]

theorem spelt_integer {n : Int64} (h : Decimal.Denotes word n.toInt) :
    SpeltBy (.literal (.number (.signed n))) word where
  isWord := isWord_of_denotes h
  ofWord_eq := by
    rw [ofWord_of_denotes h, number?, if_pos (looksNumeric_of_denotes h), int64?_of_denotes h]
  keyless := named?_eq_none fun hmem => (isPlain_of_denotes h _ hmem).2 rfl

end Integers

theorem Expressible.spelt {argument : Argument} (h : argument.Expressible) :
    SpeltBy argument argument.printed := by
  match argument, h with
  | .name text, h => exact spelt_bareName h
  | .literal (.string text), ⟨quote, hquote, hword⟩ =>
    rw [printed, quoteFor]
    split
    · rename_i hsingle
      exact spelt_between (by decide) ⟨by simp [between], hsingle.2⟩
    · rename_i hdouble
      have hword : IsWord (between '"' text.toList) := by
        by_cases hmem : '"' ∈ text.toList
        · -- The quotes that make one word of the text are not the single ones.
          have hcut : ¬ Uncut none (between '\'' text.toList) := fun huncut =>
            hdouble ⟨hmem, huncut⟩
          simp only [isQuote, Bool.or_eq_true, beq_iff_eq] at hquote
          rcases hquote with rfl | rfl
          · exact hword
          · exact absurd hword.uncut hcut
        · exact isWord_between (by decide) hmem
      exact spelt_between (by decide) hword
  | .literal (.number (.signed n)), _ => exact spelt_integer (Decimal.denotes_intText n.toInt)
  | .literal (.bool true), _ => exact ⟨isWord_of_plain (by decide) (isPlain_of_all rfl), rfl, rfl⟩
  | .literal (.bool false), _ => exact ⟨isWord_of_plain (by decide) (isPlain_of_all rfl), rfl, rfl⟩
  | .literal .null, _ => exact ⟨isWord_of_plain (by decide) (isPlain_of_all rfl), rfl, rfl⟩

structure IsKey (key : String) : Prop where
  ne_empty : key ≠ ""
  plain : ∀ c ∈ key.toList, IsPlain c
  noEquals : '=' ∉ key.toList

def keyed (key : String) (word : List Char) : List Char := key.toList ++ '=' :: word

theorem named?_keyed {key : String} (h : IsKey key) (word : List Char) :
    named? (keyed key word) = some (key.toList, word) := by
  have hne : key.toList ≠ [] := by simpa using h.ne_empty
  obtain ⟨c, rest, hcons⟩ := List.exists_cons_of_ne_nil hne
  have hhead : isQuote c = false := (h.plain c (by simp [hcons])).2
  have hquotes : key.toList.any isQuote = false :=
    List.any_eq_false.mpr fun d hmem => by simp [(h.plain d hmem).2]
  have hsplit := splitEquals_append h.noEquals word
  rw [keyed, named?, if_neg (by simp [hcons, hhead]), hsplit]
  simp [hne, hquotes]

theorem isWord_keyed {key : String} (h : IsKey key) {word : List Char} (hword : IsWord word) :
    IsWord (keyed key word) := by
  refine ⟨by simp [keyed], ?_⟩
  exact Uncut.plain_append h.plain (uncut_cons_iff.mpr ⟨fun _ => by decide, hword.uncut⟩)

def printedNamed (key : String) (value : Argument) : List Char :=
  key.toList ++ '=' :: value.printed

end Argument

open Argument (IsPlain IsKey IsWord keyed printedNamed)

structure GivenArgument where
  key? : Option String
  argument : Argument

namespace GivenArgument

def positional? (given : GivenArgument) : Option Argument :=
  match given.key? with
  | none => some given.argument
  | some _ => none

def keyed? (given : GivenArgument) : Option (String × Argument) :=
  given.key?.map fun key => (key, given.argument)

inductive WrittenAs : GivenArgument → List Char → Prop where
  | positional {argument : Argument} {word : List Char} (h : argument.SpeltBy word) :
      WrittenAs ⟨none, argument⟩ word
  | named {key : String} {argument : Argument} {word : List Char} (hkey : IsKey key)
      (h : argument.SpeltBy word) : WrittenAs ⟨some key, argument⟩ (keyed key word)

variable {given : GivenArgument} {word : List Char}

theorem WrittenAs.isWord (h : given.WrittenAs word) : IsWord word := by
  cases h with
  | positional h => exact h.isWord
  | named hkey h => exact Argument.isWord_keyed hkey h.isWord

/-- Every key has a value behind it. -/
theorem WrittenAs.value_ne_nil (h : given.WrittenAs word) (key : List Char) :
    Argument.named? word ≠ some (key, []) := by
  cases h with
  | positional h => simp [h.keyless]
  | named hkey h => simp [Argument.named?_keyed hkey, h.isWord.ne_nil]

theorem WrittenAs.positional_eq (h : given.WrittenAs word) :
    HelperTag.positional [word] = given.positional?.toList := by
  cases h with
  | positional h => simp [HelperTag.positional, h.keyless, h.ofWord_eq, positional?]
  | named hkey h => simp [HelperTag.positional, Argument.named?_keyed hkey, positional?]

theorem WrittenAs.withNamed_eq (h : given.WrittenAs word) (entries : List (String × Argument)) :
    HelperTag.withNamed [word] entries =
      given.keyed?.toList.foldl (fun entries (key, value) => insertEntry key value entries)
        entries := by
  cases h with
  | positional h => simp [HelperTag.withNamed, h.keyless, keyed?]
  | named hkey h =>
    simp [HelperTag.withNamed, Argument.named?_keyed hkey, h.ofWord_eq, keyed?]

def printed (given : GivenArgument) : List Char :=
  match given.key? with
  | none => given.argument.printed
  | some key => printedNamed key given.argument

end GivenArgument

namespace HelperTag

section Given

variable {α : Type} {given : α → GivenArgument} {run : α → List Char} {arguments : List α}

theorem positional_map (h : ∀ a ∈ arguments, (given a).WrittenAs (run a)) :
    positional (arguments.map run) = arguments.filterMap fun a => (given a).positional? := by
  induction arguments with
  | nil => rfl
  | cons first later ih =>
    obtain ⟨hfirst, hlater⟩ := List.forall_mem_cons.mp h
    rw [List.map_cons, positional_cons, hfirst.positional_eq, ih hlater, List.filterMap_cons]
    cases (given first).positional? <;> rfl

theorem withNamed_map (h : ∀ a ∈ arguments, (given a).WrittenAs (run a))
    (entries : List (String × Argument)) :
    withNamed (arguments.map run) entries =
      (arguments.filterMap fun a => (given a).keyed?).foldl
        (fun entries (key, value) => insertEntry key value entries) entries := by
  induction arguments generalizing entries with
  | nil => rfl
  | cons first later ih =>
    obtain ⟨hfirst, hlater⟩ := List.forall_mem_cons.mp h
    rw [List.map_cons, withNamed_cons, hfirst.withNamed_eq, ih hlater, List.filterMap_cons]
    cases (given first).keyed? <;> rfl

/-- A tag is read as its name, the arguments without keys in order, and for each key the argument
that was given for it last. -/
theorem read_of_writtenAs {content name : String}
    (hwords : Argument.words? content.toList = some (name.toList :: arguments.map run))
    (h : ∀ a ∈ arguments, (given a).WrittenAs (run a)) (block : Bool) (line : Nat) :
    read content block line = .ok (some
      { name, block, line
        params := arguments.filterMap fun a => (given a).positional?
        named := sortEntries (arguments.filterMap fun a => (given a).keyed?) }) := by
  refine read_eq_some_iff.mpr ⟨by simp [hwords], ⟨_, hwords, ?_⟩, ?_⟩
  · intro word hmem
    obtain ⟨a, ha, rfl⟩ := List.mem_map.mp hmem
    exact (h a ha).value_ne_nil
  · simp only [ofContent, hwords, Option.getD_some, List.headD_cons, List.tail_cons,
      String.ofList_toList, positional_map h, withNamed_map h]
    rfl

end Given

def argumentWords (tag : HelperTag) : List (List Char) :=
  tag.params.map Argument.printed ++ tag.named.map fun (key, value) => printedNamed key value

/-- A helper tag as the content of a tag: its name, and each argument behind a blank. -/
def printed (tag : HelperTag) : List Char :=
  tag.name.toList ++ tag.argumentWords.flatMap fun word => ' ' :: word

/-- A helper tag that can be written out: it has a name, arguments that can stand in a tag, and keys
in ascending order. -/
structure Expressible (tag : HelperTag) : Prop where
  name_ne_empty : tag.name ≠ ""
  plainName : ∀ c ∈ tag.name.toList, IsPlain c
  params : ∀ param ∈ tag.params, param.Expressible
  keys : ∀ entry ∈ tag.named, IsKey entry.1
  values : ∀ entry ∈ tag.named, entry.2.Expressible
  ascending : Ascending tag.named

variable {tag : HelperTag}

theorem Expressible.isWord_name (h : tag.Expressible) : IsWord tag.name.toList :=
  Argument.isWord_of_plain (by simpa using h.name_ne_empty) h.plainName

/-- The arguments of a tag, those without keys first. -/
def givens (tag : HelperTag) : List GivenArgument :=
  tag.params.map (⟨none, ·⟩) ++ tag.named.map fun (key, value) => ⟨some key, value⟩

theorem argumentWords_eq (tag : HelperTag) :
    tag.argumentWords = tag.givens.map GivenArgument.printed := by
  simp [argumentWords, givens, GivenArgument.printed, Function.comp_def]

theorem filterMap_givens (tag : HelperTag) :
    tag.givens.filterMap GivenArgument.positional? = tag.params ∧
      tag.givens.filterMap GivenArgument.keyed? = tag.named := by
  constructor
  · simp [givens, GivenArgument.positional?, List.filterMap_append, List.filterMap_map,
      Function.comp_def]
  · simp [givens, GivenArgument.keyed?, List.filterMap_append, List.filterMap_map,
      Function.comp_def]

theorem Expressible.writtenAs (h : tag.Expressible) :
    ∀ given ∈ tag.givens, given.WrittenAs given.printed := by
  intro given hmem
  rcases List.mem_append.mp hmem with hpositional | hnamed
  · obtain ⟨param, hparam, rfl⟩ := List.mem_map.mp hpositional
    exact .positional (h.params param hparam).spelt
  · obtain ⟨entry, hentry, rfl⟩ := List.mem_map.mp hnamed
    exact .named (h.keys entry hentry) (h.values entry hentry).spelt

theorem Expressible.isWord_argument (h : tag.Expressible) :
    ∀ word ∈ tag.argumentWords, IsWord word := by
  rw [argumentWords_eq]
  intro word hmem
  obtain ⟨given, hgiven, rfl⟩ := List.mem_map.mp hmem
  exact (h.writtenAs given hgiven).isWord

/-- A helper tag that was written out is read as itself. -/
theorem Expressible.read_printed (h : tag.Expressible) :
    read (String.ofList tag.printed) tag.block tag.line = .ok (some tag) := by
  have hwords : Argument.words? (String.ofList tag.printed).toList =
      some (tag.name.toList :: tag.givens.map GivenArgument.printed) := by
    rw [String.toList_ofList, ← argumentWords_eq]
    exact Argument.words?_spaced h.isWord_name h.isWord_argument
  obtain ⟨hparams, hnamed⟩ := tag.filterMap_givens
  have hread := read_of_writtenAs hwords h.writtenAs tag.block tag.line
  rwa [hparams, hnamed, h.ascending.sortEntries_eq] at hread

theorem last_not_blank {word : List Char} (h : IsWord word) {later : List (List Char)}
    (hlater : ∀ w ∈ later, IsWord w) :
    ∀ c ∈ (word ++ later.flatMap fun w => ' ' :: w).getLast?, Text.isBlank c = false := by
  induction later generalizing word with
  | nil => simpa using h.uncut.last_not_blank (by simp)
  | cons next later ih =>
    have hnext := ih (hlater next List.mem_cons_self)
      fun w hmem => hlater w (List.mem_cons_of_mem _ hmem)
    have hne : next ++ later.flatMap (fun w => ' ' :: w) ≠ [] :=
      List.append_ne_nil_of_left_ne_nil (hlater next List.mem_cons_self).ne_nil _
    have hsplit : word ++ (next :: later).flatMap (fun w => ' ' :: w) =
        word ++ [' '] ++ (next ++ later.flatMap fun w => ' ' :: w) := by
      simp
    rwa [hsplit, List.getLast?_append_of_ne_nil _ hne]

/-- There is nothing to trim on a helper tag that was written out. -/
theorem Expressible.trim_printed (h : tag.Expressible) : Text.trim tag.printed = tag.printed := by
  refine Text.trim_eq_self ?_ (last_not_blank h.isWord_name h.isWord_argument)
  obtain ⟨c, rest, hcons⟩ := List.exists_cons_of_ne_nil h.isWord_name.ne_nil
  rintro d hd
  obtain rfl : c = d := by simpa [printed, hcons] using hd
  exact (h.plainName c (by simp [hcons])).1

/-- The first word of a helper tag that was written out is its name. -/
theorem Expressible.words_printed (h : tag.Expressible) :
    (Text.words tag.printed).head? = some tag.name.toList := by
  have hname : Text.IsWord tag.name.toList :=
    ⟨h.isWord_name.ne_nil, fun c hmem => (h.plainName c hmem).1⟩
  refine Text.head?_words_append hname ?_
  cases tag.argumentWords with
  | nil => simp
  | cons word later => simp [show Text.isBlank ' ' = true by decide]

end HelperTag

end Stencil
