import Stencil.Proofs.Argument.Printing
import Stencil.Proofs.Token.Printing

/-! Trees printed as source text, which is the text of tokens that can be written. -/

namespace Stencil

open Text (newlines)

def printedTag (kind : TagKind) (content : List Char) : List Char :=
  ['\x7b', '\x7b'] ++ (kind.sigil ++ content ++ ['\x7d', '\x7d'])

def blockKind (inverted : Bool) : TagKind := if inverted then .inverted else .opening

def outputKind (escaped : Bool) : TagKind := if escaped then .escaped else .unescaped

namespace Segment

mutual

def printed : Segment → List Char
  | .text s => s.toList
  | .output name escaped _ => printedTag (outputKind escaped) name.toList
  | .block name inverted body _ =>
    printedTag (blockKind inverted) name.toList ++ printedAll body ++
      printedTag .closing name.toList
  | .inclusion name _ _ => printedTag .inclusion name.toList
  | .invocation _ tag body none =>
    if tag.block then
      printedTag .opening tag.printed ++ printedAll body ++ printedTag .closing tag.name.toList
    else printedTag .escaped tag.printed
  | .invocation _ tag body (some elseBody) =>
    printedTag .opening tag.printed ++ printedAll body ++ printedTag .escaped "else".toList ++
      printedAll elseBody ++ printedTag .closing tag.name.toList
  | .comment => printedTag .comment []

def printedAll : List Segment → List Char
  | [] => []
  | first :: later => printed first ++ printedAll later

end

mutual

/-- A segment on the line on which it is printed, where some text is printed before. -/
def placed (before : List Char) : Segment → Segment
  | .text s => .text s
  | .output name escaped _ => .output name escaped (1 + newlines before)
  | .block name inverted body _ =>
    .block name inverted
      (placedAll (before ++ printedTag (blockKind inverted) name.toList) body)
      (1 + newlines before)
  | .inclusion name indent _ => .inclusion name indent (1 + newlines before)
  | .invocation registered tag body none =>
    .invocation registered { tag with line := 1 + newlines before }
      (placedAll (before ++ printedTag .opening tag.printed) body) none
  | .invocation registered tag body (some elseBody) =>
    .invocation registered { tag with line := 1 + newlines before }
      (placedAll (before ++ printedTag .opening tag.printed) body)
      (some (placedAll (before ++ printedTag .opening tag.printed ++ printedAll body ++
        printedTag .escaped "else".toList) elseBody))
  | .comment => .comment

def placedAll (before : List Char) : List Segment → List Segment
  | [] => []
  | first :: later => placed before first :: placedAll (before ++ printed first) later

end

mutual

def unplaced : Segment → Segment
  | .text s => .text s
  | .output name escaped _ => .output name escaped 0
  | .block name inverted body _ => .block name inverted (unplacedAll body) 0
  | .inclusion name indent _ => .inclusion name indent 0
  | .invocation registered tag body none =>
    .invocation registered { tag with line := 0 } (unplacedAll body) none
  | .invocation registered tag body (some elseBody) =>
    .invocation registered { tag with line := 0 } (unplacedAll body) (some (unplacedAll elseBody))
  | .comment => .comment

def unplacedAll : List Segment → List Segment
  | [] => []
  | first :: later => unplaced first :: unplacedAll later

end

mutual

def tokens : Segment → List Token
  | .text s => (Text.lines s.toList).map fun line => .literal (String.ofList line) 0
  | .output name escaped _ => [.tag (outputKind escaped) name 0]
  | .block name inverted body _ =>
    .tag (blockKind inverted) name 0 :: (tokensAll body ++ [.tag .closing name 0])
  | .inclusion name _ _ => [.tag .inclusion name 0]
  | .invocation _ tag body none =>
    if tag.block then
      .tag .opening (String.ofList tag.printed) 0 :: (tokensAll body ++ [.tag .closing tag.name 0])
    else [.tag .escaped (String.ofList tag.printed) 0]
  | .invocation _ tag body (some elseBody) =>
    .tag .opening (String.ofList tag.printed) 0 ::
      (tokensAll body ++ .tag .escaped "else" 0 ::
        (tokensAll elseBody ++ [.tag .closing tag.name 0]))
  | .comment => [.tag .comment "" 0]

def tokensAll : List Segment → List Token
  | [] => []
  | first :: later => tokens first ++ tokensAll later

end

end Segment

/-- What can stand in a tag in front of the usual closing delimiter. -/
structure IsContent (content : List Char) : Prop where
  ne_nil : content ≠ []
  trimmed : Text.trim content = content
  braceless : '\x7d' ∉ content

instance (content : List Char) : Decidable (IsContent content) :=
  decidable_of_iff (content ≠ [] ∧ Text.trim content = content ∧ '\x7d' ∉ content)
    ⟨fun ⟨hne, htrim, hbrace⟩ => ⟨hne, htrim, hbrace⟩, fun h => ⟨h.1, h.2, h.3⟩⟩

/-- The helper tag can be printed, and the helper of its name is this one and accepts it. -/
structure HelperTag.Printable (registry : Registry) (registered : Registered) (tag : HelperTag) :
    Prop where
  expressible : tag.Expressible
  name_ne_else : tag.name ≠ "else"
  noSigil : ∀ c ∈ tag.name.toList.head?, c ∉ sigils
  braceless : '\x7d' ∉ tag.printed
  called : registry.get? tag.name = some registered
  valid : registered.helper.validate tag = .ok ()

namespace Segment

mutual

/-- The segment can be printed behind a text, directly in a helper block or not. -/
def Printable (registry : Registry) (inHelper : Bool) (before : List Char) : Segment → Prop
  | .text s => s ≠ "" ∧ '\x7b' ∉ s.toList
  | .output name escaped _ =>
    IsContent name.toList ∧ registry.called? name = none ∧
      (escaped = true →
        (∀ c ∈ name.toList.head?, c ∉ sigils) ∧ (inHelper = true → name ≠ "else"))
  | .block name inverted body _ =>
    IsContent name.toList ∧ (inverted = false → registry.called? name = none) ∧
      AllPrintable registry false (before ++ printedTag (blockKind inverted) name.toList) body
  | .inclusion name indent _ => IsContent name.toList ∧ indent = ""
  | .invocation registered tag body none =>
    HelperTag.Printable registry registered { tag with line := 1 + newlines before } ∧
      if tag.block then
        AllPrintable registry true (before ++ printedTag .opening tag.printed) body
      else body = []
  | .invocation registered tag body (some elseBody) =>
    HelperTag.Printable registry registered { tag with line := 1 + newlines before } ∧
      tag.block = true ∧
      AllPrintable registry true (before ++ printedTag .opening tag.printed) body ∧
      AllPrintable registry true (before ++ printedTag .opening tag.printed ++ printedAll body ++
        printedTag .escaped "else".toList) elseBody
  | .comment => True

/-- The segments can be printed one behind the other, and no two texts stand side by side. -/
def AllPrintable (registry : Registry) (inHelper : Bool) (before : List Char) :
    List Segment → Prop
  | [] => True
  | first :: later =>
    Printable registry inHelper before first ∧
      (first.isText = true → later.head?.any isText = false) ∧
      AllPrintable registry inHelper (before ++ printed first) later

end

end Segment

open Segment (printedAll placedAll unplacedAll tokensAll AllPrintable)

section Places

theorem Segment.isText_placed (segment : Segment) (before : List Char) :
    (segment.placed before).isText = segment.isText := by
  match segment with
  | .text _ => rfl
  | .output .. => rfl
  | .block .. => rfl
  | .inclusion .. => rfl
  | .invocation _ _ _ none => rfl
  | .invocation _ _ _ (some _) => rfl
  | .comment => rfl

mutual

theorem Segment.unplaced_placed : ∀ (segment : Segment) (before : List Char),
    (segment.placed before).unplaced = segment.unplaced
  | .text _, _ => rfl
  | .output .., _ => rfl
  | .block _ _ body _, before => by
    simp only [placed, unplaced, unplacedAll_placedAll body]
  | .inclusion .., _ => rfl
  | .invocation _ _ body none, before => by
    simp only [placed, unplaced, unplacedAll_placedAll body]
  | .invocation _ _ body (some elseBody), before => by
    simp only [placed, unplaced, unplacedAll_placedAll body, unplacedAll_placedAll elseBody]
  | .comment, _ => rfl

/-- Only the lines change where segments are put on those on which they are printed. -/
theorem Segment.unplacedAll_placedAll : ∀ (segments : List Segment) (before : List Char),
    unplacedAll (placedAll before segments) = unplacedAll segments
  | [], _ => rfl
  | first :: later, before => by
    simp only [placedAll, unplacedAll, unplaced_placed first, unplacedAll_placedAll later]

end

end Places

section Tokens

/-- The text of a tag is the one of its token. -/
theorem written_tag (kind : TagKind) (content : String) (line : Nat) (later : List Token) :
    written {} (.tag kind content line :: later) =
      printedTag kind content.toList ++ written {} later := rfl

theorem written_literals (lines : List (List Char)) (later : List Token) :
    written {} ((lines.map fun line => Token.literal (String.ofList line) 0) ++ later) =
      lines.flatten ++ written {} later := by
  induction lines with
  | nil => rfl
  | cons line lines ih =>
    have hfirst : written {} (.literal (String.ofList line) 0 ::
        ((lines.map fun line => Token.literal (String.ofList line) 0) ++ later)) =
        (String.ofList line).toList ++
          written {} ((lines.map fun line => Token.literal (String.ofList line) 0) ++ later) := rfl
    rw [List.map_cons, List.cons_append, hfirst, ih, String.toList_ofList, List.flatten_cons,
      List.append_assoc]

mutual

theorem Segment.written_tokens : ∀ (segment : Segment) (later : List Token),
    written {} (segment.tokens ++ later) = segment.printed ++ written {} later
  | .text s, later => by
    rw [tokens, written_literals, Text.flatten_lines, printed]
  | .output .., _ => by rw [tokens, printed]; rfl
  | .block name inverted body _, later => by
    rw [tokens, printed, List.cons_append, List.append_assoc, written_tag,
      written_tokensAll body]
    simp [written_tag]
  | .inclusion .., _ => by rw [tokens, printed]; rfl
  | .invocation _ tag body none, later => by
    rw [tokens, printed]
    split
    · rw [List.cons_append, List.append_assoc, written_tag, written_tokensAll body]
      simp [written_tag]
    · simp [written_tag]
  | .invocation _ tag body (some elseBody), later => by
    rw [tokens, printed, List.cons_append, List.append_assoc, written_tag,
      written_tokensAll body, List.cons_append, List.append_assoc, written_tag,
      written_tokensAll elseBody]
    simp [written_tag]
  | .comment, _ => rfl

theorem Segment.written_tokensAll : ∀ (segments : List Segment) (later : List Token),
    written {} (tokensAll segments ++ later) = printedAll segments ++ written {} later
  | [], _ => rfl
  | first :: rest, later => by
    rw [tokensAll, printedAll, List.append_assoc, written_tokens first, written_tokensAll rest,
      List.append_assoc]

end

end Tokens

section Writing

variable {registry : Registry} {registered : Registered} {tag : HelperTag}

theorem HelperTag.Printable.isContent (h : tag.Printable registry registered) :
    IsContent tag.printed :=
  ⟨by simp [printed, h.expressible.isWord_name.ne_nil], h.expressible.trim_printed, h.braceless⟩

theorem HelperTag.Printable.isContent_name (h : tag.Printable registry registered) :
    IsContent tag.name.toList := by
  have hne := h.expressible.isWord_name.ne_nil
  have hplain : ∀ c ∈ tag.name.toList, Text.isBlank c = false :=
    fun c hmem => (h.expressible.plainName c hmem).1
  refine ⟨hne, Text.trim_eq_self ?_ ?_, fun hmem => h.braceless (by simp [printed, hmem])⟩
  · exact fun c hc => hplain c (List.mem_of_mem_head? hc)
  · exact fun c hc => hplain c (List.mem_of_mem_getLast? hc)

theorem HelperTag.Printable.head_printed (h : tag.Printable registry registered) :
    ∀ c ∈ tag.printed.head?, c ∉ sigils := by
  obtain ⟨d, rest, hcons⟩ := List.exists_cons_of_ne_nil h.expressible.isWord_name.ne_nil
  intro c hc
  refine h.noSigil c ?_
  simpa [printed, hcons] using hc

theorem IsContent.writable {content : String} (h : IsContent content.toList) {kind : TagKind}
    (hsigil : kind = .escaped → ∀ c ∈ content.toList.head?, c ∉ sigils) (line : Nat)
    (later : List Token) : (Token.tag kind content line).Writable {} later := by
  refine ⟨h.trimmed, ?_, ?_, hsigil⟩
  · rintro c ⟨⟩
    exact h.braceless
  · rintro rfl
    exact absurd rfl h.ne_nil

theorem HelperTag.Printable.writable_printed (h : tag.Printable registry registered)
    (kind : TagKind) (line : Nat) (later : List Token) :
    (Token.tag kind (String.ofList tag.printed) line).Writable {} later := by
  have hcontent : IsContent (String.ofList tag.printed).toList :=
    String.toList_ofList.symm ▸ h.isContent
  refine hcontent.writable (fun _ => ?_) line later
  rw [String.toList_ofList]
  exact h.head_printed

theorem HelperTag.Printable.writable_name (h : tag.Printable registry registered) (line : Nat)
    (later : List Token) : (Token.tag .closing tag.name line).Writable {} later :=
  h.isContent_name.writable (fun hkind => by contradiction) line later

theorem writable_literals {lines : List (List Char)} (h : Text.AreLines lines)
    (hbrace : '\x7b' ∉ lines.flatten) {later : List Token} (hlater : Writable {} later)
    (hnext : later.head?.any Token.isLiteral = false) :
    Writable {} ((lines.map fun line => Token.literal (String.ofList line) 0) ++ later) := by
  induction lines with
  | nil => exact hlater
  | cons line lines ih =>
    obtain ⟨hne, hinside, hends, hlines⟩ := h
    rw [List.flatten_cons, List.mem_append, not_or] at hbrace
    refine ⟨⟨?_, ?_, ?_, ?_⟩, ih hlines hbrace.2⟩
    · simpa [← String.toList_inj] using hne
    · rwa [String.toList_ofList]
    · rintro c ⟨⟩
      rw [String.toList_ofList]
      exact hbrace.1
    · intro hliteral
      rw [String.toList_ofList]
      refine hends ?_
      rintro rfl
      have hfirst : later.head?.any Token.isLiteral = true := hliteral
      simp [hnext] at hfirst

theorem Segment.head_tokens {segment : Segment} (h : segment.isText = false) (later : List Token) :
    (segment.tokens ++ later).head?.any Token.isLiteral = false := by
  match segment, h with
  | .output .., _ => rfl
  | .block .., _ => rfl
  | .inclusion .., _ => rfl
  | .invocation _ tag _ none, _ =>
    rw [tokens]
    split <;> rfl
  | .invocation _ _ _ (some _), _ => rfl
  | .comment, _ => rfl

/-- A text is the only segment whose tokens start with a literal. -/
theorem Segment.head_tokensAll {segments : List Segment}
    (h : segments.head?.any isText = false) {later : List Token}
    (hlater : later.head?.any Token.isLiteral = false) :
    (tokensAll segments ++ later).head?.any Token.isLiteral = false := by
  cases segments with
  | nil => exact hlater
  | cons first rest =>
    rw [tokensAll, List.append_assoc]
    exact head_tokens (by simpa using h) _

mutual

theorem Segment.writable_tokens : ∀ (segment : Segment) {inHelper : Bool} {before : List Char},
    segment.Printable registry inHelper before → ∀ {later : List Token}, Writable {} later →
    (segment.isText = true → later.head?.any Token.isLiteral = false) →
    Writable {} (segment.tokens ++ later)
  | .text s, _, _, ⟨_, hbrace⟩, _, hlater, hnext => by
    rw [← Text.flatten_lines s.toList] at hbrace
    exact writable_literals (Text.areLines_lines _) hbrace hlater (hnext rfl)
  | .output name escaped _, _, _, ⟨hname, _, hescaped⟩, _, hlater, _ => by
    refine ⟨hname.writable ?_ _ _, hlater⟩
    intro hkind
    cases escaped with
    | true => exact (hescaped rfl).1
    | false => contradiction
  | .block name inverted body _, _, _, ⟨hname, _, hbody⟩, later, hlater, _ => by
    rw [tokens, List.cons_append, List.append_assoc]
    have hclosing : Writable {} ([.tag .closing name 0] ++ later) :=
      ⟨hname.writable (fun hkind => by contradiction) _ _, hlater⟩
    refine ⟨hname.writable ?_ _ _, writable_tokensAll body hbody hclosing rfl⟩
    intro hkind
    cases inverted <;> contradiction
  | .inclusion name _ _, _, _, ⟨hname, _⟩, _, hlater, _ =>
    ⟨hname.writable (fun hkind => by contradiction) _ _, hlater⟩
  | .invocation registered tag body none, _, _, ⟨htag, hbody⟩, later, hlater, _ => by
    rw [tokens]
    split
    · rename_i hblock
      rw [if_pos hblock] at hbody
      rw [List.cons_append, List.append_assoc]
      exact ⟨htag.writable_printed .opening _ _,
        writable_tokensAll body hbody ⟨htag.writable_name _ _, hlater⟩ rfl⟩
    · exact ⟨htag.writable_printed .escaped _ _, hlater⟩
  | .invocation registered tag body (some elseBody), _, _, ⟨htag, _, hbody, helse⟩, later, hlater,
      _ => by
    rw [tokens, List.cons_append, List.append_assoc, List.cons_append, List.append_assoc]
    have hclosing : Writable {} ([.tag .closing tag.name 0] ++ later) :=
      ⟨htag.writable_name _ _, hlater⟩
    have hdivider : IsContent "else".toList := by decide
    have hdivided : Writable {} (.tag .escaped "else" 0 ::
        (tokensAll elseBody ++ ([.tag .closing tag.name 0] ++ later))) :=
      ⟨hdivider.writable (fun _ => by simp [sigils]) _ _,
        writable_tokensAll elseBody helse hclosing rfl⟩
    exact ⟨htag.writable_printed .opening _ _, writable_tokensAll body hbody hdivided rfl⟩
  | .comment, _, _, _, _, hlater, _ => ⟨⟨rfl, by simp, fun _ => rfl, by simp⟩, hlater⟩

theorem Segment.writable_tokensAll : ∀ (segments : List Segment) {inHelper : Bool}
    {before : List Char}, AllPrintable registry inHelper before segments →
    ∀ {later : List Token}, Writable {} later → later.head?.any Token.isLiteral = false →
    Writable {} (tokensAll segments ++ later)
  | [], _, _, _, _, hlater, _ => hlater
  | first :: rest, _, _, ⟨hfirst, hnext, hrest⟩, later, hlater, hhead => by
    rw [tokensAll, List.append_assoc]
    exact writable_tokens first hfirst (writable_tokensAll rest hrest hlater hhead)
      fun htext => head_tokensAll (hnext htext) hhead

end

end Writing

end Stencil
