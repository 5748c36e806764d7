import Stencil.Helper.Builtin
import Stencil.Proofs.Standalone.Trimming
import Stencil.Proofs.Tree.Document
import Stencil.Proofs.Tree.Printing

/-! Printed trees are read back. Compiling what was printed gives the tree, with each segment on the
line on which it was printed. -/

namespace Stencil

open Text (newlines)
open Segment (printedAll placedAll unplacedAll tokensAll AllPrintable)

namespace Tree

section Reading

variable {registry : Registry} {template : String} {before : List Char} {later : List Token}

/-- Reads tokens into a tree on the lines on which they are written behind a text. -/
def readBehind (registry : Registry) (template : String) (before : List Char)
    (tokens : List Token) (tree : Tree) : Except Error Tree :=
  (untrimmed (onLines before {} tokens)).foldlM (addItem registry template) tree

theorem readBehind_literal (text : String) (line : Nat) (tree : Tree) :
    readBehind registry template before (.literal text line :: later) tree =
      readBehind registry template (before ++ text.toList) later (tree.addText text) := rfl

theorem readBehind_tag {kind : TagKind} {content : String} {tree next : Tree}
    (h : addTag registry template tree "" kind content (1 + newlines before) = .ok next)
    (line : Nat) :
    readBehind registry template before (.tag kind content line :: later) tree =
      readBehind registry template (before ++ printedTag kind content.toList) later next := by
  have hitem : addItem registry template tree ⟨.tag kind content (1 + newlines before), ""⟩ =
      .ok next := h
  have hcons : untrimmed (onLines before {} (.tag kind content line :: later)) =
      ⟨.tag kind content (1 + newlines before), ""⟩ ::
        untrimmed (onLines (before ++ printedTag kind content.toList) {} later) := rfl
  rw [readBehind, hcons, List.foldlM_cons, hitem]
  rfl

theorem appendText_text (segments : List Segment) (s t : String) :
    appendText t (segments ++ [.text s]) = segments ++ [.text (s ++ t)] := by
  induction segments with
  | nil => rfl
  | cons segment rest ih =>
    have hne : rest ++ [.text s] ≠ [] := by simp
    obtain ⟨next, further, hcons⟩ := List.exists_cons_of_ne_nil hne
    have hskip : appendText t (segment :: next :: further) =
        segment :: appendText t (next :: further) := by
      cases segment <;> rfl
    rw [List.cons_append, hcons, hskip, ← hcons, ih, List.cons_append]

theorem appendText_of_not_text {segments : List Segment}
    (h : segments.getLast?.any Segment.isText = false) (text : String) :
    appendText text segments = segments ++ [.text text] := by
  rcases appendText_cases text segments with ⟨front, last, rfl, -⟩ | hnew
  · simp [Segment.isText] at h
  · exact hnew

/-- The lines of a text join the text in front of them. -/
theorem readBehind_literals (lines : List (List Char)) (tree : Tree) (segments : List Segment)
    (s : String) :
    readBehind registry template before
        ((lines.map fun line => .literal (String.ofList line) 0) ++ later)
        (tree.update fun _ => segments ++ [.text s]) =
      readBehind registry template (before ++ lines.flatten) later
        (tree.update fun _ => segments ++ [.text (s ++ String.ofList lines.flatten)]) := by
  induction lines generalizing before s with
  | nil => simp
  | cons line lines ih =>
    have hjoin : (tree.update fun _ => segments ++ [.text s]).addText (String.ofList line) =
        tree.update fun _ => segments ++ [.text (s ++ String.ofList line)] := by
      rw [addText, update_update, Function.comp_def, appendText_text]
    rw [List.map_cons, List.cons_append, readBehind_literal, hjoin, ih, String.toList_ofList]
    simp [String.ofList_append, String.append_assoc]

/-- A text is read from its lines where no text stands in front of it. -/
theorem readBehind_text {text : String} (htext : text ≠ "") (tree : Tree)
    {segments : List Segment} (h : segments.getLast?.any Segment.isText = false) :
    readBehind registry template before (Segment.tokens (.text text) ++ later)
        (tree.update fun _ => segments) =
      readBehind registry template (before ++ text.toList) later
        (tree.update fun _ => segments ++ [.text text]) := by
  have hlines : Text.lines text.toList ≠ [] := by
    rw [ne_eq, Text.lines_eq_nil_iff]
    simpa using htext
  have hflatten := Text.flatten_lines text.toList
  obtain ⟨line, lines, hcons⟩ := List.exists_cons_of_ne_nil hlines
  rw [hcons, List.flatten_cons] at hflatten
  have hnew : (tree.update fun _ => segments).addText (String.ofList line) =
      tree.update fun _ => segments ++ [.text (String.ofList line)] := by
    rw [addText, update_update, Function.comp_def, appendText_of_not_text h]
  rw [Segment.tokens, hcons, List.map_cons, List.cons_append, readBehind_literal, hnew,
    readBehind_literals, String.toList_ofList, ← String.ofList_append, List.append_assoc, hflatten,
    String.ofList_toList]

theorem addTag_name {kind : TagKind} (hkind : kind = .escaped ∨ kind = .unescaped)
    {name : String} (hplain : registry.called? name = none) {tree : Tree}
    (helse : isElse kind name tree.inHelper = false) (line : Nat) :
    addTag registry template tree "" kind name line =
      .ok (tree.add (.output name (kind == .escaped) line)) := by
  rw [addTag_output hkind, helse, helperCall_of_not_called hplain]
  rfl

theorem addTag_block {name : String} {inverted : Bool}
    (hplain : inverted = false → registry.called? name = none) (tree : Tree) (line : Nat) :
    addTag registry template tree "" (blockKind inverted) name line =
      .ok (tree.openBlock (.plain inverted) name line) := by
  cases inverted with
  | true => rfl
  | false =>
    show addTag registry template tree "" .opening name line = _
    rw [addTag_opening, helperCall_of_not_called (hplain rfl)]
    rfl

variable {registered : Registered} {tag : HelperTag}

theorem helperCall_printed (h : tag.Printable registry registered) :
    helperCall registry template (String.ofList tag.printed) tag.block tag.line =
      .ok (some (registered, tag)) := by
  have hcalled : registry.called? (String.ofList tag.printed) = some registered := by
    rw [Registry.called?, String.toList_ofList, h.expressible.words_printed, ← h.called]
    simp
  rw [helperCall_of_called hcalled, h.expressible.read_printed]
  simp [h.valid, Except.map]

theorem addTag_helperBlock (h : tag.Printable registry registered) (hblock : tag.block = true)
    (tree : Tree) :
    addTag registry template tree "" .opening (String.ofList tag.printed) tag.line =
      .ok (tree.openBlock (.helper registered tag) tag.name tag.line) := by
  have hcall : helperCall registry template _ tag.block tag.line = _ := helperCall_printed h
  rw [hblock] at hcall
  rw [addTag_opening, hcall]
  rfl

theorem addTag_helper (h : tag.Printable registry registered) (hblock : tag.block = false)
    (tree : Tree) :
    addTag registry template tree "" .escaped (String.ofList tag.printed) tag.line =
      .ok (tree.add (.invocation registered tag [] none)) := by
  have hcall : helperCall registry template _ tag.block tag.line = _ := helperCall_printed h
  rw [hblock] at hcall
  have helse : isElse .escaped (String.ofList tag.printed) tree.inHelper = false := by
    by_contra hdivides
    obtain ⟨-, -, hprinted⟩ := isElse_eq_true (by simpa using hdivides)
    have hname := h.expressible.words_printed
    rw [← String.toList_ofList (l := tag.printed), hprinted] at hname
    exact h.name_ne_else (String.toList_inj.mp (Option.some.inj hname).symm)
  rw [addTag_output (.inl rfl), helse, hcall]
  rfl

theorem addTag_closing (tree : Tree) (block : OpenBlock) (line : Nat) :
    addTag registry template { tree with opened := block :: tree.opened } "" .closing block.name
      line = .ok (tree.add block.toSegment) := by
  simp [addTag, close]

theorem readBehind_leaf {kind : TagKind} {content : String} {tree : Tree}
    {segments : List Segment} {segment : Segment}
    (h : addTag registry template (tree.update fun _ => segments) "" kind content
        (1 + newlines before) = .ok ((tree.update fun _ => segments).add segment)) :
    readBehind registry template before ([.tag kind content 0] ++ later)
        (tree.update fun _ => segments) =
      readBehind registry template (before ++ printedTag kind content.toList) later
        (tree.update fun _ => segments ++ [segment]) := by
  rw [List.singleton_append, readBehind_tag h, add_update]

/-- The tokens of a part are read directly in a block, as these segments. -/
def ReadsAs (registry : Registry) (template : String) (inHelper : Bool) (before : List Char)
    (part inner : List Segment) : Prop :=
  ∀ (later : List Token) (tree : Tree), tree.inHelper = inHelper →
    readBehind registry template before (tokensAll part ++ later) (tree.update fun _ => []) =
      readBehind registry template (before ++ printedAll part) later (tree.update fun _ => inner)

section Blocks

variable {tree : Tree} {segments body elseBody inner elseInner : List Segment}

/-- A block is read where its opening tag is accepted and its body is read inside of it. -/
theorem readBehind_block {kind : TagKind} {content name : String} {chars : List Char}
    (hchars : content.toList = chars) {opener : Opener}
    (hopen : addTag registry template (tree.update fun _ => segments) "" kind content
        (1 + newlines before) =
      .ok ((tree.update fun _ => segments).openBlock opener name (1 + newlines before)))
    (hbody : ReadsAs registry template (OpenBlock.isHelper ⟨opener, name, 0, [], none⟩)
      (before ++ printedTag kind chars) body inner) :
    readBehind registry template before
        (.tag kind content 0 :: (tokensAll body ++ [.tag .closing name 0]) ++ later)
        (tree.update fun _ => segments) =
      readBehind registry template
        (before ++ (printedTag kind chars ++ printedAll body ++ printedTag .closing name.toList))
        later
        (tree.update fun _ => segments ++
          [OpenBlock.toSegment ⟨opener, name, 1 + newlines before, inner, none⟩]) := by
  let block : OpenBlock := ⟨opener, name, 1 + newlines before, inner, none⟩
  rw [List.cons_append, List.append_assoc, readBehind_tag hopen, hchars]
  refine (hbody _ ((tree.update fun _ => segments).openBlock opener name
    (1 + newlines before)) rfl).trans ?_
  rw [List.singleton_append, ← add_update]
  refine (readBehind_tag (addTag_closing (tree.update fun _ => segments) block _) 0).trans ?_
  simp only [List.append_assoc, block]

/-- A block with an `else` is read where its opening tag is accepted and both parts are read. -/
theorem readBehind_dividedBlock {registered : Registered} {tag : HelperTag}
    (hopen : addTag registry template (tree.update fun _ => segments) "" .opening
        (String.ofList tag.printed) tag.line =
      .ok ((tree.update fun _ => segments).openBlock (.helper registered tag) tag.name tag.line))
    (hline : tag.line = 1 + newlines before)
    (hbody : ReadsAs registry template true (before ++ printedTag .opening tag.printed) body inner)
    (helse : ReadsAs registry template true (before ++ printedTag .opening tag.printed ++
      printedAll body ++ printedTag .escaped "else".toList) elseBody elseInner) :
    readBehind registry template before
        (.tag .opening (String.ofList tag.printed) 0 :: (tokensAll body ++ .tag .escaped "else" 0 ::
          (tokensAll elseBody ++ [.tag .closing tag.name 0])) ++ later)
        (tree.update fun _ => segments) =
      readBehind registry template
        (before ++ (printedTag .opening tag.printed ++ printedAll body ++
          printedTag .escaped "else".toList ++ printedAll elseBody ++
          printedTag .closing tag.name.toList)) later
        (tree.update fun _ => segments ++ [.invocation registered tag inner (some elseInner)]) := by
  let outer := tree.update fun _ => segments
  let first : OpenBlock := ⟨.helper registered tag, tag.name, tag.line, inner, none⟩
  let block : OpenBlock := { first with elseBody := some elseInner }
  have hdivide (line : Nat) : addTag registry template ⟨outer.root, first :: outer.opened⟩ ""
      .escaped "else" line =
        .ok ⟨outer.root, { first with elseBody := some [] } :: outer.opened⟩ := rfl
  rw [hline] at hopen
  rw [List.cons_append, List.append_assoc, List.cons_append, List.append_assoc,
    readBehind_tag hopen, String.toList_ofList, ← hline]
  refine (hbody _ (outer.openBlock (.helper registered tag) tag.name tag.line) rfl).trans ?_
  refine (readBehind_tag (hdivide _) 0).trans ?_
  refine (helse _ ⟨outer.root, { first with elseBody := some [] } :: outer.opened⟩ rfl).trans ?_
  rw [List.singleton_append, ← add_update]
  refine (readBehind_tag (addTag_closing outer block _) 0).trans ?_
  simp only [List.append_assoc, block, first, outer]
  rfl

end Blocks

mutual

/-- A segment is read from its tokens, whatever tokens are behind them. -/
theorem readBehind_tokens : ∀ (segment : Segment) {inHelper : Bool} {before : List Char},
    segment.Printable registry inHelper before → ∀ {later : List Token} {tree : Tree}
    {segments : List Segment}, tree.inHelper = inHelper →
    (segment.isText = true → segments.getLast?.any Segment.isText = false) →
    readBehind registry template before (segment.tokens ++ later) (tree.update fun _ => segments) =
      readBehind registry template (before ++ segment.printed) later
        (tree.update fun _ => segments ++ [segment.placed before])
  | .text s, _, _, ⟨hne, _⟩, _, tree, _, _, hlast => readBehind_text hne tree (hlast rfl)
  | .output name true _, inHelper, before, ⟨_, hplain, hescaped⟩, later, tree, segments, hin,
      _ => by
    have helse : isElse .escaped name (tree.update fun _ => segments).inHelper = false := by
      rw [inHelper_update, hin]
      by_contra hdivides
      obtain ⟨hhelper, -, hname⟩ := isElse_eq_true (by simpa using hdivides)
      exact (hescaped rfl).2 hhelper hname
    exact readBehind_leaf (addTag_name (.inl rfl) hplain helse _)
  | .output name false _, _, _, ⟨_, hplain, _⟩, _, _, _, _, _ =>
    readBehind_leaf (addTag_name (.inr rfl) hplain (by simp [isElse]) _)
  | .block name inverted body _, _, _, ⟨_, hplain, hbody⟩, _, _, _, _, _ =>
    readBehind_block rfl (addTag_block hplain _ _) fun _ _ hin =>
      readBehind_tokensAll body hbody hin (fun _ => rfl)
  | .inclusion name indent _, _, _, ⟨_, hindent⟩, _, _, _, _, _ => by
    subst hindent
    exact readBehind_leaf rfl
  | .invocation registered tag body none, _, before, ⟨htag, hbody⟩, later, tree, segments, _,
      _ => by
    rw [Segment.tokens, Segment.printed, Segment.placed]
    split
    · rename_i hblock
      rw [if_pos hblock] at hbody
      exact readBehind_block String.toList_ofList (addTag_helperBlock htag hblock _)
        fun _ _ hin => readBehind_tokensAll body hbody hin (fun _ => rfl)
    · rename_i hblock
      rw [if_neg hblock] at hbody
      subst hbody
      have hblock : tag.block = false := by simpa using hblock
      refine (readBehind_leaf (addTag_helper htag hblock _)).trans ?_
      rw [String.toList_ofList]
      rfl
  | .invocation registered tag body (some elseBody), _, before, ⟨htag, hblock, hbody, helse⟩, _,
      tree, segments, _, _ => by
    exact readBehind_dividedBlock (addTag_helperBlock htag hblock (tree.update fun _ => segments))
      rfl (fun _ _ hin => readBehind_tokensAll body hbody hin (fun _ => rfl))
      fun _ _ hin => readBehind_tokensAll elseBody helse hin (fun _ => rfl)
  | .comment, _, _, _, _, _, _, _, _ => readBehind_leaf rfl

theorem readBehind_tokensAll : ∀ (rest : List Segment) {inHelper : Bool} {before : List Char},
    AllPrintable registry inHelper before rest → ∀ {later : List Token} {tree : Tree}
    {segments : List Segment}, tree.inHelper = inHelper →
    (rest.head?.any Segment.isText = true → segments.getLast?.any Segment.isText = false) →
    readBehind registry template before (tokensAll rest ++ later) (tree.update fun _ => segments) =
      readBehind registry template (before ++ printedAll rest) later
        (tree.update fun _ => segments ++ placedAll before rest)
  | [], _, before, _, later, tree, segments, _, _ => by
    simp [tokensAll, printedAll, placedAll]
  | first :: rest, _, before, ⟨hfirst, hnext, hrest⟩, _, _, segments, hin, hlast => by
    have hbehind : rest.head?.any Segment.isText = true →
        (segments ++ [first.placed before]).getLast?.any Segment.isText = false := by
      intro htext
      cases hkind : first.isText with
      | true => simp [hnext hkind] at htext
      | false => simpa [Segment.isText_placed] using hkind
    rw [tokensAll, printedAll, placedAll, List.append_assoc,
      readBehind_tokens first hfirst hin hlast, readBehind_tokensAll rest hrest hin hbehind]
    simp only [List.append_assoc, List.singleton_append]

end

end Reading

end Tree

/-- Compiling undoes printing. A tree that can be printed, with its lines left to be those on which
it is printed, is what its printed text compiles to where lines are not trimmed. -/
theorem compile_printed {registry : Registry} {segments : List Segment}
    (h : AllPrintable registry false [] segments) (name : String) :
    compile ⟨{}, registry, false⟩ name (String.ofList (printedAll segments)) =
        .ok ⟨name, placedAll [] segments⟩ ∧
      unplacedAll (placedAll [] segments) = unplacedAll segments := by
  refine ⟨?_, Segment.unplacedAll_placedAll segments []⟩
  have hwritable : Writable {} (tokensAll segments) := by
    have hall : Writable {} (tokensAll segments ++ []) :=
      Segment.writable_tokensAll segments h trivial rfl
    rwa [List.append_nil] at hall
  have hwritten : written {} (tokensAll segments) = printedAll segments := by
    have hall := Segment.written_tokensAll segments []
    rwa [List.append_nil, written, List.append_nil] at hall
  have htree : (untrimmed (onLines [] {} (tokensAll segments))).foldlM
      (Tree.addItem registry name) {} = .ok ⟨placedAll [] segments, []⟩ := by
    have hall : Tree.readBehind registry name [] (tokensAll segments ++ []) {} =
        .ok ⟨placedAll [] segments, []⟩ :=
      @Tree.readBehind_tokensAll _ _ segments _ _ h _ {} _ rfl (fun _ => rfl)
    rwa [List.append_nil] at hall
  have htokens : tokenize name {} (String.ofList (printedAll segments)) =
      .ok (onLines [] {} (tokensAll segments)) := by
    let start := Lexer.ofSource {} (String.ofList (printedAll segments))
    have hrest : start.rest = written {} (tokensAll segments) :=
      String.toList_ofList.trans hwritten.symm
    have hopening : IsDelimiter ({} : Delimiters).opening := by decide
    have hclosing : IsDelimiter ({} : Delimiters).closing := by decide
    obtain ⟨hread, hfault⟩ := start.run_written [] rfl hopening hclosing hwritable hrest rfl
    exact tokenize_eq_ok_iff.mpr ⟨hfault, hread.symm⟩
  have hbuild : Tree.ofItems registry name (untrimmed (onLines [] {} (tokensAll segments))) =
      .ok (placedAll [] segments) := by
    rw [Tree.ofItems, htree]
    rfl
  simp only [compile, htokens, bind, Except.bind, itemsOf, Bool.false_eq_true, if_false]
  rw [untrimmed] at hbuild
  rw [hbuild]
  rfl

def letterIf : HelperTag :=
  ⟨"if", [.name "a", .literal (.number (.signed (-7)))], [("logic", .literal (.string "or"))], true,
    3⟩

def letterUnless : HelperTag :=
  ⟨"unless", [.name "x"], [("else", .literal (.string "\"none\" left"))], false, 4⟩

def letterSegments : List Segment :=
  [.text "Dear ", .output "user name" false 1, .text ",\n\n", .comment,
    .block "items" false [.output "else" true 3, .inclusion "row" "" 3] 3,
    .invocation ⟨0, "if", ifHelper⟩ letterIf [.text "yes\n"]
      (some [.block "b" true [.text "no"] 4]),
    .invocation ⟨0, "unless", unlessHelper⟩ letterUnless [] none]

def letterSource : String :=
  "Dear \x7b\x7b&user name\x7d\x7d,\n\n\x7b\x7b!\x7d\x7d" ++
    "\x7b\x7b#items\x7d\x7d\x7b\x7belse\x7d\x7d\x7b\x7b>row\x7d\x7d\x7b\x7b/items\x7d\x7d" ++
    "\x7b\x7b#if a -7 logic=\"or\"\x7d\x7dyes\n\x7b\x7belse\x7d\x7d" ++
    "\x7b\x7b^b\x7d\x7dno\x7b\x7b/b\x7d\x7d\x7b\x7b/if\x7d\x7d" ++
    "\x7b\x7bunless x else='\"none\" left'\x7d\x7d"

theorem printable_letterIf : letterIf.Printable .builtin ⟨0, "if", ifHelper⟩ := by
  have hname : Argument.IsBareName "a" :=
    ⟨by decide, Argument.isPlain_of_all rfl, by decide, by decide, rfl⟩
  have hquoted : Argument.Expressible (.literal (.string "or")) :=
    ⟨'"', rfl, Argument.isWord_between rfl (by decide)⟩
  have hkey : Argument.IsKey "logic" :=
    ⟨by decide, Argument.isPlain_of_all rfl, by decide⟩
  refine ⟨⟨by decide, Argument.isPlain_of_all rfl, ?_, ?_, ?_, ?_⟩, by decide,
    by simp [letterIf, sigils], by decide, rfl, rfl⟩
  · simp [letterIf, hname, Argument.Expressible]
  · simpa [letterIf] using hkey
  · simpa [letterIf] using hquoted
  · exact List.pairwise_singleton _ _

theorem printable_letterUnless :
    letterUnless.Printable .builtin ⟨0, "unless", unlessHelper⟩ := by
  have hname : Argument.IsBareName "x" :=
    ⟨by decide, Argument.isPlain_of_all rfl, by decide, by decide, rfl⟩
  have hquoted : Argument.Expressible (.literal (.string "\"none\" left")) :=
    ⟨'\'', rfl, Argument.isWord_between rfl (by decide)⟩
  have hkey : Argument.IsKey "else" :=
    ⟨by decide, Argument.isPlain_of_all rfl, by decide⟩
  refine ⟨⟨by decide, Argument.isPlain_of_all rfl, ?_, ?_, ?_, ?_⟩, by decide,
    by simp [letterUnless, sigils], by decide, rfl, rfl⟩
  · simp [letterUnless, hname, Argument.Expressible]
  · simpa [letterUnless] using hkey
  · simpa [letterUnless] using hquoted
  · exact List.pairwise_singleton _ _

theorem compile_printed_letter :
    AllPrintable .builtin false [] letterSegments ∧
      compile ⟨{}, .builtin, false⟩ "letter" letterSource = .ok ⟨"letter", letterSegments⟩ := by
  have htext {inHelper : Bool} {before : List Char} {text : String}
      (h : text ≠ "" ∧ '\x7b' ∉ text.toList) :
      Segment.Printable .builtin inHelper before (.text text) := h
  have h : AllPrintable .builtin false [] letterSegments := by
    refine ⟨htext (by decide), by decide, ⟨by decide, rfl, by decide⟩, by decide,
      htext (by decide), by decide, trivial, by decide, ⟨by decide, fun _ => rfl, ?_⟩, by decide,
      ?_, by decide, ?_, by decide, trivial⟩
    · exact ⟨⟨by decide, rfl, fun _ => ⟨by simp [sigils], by decide⟩⟩, by decide,
        ⟨by decide, rfl⟩, by decide, trivial⟩
    · exact ⟨printable_letterIf, rfl, ⟨htext (by decide), by decide, trivial⟩,
        ⟨by decide, by decide, ⟨htext (by decide), by decide, trivial⟩⟩, by decide, trivial⟩
    · exact ⟨printable_letterUnless, rfl⟩
  have hprinted : String.ofList (printedAll letterSegments) = letterSource := by decide +kernel
  have hcompile := (compile_printed h "letter").1
  rw [hprinted] at hcompile
  exact ⟨h, hcompile⟩

end Stencil
