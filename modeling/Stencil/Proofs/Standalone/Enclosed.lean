import Stencil.Proofs.Standalone.Lines

/-! Tokens that stand between the tags of one block. Trimming makes the same items of them whether
the block is a section or calls a helper. -/

namespace Stencil

/-- Tags that end the part of a block in which they stand: closing ones and `else`. -/
def Token.endsPart : Token → Bool
  | .tag .closing _ _ => true
  | .tag .escaped content _ => content == "else"
  | _ => false

inductive Token.OpensBlock : Token → Prop where
  | opening (content : String) (line : Nat) : OpensBlock (.tag .opening content line)
  | inverted (content : String) (line : Nat) : OpensBlock (.tag .inverted content line)

/-- Tokens that end no part of a block around them, where `kinds` are blocks that were opened inside
of it. -/
def StaysInside (registry : Registry) : OpenKinds → List Token → Prop
  | _, [] => True
  | kinds, token :: later =>
    (kinds = [] → token.endsPart = false) ∧
      StaysInside registry (kinds.after registry token) later

instance StaysInside.decidable (registry : Registry) : (kinds : OpenKinds) → (tokens : List Token) →
    Decidable (StaysInside registry kinds tokens)
  | _, [] => inferInstanceAs (Decidable True)
  | kinds, token :: later =>
    have := StaysInside.decidable registry (kinds.after registry token) later
    inferInstanceAs (Decidable (_ ∧ _))

/-- Tokens that can stand in a block as one part of it: they close the blocks that they open and no
others, and no `else` stands outside of these. -/
structure Enclosed (registry : Registry) (tokens : List Token) : Prop where
  inside : StaysInside registry [] tokens
  closed : tokens.foldl (OpenKinds.after registry) [] = []

variable {registry : Registry}

theorem Token.endsPart_of_literal {token : Token} (h : token.isLiteral = true) :
    token.endsPart = false := by
  cases token with
  | literal text line => rfl
  | tag kind content line => contradiction
  | delimiterChange opening closing line => contradiction

theorem isElse_of_not_endsPart {kind : TagKind} {content : String} {line : Nat}
    (h : (Token.tag kind content line).endsPart = false) (inHelper : Bool) :
    isElse kind content inHelper = false := by
  cases kind with
  | escaped =>
    have helse : (content == "else") = false := h
    rw [isElse, helse, Bool.and_false]
  | _ => cases inHelper <;> rfl

theorem staysInside_append (kinds : OpenKinds) (tokens later : List Token) :
    StaysInside registry kinds (tokens ++ later) ↔
      StaysInside registry kinds tokens ∧
        StaysInside registry (tokens.foldl (OpenKinds.after registry) kinds) later := by
  induction tokens generalizing kinds with
  | nil => simp [StaysInside]
  | cons token tokens ih => simp [StaysInside, ih, and_assoc]

theorem staysInside_nonLiterals (kinds : OpenKinds) (tokens : List Token) :
    StaysInside registry kinds (nonLiterals tokens) ↔ StaysInside registry kinds tokens := by
  induction tokens generalizing kinds with
  | nil => rfl
  | cons token later ih =>
    cases h : token.isLiteral with
    | true =>
      have hsame := OpenKinds.after_literal registry kinds h
      have hends := Token.endsPart_of_literal h
      simpa [nonLiterals, h, StaysInside, hsame, hends] using ih kinds
    | false => simpa [nonLiterals, h, StaysInside] using fun _ => ih (kinds.after registry token)

/-! ### The open blocks -/

section Above

variable {kinds : OpenKinds} {token : Token} (h : kinds = [] → token.endsPart = false)

include h

theorem OpenKinds.after_above (outer : OpenKinds) :
    OpenKinds.after registry (kinds ++ outer) token = kinds.after registry token ++ outer := by
  cases token with
  | literal text line => rfl
  | delimiterChange opening closing line => rfl
  | tag kind content line =>
    cases kind with
    | closing =>
      obtain ⟨first, later, rfl⟩ := List.exists_cons_of_ne_nil fun hnil => Bool.noConfusion (h hnil)
      rfl
    | _ => rfl

/-- The blocks around a part do not matter for its tokens. -/
theorem Token.mayStandAlone_above (outer other : OpenKinds) :
    token.mayStandAlone (kinds.after registry token ++ outer) =
      token.mayStandAlone (kinds.after registry token ++ other) := by
  cases token with
  | literal text line => rfl
  | delimiterChange opening closing line => rfl
  | tag kind content line =>
    by_cases hends : (Token.tag kind content line).endsPart = false
    · rw [mayStandAlone, mayStandAlone, isElse_of_not_endsPart hends,
        isElse_of_not_endsPart hends]
    · obtain ⟨first, later, rfl⟩ := List.exists_cons_of_ne_nil fun hnil => hends (h hnil)
      cases kind with
      | escaped => rfl
      | _ => simp [mayStandAlone, TagKind.isBlock, endsPart] at hends ⊢

end Above

theorem StaysInside.foldl_above {kinds : OpenKinds} {tokens : List Token}
    (h : StaysInside registry kinds tokens) (outer : OpenKinds) :
    tokens.foldl (OpenKinds.after registry) (kinds ++ outer) =
      tokens.foldl (OpenKinds.after registry) kinds ++ outer := by
  induction tokens generalizing kinds with
  | nil => rfl
  | cons token later ih =>
    obtain ⟨htoken, hlater⟩ := h
    rw [List.foldl_cons, List.foldl_cons, OpenKinds.after_above htoken, ih hlater]

theorem StaysInside.allMayStandAlone_above {kinds : OpenKinds} {line : List Token}
    (h : StaysInside registry kinds line) (outer other : OpenKinds) :
    (allMayStandAlone registry (kinds ++ outer) line).1 =
      (allMayStandAlone registry (kinds ++ other) line).1 := by
  induction line generalizing kinds with
  | nil => rfl
  | cons token later ih =>
    obtain ⟨htoken, hlater⟩ := h
    simp only [allMayStandAlone, OpenKinds.after_above htoken, ih hlater,
      Token.mayStandAlone_above htoken outer other]

theorem StaysInside.standaloneItems_above {kinds : OpenKinds} {lines : List (List Token)}
    (h : StaysInside registry kinds lines.flatten) (outer other : OpenKinds) :
    standaloneItems registry (kinds ++ outer) lines =
      standaloneItems registry (kinds ++ other) lines := by
  induction lines generalizing kinds with
  | nil => rfl
  | cons line later ih =>
    rw [List.flatten_cons, staysInside_append] at h
    simp only [standaloneItems_cons, allMayStandAlone_snd, h.1.foldl_above, ih h.2,
      h.1.allMayStandAlone_above outer other]

/-! ### Lines -/

/-- A tag behind some tokens stands at the end of the last of their lines. -/
theorem tokenLines_append_tag (tokens : List Token) :
    ∃ earlier front, tokens = earlier.flatten ++ front ∧
      ∀ kind content line, tokenLines (tokens ++ [.tag kind content line]) =
        earlier ++ [front ++ [.tag kind content line]] := by
  induction tokens with
  | nil => exact ⟨[], [], rfl, fun _ _ _ => rfl⟩
  | cons token later ih =>
    obtain ⟨earlier, front, rfl, hlines⟩ := ih
    cases hends : token.endsLine with
    | true =>
      refine ⟨[token] :: earlier, front, rfl, fun kind content line => ?_⟩
      rw [List.cons_append, tokenLines, hlines, if_pos hends]
      rfl
    | false =>
      rcases earlier with _ | ⟨first, earlier⟩
      · refine ⟨[], token :: front, rfl, fun kind content line => ?_⟩
        rw [List.cons_append, tokenLines, hlines]
        simp [hends]
      · refine ⟨(token :: first) :: earlier, front, rfl, fun kind content line => ?_⟩
        rw [List.cons_append, tokenLines, hlines]
        simp [hends]

def partItems (standsAlone : Bool) (indent : String) (part : List Token) : List Item :=
  if standsAlone then (nonLiterals part).map (.ofStandalone indent)
  else part.map fun token => ⟨token, ""⟩

theorem lineItems_opening {opening : Token} (h : opening.OpensBlock) (standsAlone : Bool)
    (later : List Token) :
    lineItems standsAlone (opening :: later) =
      ⟨opening, ""⟩ :: partItems standsAlone "" later := by
  cases h <;> cases standsAlone <;> simp [lineItems, partItems, Token.isLiteral, nonLiterals,
    lineIndent, Item.ofStandalone]

theorem partItems_closing (standsAlone : Bool) (indent : String) (front : List Token)
    (content : String) (line : Nat) :
    partItems standsAlone indent (front ++ [.tag .closing content line]) =
      partItems standsAlone indent front ++ [⟨.tag .closing content line, ""⟩] := by
  cases standsAlone <;> simp [partItems, Token.isLiteral, nonLiterals, Item.ofStandalone]

theorem lineItems_closing (standsAlone : Bool) (front : List Token) (content : String)
    (line : Nat) :
    lineItems standsAlone (front ++ [.tag .closing content line]) =
      partItems standsAlone (lineIndent front) front ++ [⟨.tag .closing content line, ""⟩] := by
  have hindent : lineIndent (front ++ [.tag .closing content line]) = lineIndent front := by
    rcases front with _ | ⟨first, later⟩
    · rfl
    · cases first <;> rfl
  rw [← partItems_closing]
  cases standsAlone <;> simp [lineItems, partItems, Token.isLiteral, nonLiterals, hindent]

theorem allMayStandAlone_opening {opening : Token} (h : opening.OpensBlock) (kinds : OpenKinds)
    (later : List Token) :
    allMayStandAlone registry kinds (opening :: later) =
      allMayStandAlone registry (kinds.after registry opening) later := by
  cases h <;> rfl

theorem allMayStandAlone_closing (kinds : OpenKinds) (front : List Token) (content : String)
    (line : Nat) :
    (allMayStandAlone registry kinds (front ++ [.tag .closing content line])).1 =
      (allMayStandAlone registry kinds front).1 := by
  rw [allMayStandAlone_append]
  exact Bool.and_true _

/-- The items between the tags of a block, which stand in front of a line and at the end of a later
one. -/
def linesItems (registry : Registry) (first : List Token) (earlier : List (List Token))
    (front : List Token) : List Item :=
  let behindFirst := first.foldl (OpenKinds.after registry) []
  let behind := earlier.flatten.foldl (OpenKinds.after registry) behindFirst
  partItems (allMayStandAlone registry [true] first).1 "" first ++
    (standaloneItems registry (behindFirst ++ [true]) earlier ++
      partItems (allMayStandAlone registry (behind ++ [true]) front).1 (lineIndent front) front)

section Block

variable {opening : Token} (hopening : opening.OpensBlock) (closing : String) (closeLine : Nat)

include hopening

/-- Both tags of a block stand on one line. -/
theorem StaysInside.items_line {front : List Token} (h : StaysInside registry [] front) :
    standaloneItems registry [] [opening :: (front ++ [.tag .closing closing closeLine])] =
      ⟨opening, ""⟩ :: partItems (allMayStandAlone registry [true] front).1 "" front ++
        [⟨.tag .closing closing closeLine, ""⟩] := by
  have hflag : (allMayStandAlone registry (OpenKinds.after registry [] opening) front).1 =
      (allMayStandAlone registry [true] front).1 := h.allMayStandAlone_above _ [true]
  simp only [standaloneItems, allMayStandAlone_opening hopening, allMayStandAlone_closing,
    lineItems_opening hopening, partItems_closing, hflag, List.append_nil, List.cons_append]

/-- The tags of a block stand at the start and at the end of several lines. -/
theorem StaysInside.items_lines {first front : List Token} {earlier : List (List Token)}
    (h : StaysInside registry [] (first ++ (earlier.flatten ++ front))) :
    standaloneItems registry [] ((opening :: first) ::
        (earlier ++ [front ++ [.tag .closing closing closeLine]])) =
      ⟨opening, ""⟩ :: linesItems registry first earlier front ++
        [⟨.tag .closing closing closeLine, ""⟩] := by
  let behindFirst := first.foldl (OpenKinds.after registry) []
  let behind := earlier.flatten.foldl (OpenKinds.after registry) behindFirst
  rw [staysInside_append, staysInside_append] at h
  obtain ⟨hfirst, hearlier, hfront⟩ := h
  let outer := OpenKinds.after registry [] opening
  have hbehindFirst : first.foldl (OpenKinds.after registry) outer = behindFirst ++ outer :=
    hfirst.foldl_above outer
  have hbehind : earlier.flatten.foldl (OpenKinds.after registry) (behindFirst ++ outer) =
      behind ++ outer := hearlier.foldl_above outer
  have hflagFirst : (allMayStandAlone registry outer first).1 =
      (allMayStandAlone registry [true] first).1 := hfirst.allMayStandAlone_above outer [true]
  have hmiddle : standaloneItems registry (behindFirst ++ outer) earlier =
      standaloneItems registry (behindFirst ++ [true]) earlier :=
    hearlier.standaloneItems_above outer [true]
  have hflag : (allMayStandAlone registry (behind ++ outer) front).1 =
      (allMayStandAlone registry (behind ++ [true]) front).1 :=
    hfront.allMayStandAlone_above outer [true]
  simp only [outer] at hbehindFirst hbehind hflagFirst hmiddle hflag
  simp only [linesItems, standaloneItems, standaloneItems_append,
    allMayStandAlone_opening hopening, allMayStandAlone_snd, behindLines_eq,
    lineItems_opening hopening, allMayStandAlone_closing,
    lineItems_closing, List.append_nil, hbehindFirst, hbehind, hflagFirst, hmiddle, hflag,
    List.append_assoc, List.cons_append]
  rfl

end Block

/-- Between the tags of a block trimming makes the same items of the same tokens, whatever the block
is. -/
theorem Enclosed.exists_items {inner : List Token} (h : Enclosed registry inner)
    (trimLines : Bool) :
    ∃ items, nonLiterals (Item.tokens items) = nonLiterals inner ∧
      ∀ opening : Token, opening.OpensBlock → ∀ closing closeLine,
        itemsOf registry trimLines (opening :: (inner ++ [.tag .closing closing closeLine])) =
          ⟨opening, ""⟩ :: items ++ [⟨.tag .closing closing closeLine, ""⟩] := by
  suffices hsuffices : ∃ items, ∀ opening : Token, opening.OpensBlock → ∀ closing closeLine,
      itemsOf registry trimLines (opening :: (inner ++ [.tag .closing closing closeLine])) =
        ⟨opening, ""⟩ :: items ++ [⟨.tag .closing closing closeLine, ""⟩] by
    obtain ⟨items, hitems⟩ := hsuffices
    refine ⟨items, ?_, hitems⟩
    have htokens := nonLiterals_itemsOf registry trimLines
      (.tag .opening "" 0 :: (inner ++ [.tag .closing "" 0]))
    rw [hitems _ (.opening "" 0)] at htokens
    simpa [Item.tokens, nonLiterals, Token.isLiteral] using htokens
  cases trimLines with
  | false =>
    exact ⟨inner.map fun token => ⟨token, ""⟩, fun opening _ closing closeLine => by
      simp [itemsOf]⟩
  | true =>
    obtain ⟨earlier, front, rfl, hlines⟩ := tokenLines_append_tag inner
    rcases earlier with _ | ⟨first, earlier⟩
    · refine ⟨partItems (allMayStandAlone registry [true] front).1 "" front, ?_⟩
      intro opening hopening closing closeLine
      have hends : opening.endsLine = false := by cases hopening <;> rfl
      rw [itemsOf, if_pos rfl, tokenLines, hlines, hends]
      exact StaysInside.items_line hopening closing closeLine h.inside
    · have hinside := h.inside
      rw [List.flatten_cons, List.append_assoc] at hinside
      refine ⟨linesItems registry first earlier front, ?_⟩
      intro opening hopening closing closeLine
      have hends : opening.endsLine = false := by cases hopening <;> rfl
      rw [itemsOf, if_pos rfl, tokenLines, hlines, hends]
      exact StaysInside.items_lines hopening closing closeLine hinside

end Stencil
