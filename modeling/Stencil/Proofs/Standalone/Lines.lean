import Stencil.Standalone

/-! The lines of a token sequence, and the items that trimming makes of them. -/

namespace Stencil

/-- Tokens cut into lines: each ends with the first of its tokens that ends a line, and the last one
may lack such a token. -/
inductive IsLines : List Token → List (List Token) → Prop where
  | nil : IsLines [] []
  | unended {line : List Token} (hne : line ≠ [])
      (hinside : ∀ token ∈ line, token.endsLine = false) : IsLines line [line]
  | cons {body tokens : List Token} {stop : Token} {lines : List (List Token)}
      (hinside : ∀ token ∈ body, token.endsLine = false) (hstop : stop.endsLine = true)
      (later : IsLines tokens lines) :
    IsLines (body ++ stop :: tokens) ((body ++ [stop]) :: lines)

theorem tokenLines_of_unended {line : List Token} (hne : line ≠ [])
    (hinside : ∀ token ∈ line, token.endsLine = false) : tokenLines line = [line] := by
  induction line with
  | nil => contradiction
  | cons token later ih =>
    have htoken : token.endsLine = false := hinside token (by simp)
    rcases later with _ | ⟨next, later⟩
    · simp [tokenLines, htoken]
    · have hlater := ih (by simp) fun t ht => hinside t (by simp [ht])
      rw [tokenLines, hlater]
      simp [htoken]

theorem tokenLines_append_stop {body : List Token} {stop : Token}
    (hinside : ∀ token ∈ body, token.endsLine = false) (hstop : stop.endsLine = true)
    (tokens : List Token) :
    tokenLines (body ++ stop :: tokens) = (body ++ [stop]) :: tokenLines tokens := by
  induction body with
  | nil => simp [tokenLines, hstop]
  | cons token body ih =>
    have htoken : token.endsLine = false := hinside token (by simp)
    have hbody := ih fun t ht => hinside t (by simp [ht])
    rw [List.cons_append, tokenLines, hbody]
    simp [htoken]

/-- Tokens can be cut into lines in one way only. -/
theorem IsLines.eq_tokenLines {tokens : List Token} {lines : List (List Token)}
    (h : IsLines tokens lines) : lines = tokenLines tokens := by
  induction h with
  | nil => rfl
  | unended hne hinside => exact (tokenLines_of_unended hne hinside).symm
  | cons hinside hstop later ih => rw [tokenLines_append_stop hinside hstop, ih]

theorem IsLines.cons_token {token : Token} (htoken : token.endsLine = false)
    {later line : List Token} {lines : List (List Token)} (h : IsLines later (line :: lines)) :
    IsLines (token :: later) ((token :: line) :: lines) := by
  cases h with
  | unended hne hinside => exact .unended (by simp) (by simpa [htoken] using hinside)
  | @cons body _ _ _ hinside hstop later =>
    have hbody : ∀ t ∈ token :: body, t.endsLine = false := by simpa [htoken] using hinside
    have hlines := IsLines.cons hbody hstop later
    exact hlines

theorem isLines_tokenLines (tokens : List Token) : IsLines tokens (tokenLines tokens) := by
  induction tokens with
  | nil => exact .nil
  | cons token later ih =>
    unfold tokenLines
    split
    · rename_i hends
      have hbody : ∀ t ∈ ([] : List Token), t.endsLine = false := by simp
      have hlines := IsLines.cons hbody hends ih
      exact hlines
    · rename_i hends
      simp only [Bool.not_eq_true] at hends
      split
      · rename_i hnone
        rw [hnone] at ih
        cases ih
        exact .unended (by simp) (by simpa using hends)
      · rename_i line lines hlines
        rw [hlines] at ih
        exact ih.cons_token hends

theorem IsLines.flatten_eq {tokens : List Token} {lines : List (List Token)}
    (h : IsLines tokens lines) : lines.flatten = tokens := by
  induction h with
  | nil => rfl
  | unended hne hinside => simp
  | cons hinside hstop later ih => simp [ih]

def nonLiterals (tokens : List Token) : List Token := tokens.filter fun token => !token.isLiteral

def Item.tokens (items : List Item) : List Token := items.map Item.token

theorem nonLiterals_append (tokens later : List Token) :
    nonLiterals (tokens ++ later) = nonLiterals tokens ++ nonLiterals later := List.filter_append ..

theorem nonLiterals_nonLiterals (tokens : List Token) :
    nonLiterals (nonLiterals tokens) = nonLiterals tokens := by
  simp [nonLiterals]

theorem OpenKinds.after_literal (registry : Registry) (kinds : OpenKinds) {token : Token}
    (h : token.isLiteral = true) : kinds.after registry token = kinds := by
  cases token with
  | literal text line => rfl
  | tag kind content line => contradiction
  | delimiterChange opening closing line => contradiction

theorem OpenKinds.foldl_after_nonLiterals (registry : Registry) (kinds : OpenKinds)
    (tokens : List Token) :
    (nonLiterals tokens).foldl (OpenKinds.after registry) kinds =
      tokens.foldl (OpenKinds.after registry) kinds := by
  induction tokens generalizing kinds with
  | nil => rfl
  | cons token later ih =>
    cases h : token.isLiteral with
    | true =>
      have hsame := OpenKinds.after_literal registry kinds h
      simpa [nonLiterals, h, hsame] using ih kinds
    | false => simpa [nonLiterals, h] using ih (kinds.after registry token)

/-- Reading a line changes the open blocks by its tokens, one after the other. -/
theorem allMayStandAlone_snd (registry : Registry) (kinds : OpenKinds) (line : List Token) :
    (allMayStandAlone registry kinds line).2 = line.foldl (OpenKinds.after registry) kinds := by
  induction line generalizing kinds with
  | nil => rfl
  | cons token later ih => exact ih _

def behindLines (registry : Registry) (lines : List (List Token)) (kinds : OpenKinds) : OpenKinds :=
  lines.foldl (fun kinds line => (allMayStandAlone registry kinds line).2) kinds

theorem behindLines_eq (registry : Registry) (lines : List (List Token)) (kinds : OpenKinds) :
    behindLines registry lines kinds = lines.flatten.foldl (OpenKinds.after registry) kinds := by
  simp only [behindLines, List.foldl_flatten, allMayStandAlone_snd]

theorem standaloneItems_cons (registry : Registry) (kinds : OpenKinds) (line : List Token)
    (later : List (List Token)) :
    standaloneItems registry kinds (line :: later) =
      lineItems (allMayStandAlone registry kinds line).1 line ++
        standaloneItems registry (allMayStandAlone registry kinds line).2 later := rfl

theorem standaloneItems_append (registry : Registry) (kinds : OpenKinds)
    (lines later : List (List Token)) :
    standaloneItems registry kinds (lines ++ later) =
      standaloneItems registry kinds lines ++
        standaloneItems registry (behindLines registry lines kinds) later := by
  induction lines generalizing kinds with
  | nil => rfl
  | cons line lines ih =>
    simp only [List.cons_append, standaloneItems_cons, ih, List.append_assoc]
    rfl

theorem tokens_ofStandalone (indent : String) (token : Token) :
    (Item.ofStandalone indent token).token = token := by
  unfold Item.ofStandalone
  split <;> rfl

theorem nonLiterals_lineItems (standsAlone : Bool) (line : List Token) :
    nonLiterals (Item.tokens (lineItems standsAlone line)) = nonLiterals line := by
  unfold lineItems
  split
  · simp [Item.tokens, Function.comp_def, tokens_ofStandalone, nonLiterals]
  · simp [Item.tokens, Function.comp_def]

theorem nonLiterals_standaloneItems (registry : Registry) (kinds : OpenKinds)
    (lines : List (List Token)) :
    nonLiterals (Item.tokens (standaloneItems registry kinds lines)) =
      nonLiterals lines.flatten := by
  induction lines generalizing kinds with
  | nil => rfl
  | cons line later ih =>
    rw [standaloneItems_cons, Item.tokens, List.map_append, nonLiterals_append, List.flatten_cons,
      nonLiterals_append]
    congr 1
    · exact nonLiterals_lineItems _ line
    · exact ih _

theorem mem_of_mem_lineItems {standsAlone : Bool} {line : List Token} {item : Item}
    (h : item ∈ lineItems standsAlone line) : item.token ∈ line := by
  unfold lineItems at h
  split at h
  · obtain ⟨token, hmem, rfl⟩ := List.mem_map.mp h
    rw [tokens_ofStandalone]
    exact (List.mem_filter.mp hmem).1
  · obtain ⟨token, hmem, rfl⟩ := List.mem_map.mp h
    exact hmem

theorem mem_of_mem_standaloneItems {registry : Registry} {kinds : OpenKinds}
    {lines : List (List Token)} {item : Item} (h : item ∈ standaloneItems registry kinds lines) :
    item.token ∈ lines.flatten := by
  induction lines generalizing kinds with
  | nil => simp [standaloneItems] at h
  | cons line later ih =>
    rw [standaloneItems_cons] at h
    rw [List.flatten_cons]
    rcases List.mem_append.mp h with hline | hlater
    · exact List.mem_append_left _ (mem_of_mem_lineItems hline)
    · exact List.mem_append_right _ (ih hlater)

/-- The items are made of the tokens, whether lines are trimmed or not. -/
theorem mem_of_mem_itemsOf {registry : Registry} {trimLines : Bool} {tokens : List Token}
    {item : Item} (h : item ∈ itemsOf registry trimLines tokens) : item.token ∈ tokens := by
  unfold itemsOf at h
  split at h
  · rw [← (isLines_tokenLines tokens).flatten_eq]
    exact mem_of_mem_standaloneItems h
  · obtain ⟨token, hmem, rfl⟩ := List.mem_map.mp h
    exact hmem

theorem nonLiterals_itemsOf (registry : Registry) (trimLines : Bool) (tokens : List Token) :
    nonLiterals (Item.tokens (itemsOf registry trimLines tokens)) = nonLiterals tokens := by
  unfold itemsOf
  split
  · rw [nonLiterals_standaloneItems, (isLines_tokenLines tokens).flatten_eq]
  · simp [Item.tokens, Function.comp_def]

/-- A tag of a line is one of its items, behind those of the tags in front of it. -/
theorem lineItems_split (standsAlone : Bool) (front : List Token) {tag : Token}
    (htag : tag.isLiteral = false) (back : List Token) :
    ∃ items indent later, lineItems standsAlone (front ++ tag :: back) =
        items ++ ⟨tag, indent⟩ :: later ∧
      nonLiterals (Item.tokens items) = nonLiterals front := by
  unfold lineItems
  split
  · let indent := lineIndent (front ++ tag :: back)
    have htoken : Item.ofStandalone indent tag = ⟨tag, (Item.ofStandalone indent tag).indent⟩ := by
      unfold Item.ofStandalone
      split <;> rfl
    refine ⟨(nonLiterals front).map (.ofStandalone indent), (Item.ofStandalone indent tag).indent,
      (nonLiterals back).map (.ofStandalone indent), ?_, ?_⟩
    · rw [← htoken]
      simp [indent, nonLiterals, htag]
    · simp [Item.tokens, Function.comp_def, tokens_ofStandalone, nonLiterals_nonLiterals]
  · refine ⟨front.map fun token => ⟨token, ""⟩, "", back.map fun token => ⟨token, ""⟩, ?_, ?_⟩
    · simp
    · simp [Item.tokens, Function.comp_def]

theorem itemsOf_split {registry : Registry} {tokens front back : List Token}
    {earlier later : List (List Token)} {tag : Token}
    (h : tokenLines tokens = earlier ++ (front ++ tag :: back) :: later)
    (htag : tag.isLiteral = false) :
    ∃ items indent further, itemsOf registry true tokens = items ++ ⟨tag, indent⟩ :: further ∧
      nonLiterals (Item.tokens items) = nonLiterals (earlier.flatten ++ front) := by
  let read := allMayStandAlone registry (behindLines registry earlier []) (front ++ tag :: back)
  obtain ⟨items, indent, rest, hline, hfront⟩ := lineItems_split read.1 front htag back
  refine ⟨standaloneItems registry [] earlier ++ items, indent,
    rest ++ standaloneItems registry read.2 later, ?_, ?_⟩
  · rw [itemsOf, if_pos rfl, h, standaloneItems_append, standaloneItems_cons, hline]
    simp only [List.append_assoc, List.cons_append, read]
  · rw [Item.tokens, List.map_append, nonLiterals_append, nonLiterals_append]
    congr 1
    exact nonLiterals_standaloneItems registry [] earlier

theorem allMayStandAlone_append (registry : Registry) (kinds : OpenKinds)
    (front back : List Token) :
    (allMayStandAlone registry kinds (front ++ back)).1 =
      ((allMayStandAlone registry kinds front).1 &&
        (allMayStandAlone registry (allMayStandAlone registry kinds front).2 back).1) := by
  induction front generalizing kinds with
  | nil => simp [allMayStandAlone]
  | cons token front ih => simp [allMayStandAlone, ih, Bool.and_assoc]

end Stencil
