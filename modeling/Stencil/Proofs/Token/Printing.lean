import Stencil.Proofs.Token.Reads
import Stencil.Standalone

/-! Tokens written out as source text. Lexing what was written gives the tokens back, each on the
line on which it was written, whatever the delimiters are and however they change on the way. -/

namespace Stencil

open Text (newlines newlines_append)

def TagKind.sigil : TagKind → List Char
  | .escaped => []
  | .unescaped => ['&']
  | .opening => ['#']
  | .inverted => ['^']
  | .closing => ['/']
  | .inclusion => ['>']
  | .comment => ['!']

def sigils : List Char := ['#', '^', '/', '>', '!', '&', '\x7b', '=']

namespace Token

def written (delimiters : Delimiters) : Token → List Char
  | .literal text _ => text.toList
  | .tag kind content _ =>
    delimiters.opening.toList ++ (kind.sigil ++ content.toList ++ delimiters.closing.toList)
  | .delimiterChange opening closing _ =>
    delimiters.opening.toList ++ ('=' :: (opening.toList ++ [' '] ++ closing.toList) ++ ['='] ++
      delimiters.closing.toList)

def delimitersBehind (delimiters : Delimiters) : Token → Delimiters
  | .literal .. => delimiters
  | .tag .. => delimiters
  | .delimiterChange opening closing _ => ⟨opening, closing⟩

def onLine (line : Nat) : Token → Token
  | .literal text _ => .literal text line
  | .tag kind content _ => .tag kind content line
  | .delimiterChange opening closing _ => .delimiterChange opening closing line

/-- A token that can be told from what is written around it, where `later` are the tokens behind. -/
def Writable (delimiters : Delimiters) (later : List Token) : Token → Prop
  | .literal text _ =>
    text ≠ "" ∧ '\n' ∉ text.toList.dropLast ∧
      (∀ c ∈ delimiters.opening.toList.head?, c ∉ text.toList) ∧
      (later.head?.any isLiteral → text.toList.getLast? = some '\n')
  | .tag kind content _ =>
    Text.trim content.toList = content.toList ∧
      (∀ c ∈ delimiters.closing.toList.head?, c ∉ content.toList) ∧
      (content = "" → kind = .comment) ∧
      (kind = .escaped → ∀ c ∈ content.toList.head?, c ∉ sigils)
  | .delimiterChange opening closing _ => IsDelimiter opening ∧ IsDelimiter closing

end Token

/-- Tokens as source text, where tags of the first of them stand between some delimiters. -/
def written : Delimiters → List Token → List Char
  | _, [] => []
  | delimiters, token :: later =>
    token.written delimiters ++ written (token.delimitersBehind delimiters) later

def Writable : Delimiters → List Token → Prop
  | _, [] => True
  | delimiters, token :: later =>
    token.Writable delimiters later ∧ Writable (token.delimitersBehind delimiters) later

/-- The tokens on the lines on which they are written, behind a text that was written before. -/
def onLines (before : List Char) : Delimiters → List Token → List Token
  | _, [] => []
  | delimiters, token :: later =>
    token.onLine (1 + newlines before) ::
      onLines (before ++ token.written delimiters) (token.delimitersBehind delimiters) later

instance (text : String) : Decidable (IsDelimiter text) :=
  have : Decidable (∀ c ∈ text.toList, Text.isBlank c = false) := List.decidableBAll _ _
  inferInstanceAs (Decidable ((text.toList ≠ [] ∧ _) ∧ '=' ∉ text.toList))

instance (delimiters : Delimiters) (later : List Token) :
    DecidablePred (Token.Writable delimiters later) := fun token =>
  have (first : Option Char) (text : List Char) : Decidable (∀ c ∈ first, c ∉ text) :=
    Option.decidableForallMem _
  match token with
  | .literal .. => inferInstanceAs (Decidable (_ ∧ _))
  | .tag .. => inferInstanceAs (Decidable (_ ∧ _))
  | .delimiterChange .. => inferInstanceAs (Decidable (_ ∧ _))

instance Writable.decidable : (delimiters : Delimiters) → (tokens : List Token) →
    Decidable (Writable delimiters tokens)
  | _, [] => inferInstanceAs (Decidable True)
  | delimiters, token :: later =>
    have := Writable.decidable (token.delimitersBehind delimiters) later
    inferInstanceAs (Decidable (_ ∧ _))

theorem IsDelimiter.ne_nil {text : String} (h : IsDelimiter text) : text.toList ≠ [] := h.1.1

theorem Token.Writable.delimitersBehind {delimiters : Delimiters} {later : List Token}
    {token : Token} (h : token.Writable delimiters later)
    (hopening : IsDelimiter delimiters.opening) (hclosing : IsDelimiter delimiters.closing) :
    IsDelimiter (token.delimitersBehind delimiters).opening ∧
      IsDelimiter (token.delimitersBehind delimiters).closing := by
  cases token with
  | literal text line => exact ⟨hopening, hclosing⟩
  | tag kind content line => exact ⟨hopening, hclosing⟩
  | delimiterChange opening closing line => exact h

theorem Token.written_ne_nil {delimiters : Delimiters} {later : List Token} {token : Token}
    (h : token.Writable delimiters later) (hopening : IsDelimiter delimiters.opening) :
    token.written delimiters ≠ [] := by
  cases token with
  | literal text line => simpa [written] using h.1
  | tag kind content line => simp [written, hopening.ne_nil]
  | delimiterChange opening closing line => simp [written, hopening.ne_nil]

/-- Behind a literal that no newline ends, a tag is written or nothing at all. -/
theorem written_eq_nil_or_opens {delimiters : Delimiters} {later : List Token}
    (h : later.head?.any Token.isLiteral = false) :
    written delimiters later = [] ∨ delimiters.opening.toList <+: written delimiters later := by
  rcases later with _ | ⟨token, later⟩
  · exact .inl rfl
  · right
    cases token with
    | literal text line => simp [Token.isLiteral] at h
    | tag kind content line =>
      rw [written, Token.written, List.append_assoc]
      exact List.prefix_append _ _
    | delimiterChange opening closing line =>
      rw [written, Token.written, List.append_assoc]
      exact List.prefix_append _ _

theorem newlines_sigil (kind : TagKind) : newlines kind.sigil = 0 := by
  cases kind <;> rfl

/-- A character that is no sigil starts the content of an output tag. -/
theorem TagShape.ofSigil_of_notMem {c : Char} (h : c ∉ sigils) :
    ofSigil (some c) = ⟨some .escaped, false, []⟩ := by
  unfold ofSigil
  split <;> simp_all [sigils]

/-- The shape of a tag is found from what is written behind its opening delimiter. -/
theorem TagShape.ofSigil_written {kind : TagKind} {content : List Char}
    (hcontent : content = [] → kind = .comment)
    (hhead : kind = .escaped → ∀ c ∈ content.head?, c ∉ sigils) (after : List Char) :
    let shape := ofSigil (kind.sigil ++ content ++ after).head?
    shape.kind = some kind ∧ shape.guard = [] ∧
      shape.inside (kind.sigil ++ content ++ after) = content ++ after := by
  by_cases hkind : kind = .escaped
  · subst hkind
    rcases content with _ | ⟨c, content⟩
    · exact absurd (hcontent rfl) (by decide)
    · have hshape := ofSigil_of_notMem (hhead rfl c rfl)
      simp [TagKind.sigil, hshape, inside]
  · cases kind with
    | escaped => exact absurd rfl hkind
    | _ => exact ⟨rfl, rfl, rfl⟩

namespace Lexer

/-- A tag is read up to where it was written. -/
theorem tag_written {lexer : Lexer} {kind : TagKind} {content : String} {later : List Token}
    (line : Nat) (hclosing : IsDelimiter lexer.delimiters.closing)
    (h : (Token.tag kind content line).Writable lexer.delimiters later) (after : List Char) :
    lexer.tag (kind.sigil ++ content.toList ++ lexer.delimiters.closing.toList ++ after) =
      (.ok (.tag kind content lexer.line),
        { lexer with
          rest := after
          line := lexer.line +
            newlines ((Token.tag kind content line).written lexer.delimiters) }) := by
  obtain ⟨htrim, hhead, hempty, hsigil⟩ := h
  have hcontent : content.toList = [] → kind = .comment := by simpa using hempty
  obtain ⟨hkind, hguard, hinside⟩ :=
    TagShape.ofSigil_written hcontent hsigil (lexer.delimiters.closing.toList ++ after)
  have hsplit := Text.splitOnFirst_append hclosing.ne_nil hhead after
  have hnot_empty : (content.toList.isEmpty && decide (kind ≠ .comment)) = false := by
    by_cases hnil : content.toList = []
    · simp [hcontent hnil]
    · simp [hnil]
  rw [List.append_assoc] at hsplit
  simp only [tag, TagShape.terminator, List.append_assoc] at hkind hguard hinside ⊢
  simp only [hkind, hguard, hinside, List.nil_append, hsplit, htrim, hnot_empty]
  simp [lineBehind, Token.written, newlines_append, newlines_sigil, Nat.add_assoc]

theorem newDelimiters?_written {opening closing : String} (hopening : IsDelimiter opening)
    (hclosing : IsDelimiter closing) :
    newDelimiters? (opening.toList ++ [' '] ++ closing.toList) = some ⟨opening, closing⟩ := by
  have hwords : Text.words (opening.toList ++ [' '] ++ closing.toList) =
      [opening.toList, closing.toList] := by
    rw [List.append_assoc, List.cons_append, List.nil_append,
      Text.words_append_blank hopening.1 (by decide), Text.words_of_isWord hclosing.1]
  simp [newDelimiters?, hwords, hopening.2, hclosing.2, -List.append_assoc]

theorem tag_written_delimiterChange {lexer : Lexer} {opening closing : String} (line : Nat)
    (hopening : IsDelimiter opening) (hclosing : IsDelimiter closing) (after : List Char) :
    lexer.tag ('=' :: (opening.toList ++ [' '] ++ closing.toList) ++ ['='] ++
        lexer.delimiters.closing.toList ++ after) =
      (.ok (.delimiterChange opening closing lexer.line),
        { lexer with
          rest := after
          line := lexer.line +
            newlines ((Token.delimiterChange opening closing line).written lexer.delimiters)
          delimiters := ⟨opening, closing⟩ }) := by
  have hequals : '=' ∉ opening.toList ++ [' '] ++ closing.toList := by
    simp [hopening.2, hclosing.2]
  have htrim := Text.trim_between hopening.1 hclosing.1 [' ']
  have hnew := newDelimiters?_written hopening hclosing
  have hwritten : newlines ((Token.delimiterChange opening closing line).written lexer.delimiters) =
      newlines lexer.delimiters.opening.toList +
        newlines (opening.toList ++ [' '] ++ closing.toList) +
        newlines ('=' :: lexer.delimiters.closing.toList) := by
    simp [Token.written, newlines]
    omega
  rw [hwritten]
  generalize opening.toList ++ [' '] ++ closing.toList = content at hequals htrim hnew ⊢
  have hsplit := Text.splitOnFirst_append (List.cons_ne_nil '=' lexer.delimiters.closing.toList)
    (by simpa using hequals) after
  simp only [List.append_assoc, List.cons_append] at hsplit
  simp [tag, TagShape.ofSigil, TagShape.inside, TagShape.terminator, hsplit, htrim, hnew,
    lineBehind, Nat.add_assoc]

theorem step_tag {lexer : Lexer} {body : List Char}
    (h : lexer.rest = lexer.delimiters.opening.toList ++ body) : lexer.step = lexer.tag body := by
  rw [step, h, Text.isPrefixOf?_append]

theorem next?_of_step {lexer behind : Lexer} {token : Token} (hlive : lexer.failed = false)
    (hrest : lexer.rest ≠ []) (h : lexer.step = (.ok token, behind)) :
    lexer.next? = some (.ok token, behind) := by
  simp [next?, hlive, hrest, h]

theorem step_written_literal {lexer : Lexer} {text : String} {line : Nat} {later : List Token}
    (h : (Token.literal text line).Writable lexer.delimiters later)
    (hopening : IsDelimiter lexer.delimiters.opening)
    (hrest : lexer.rest = text.toList ++ written lexer.delimiters later) :
    lexer.step = (.ok (.literal text lexer.line),
      { lexer with
        rest := written lexer.delimiters later
        line := lexer.line + newlines text.toList }) := by
  obtain ⟨hne, hnewline, hhead, hlast⟩ := h
  have hnone : lexer.delimiters.opening.toList.isPrefixOf? lexer.rest = none := by
    rw [Text.isPrefixOf?_eq_none, hrest]
    exact Text.not_prefix_of_head_notMem (by simpa using hne) hopening.ne_nil hhead
  have hstop : text.toList.getLast? = some '\n' ∨ written lexer.delimiters later = [] ∨
      lexer.delimiters.opening.toList <+: written lexer.delimiters later := by
    by_cases hliteral : later.head?.any Token.isLiteral = true
    · exact .inl (hlast hliteral)
    · exact .inr (written_eq_nil_or_opens (by simpa using hliteral))
  have hfound := Text.lineBefore_eq hopening.ne_nil hhead hnewline hstop
  rw [step, hnone]
  simp [literal, hrest, hfound]

theorem next?_written {lexer : Lexer} {token : Token} {later : List Token}
    (hlive : lexer.failed = false) (hopening : IsDelimiter lexer.delimiters.opening)
    (hclosing : IsDelimiter lexer.delimiters.closing)
    (h : token.Writable lexer.delimiters later)
    (hrest : lexer.rest = written lexer.delimiters (token :: later)) :
    lexer.next? = some (.ok (token.onLine lexer.line),
      { rest := written (token.delimitersBehind lexer.delimiters) later
        line := lexer.line + newlines (token.written lexer.delimiters)
        delimiters := token.delimitersBehind lexer.delimiters }) := by
  have hwritten := Token.written_ne_nil h hopening
  have hne : lexer.rest ≠ [] := by
    rw [hrest, written]
    exact List.append_ne_nil_of_left_ne_nil hwritten _
  refine next?_of_step hlive hne ?_
  cases token with
  | literal text line =>
    rw [step_written_literal h hopening hrest, hlive]
    rfl
  | tag kind content line =>
    rw [written, Token.written, List.append_assoc] at hrest
    rw [step_tag hrest, tag_written line hclosing h, hlive]
    rfl
  | delimiterChange opening closing line =>
    rw [written, Token.written, List.append_assoc] at hrest
    rw [step_tag hrest, tag_written_delimiterChange line h.1 h.2, hlive]
    rfl

theorem run_of_next? {lexer behind : Lexer} {token : Token}
    (h : lexer.next? = some (.ok token, behind)) :
    lexer.run = { behind.run with tokens := token :: behind.run.tokens } := by
  rw [run]
  split <;> simp_all

/-- A lexer in front of written tokens reads these tokens. -/
theorem run_written {tokens : List Token} (lexer : Lexer) (before : List Char)
    (hlive : lexer.failed = false) (hopening : IsDelimiter lexer.delimiters.opening)
    (hclosing : IsDelimiter lexer.delimiters.closing) (h : Stencil.Writable lexer.delimiters tokens)
    (hrest : lexer.rest = written lexer.delimiters tokens)
    (hline : lexer.line = 1 + newlines before) :
    lexer.run.tokens = onLines before lexer.delimiters tokens ∧ lexer.run.fault = none := by
  induction tokens generalizing lexer before with
  | nil =>
    have hend : lexer.next? = none := by simp [next?, hrest, written]
    rw [run]
    split <;> simp_all [onLines]
  | cons token later ih =>
    obtain ⟨htoken, hlater⟩ := h
    have hnext := next?_written hlive hopening hclosing htoken hrest
    have hbehind := htoken.delimitersBehind hopening hclosing
    have hlines : lexer.line + newlines (token.written lexer.delimiters) =
        1 + newlines (before ++ token.written lexer.delimiters) := by
      rw [newlines_append, hline, Nat.add_assoc]
    obtain ⟨htokens, hfault⟩ := ih
      { rest := written (token.delimitersBehind lexer.delimiters) later
        line := lexer.line + newlines (token.written lexer.delimiters)
        delimiters := token.delimitersBehind lexer.delimiters }
      _ rfl hbehind.1 hbehind.2 hlater rfl hlines
    rw [run_of_next? hnext, onLines, ← hline]
    exact ⟨congrArg _ htokens, hfault⟩

end Lexer

/-- Lexing undoes writing: the tokens of a source that was written from tokens are these tokens,
each on the line on which it was written. -/
theorem tokenize_written (template : String) {delimiters : Delimiters} {tokens : List Token}
    (hopening : IsDelimiter delimiters.opening) (hclosing : IsDelimiter delimiters.closing)
    (h : Writable delimiters tokens) :
    tokenize template delimiters (String.ofList (written delimiters tokens)) =
      .ok (onLines [] delimiters tokens) := by
  have hrest : (String.ofList (written delimiters tokens)).toList = written delimiters tokens :=
    String.toList_ofList
  obtain ⟨htokens, hfault⟩ := Lexer.run_written
    (.ofSource delimiters (String.ofList (written delimiters tokens))) [] rfl hopening hclosing h
    hrest rfl
  simp only [tokenize, Lexing.error?, Lexing.ofSource, hfault, Option.map_none]
  exact congrArg _ htokens

def reportTokens : List Token :=
  [.literal "Dear all,\n" 0, .literal "  " 0, .tag .opening "each rows" 0,
    .tag .comment "two\nlines" 0, .delimiterChange "<<" "<>" 0, .tag .unescaped "#raw" 0,
    .tag .escaped "name" 0, .tag .comment "" 0, .literal "\x7d\x7d" 0, .delimiterChange "#" "#" 0,
    .tag .closing "each" 0]

def reportSource : String :=
  "Dear all,\n  \x7b\x7b#each rows\x7d\x7d\x7b\x7b!two\nlines\x7d\x7d\x7b\x7b=<< <>=\x7d\x7d" ++
    "<<&#raw<><<name<><<!<>\x7d\x7d<<=# #=<>#/each#"

theorem tokenize_written_report :
    IsDelimiter "\x7b\x7b" ∧ IsDelimiter "\x7d\x7d" ∧ Writable {} reportTokens ∧
      tokenize "report" {} reportSource =
        .ok [.literal "Dear all,\n" 1, .literal "  " 2, .tag .opening "each rows" 2,
          .tag .comment "two\nlines" 2, .delimiterChange "<<" "<>" 3, .tag .unescaped "#raw" 3,
          .tag .escaped "name" 3, .tag .comment "" 3, .literal "\x7d\x7d" 3,
          .delimiterChange "#" "#" 3, .tag .closing "each" 3] := by
  have hopening : IsDelimiter "\x7b\x7b" := by decide
  have hclosing : IsDelimiter "\x7d\x7d" := by decide
  have h : Writable {} reportTokens := by decide
  have hsource : String.ofList (written {} reportTokens) = reportSource := by decide
  have hreport := tokenize_written "report" hopening hclosing h
  rw [hsource] at hreport
  exact ⟨hopening, hclosing, h, hreport⟩

end Stencil
