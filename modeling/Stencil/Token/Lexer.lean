import Stencil.Error
import Stencil.Text.Blank
import Stencil.Text.Search
import Stencil.Token

/-! From source text to tokens. Literal texts are cut after every newline, a change of delimiters
holds for the rest of the source, and nothing follows an error. -/

namespace Stencil

/-- What is left to read of a source, the line it starts on, and the delimiters of its tags. -/
structure Lexer where
  rest : List Char
  line : Nat
  delimiters : Delimiters
  /-- A tag could not be read, and nothing is read behind it. -/
  failed : Bool := false

/-- How a tag is read by the character after its opening delimiter. -/
structure TagShape where
  /-- No kind: the tag changes the delimiters. -/
  kind : Option TagKind
  /-- The content starts behind that character. -/
  skips : Bool
  /-- The text in front of the closing delimiter. -/
  guard : List Char
deriving DecidableEq

def TagShape.ofSigil : Option Char → TagShape
  | some '#' => ⟨some .opening, true, []⟩
  | some '^' => ⟨some .inverted, true, []⟩
  | some '/' => ⟨some .closing, true, []⟩
  | some '>' => ⟨some .inclusion, true, []⟩
  | some '!' => ⟨some .comment, true, []⟩
  | some '&' => ⟨some .unescaped, true, []⟩
  | some '\x7b' => ⟨some .unescaped, true, ['\x7d']⟩
  | some '=' => ⟨none, true, ['=']⟩
  | _ => ⟨some .escaped, false, []⟩

/-- What follows the opening delimiter and the character that may be skipped. -/
def TagShape.inside (shape : TagShape) (body : List Char) : List Char :=
  if shape.skips then body.drop 1 else body

def TagShape.terminator (shape : TagShape) (closing : String) : List Char :=
  shape.guard ++ closing.toList

theorem TagShape.inside_length_le (shape : TagShape) (body : List Char) :
    (shape.inside body).length ≤ body.length := by
  simp only [inside]
  split <;> simp

/-- Only plain output tags keep the character after their opening delimiter. -/
theorem TagShape.kind_ofSigil {sigil : Option Char} (h : (ofSigil sigil).skips = false) :
    (ofSigil sigil).kind = some .escaped := by
  unfold ofSigil at h ⊢
  split at h <;> simp_all

namespace Lexer

def newDelimiters? (content : List Char) : Option Delimiters :=
  match Text.words content with
  | [opening, closing] =>
    if opening.contains '=' || closing.contains '=' then none
    else some ⟨String.ofList opening, String.ofList closing⟩
  | _ => none

/-- Reads the text in front of the next tag, up to its first newline. -/
def literal (lexer : Lexer) : Token × Lexer :=
  let (text, later) := Text.lineBefore lexer.delimiters.opening.toList lexer.rest
  (.literal (String.ofList text) lexer.line,
    { lexer with rest := later, line := lexer.line + Text.newlines text })

/-- The line behind a tag of some raw content; the character that is skipped is no newline. -/
def lineBehind (lexer : Lexer) (raw terminator : List Char) : Nat :=
  lexer.line + Text.newlines lexer.delimiters.opening.toList + Text.newlines raw
    + Text.newlines terminator

/-- Reads the tag whose opening delimiter starts the rest, with `body` behind that delimiter. The
lexer is behind the tag then, whatever is wrong with it, unless its end is missing. -/
def tag (lexer : Lexer) (body : List Char) : Except TagFault Token × Lexer :=
  let shape := TagShape.ofSigil body.head?
  let terminator := shape.terminator lexer.delimiters.closing
  match Text.splitOnFirst terminator (shape.inside body) with
  | none => (.error (.unterminated (String.ofList terminator)), lexer)
  | some (raw, after) =>
    let content := Text.trim raw
    let behind := { lexer with rest := after, line := lexer.lineBehind raw terminator }
    match shape.kind with
    | none =>
      match newDelimiters? content with
      | none => (.error (.delimiterChange (String.ofList content)), behind)
      | some changed =>
        (.ok (.delimiterChange changed.opening changed.closing lexer.line),
          { behind with delimiters := changed })
    | some kind =>
      if content.isEmpty && kind ≠ .comment then (.error .empty, behind)
      else (.ok (.tag kind (String.ofList content) lexer.line), behind)

/-- Reads one token from what is left of a source. -/
def step (lexer : Lexer) : Except TagFault Token × Lexer :=
  match lexer.delimiters.opening.toList.isPrefixOf? lexer.rest with
  | some body => lexer.tag body
  | none => (.ok lexer.literal.1, lexer.literal.2)

/-- What a call of the lexer answers, and the lexer behind the call: the next token, or the line and
the fault of a tag. There is no answer at the end of the source, nor behind a fault. -/
def next? (lexer : Lexer) : Option (Except (Nat × TagFault) Token × Lexer) :=
  if lexer.failed || lexer.rest.isEmpty then none
  else
    match lexer.step with
    | (.error fault, behind) => some (.error (lexer.line, fault), { behind with failed := true })
    | (.ok token, behind) => some (.ok token, behind)

theorem splitOnFirst_after_length {pattern text before after : List Char}
    (h : Text.splitOnFirst pattern text = some (before, after)) :
    before.length + pattern.length + after.length = text.length := by
  simp [Text.splitOnFirst_eq_some h, Nat.add_assoc]

theorem literal_rest_lt {lexer : Lexer} (hrest : lexer.rest ≠ [])
    (h : lexer.delimiters.opening.toList.isPrefixOf? lexer.rest = none) :
    lexer.literal.2.rest.length < lexer.rest.length := by
  obtain ⟨c, rest, hcons⟩ := List.exists_cons_of_ne_nil hrest
  have hsplit := congrArg List.length
    (Text.lineBefore_append lexer.delimiters.opening.toList lexer.rest)
  have hline : 0 < (Text.lineBefore lexer.delimiters.opening.toList lexer.rest).1.length := by
    have hopening : ¬ lexer.delimiters.opening.toList.isPrefixOf (c :: rest) = true := by
      intro hopens
      obtain ⟨after, hafter⟩ := List.isPrefixOf_iff_prefix.mp hopens
      rw [hcons, ← hafter, Text.isPrefixOf?_append] at h
      exact absurd h (by simp)
    rw [hcons]
    rw [Text.lineBefore, if_neg hopening]
    split <;> simp
  simp only [List.length_append] at hsplit
  simp only [literal]
  omega

/-- What a tag of some kind and content is read as, and the delimiters behind it. -/
inductive ReadsAs (lexer : Lexer) (content : List Char) :
    Option TagKind → Except TagFault Token → Delimiters → Prop where
  | tag {kind : TagKind} (hcontent : content = [] → kind = .comment) :
    ReadsAs lexer content (some kind) (.ok (.tag kind (String.ofList content) lexer.line))
      lexer.delimiters
  | empty {kind : TagKind} (hempty : content = []) (hkind : kind ≠ .comment) :
    ReadsAs lexer content (some kind) (.error .empty) lexer.delimiters
  | change {changed : Delimiters} (hchanged : newDelimiters? content = some changed) :
    ReadsAs lexer content none
      (.ok (.delimiterChange changed.opening changed.closing lexer.line)) changed
  | noChange (hnone : newDelimiters? content = none) :
    ReadsAs lexer content none (.error (.delimiterChange (String.ofList content))) lexer.delimiters

/-- A tag has no end, or it is passed and read by its kind and its content. -/
theorem tag_cases {lexer behind : Lexer} {body : List Char} {answer : Except TagFault Token}
    (h : lexer.tag body = (answer, behind)) :
    let shape := TagShape.ofSigil body.head?
    let terminator := shape.terminator lexer.delimiters.closing
    (Text.splitOnFirst terminator (shape.inside body) = none ∧
        answer = .error (.unterminated (String.ofList terminator)) ∧ behind = lexer) ∨
      ∃ raw, Text.splitOnFirst terminator (shape.inside body) = some (raw, behind.rest) ∧
        behind.line = lexer.lineBehind raw terminator ∧ behind.failed = lexer.failed ∧
        lexer.ReadsAs (Text.trim raw) shape.kind answer behind.delimiters := by
  intro shape terminator
  simp only [tag] at h
  split at h
  · rename_i hnone
    obtain ⟨rfl, rfl⟩ := Prod.mk.inj h
    exact .inl ⟨hnone, rfl, rfl⟩
  · rename_i raw after hsplit
    refine .inr ⟨raw, ?_⟩
    split at h
    · rename_i hkind
      rw [show shape.kind = none from hkind]
      split at h <;> rename_i hchanged <;> obtain ⟨rfl, rfl⟩ := Prod.mk.inj h
      · exact ⟨hsplit, rfl, rfl, .noChange hchanged⟩
      · exact ⟨hsplit, rfl, rfl, .change hchanged⟩
    · rename_i kind hkind
      rw [show shape.kind = some kind from hkind]
      split at h <;> rename_i hcontent <;> obtain ⟨rfl, rfl⟩ := Prod.mk.inj h <;>
        simp only [Bool.and_eq_true, List.isEmpty_iff, decide_eq_true_eq] at hcontent
      · exact ⟨hsplit, rfl, rfl, .empty hcontent.1 hcontent.2⟩
      · exact ⟨hsplit, rfl, rfl, .tag fun hempty => by simpa [hempty] using hcontent⟩

theorem tag_eq_ok {lexer behind : Lexer} {body : List Char} {token : Token}
    (h : lexer.tag body = (.ok token, behind)) :
    let shape := TagShape.ofSigil body.head?
    let terminator := shape.terminator lexer.delimiters.closing
    ∃ raw, Text.splitOnFirst terminator (shape.inside body) = some (raw, behind.rest) ∧
      behind.line = lexer.lineBehind raw terminator ∧ behind.failed = lexer.failed ∧
      lexer.ReadsAs (Text.trim raw) shape.kind (.ok token) behind.delimiters := by
  rcases tag_cases h with ⟨-, herror, -⟩ | hread
  · contradiction
  · exact hread

theorem tag_rest_le {lexer behind : Lexer} {body : List Char} {token : Token}
    (h : lexer.tag body = (.ok token, behind)) : behind.rest.length ≤ body.length := by
  obtain ⟨raw, hsplit, -⟩ := tag_eq_ok h
  have hlength := splitOnFirst_after_length hsplit
  have hinside := (TagShape.ofSigil body.head?).inside_length_le body
  omega

/-- A tag is read past the character behind its opening delimiter, or has a content. -/
theorem tag_rest_lt {lexer behind : Lexer} {body : List Char} {token : Token} (hbody : body ≠ [])
    (h : lexer.tag body = (.ok token, behind)) : behind.rest.length < body.length := by
  obtain ⟨raw, hsplit, -, -, hread⟩ := tag_eq_ok h
  have hlength := splitOnFirst_after_length hsplit
  have hpos := List.length_pos_iff.mpr hbody
  cases hskips : (TagShape.ofSigil body.head?).skips with
  | true =>
    simp only [TagShape.inside, hskips, if_true, List.length_drop] at hlength
    omega
  | false =>
    have hkind := TagShape.kind_ofSigil hskips
    have hraw : raw ≠ [] := by
      rintro rfl
      rw [hkind] at hread
      generalize behind.delimiters = delimiters at hread
      cases hread with
      | tag hcontent => exact absurd (hcontent rfl) (by decide)
    have hcontent := List.length_pos_iff.mpr hraw
    have hinside := (TagShape.ofSigil body.head?).inside_length_le body
    omega

/-- Every token takes something from the source. -/
theorem step_rest_lt {lexer next : Lexer} {token : Token} (hrest : lexer.rest ≠ [])
    (h : lexer.step = (.ok token, next)) : next.rest.length < lexer.rest.length := by
  simp only [step] at h
  split at h
  · rename_i body hopens
    have hlength := congrArg List.length (Text.isPrefixOf?_eq_some hopens)
    simp only [List.length_append] at hlength
    by_cases hbody : body = []
    · have hle := tag_rest_le h
      have hpos := List.length_pos_iff.mpr hrest
      simp only [hbody, List.length_nil] at hle hlength
      omega
    · have hlt := tag_rest_lt hbody h
      omega
  · rename_i hnone
    have hlt := literal_rest_lt hrest hnone
    rw [(Prod.mk.inj h).2] at hlt
    exact hlt

theorem next?_eq_ok {lexer behind : Lexer} {token : Token}
    (h : lexer.next? = some (.ok token, behind)) :
    lexer.failed = false ∧ lexer.rest ≠ [] ∧ lexer.step = (.ok token, behind) := by
  simp only [next?] at h
  split at h
  · contradiction
  · rename_i hlive
    split at h
    · simp at h
    · simp_all

theorem next?_rest_lt {lexer behind : Lexer} {token : Token}
    (h : lexer.next? = some (.ok token, behind)) : behind.rest.length < lexer.rest.length := by
  obtain ⟨-, hrest, hstep⟩ := next?_eq_ok h
  exact step_rest_lt hrest hstep

end Lexer

/-- The tokens of a source up to its end or its first fault, the delimiters in effect there, and
the fault with the line of its tag. -/
structure Lexing where
  tokens : List Token
  delimiters : Delimiters
  fault : Option (Nat × TagFault)

/-- Calls a lexer until it has no answer, or answers with a fault. -/
def Lexer.run (lexer : Lexer) : Lexing :=
  match _read : lexer.next? with
  | none => ⟨[], lexer.delimiters, none⟩
  | some (.error fault, _) => ⟨[], lexer.delimiters, some fault⟩
  | some (.ok token, behind) =>
    let later := behind.run
    { later with tokens := token :: later.tokens }
termination_by lexer.rest.length
decreasing_by exact Lexer.next?_rest_lt ‹_›

def Lexer.ofSource (delimiters : Delimiters) (source : String) : Lexer :=
  { rest := source.toList, line := 1, delimiters }

def Lexing.ofSource (delimiters : Delimiters) (source : String) : Lexing :=
  (Lexer.ofSource delimiters source).run

/-- The error of a lexing, in the name of the template it belongs to. -/
def Lexing.error? (template : String) (lexing : Lexing) : Option Error :=
  lexing.fault.map fun (line, fault) => .malformedTag template line fault

def tokenize (template : String) (delimiters : Delimiters) (source : String) :
    Except Error (List Token) :=
  let lexing := Lexing.ofSource delimiters source
  match lexing.error? template with
  | some error => .error error
  | none => .ok lexing.tokens

end Stencil
