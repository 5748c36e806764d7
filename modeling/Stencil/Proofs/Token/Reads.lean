import Stencil.Proofs.Text.Blank
import Stencil.Proofs.Text.Search
import Stencil.Token.Lexer

/-! Calling a lexer again and again. The calls come to an end, the texts they take from the source
make up the source, and each answer tells what stands in its text and on which line it starts. -/

namespace Stencil

open Text (newlines newlines_append)

structure Read where
  before : Lexer
  answer : Except (Nat × TagFault) Token
  behind : Lexer

def Read.span (read : Read) : List Char :=
  read.before.rest.take (read.before.rest.length - read.behind.rest.length)

def spans (reads : List Read) : List Char := reads.flatMap Read.span

/-- A lexer is called so many times, and is another one behind these calls. -/
inductive Calls (start : Lexer) : List Read → Lexer → Prop where
  | nil : Calls start [] start
  | snoc {reads : List Read} {lexer behind : Lexer} {answer : Except (Nat × TagFault) Token}
      (earlier : Calls start reads lexer) (call : lexer.next? = some (answer, behind)) :
      Calls start (reads ++ [⟨lexer, answer, behind⟩]) behind

/-- The offset of a lexer in its source, in bytes. -/
def Lexer.offset (source : String) (lexer : Lexer) : String.Pos.Raw :=
  ⟨source.utf8ByteSize - (String.ofList lexer.rest).utf8ByteSize⟩

def IsDelimiter (text : String) : Prop :=
  Text.IsWord text.toList ∧ '=' ∉ text.toList

def Read.Delimited (read : Read) : Prop :=
  ∃ inner, read.span = read.before.delimiters.opening.toList ++ inner ++
    read.before.delimiters.closing.toList

def Read.Spells (read : Read) : Token → Prop
  | .literal text _ =>
    text.toList = read.span ∧ ¬ read.before.delimiters.opening.toList <:+: read.span ∧
      '\n' ∉ read.span.dropLast ∧ read.behind.delimiters = read.before.delimiters ∧
      (read.span.getLast? ≠ some '\n' →
        ∀ next line later, read.behind.next? ≠ some (.ok (.literal next line), later))
  | .tag _ content _ =>
    read.Delimited ∧ Text.trim content.toList = content.toList ∧
      read.behind.delimiters = read.before.delimiters
  | .delimiterChange opening closing _ =>
    read.Delimited ∧ IsDelimiter opening ∧ IsDelimiter closing ∧
      read.behind.delimiters = ⟨opening, closing⟩

/-- A tag without an end is left where it starts; any other that cannot be read is passed. -/
def Read.Fails (read : Read) : TagFault → Prop
  | .unterminated terminator =>
    read.span = [] ∧ ∃ body, read.before.rest = read.before.delimiters.opening.toList ++ body ∧
      terminator.toList = (TagShape.ofSigil body.head?).terminator read.before.delimiters.closing ∧
      ¬ terminator.toList <:+: (TagShape.ofSigil body.head?).inside body
  | .empty => read.Delimited
  | .delimiterChange content =>
    read.Delimited ∧ Text.trim content.toList = content.toList ∧
      Lexer.newDelimiters? content.toList = none
  | _ => False

/-- What holds of a call behind some consumed text of a source. -/
def Read.Exact (source : String) (consumed : List Char) (read : Read) : Prop :=
  match read.answer with
  | .ok token =>
    read.span ≠ [] ∧ read.before.offset source < read.behind.offset source ∧
      token.line = 1 + newlines consumed ∧ read.Spells token
  | .error (line, fault) =>
    line = 1 + newlines consumed ∧ read.Fails fault ∧
      read.behind.delimiters = read.before.delimiters ∧ read.behind.next? = none

theorem Read.span_eq (read : Read) {span : List Char}
    (h : read.before.rest = span ++ read.behind.rest) : read.span = span := by
  rw [Read.span, h, List.length_append, Nat.add_sub_cancel, List.take_left]

namespace Lexer

/-- The character that a tag skips in front of its content is no newline. -/
theorem exists_skipped (body : List Char) :
    ∃ skipped, body = skipped ++ (TagShape.ofSigil body.head?).inside body ∧
      newlines skipped = 0 := by
  cases body with
  | nil => exact ⟨[], by simp [TagShape.inside], rfl⟩
  | cons c rest =>
    simp only [List.head?_cons, TagShape.inside]
    by_cases hskips : (TagShape.ofSigil (some c)).skips = true
    · have hc : c ≠ '\n' := by
        rintro rfl
        simp [TagShape.ofSigil] at hskips
      exact ⟨[c], by simp [hskips], by simp [newlines, hc]⟩
    · exact ⟨[], by simp [hskips], rfl⟩

theorem newDelimiters?_usable {content : List Char} {changed : Delimiters}
    (h : newDelimiters? content = some changed) :
    IsDelimiter changed.opening ∧ IsDelimiter changed.closing := by
  unfold newDelimiters? at h
  split at h
  · rename_i opening closing hwords
    split at h
    · contradiction
    · rename_i hequals
      simp only [Bool.or_eq_true, List.contains_iff_mem, not_or] at hequals
      obtain rfl := Option.some.inj h
      have hword {word : List Char} (hmem : word ∈ [opening, closing]) : Text.IsWord word := by
        rw [← hwords] at hmem
        exact Text.isWord_of_mem_words hmem
      simp only [IsDelimiter, String.toList_ofList]
      exact ⟨⟨hword (by simp), hequals.1⟩, hword (by simp), hequals.2⟩
  · contradiction

/-- Nothing is read behind a fault, however far the lexer has come with it. -/
theorem next?_eq_error {lexer behind : Lexer} {line : Nat} {fault : TagFault}
    (h : lexer.next? = some (.error (line, fault), behind)) :
    line = lexer.line ∧ lexer.failed = false ∧
      ∃ passed, lexer.step = (.error fault, passed) ∧ behind = { passed with failed := true } := by
  simp only [next?] at h
  split at h
  · contradiction
  · rename_i hlive
    simp only [Bool.or_eq_true, not_or, Bool.not_eq_true] at hlive
    split at h
    · rename_i met passed hstep
      simp only [Option.some.injEq, Prod.mk.injEq, Except.error.injEq] at h
      obtain ⟨⟨rfl, rfl⟩, rfl⟩ := h
      exact ⟨rfl, hlive.1, passed, hstep, rfl⟩
    · simp at h

theorem next?_of_failed {lexer : Lexer} (h : lexer.failed = true) : lexer.next? = none := by
  simp [next?, h]

/-- The text of a tag stands between the delimiters, and a lexer behind it has counted its
newlines. -/
theorem tag_span {lexer : Lexer} {body raw after : List Char} :
    let shape := TagShape.ofSigil body.head?
    let terminator := shape.terminator lexer.delimiters.closing
    Text.splitOnFirst terminator (shape.inside body) = some (raw, after) →
      ∃ inner, body = inner ++ lexer.delimiters.closing.toList ++ after ∧
        lexer.lineBehind raw terminator = lexer.line + newlines (lexer.delimiters.opening.toList ++
          inner ++ lexer.delimiters.closing.toList) := by
  intro shape terminator hsplit
  obtain ⟨skipped, hskipped, hnone⟩ := exists_skipped body
  have htext := Text.splitOnFirst_eq_some hsplit
  refine ⟨skipped ++ raw ++ shape.guard, ?_, ?_⟩
  · refine hskipped.trans ?_
    rw [htext]
    simp only [terminator, TagShape.terminator, List.append_assoc]
  · simp only [lineBehind, terminator, TagShape.terminator, newlines_append, hnone]
    omega

theorem step_cases {lexer behind : Lexer} {answer : Except TagFault Token}
    (h : lexer.step = (answer, behind)) :
    (∃ body, lexer.rest = lexer.delimiters.opening.toList ++ body ∧
      lexer.tag body = (answer, behind)) ∨
    (¬ lexer.delimiters.opening.toList <+: lexer.rest ∧ answer = .ok lexer.literal.1 ∧
      behind = lexer.literal.2) := by
  simp only [step] at h
  split at h
  · rename_i body hopens
    exact .inl ⟨body, Text.isPrefixOf?_eq_some hopens, h⟩
  · rename_i hnone
    obtain ⟨rfl, rfl⟩ := Prod.mk.inj h
    exact .inr ⟨Text.isPrefixOf?_eq_none.mp hnone, rfl, rfl⟩

theorem step_failed {lexer behind : Lexer} {answer : Except TagFault Token}
    (h : lexer.step = (answer, behind)) : behind.failed = lexer.failed := by
  rcases step_cases h with ⟨body, -, htag⟩ | ⟨-, -, rfl⟩
  · rcases tag_cases htag with ⟨-, -, rfl⟩ | ⟨raw, -, -, hfailed, -⟩
    · rfl
    · exact hfailed
  · rfl

/-- Reading takes a text from the source and counts its newlines. -/
theorem step_span {lexer behind : Lexer} {answer : Except TagFault Token}
    (h : lexer.step = (answer, behind)) :
    ∃ span, lexer.rest = span ++ behind.rest ∧ behind.line = lexer.line + newlines span := by
  rcases step_cases h with ⟨body, hrest, htag⟩ | ⟨-, -, rfl⟩
  · rcases tag_cases htag with ⟨-, -, rfl⟩ | ⟨raw, hsplit, hline, -⟩
    · exact ⟨[], rfl, rfl⟩
    · obtain ⟨inner, hbody, hcount⟩ := tag_span hsplit
      refine ⟨_, ?_, hline.trans hcount⟩
      rw [hrest, hbody]
      simp only [List.append_assoc]
  · exact ⟨_, (Text.lineBefore_append _ _).symm, rfl⟩

theorem next?_span {lexer behind : Lexer} {answer : Except (Nat × TagFault) Token}
    (h : lexer.next? = some (answer, behind)) :
    ∃ span, lexer.rest = span ++ behind.rest ∧ behind.line = lexer.line + newlines span := by
  cases answer with
  | error fault =>
    obtain ⟨-, -, passed, hstep, rfl⟩ := next?_eq_error h
    obtain ⟨span, hrest, hline⟩ := step_span hstep
    exact ⟨span, hrest, hline⟩
  | ok token =>
    obtain ⟨-, -, hstep⟩ := next?_eq_ok h
    exact step_span hstep

end Lexer

/-- Behind some calls, a lexer has taken their texts from the source and counted their newlines. -/
theorem Calls.consumed {start lexer : Lexer} {reads : List Read} (h : Calls start reads lexer) :
    spans reads ++ lexer.rest = start.rest ∧ lexer.line = start.line + newlines (spans reads) := by
  induction h with
  | nil => exact ⟨rfl, rfl⟩
  | @snoc reads lexer behind answer earlier call ih =>
    obtain ⟨span, hrest, hline⟩ := Lexer.next?_span call
    have hspan := Read.span_eq ⟨lexer, answer, behind⟩ hrest
    have hspans : spans (reads ++ [⟨lexer, answer, behind⟩]) = spans reads ++ span := by
      simp [spans, hspan]
    rw [hspans, newlines_append, List.append_assoc, ← hrest, hline, ih.2]
    exact ⟨ih.1, Nat.add_assoc _ _ _⟩

/-- However often a lexer has been called, it has no answer left some calls later. -/
theorem Calls.complete {start lexer : Lexer} {reads : List Read} (h : Calls start reads lexer) :
    ∃ all last, Calls start all last ∧ last.next? = none := by
  match hnext : lexer.next? with
  | none => exact ⟨reads, lexer, h, hnext⟩
  | some (.error fault, behind) =>
    obtain ⟨-, -, passed, -, hbehind⟩ := Lexer.next?_eq_error hnext
    exact ⟨_, behind, h.snoc hnext, Lexer.next?_of_failed (hbehind ▸ rfl)⟩
  | some (.ok token, behind) => exact (h.snoc hnext).complete
termination_by lexer.rest.length
decreasing_by exact Lexer.next?_rest_lt hnext

/-- A lexer that has failed has done so once, and one that has not has answered with tokens only. -/
theorem Calls.count_faults {start lexer : Lexer} {reads : List Read}
    (h : Calls start reads lexer) (hstart : start.failed = false) :
    reads.countP (fun read => !read.answer.isOk) = if lexer.failed then 1 else 0 := by
  induction h with
  | nil => simp [hstart]
  | @snoc reads lexer behind answer earlier call ih =>
    rw [List.countP_append, ih]
    cases answer with
    | error fault =>
      obtain ⟨-, hlive, passed, -, hbehind⟩ := Lexer.next?_eq_error call
      simp [hlive, hbehind, Except.isOk, Except.toBool]
    | ok token =>
      obtain ⟨hlive, -, hstep⟩ := Lexer.next?_eq_ok call
      simp [hlive, Lexer.step_failed hstep, Except.isOk, Except.toBool]

/-- The offset of a lexer is the length in bytes of the text before it. -/
theorem Lexer.offset_eq {source : String} {lexer : Lexer} {consumed : List Char}
    (h : consumed ++ lexer.rest = source.toList) :
    lexer.offset source = (String.ofList consumed).rawEndPos := by
  have hsource : source = String.ofList consumed ++ String.ofList lexer.rest := by
    rw [← String.ofList_append, h, String.ofList_toList]
  have hsize := congrArg String.utf8ByteSize hsource
  rw [String.utf8ByteSize_append] at hsize
  simp only [offset, hsize, Nat.add_sub_cancel]
  rfl

theorem Lexer.offset_isValid {source : String} {lexer : Lexer} {consumed : List Char}
    (h : consumed ++ lexer.rest = source.toList) : (lexer.offset source).IsValid source := by
  rw [offset_eq h, String.Pos.Raw.isValid_iff_exists_append]
  refine ⟨String.ofList consumed, String.ofList lexer.rest, ?_, rfl⟩
  rw [← String.ofList_append, h, String.ofList_toList]

theorem Lexer.offset_lt {source : String} {lexer behind : Lexer} {consumed span : List Char}
    (h : consumed ++ lexer.rest = source.toList) (hspan : span ≠ [])
    (hrest : lexer.rest = span ++ behind.rest) : lexer.offset source < behind.offset source := by
  have hbehind : (consumed ++ span) ++ behind.rest = source.toList := by
    rw [List.append_assoc, ← hrest, h]
  rw [offset_eq h, offset_eq hbehind, String.ofList_append]
  have hpos : (String.ofList span).utf8ByteSize ≠ 0 := by
    simp [String.utf8ByteSize_eq_zero_iff, hspan]
  simp only [String.Pos.Raw.lt_iff, String.byteIdx_rawEndPos, String.utf8ByteSize_append]
  omega

theorem Lexer.rest_eq_nil {lexer : Lexer} (h : lexer.next? = none) (hlive : lexer.failed = false) :
    lexer.rest = [] := by
  simp only [next?, hlive, Bool.false_or] at h
  split at h
  · rename_i hend
    exact List.isEmpty_iff.mp hend
  · split at h <;> contradiction

theorem Lexer.ReadsAs.line {lexer : Lexer} {content : List Char} {kind : Option TagKind}
    {token : Token} {delimiters : Delimiters}
    (h : lexer.ReadsAs content kind (.ok token) delimiters) : token.line = lexer.line := by
  cases h <;> rfl

theorem Lexer.ReadsAs.not_literal {lexer : Lexer} {content : List Char} {kind : Option TagKind}
    {text : String} {line : Nat} {delimiters : Delimiters} :
    ¬ lexer.ReadsAs content kind (.ok (.literal text line)) delimiters := by
  rintro ⟨⟩

theorem Lexer.literal_spells {lexer : Lexer}
    (h : ¬ lexer.delimiters.opening.toList <+: lexer.rest) :
    Read.Spells ⟨lexer, .ok lexer.literal.1, lexer.literal.2⟩ lexer.literal.1 := by
  have hspan := Read.span_eq ⟨lexer, .ok lexer.literal.1, lexer.literal.2⟩
    (Text.lineBefore_append lexer.delimiters.opening.toList lexer.rest).symm
  have hpattern : lexer.delimiters.opening.toList ≠ [] := fun hnil => h (hnil ▸ List.nil_prefix)
  refine ⟨String.toList_ofList.trans hspan.symm, ?_, ?_, rfl, ?_⟩
  · rw [hspan]
    exact Text.not_infix_lineBefore hpattern _
  · rw [hspan]
    exact Text.notMem_dropLast_lineBefore _ _
  · rw [hspan]
    intro hlast next line later hnext
    obtain ⟨-, hrest, hstep⟩ := next?_eq_ok hnext
    -- A literal that no newline ends is followed by the end of the source or by a tag.
    rcases Text.lineBefore_stop hlast with hend | hopens
    · exact hrest hend
    · rcases step_cases hstep with ⟨body, -, htag⟩ | ⟨hnone, -⟩
      · obtain ⟨raw, -, -, -, hread⟩ := tag_eq_ok htag
        exact ReadsAs.not_literal hread
      · exact hnone hopens

theorem Lexer.tag_delimited {lexer behind : Lexer} {body raw : List Char}
    {answer : Except (Nat × TagFault) Token}
    (hrest : lexer.rest = lexer.delimiters.opening.toList ++ body)
    (hsplit : Text.splitOnFirst
      ((TagShape.ofSigil body.head?).terminator lexer.delimiters.closing)
      ((TagShape.ofSigil body.head?).inside body) = some (raw, behind.rest)) :
    Read.Delimited ⟨lexer, answer, behind⟩ := by
  obtain ⟨inner, hbody, -⟩ := tag_span hsplit
  refine ⟨inner, Read.span_eq _ ?_⟩
  rw [hrest, hbody]
  simp only [List.append_assoc]

theorem Lexer.tag_spells {lexer behind : Lexer} {body : List Char} {token : Token}
    (hrest : lexer.rest = lexer.delimiters.opening.toList ++ body)
    (htag : lexer.tag body = (.ok token, behind)) :
    Read.Spells ⟨lexer, .ok token, behind⟩ token := by
  obtain ⟨raw, hsplit, -, -, hread⟩ := tag_eq_ok htag
  have hdelimited : Read.Delimited ⟨lexer, .ok token, behind⟩ := tag_delimited hrest hsplit
  generalize hdelimiters : behind.delimiters = delimiters at hread
  generalize (TagShape.ofSigil body.head?).kind = kind at hread
  cases hread with
  | tag => exact ⟨hdelimited, by simp [Text.trim_trim], hdelimiters⟩
  | change hchanged =>
    obtain ⟨hopening, hclosing⟩ := newDelimiters?_usable hchanged
    exact ⟨hdelimited, hopening, hclosing, hdelimiters⟩

theorem Lexer.tag_fails {lexer passed : Lexer} {body : List Char} {fault : TagFault}
    (answer : Except (Nat × TagFault) Token)
    (hrest : lexer.rest = lexer.delimiters.opening.toList ++ body)
    (htag : lexer.tag body = (.error fault, passed)) :
    Read.Fails ⟨lexer, answer, { passed with failed := true }⟩ fault ∧
      passed.delimiters = lexer.delimiters := by
  rcases tag_cases htag with ⟨hnone, hfault, rfl⟩ | ⟨raw, hsplit, -, -, hread⟩
  · obtain rfl := Except.error.inj hfault
    refine ⟨⟨Read.span_eq _ rfl, body, hrest, String.toList_ofList, ?_⟩, rfl⟩
    rw [String.toList_ofList]
    exact Text.not_infix_of_splitOnFirst hnone
  · have hdelimited : Read.Delimited ⟨lexer, answer, { passed with failed := true }⟩ :=
      tag_delimited hrest hsplit
    generalize hdelimiters : passed.delimiters = delimiters at hread
    generalize (TagShape.ofSigil body.head?).kind = kind at hread
    cases hread with
    | empty => exact ⟨hdelimited, rfl⟩
    | noChange hchanged =>
      exact ⟨⟨hdelimited, by simp [Text.trim_trim], by simpa using hchanged⟩, rfl⟩

theorem Lexer.step_line {lexer behind : Lexer} {token : Token}
    (h : lexer.step = (.ok token, behind)) : token.line = lexer.line := by
  rcases step_cases h with ⟨body, -, htag⟩ | ⟨-, hliteral, -⟩
  · obtain ⟨raw, -, -, -, hread⟩ := tag_eq_ok htag
    exact hread.line
  · obtain rfl := Except.ok.inj hliteral
    rfl

theorem Calls.exact {delimiters : Delimiters} {source : String} {reads : List Read}
    {lexer behind : Lexer} {answer : Except (Nat × TagFault) Token}
    (h : Calls (.ofSource delimiters source) reads lexer)
    (call : lexer.next? = some (answer, behind)) :
    Read.Exact source (spans reads) ⟨lexer, answer, behind⟩ := by
  obtain ⟨hconsumed, hline⟩ := h.consumed
  cases answer with
  | error fault =>
    obtain ⟨hfault, -, passed, hstep, rfl⟩ := Lexer.next?_eq_error call
    rcases Lexer.step_cases hstep with ⟨body, hopens, htag⟩ | ⟨-, herror, -⟩
    · obtain ⟨hfails, hdelimiters⟩ := Lexer.tag_fails (.error fault) hopens htag
      exact ⟨hfault.trans hline, hfails, hdelimiters, Lexer.next?_of_failed rfl⟩
    · contradiction
  | ok token =>
    obtain ⟨-, -, hstep⟩ := Lexer.next?_eq_ok call
    obtain ⟨span, hrest, -⟩ := Lexer.next?_span call
    have hspan := Read.span_eq ⟨lexer, .ok token, behind⟩ hrest
    have hne : span ≠ [] := by
      rintro rfl
      have hlt := Lexer.next?_rest_lt call
      rw [hrest, List.nil_append] at hlt
      exact Nat.lt_irrefl _ hlt
    refine ⟨hspan ▸ hne, Lexer.offset_lt hconsumed hne hrest,
      (Lexer.step_line hstep).trans hline, ?_⟩
    rcases Lexer.step_cases hstep with ⟨body, hopens, htag⟩ | ⟨hnone, hliteral, rfl⟩
    · exact Lexer.tag_spells hopens htag
    · obtain rfl := Except.ok.inj hliteral
      exact Lexer.literal_spells hnone

/-- Lexing comes to an end, loses nothing and knows its place. Called on any source with any
delimiters, a lexer has no answer left after some calls, and behind each call: the texts taken so
far are what stands in front of the rest of the source, and all of it if no call failed and none is
left; the offset is where a character starts; at most one answer was a fault; and the next answer is
exact. -/
theorem lexing_exact (delimiters : Delimiters) (source : String) :
    (∃ reads last, Calls (.ofSource delimiters source) reads last ∧ last.next? = none) ∧
    ∀ reads lexer, Calls (.ofSource delimiters source) reads lexer →
      spans reads ++ lexer.rest = source.toList ∧
      (lexer.next? = none → (∀ read ∈ reads, read.answer.isOk) → spans reads = source.toList) ∧
      (lexer.offset source).IsValid source ∧
      lexer.offset source = (String.ofList (spans reads)).rawEndPos ∧
      reads.countP (fun read => !read.answer.isOk) ≤ 1 ∧
      ∀ answer behind, lexer.next? = some (answer, behind) →
        Read.Exact source (spans reads) ⟨lexer, answer, behind⟩ := by
  constructor
  · exact Calls.nil.complete
  · intro reads lexer hcalls
    have hconsumed : spans reads ++ lexer.rest = source.toList := hcalls.consumed.1
    have hfaults := hcalls.count_faults rfl
    refine ⟨hconsumed, ?_, Lexer.offset_isValid hconsumed, Lexer.offset_eq hconsumed, ?_, ?_⟩
    · intro hend hok
      rw [List.countP_eq_zero.mpr (by simpa using hok)] at hfaults
      have hlive : lexer.failed = false := by
        by_contra hfailed
        simp [hfailed] at hfaults
      rwa [Lexer.rest_eq_nil hend hlive, List.append_nil] at hconsumed
    · rw [hfaults]
      split <;> decide
    · intro answer behind call
      exact hcalls.exact call

end Stencil
