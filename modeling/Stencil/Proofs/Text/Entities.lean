import Mathlib.Data.List.Basic
import Mathlib.Logic.Function.Basic
import Stencil.Proofs.Sink
import Stencil.Proofs.Text.Escape

/-! Escaped text as a substitution for each character, over its bytes and back: replacing the
entities one after another, the one of the ampersand last, gives the text again. -/

namespace Stencil.Text

/-- The characters that are escaped and their entities, the ampersand last. -/
def entities : List (Char × List Char) :=
  [('<', "&lt;".toList), ('>', "&gt;".toList), ('"', "&quot;".toList), ('\'', "&#39;".toList),
    ('&', "&amp;".toList)]

theorem entity?_eq_lookup (c : Char) : entity? c = entities.lookup c := by
  unfold entity?
  split
  iterate 5 rfl
  rename_i hamp hlt hgt hquote hapostrophe
  have hnone : ∀ row ∈ entities, (c == row.1) = false := by
    simpa [entities] using ⟨hlt, hgt, hquote, hapostrophe, hamp⟩
  exact (List.lookup_eq_none_iff.mpr fun row hmem => by simpa using hnone row hmem).symm

def codeOf (table : List (Char × List Char)) (c : Char) : List Char :=
  (table.lookup c).getD [c]

def encode (table : List (Char × List Char)) (text : List Char) : List Char :=
  text.flatMap (codeOf table)

theorem toList_escape (text : String) : (escape text).toList = encode entities text.toList := by
  rw [escape, String.toList_ofList, flatten_escapePieces]
  simp only [entity?_eq_lookup]
  rfl

theorem encode_cons (table : List (Char × List Char)) (c : Char) (rest : List Char) :
    encode table (c :: rest) = codeOf table c ++ encode table rest := List.flatMap_cons

theorem codeOf_cons_self (c : Char) (entity : List Char) (table : List (Char × List Char)) :
    codeOf ((c, entity) :: table) c = entity := by
  simp [codeOf]

theorem codeOf_cons_of_ne {c d : Char} (h : d ≠ c) (entity : List Char)
    (table : List (Char × List Char)) : codeOf ((c, entity) :: table) d = codeOf table d := by
  simp [codeOf, List.lookup_cons, beq_eq_false_iff_ne.mpr h]

theorem codeOf_of_notMem {table : List (Char × List Char)} {c : Char}
    (h : ∀ row ∈ table, row.1 ≠ c) : codeOf table c = [c] := by
  rw [codeOf, List.lookup_eq_none_iff.mpr fun row hmem => by simpa using (h row hmem).symm]
  rfl

/-- A character is a row of the table, or it stands for itself. -/
theorem codeOf_cases (table : List (Char × List Char)) (c : Char) :
    (c, codeOf table c) ∈ table ∨ codeOf table c = [c] ∧ ∀ row ∈ table, row.1 ≠ c := by
  induction table with
  | nil => exact .inr ⟨rfl, by simp⟩
  | cons row table ih =>
    obtain ⟨d, entity⟩ := row
    by_cases hd : c = d
    · subst hd
      exact .inl (by simp [codeOf_cons_self])
    · rw [codeOf_cons_of_ne hd]
      rcases ih with hmem | ⟨hcode, hnone⟩
      · exact .inl (List.mem_cons_of_mem _ hmem)
      · exact .inr ⟨hcode, List.forall_mem_cons.mpr ⟨fun heq => hd heq.symm, hnone⟩⟩

def IsEntity (entity : List Char) : Prop :=
  ∃ name, entity = '&' :: (name ++ [';']) ∧ '&' ∉ name ∧ ';' ∉ name

/-- What stands in front of the first occurrence of a character is determined by the text. -/
theorem eq_of_append_cons_eq {c : Char} {s t after rest : List Char} (hs : c ∉ s) (ht : c ∉ t)
    (h : s ++ c :: after = t ++ c :: rest) : s = t := by
  rcases List.append_eq_append_iff.mp h with ⟨between, rfl, hrest⟩ | ⟨between, rfl, hrest⟩
  · cases between with
    | nil => exact (List.append_nil s).symm
    | cons d between =>
      obtain ⟨rfl, -⟩ := List.cons.inj hrest
      simp at ht
  · cases between with
    | nil => exact List.append_nil t
    | cons d between =>
      obtain ⟨rfl, -⟩ := List.cons.inj hrest
      simp at hs

/-- The semicolon ends an entity, so none begins with another one. -/
theorem IsEntity.eq_of_prefix {entity other rest : List Char} (h : IsEntity entity)
    (hother : IsEntity other) (hbegins : entity <+: other ++ rest) : entity = other := by
  obtain ⟨name, rfl, -, hname⟩ := h
  obtain ⟨otherName, rfl, -, hotherName⟩ := hother
  obtain ⟨after, hafter⟩ := hbegins
  simp only [List.cons_append, List.append_assoc, List.cons.injEq, true_and, List.nil_append]
    at hafter
  rw [eq_of_append_cons_eq hname hotherName hafter]

/-- Every occurrence of a pattern, from the left, with a substitute in its place; so many characters
at the start belong to an occurrence already replaced. -/
def replaceBehind (pattern substitute : List Char) : Nat → List Char → List Char
  | _, [] => []
  | skipped + 1, _ :: rest => replaceBehind pattern substitute skipped rest
  | 0, c :: rest =>
    if pattern.isPrefixOf (c :: rest) then
      substitute ++ replaceBehind pattern substitute (pattern.length - 1) rest
    else c :: replaceBehind pattern substitute 0 rest

def replaceAll (pattern substitute text : List Char) : List Char :=
  replaceBehind pattern substitute 0 text

theorem replaceBehind_append (pattern substitute front rest : List Char) :
    replaceBehind pattern substitute front.length (front ++ rest) =
      replaceAll pattern substitute rest := by
  induction front with
  | nil => rfl
  | cons c front ih => exact ih

theorem replaceAll_occurrence {pattern : List Char} (hpattern : pattern ≠ [])
    (substitute rest : List Char) :
    replaceAll pattern substitute (pattern ++ rest) =
      substitute ++ replaceAll pattern substitute rest := by
  obtain ⟨c, later, rfl⟩ := List.exists_cons_of_ne_nil hpattern
  have hoccurs : (c :: later).isPrefixOf (c :: (later ++ rest)) = true :=
    List.isPrefixOf_iff_prefix.mpr ⟨rest, rfl⟩
  rw [replaceAll, List.cons_append, replaceBehind, if_pos hoccurs]
  exact congrArg (substitute ++ ·) (replaceBehind_append _ _ later rest)

theorem replaceAll_cons {pattern : List Char} {c : Char} {rest : List Char}
    (h : ¬ pattern <+: c :: rest) (substitute : List Char) :
    replaceAll pattern substitute (c :: rest) = c :: replaceAll pattern substitute rest := by
  rw [replaceAll, replaceBehind, if_neg fun hoccurs => h (List.isPrefixOf_iff_prefix.mp hoccurs)]
  rfl

/-- No entity begins at a character other than an ampersand. -/
theorem replaceAll_plain {entity : List Char} (h : IsEntity entity) {run : List Char}
    (hrun : '&' ∉ run) (substitute rest : List Char) :
    replaceAll entity substitute (run ++ rest) = run ++ replaceAll entity substitute rest := by
  induction run with
  | nil => rfl
  | cons c run ih =>
    obtain ⟨hc, hlater⟩ := not_or.mp (List.mem_cons.not.mp hrun)
    have hnone : ¬ entity <+: c :: (run ++ rest) := by
      obtain ⟨name, rfl, -⟩ := h
      exact fun hbegins => hc (List.cons_prefix_cons.mp hbegins).1
    rw [List.cons_append, replaceAll_cons hnone, ih hlater]
    rfl

theorem replaceAll_other_entity {entity other : List Char} (h : IsEntity entity)
    (hother : IsEntity other) (hne : entity ≠ other) (substitute rest : List Char) :
    replaceAll entity substitute (other ++ rest) = other ++ replaceAll entity substitute rest := by
  have hnone : ¬ entity <+: other ++ rest := fun hbegins => hne (h.eq_of_prefix hother hbegins)
  obtain ⟨name, rfl, hname, -⟩ := hother
  have hlater : '&' ∉ name ++ [';'] := by simp [hname]
  rw [List.cons_append] at hnone ⊢
  rw [replaceAll_cons hnone, replaceAll_plain h hlater, List.cons_append]

/-- The rows of a table of distinct characters and entities, the ampersand in the last one. -/
inductive EndsInAmpersand : List (Char × List Char) → Prop where
  | last {entity : List Char} : IsEntity entity → EndsInAmpersand [('&', entity)]
  | cons {c : Char} {entity : List Char} {table : List (Char × List Char)} : IsEntity entity →
      (∀ row ∈ table, row.1 ≠ c ∧ row.2 ≠ entity) → EndsInAmpersand table →
      EndsInAmpersand ((c, entity) :: table)

theorem endsInAmpersand_entities : EndsInAmpersand entities :=
  .cons ⟨"lt".toList, rfl, by decide, by decide⟩ (by decide) <|
    .cons ⟨"gt".toList, rfl, by decide, by decide⟩ (by decide) <|
    .cons ⟨"quot".toList, rfl, by decide, by decide⟩ (by decide) <|
    .cons ⟨"#39".toList, rfl, by decide, by decide⟩ (by decide) <|
    .last ⟨"amp".toList, rfl, by decide, by decide⟩

theorem EndsInAmpersand.isEntity {table : List (Char × List Char)} (h : EndsInAmpersand table) :
    ∀ row ∈ table, IsEntity row.2 := by
  induction h with
  | last hentity => simpa using hentity
  | cons hentity _ _ ih => exact List.forall_mem_cons.mpr ⟨hentity, ih⟩

theorem EndsInAmpersand.exists_ampersand {table : List (Char × List Char)}
    (h : EndsInAmpersand table) : ∃ row ∈ table, row.1 = '&' := by
  induction h with
  | last => exact ⟨_, List.mem_singleton_self _, rfl⟩
  | cons _ _ _ ih =>
    obtain ⟨row, hmem, hrow⟩ := ih
    exact ⟨row, List.mem_cons_of_mem _ hmem, hrow⟩

/-- An ampersand stands for itself under none of these tables, so that it begins an entity. -/
theorem EndsInAmpersand.codeOf_cases {table : List (Char × List Char)} (h : EndsInAmpersand table)
    (c : Char) : (c, codeOf table c) ∈ table ∨ codeOf table c = [c] ∧ c ≠ '&' := by
  refine (Text.codeOf_cases table c).imp_right fun ⟨hcode, hnone⟩ => ⟨hcode, ?_⟩
  rintro rfl
  obtain ⟨row, hmem, hrow⟩ := h.exists_ampersand
  exact hnone row hmem hrow

/-- Replacing the entities of the first row leaves what the other rows make of the text. -/
theorem replaceAll_encode {c : Char} {entity : List Char} {table : List (Char × List Char)}
    (h : EndsInAmpersand ((c, entity) :: table))
    (hother : ∀ row ∈ table, row.1 ≠ c ∧ row.2 ≠ entity) (text : List Char) :
    replaceAll entity [c] (encode ((c, entity) :: table) text) = encode table text := by
  obtain ⟨hentity, hentities⟩ := List.forall_mem_cons.mp h.isEntity
  induction text with
  | nil => rfl
  | cons d rest ih =>
    rw [encode_cons, encode_cons]
    by_cases hd : d = c
    · subst hd
      have hself : codeOf table d = [d] := codeOf_of_notMem fun row hmem => (hother row hmem).1
      have hne : entity ≠ [] := by
        obtain ⟨name, rfl, -⟩ := hentity
        simp
      rw [codeOf_cons_self, replaceAll_occurrence hne, ih, hself]
    · rcases h.codeOf_cases d with hmem | ⟨hcode, hplain⟩
      · have hrow := (List.mem_cons.mp hmem).resolve_left fun heq => hd (Prod.mk.inj heq).1
        rw [replaceAll_other_entity hentity (hentities _ hrow) (hother _ hrow).2.symm, ih,
          codeOf_cons_of_ne hd]
      · rw [hcode, replaceAll_plain hentity (by simpa using hplain.symm), ih,
          ← codeOf_cons_of_ne hd entity table, hcode]

def decode (table : List (Char × List Char)) (text : List Char) : List Char :=
  table.foldl (fun text row => replaceAll row.2 [row.1] text) text

theorem EndsInAmpersand.decode_encode {table : List (Char × List Char)}
    (h : EndsInAmpersand table) (text : List Char) : decode table (encode table text) = text := by
  induction h with
  | @last entity hentity =>
    have hrest := replaceAll_encode (.last hentity) (by simp) text
    rw [decode, List.foldl_cons, hrest]
    exact List.flatMap_singleton' text
  | @cons c entity table hentity hother htable ih =>
    have hrest := replaceAll_encode (.cons hentity hother htable) hother text
    rw [decode, List.foldl_cons, hrest]
    exact ih

theorem IsEntity.front_eq_nil {entity front back : List Char} (h : IsEntity entity)
    (hsplit : entity = front ++ '&' :: back) : front = [] := by
  obtain ⟨name, rfl, hname, -⟩ := h
  cases front with
  | nil => rfl
  | cons c front =>
    have hmem : '&' ∈ name ++ [';'] := by simp [(List.cons.inj hsplit).2]
    simp [hname] at hmem

/-- An ampersand of an encoded text begins an entity of the table. -/
theorem EndsInAmpersand.entity_of_ampersand {table : List (Char × List Char)}
    (h : EndsInAmpersand table) {text front back : List Char}
    (hsplit : encode table text = front ++ '&' :: back) :
    ∃ row ∈ table, row.2 <+: '&' :: back := by
  induction text generalizing front with
  | nil => simp [encode] at hsplit
  | cons c rest ih =>
    rw [encode_cons] at hsplit
    rcases List.append_eq_append_iff.mp hsplit with ⟨between, rfl, hrest⟩ | ⟨later, hcode, hback⟩
    · exact ih hrest
    cases later with
    | nil =>
      have hrest : encode table rest = [] ++ '&' :: back := hback.symm
      exact ih hrest
    | cons d later =>
      -- The ampersand stands in what the first character became.
      obtain ⟨rfl, rfl⟩ := List.cons.inj hback
      rcases h.codeOf_cases c with hmem | ⟨hself, hplain⟩
      · obtain rfl := (h.isEntity _ hmem).front_eq_nil hcode
        exact ⟨_, hmem, by simp [hcode]⟩
      · rw [hself, List.singleton_eq_append_iff] at hcode
        simp [Ne.symm hplain] at hcode

def utf8 (text : List Char) : List UInt8 := text.flatMap String.utf8EncodeChar

def byteEntity? (byte : UInt8) : Option (List Char) := entity? (Char.ofUInt8 byte)

/-- The pieces of an escaped text from its bytes. The bytes from `start` on are not written yet,
and those from `here` on are not looked at yet. -/
def bytePiecesFrom (bytes : List UInt8) (start : Nat) : Nat → List UInt8 → List (List UInt8)
  | _, [] => [bytes.drop start]
  | here, byte :: rest =>
    match byteEntity? byte with
    | some entity =>
      (bytes.take here).drop start :: utf8 entity :: bytePiecesFrom bytes (here + 1) (here + 1) rest
    | none => bytePiecesFrom bytes start (here + 1) rest

def bytePieces (bytes : List UInt8) : List (List UInt8) := bytePiecesFrom bytes 0 0 bytes

theorem utf8_cons (c : Char) (rest : List Char) :
    utf8 (c :: rest) = String.utf8EncodeChar c ++ utf8 rest := List.flatMap_cons

/-- Only characters of one byte are escaped. -/
theorem entity?_eq_none {c : Char} (h : 128 ≤ c.toNat) : entity? c = none := by
  unfold entity?
  split
  iterate 5 exact absurd h (by decide)
  rfl

theorem toNat_ofUInt8 (byte : UInt8) : (Char.ofUInt8 byte).toNat = byte.toNat :=
  UInt8.toNat_toUInt32 byte

theorem utf8EncodeChar_of_lt {c : Char} (h : c.toNat < 128) :
    String.utf8EncodeChar c = [UInt8.ofNat c.toNat] := by
  rw [String.utf8EncodeChar]
  exact if_pos (show c.toNat ≤ 127 by omega)

theorem byteEntity?_of_lt {c : Char} (h : c.toNat < 128) :
    byteEntity? (UInt8.ofNat c.toNat) = entity? c := by
  have hsame : Char.ofUInt8 (UInt8.ofNat c.toNat) = c := by
    rw [← Char.toNat_inj, toNat_ofUInt8, UInt8.toNat_ofNat', Nat.mod_eq_of_lt (by omega)]
  rw [byteEntity?, hsame]

/-- All bytes of a character that takes several are large. -/
theorem le_of_mem_utf8EncodeChar {c : Char} (h : 128 ≤ c.toNat) :
    ∀ byte ∈ String.utf8EncodeChar c, 128 ≤ byte.toNat := by
  have hlarge : ¬ c.val.toNat ≤ 127 := by
    change ¬ c.toNat ≤ 127
    omega
  rw [String.utf8EncodeChar]
  simp only [hlarge, if_false]
  split
  · simp only [List.forall_mem_cons, UInt8.toNat_ofNat']
    refine ⟨by omega, by omega, by simp⟩
  · split
    · simp only [List.forall_mem_cons, UInt8.toNat_ofNat']
      refine ⟨by omega, by omega, by omega, by simp⟩
    · simp only [List.forall_mem_cons, UInt8.toNat_ofNat']
      refine ⟨by omega, by omega, by omega, by omega, by simp⟩

theorem byteEntity?_eq_none {byte : UInt8} (h : 128 ≤ byte.toNat) : byteEntity? byte = none :=
  entity?_eq_none (by rwa [toNat_ofUInt8])

theorem utf8EncodeChar_of_entity {c : Char} {entity : List Char} (h : entity? c = some entity) :
    ∃ byte, String.utf8EncodeChar c = [byte] ∧ byteEntity? byte = some entity := by
  have hlt : c.toNat < 128 := by
    by_contra hle
    rw [entity?_eq_none (by omega)] at h
    contradiction
  exact ⟨_, utf8EncodeChar_of_lt hlt, by rw [byteEntity?_of_lt hlt, h]⟩

theorem byteEntity?_of_mem_plain {c : Char} (h : entity? c = none) :
    ∀ byte ∈ String.utf8EncodeChar c, byteEntity? byte = none := by
  intro byte hmem
  by_cases hlt : c.toNat < 128
  · rw [utf8EncodeChar_of_lt hlt, List.mem_singleton] at hmem
    rw [hmem, byteEntity?_of_lt hlt, h]
  · exact byteEntity?_eq_none (le_of_mem_utf8EncodeChar (by omega) byte hmem)

theorem bytePiecesFrom_plain {run : List UInt8} (h : ∀ byte ∈ run, byteEntity? byte = none)
    (bytes : List UInt8) (start here : Nat) (rest : List UInt8) :
    bytePiecesFrom bytes start here (run ++ rest) =
      bytePiecesFrom bytes start (here + run.length) rest := by
  induction run generalizing here with
  | nil => rfl
  | cons byte run ih =>
    obtain ⟨hbyte, hrun⟩ := List.forall_mem_cons.mp h
    rw [List.cons_append, bytePiecesFrom, hbyte]
    simp only [ih hrun, List.length_cons]
    congr 1
    omega

theorem escapePieces_ne_nil (text : List Char) : escapePieces text ≠ [] := by
  cases text with
  | nil => simp [escapePieces]
  | cons c rest =>
    rw [escapePieces]
    split
    · simp
    · split <;> simp

theorem escapePieces_of_entity {c : Char} {entity : List Char} (h : entity? c = some entity)
    (rest : List Char) : escapePieces (c :: rest) = [] :: entity :: escapePieces rest := by
  rw [escapePieces, h]

theorem escapePieces_plain {c : Char} (h : entity? c = none) {rest piece : List Char}
    {later : List (List Char)} (hrest : escapePieces rest = piece :: later) :
    escapePieces (c :: rest) = (c :: piece) :: later := by
  rw [escapePieces, h, hrest]

/-- A run that is not written yet goes in front of the first piece of what follows. -/
theorem bytePiecesFrom_utf8 (written : List UInt8) (run : List Char) {text piece : List Char}
    {later : List (List Char)} (h : escapePieces text = piece :: later) :
    bytePiecesFrom (written ++ (utf8 run ++ utf8 text)) written.length
      (written.length + (utf8 run).length) (utf8 text) = utf8 (run ++ piece) :: later.map utf8 := by
  induction text generalizing written run piece later with
  | nil =>
    obtain ⟨rfl, rfl⟩ := List.cons.inj h
    simp [utf8, bytePiecesFrom]
  | cons c rest ih =>
    obtain ⟨next, after, hrest⟩ := List.exists_cons_of_ne_nil (escapePieces_ne_nil rest)
    cases hentity : entity? c with
    | some entity =>
      rw [escapePieces_of_entity hentity, hrest] at h
      obtain ⟨rfl, rfl⟩ := List.cons.inj h
      obtain ⟨byte, hbytes, hbyte⟩ := utf8EncodeChar_of_entity hentity
      have hlater := ih (written ++ utf8 run ++ [byte]) [] hrest
      have hslice : ((written ++ (utf8 run ++ byte :: utf8 rest)).take
          (written.length + (utf8 run).length)).drop written.length = utf8 run := by
        rw [List.take_length_add_append, List.drop_left, List.take_left]
      rw [utf8_cons, hbytes, List.singleton_append, bytePiecesFrom, hbyte]
      simp only [hslice, List.append_nil, List.map_cons]
      simpa [utf8, Nat.add_assoc] using hlater
    | none =>
      rw [escapePieces_plain hentity hrest] at h
      obtain ⟨rfl, rfl⟩ := List.cons.inj h
      have hlater := ih written (run ++ [c]) hrest
      rw [utf8_cons, bytePiecesFrom_plain (byteEntity?_of_mem_plain hentity)]
      simpa [utf8, Nat.add_assoc] using hlater

def bytesOf (text : String) : List UInt8 := text.toByteArray.data.toList

theorem bytesOf_ofList (text : List Char) : bytesOf (String.ofList text) = utf8 text := by
  rw [bytesOf, String.toByteArray_ofList, List.utf8Encode, List.data_toByteArray]
  rfl

/-- The pieces cut out of the bytes are texts: no cut goes through a character. -/
theorem bytePieces_bytesOf (text : String) :
    bytePieces (bytesOf text) =
      (escapePieces text.toList).map fun piece => bytesOf (String.ofList piece) := by
  obtain ⟨piece, later, hpieces⟩ := List.exists_cons_of_ne_nil (escapePieces_ne_nil text.toList)
  have hread := bytePiecesFrom_utf8 [] [] hpieces
  have hbytes : bytesOf text = utf8 text.toList := by
    rw [← bytesOf_ofList, String.ofList_toList]
  rw [bytePieces, hbytes]
  have hempty : utf8 [] = [] := rfl
  simpa [hpieces, bytesOf_ofList, hempty] using hread

def unescape (text : String) : String := String.ofList (decode entities text.toList)

theorem unescape_escape (text : String) : unescape (escape text) = text := by
  rw [unescape, toList_escape, endsInAmpersand_entities.decode_encode, String.ofList_toList]

theorem join_escapePieces (text : String) :
    String.join ((escapePieces text.toList).map String.ofList) = escape text := by
  rw [← String.toList_inj, escape, String.toList_ofList, String.toList_join, List.flatMap_map]
  simp [List.flatMap_def]

theorem escape_append (text other : String) :
    escape (text ++ other) = escape text ++ escape other := by
  rw [← String.toList_inj, String.toList_append]
  simp only [toList_escape, String.toList_append]
  exact List.flatMap_append

theorem not_isMarkup_of_mem_escape {text : String} {c : Char} (h : c ∈ (escape text).toList) :
    ¬ IsMarkup c := by
  rw [escape, String.toList_ofList] at h
  obtain ⟨piece, hpiece, hc⟩ := List.mem_flatten.mp h
  exact not_isMarkup_of_mem_escapePieces hpiece hc

/-- Escaping replaces each character by itself or by its entity. No two texts are escaped alike,
and replacing the entities, that of the ampersand last, gives each of them back. -/
theorem escape_reversible :
    Function.Injective escape ∧ ∀ text : String,
      (escape text).toList = text.toList.flatMap (fun c => (entities.lookup c).getD [c]) ∧
      (∀ written, Sink.text.writeUntil ((escapePieces text.toList).map String.ofList) written =
        (true, written ++ escape text)) ∧
      bytePieces (bytesOf text) =
        (escapePieces text.toList).map (fun piece => bytesOf (String.ofList piece)) ∧
      (∀ other, escape (text ++ other) = escape text ++ escape other) ∧
      (∀ c ∈ (escape text).toList, ¬ IsMarkup c) ∧
      (∀ front back, (escape text).toList = front ++ '&' :: back →
        ∃ row ∈ entities, row.2 <+: '&' :: back) ∧
      unescape (escape text) = text := by
  have hinjective : Function.Injective escape := Function.LeftInverse.injective unescape_escape
  refine ⟨hinjective, fun text => ⟨toList_escape text, fun written => ?_, bytePieces_bytesOf text,
    escape_append text, fun c => not_isMarkup_of_mem_escape, fun front back hsplit => ?_,
    unescape_escape text⟩⟩
  · rw [Sink.writeUntil_text, join_escapePieces]
  · rw [toList_escape] at hsplit
    exact endsInAmpersand_entities.entity_of_ampersand hsplit

/-- An entity in the text is escaped like other text. -/
example : escape "<&lt;>" = "&lt;&amp;lt;&gt;" := by decide

end Stencil.Text
