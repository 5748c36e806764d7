import Stencil.Proofs.Ordered
import Stencil.Value

/-! Values made of plain data and turned into plain data again: what is plain data comes back as it
was, and of other values the same form stays ever after. -/

namespace Stencil

/-- A number has one form in plain data: naturals, negative integers, and doubles that are
finite. -/
def JsonNumber.Fits : JsonNumber → Prop
  | .natural _ => True
  | .negative n => n < 0
  | .float x => x.isFinite = true

inductive Json.NumbersFit : Json → Prop where
  | null : NumbersFit .null
  | bool (b : Bool) : NumbersFit (.bool b)
  | number {n : JsonNumber} (fits : n.Fits) : NumbersFit (.number n)
  | string (s : String) : NumbersFit (.string s)
  | array {items : List Json} (each : ∀ item ∈ items, NumbersFit item) : NumbersFit (.array items)
  | object {members : List (String × Json)} (each : ∀ member ∈ members, NumbersFit member.2) :
    NumbersFit (.object members)

inductive Json.KeysAscend : Json → Prop where
  | null : KeysAscend .null
  | bool (b : Bool) : KeysAscend (.bool b)
  | number (n : JsonNumber) : KeysAscend (.number n)
  | string (s : String) : KeysAscend (.string s)
  | array {items : List Json} (each : ∀ item ∈ items, KeysAscend item) : KeysAscend (.array items)
  | object {members : List (String × Json)} (ascending : Ascending members)
    (each : ∀ member ∈ members, KeysAscend member.2) : KeysAscend (.object members)

/-- Every map in the value, host objects apart, has its entries in order, each key once. -/
inductive Value.KeysAscend : Value → Prop where
  | null : KeysAscend .null
  | bool (b : Bool) : KeysAscend (.bool b)
  | number (n : Number) : KeysAscend (.number n)
  | string (s : String) : KeysAscend (.string s)
  | list {items : List Value} (each : ∀ item ∈ items, KeysAscend item) : KeysAscend (.list items)
  | map {entries : List (String × Value)} (ascending : Ascending entries)
    (each : ∀ entry ∈ entries, KeysAscend entry.2) : KeysAscend (.map entries)
  | function (id : FunctionId) : KeysAscend (.function id)
  | object (o : HostObject Value) : KeysAscend (.object o)

/-- Changing what stands under the keys leaves them in order. -/
theorem Ascending.map_values {α β : Type} {entries : List (String × α)} (h : Ascending entries)
    (f : α → β) : Ascending (entries.map fun entry => (entry.1, f entry.2)) :=
  List.pairwise_map.mpr h

namespace Number

/-- The largest natural of a signed word is where the representation changes. -/
theorem toUInt64_of_le {n : UInt64} (h : n ≤ Int64.maxValue.toUInt64) :
    0 ≤ n.toInt64 ∧ n.toInt64.toUInt64 = n := by
  have hmax : Int64.maxValue.toUInt64.toNat = 2 ^ 63 - 1 := by decide
  have hlt : n.toNat < 2 ^ 63 := by
    rw [UInt64.le_iff_toNat_le, hmax] at h
    omega
  have hint : n.toInt64.toInt = n.toNat := by
    have hword : n.toInt64 = Int64.ofNat n.toNat := by
      rw [← UInt64.toInt64_ofNat', UInt64.ofNat_toNat]
    rw [hword, Int64.toInt_ofNat_of_lt hlt]
  refine ⟨?_, UInt64.toUInt64_toInt64 n⟩
  rw [Int64.le_iff_toInt_le, hint]
  exact Int.natCast_nonneg n.toNat

theorem toJson_ofJson {n : JsonNumber} (h : n.Fits) : (ofJson n).toJson = .number n := by
  cases n with
  | natural n =>
    rw [ofJson]
    split
    · rename_i hle
      obtain ⟨hsign, hback⟩ := toUInt64_of_le hle
      rw [toJson, if_pos hsign, hback]
    · rfl
  | negative n =>
    have hneg : ¬ 0 ≤ n := Int64.not_le.mpr h
    exact if_neg hneg
  | float x => exact if_pos h

/-- A number becomes a number in its form, or null. -/
theorem toJson_cases (n : Number) : n.toJson = .null ∨ ∃ m, m.Fits ∧ n.toJson = .number m := by
  cases n with
  | signed n =>
    by_cases hsign : 0 ≤ n
    · exact .inr ⟨.natural n.toUInt64, trivial, if_pos hsign⟩
    · exact .inr ⟨.negative n, Int64.not_le.mp hsign, if_neg hsign⟩
  | unsigned n => exact .inr ⟨.natural n, trivial, rfl⟩
  | float x =>
    by_cases hfinite : x.isFinite = true
    · exact .inr ⟨.float x, hfinite, if_pos hfinite⟩
    · exact .inl (if_neg hfinite)

theorem numbersFit_toJson (n : Number) : n.toJson.NumbersFit := by
  rcases n.toJson_cases with hnull | ⟨m, hfits, hnumber⟩
  · exact hnull ▸ .null
  · exact hnumber ▸ .number hfits

theorem keysAscend_toJson (n : Number) : n.toJson.KeysAscend := by
  rcases n.toJson_cases with hnull | ⟨m, -, hnumber⟩
  · exact hnull ▸ .null
  · exact hnumber ▸ .number m

end Number

namespace Value

theorem ofJsonItems_eq_map (items : List Json) : ofJsonItems items = items.map ofJson := by
  induction items with
  | nil => rfl
  | cons item later ih => rw [ofJsonItems, ih, List.map_cons]

theorem ofJsonMembers_eq_map (members : List (String × Json)) :
    ofJsonMembers members = members.map fun member => (member.1, ofJson member.2) := by
  induction members with
  | nil => rfl
  | cons member later ih => rw [ofJsonMembers, ih, List.map_cons]

theorem toJsonItems_eq_map (items : List Value) : toJsonItems items = items.map toJson := by
  induction items with
  | nil => rfl
  | cons item later ih => rw [toJsonItems, ih, List.map_cons]

theorem toJsonMembers_eq_map (entries : List (String × Value)) :
    toJsonMembers entries = entries.map fun entry => (entry.1, toJson entry.2) := by
  induction entries with
  | nil => rfl
  | cons entry later ih => rw [toJsonMembers, ih, List.map_cons]

/-- Plain data comes back as it was. -/
theorem toJson_ofJson {j : Json} (h : j.NumbersFit) : (ofJson j).toJson = j := by
  induction h with
  | null => rfl
  | bool => rfl
  | number hfits => exact Number.toJson_ofJson hfits
  | string => rfl
  | @array items _ ih =>
    have hsame : items.map (toJson ∘ ofJson) = items :=
      (List.map_congr_left ih).trans (List.map_id' items)
    rw [ofJson, toJson, ofJsonItems_eq_map, toJsonItems_eq_map, List.map_map, hsame]
  | @object members _ ih =>
    have heach : ∀ member ∈ members, (member.1, (ofJson member.2).toJson) = member :=
      fun member hmem => Prod.ext rfl (ih member hmem)
    rw [ofJson, toJson, ofJsonMembers_eq_map, toJsonMembers_eq_map, List.map_map]
    exact congrArg Json.object ((List.map_congr_left heach).trans (List.map_id' members))

mutual

/-- Functions, host objects and doubles that are not finite leave no number behind. -/
theorem numbersFit_toJson : (v : Value) → v.toJson.NumbersFit
  | .null => .null
  | .bool b => .bool b
  | .number n => n.numbersFit_toJson
  | .string s => .string s
  | .list items => .array (numbersFit_toJsonItems items)
  | .map entries => .object (numbersFit_toJsonMembers entries)
  | .function _ => .null
  | .object o => .string o.text

theorem numbersFit_toJsonItems : (items : List Value) → ∀ j ∈ toJsonItems items, j.NumbersFit
  | [] => by simp [toJsonItems]
  | item :: later =>
    List.forall_mem_cons.mpr ⟨numbersFit_toJson item, numbersFit_toJsonItems later⟩

theorem numbersFit_toJsonMembers :
    (entries : List (String × Value)) → ∀ member ∈ toJsonMembers entries, member.2.NumbersFit
  | [] => by simp [toJsonMembers]
  | (_, item) :: later =>
    List.forall_mem_cons.mpr ⟨numbersFit_toJson item, numbersFit_toJsonMembers later⟩

end

theorem keysAscend_ofJson {j : Json} (h : j.KeysAscend) : (ofJson j).KeysAscend := by
  induction h with
  | null => exact .null
  | bool b => exact .bool b
  | number n => exact .number _
  | string s => exact .string s
  | @array items _ ih =>
    rw [ofJson, ofJsonItems_eq_map]
    exact .list (List.forall_mem_map.mpr ih)
  | @object members hascending _ ih =>
    rw [ofJson, ofJsonMembers_eq_map]
    exact .map (hascending.map_values ofJson) (List.forall_mem_map.mpr ih)

theorem keysAscend_toJson {v : Value} (h : v.KeysAscend) : v.toJson.KeysAscend := by
  induction h with
  | null => exact .null
  | bool b => exact .bool b
  | number n => exact n.keysAscend_toJson
  | string s => exact .string s
  | @list items _ ih =>
    rw [toJson, toJsonItems_eq_map]
    exact .array (List.forall_mem_map.mpr ih)
  | @map entries hascending _ ih =>
    rw [toJson, toJsonMembers_eq_map]
    exact .object (hascending.map_values toJson) (List.forall_mem_map.mpr ih)
  | function => exact .null
  | object o => exact .string o.text

/-- The text of a list or of a map is that of its form as plain data. -/
theorem text_ofJson_toJson {v : Value}
    (h : (∃ items, v = .list items) ∨ ∃ entries, v = .map entries) :
    (ofJson v.toJson).text = v.text := by
  have hback := toJson_ofJson (numbersFit_toJson v)
  rcases h with ⟨items, rfl⟩ | ⟨entries, rfl⟩
  · change String.ofList (ofJson (toJson (.list items))).toJson.text = _
    rw [hback]
    rfl
  · change String.ofList (ofJson (toJson (.map entries))).toJson.text = _
    rw [hback]
    rfl

/-- Plain data comes back as it was, with its keys in order. A value that is no plain data has one
form there, which no further conversion changes, and lists and maps keep their text. -/
theorem plain_data_survives :
    (∀ j : Json, j.NumbersFit → j.KeysAscend →
      (ofJson j).toJson = j ∧ (ofJson j).KeysAscend) ∧
    ∀ v : Value, v.toJson.NumbersFit ∧ (v.KeysAscend → v.toJson.KeysAscend) ∧
      ofJson (ofJson v.toJson).toJson = ofJson v.toJson ∧
      ((∃ items, v = .list items) ∨ (∃ entries, v = .map entries) →
        (ofJson v.toJson).text = v.text) := by
  refine ⟨fun j hnumbers hkeys => ⟨toJson_ofJson hnumbers, keysAscend_ofJson hkeys⟩, fun v => ?_⟩
  have hback := toJson_ofJson (numbersFit_toJson v)
  exact ⟨numbersFit_toJson v, keysAscend_toJson, congrArg ofJson hback, text_ofJson_toJson⟩

/-- Around the largest signed integer the words change, and the data does not. -/
theorem plain_data_survives_boundary :
    (ofJson (.object [("a", .array [.number (.natural 9223372036854775807),
        .number (.natural 9223372036854775808), .number (.negative (-1))]),
      ("b", .object [("c", .number (.float 0.5))])])).toJson =
    .object [("a", .array [.number (.natural 9223372036854775807),
        .number (.natural 9223372036854775808), .number (.negative (-1))]),
      ("b", .object [("c", .number (.float 0.5))])] := by
  have hhalf : JsonNumber.Fits (.float 0.5) := by
    change Float.isFinite 0.5 = true
    decide
  have hminus : JsonNumber.Fits (.negative (-1)) := by
    change (-1 : Int64) < 0
    decide
  refine (plain_data_survives.1 _ (.object ?_) (.object ?_ ?_)).1
  · simp only [List.forall_mem_cons, List.not_mem_nil, false_imp_iff, implies_true, and_true]
    refine ⟨.array ?_, .object ?_⟩
    · simpa using ⟨.number trivial, .number trivial, .number hminus⟩
    · simpa using Json.NumbersFit.number hhalf
  · exact List.pairwise_pair.mpr (by decide)
  · simp only [List.forall_mem_cons, List.not_mem_nil, false_imp_iff, implies_true, and_true]
    refine ⟨.array ?_, .object (List.pairwise_singleton _ _) ?_⟩
    · simpa using ⟨.number _, .number _, .number _⟩
    · simpa using Json.KeysAscend.number _

end Value

end Stencil
