import Stencil.Text.Blank
import Stencil.Text.Escape

/-! Characters that open or close something in markup, which no escaped text has. -/

namespace Stencil.Text

/-- A character that begins or ends a tag or a quoted attribute. -/
def IsMarkup (c : Char) : Prop := c = '<' ∨ c = '>' ∨ c = '"' ∨ c = '\''

instance : DecidablePred IsMarkup := fun c =>
  inferInstanceAs (Decidable (c = '<' ∨ c = '>' ∨ c = '"' ∨ c = '\''))

theorem not_isMarkup_of_isBlank {c : Char} (h : isBlank c = true) : ¬ IsMarkup c := by
  rintro (rfl | rfl | rfl | rfl) <;> contradiction

/-- No entity has such a character, and what is left as it is is none. -/
theorem not_isMarkup_of_mem_entity {c d : Char} (h : d ∈ (entity? c).getD [c]) : ¬ IsMarkup d := by
  unfold entity? at h
  split at h
  · exact (by simp [IsMarkup] : ∀ e ∈ "&amp;".toList, ¬ IsMarkup e) d h
  · exact (by simp [IsMarkup] : ∀ e ∈ "&lt;".toList, ¬ IsMarkup e) d h
  · exact (by simp [IsMarkup] : ∀ e ∈ "&gt;".toList, ¬ IsMarkup e) d h
  · exact (by simp [IsMarkup] : ∀ e ∈ "&quot;".toList, ¬ IsMarkup e) d h
  · exact (by simp [IsMarkup] : ∀ e ∈ "&#39;".toList, ¬ IsMarkup e) d h
  · rename_i hamp hlt hgt hquote hapostrophe
    obtain rfl : d = c := List.mem_singleton.mp h
    rintro (rfl | rfl | rfl | rfl)
    · exact hlt rfl
    · exact hgt rfl
    · exact hquote rfl
    · exact hapostrophe rfl

theorem not_isMarkup_of_mem_escapePieces {text piece : List Char}
    (hpiece : piece ∈ escapePieces text) {c : Char} (hc : c ∈ piece) : ¬ IsMarkup c := by
  have hmem : c ∈ (escapePieces text).flatten := List.mem_flatten.mpr ⟨piece, hpiece, hc⟩
  rw [flatten_escapePieces] at hmem
  obtain ⟨d, -, hd⟩ := List.mem_flatMap.mp hmem
  exact not_isMarkup_of_mem_entity hd

end Stencil.Text
