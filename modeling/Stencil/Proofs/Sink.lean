import Stencil.Sink

/-! How far a sink takes pieces that are written one after the other. -/

namespace Stencil.Sink

variable {σ : Type}

/-- Writes pieces up to the first that is refused; tells whether all of them were taken. -/
def writeUntil (sink : Sink σ) : List String → σ → Bool × σ
  | [], output => (true, output)
  | piece :: later, output =>
    match sink.write piece output with
    | (true, after) => sink.writeUntil later after
    | (false, after) => (false, after)

theorem writeUntil_append (sink : Sink σ) (pieces later : List String) (output : σ) :
    sink.writeUntil (pieces ++ later) output =
      match sink.writeUntil pieces output with
      | (true, after) => sink.writeUntil later after
      | (false, after) => (false, after) := by
  induction pieces generalizing output with
  | nil => rfl
  | cons piece pieces ih =>
    rw [List.cons_append, writeUntil, writeUntil]
    rcases sink.write piece output with ⟨_ | _, after⟩
    · rfl
    · exact ih after

theorem writeUntil_append_of_taken {sink : Sink σ} {pieces : List String} {output after : σ}
    (h : sink.writeUntil pieces output = (true, after)) (later : List String) :
    sink.writeUntil (pieces ++ later) output = sink.writeUntil later after := by
  rw [writeUntil_append, h]

theorem writeUntil_append_of_refused {sink : Sink σ} {pieces : List String} {output after : σ}
    (h : sink.writeUntil pieces output = (false, after)) (later : List String) :
    sink.writeUntil (pieces ++ later) output = (false, after) := by
  rw [writeUntil_append, h]

/-- Where a sink stops there is a piece that it refuses, behind pieces that it takes. -/
theorem exists_of_writeUntil_refused {sink : Sink σ} {pieces : List String} {output after : σ}
    (h : sink.writeUntil pieces output = (false, after)) :
    ∃ taken refused later before, pieces = taken ++ refused :: later ∧
      sink.writeUntil taken output = (true, before) ∧
      sink.write refused before = (false, after) := by
  induction pieces generalizing output with
  | nil => cases h
  | cons piece pieces ih =>
    rw [writeUntil] at h
    rcases hwrite : sink.write piece output with ⟨_ | _, next⟩
    · rw [hwrite] at h
      obtain rfl := (Prod.mk.inj h).2
      exact ⟨[], piece, pieces, output, rfl, rfl, hwrite⟩
    · rw [hwrite] at h
      obtain ⟨taken, refused, later, before, rfl, htaken, hrefused⟩ := ih h
      refine ⟨piece :: taken, refused, later, before, rfl, ?_, hrefused⟩
      rw [writeUntil, hwrite]
      exact htaken

/-- A text takes all pieces, one behind the other. -/
theorem writeUntil_text (pieces : List String) (written : String) :
    Sink.text.writeUntil pieces written = (true, written ++ String.join pieces) := by
  induction pieces generalizing written with
  | nil => simp [writeUntil]
  | cons piece later ih =>
    have hwrite : Sink.text.write piece written = (true, written ++ piece) := rfl
    simp [writeUntil, hwrite, ih, String.append_assoc]

end Stencil.Sink
