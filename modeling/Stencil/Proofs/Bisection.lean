import Stencil.Proofs.Ordered

/-! Elements put in order by a search for their place that halves what is left. The search needs the
elements in order already, and each insertion leaves them so. -/

namespace Stencil

/-- The place between two others from which a property no longer holds, by halving what is between
them. -/
def bisect {α : Type} (holds : α → Bool) (elements : List α) (low high : Nat) : Nat :=
  if low < high then
    let middle := (low + high) / 2
    if elements[middle]?.any holds then bisect holds elements (middle + 1) high
    else bisect holds elements low middle
  else low
termination_by high - low
decreasing_by all_goals omega

def TurnsAt {α : Type} (holds : α → Bool) (elements : List α) (place : Nat) : Prop :=
  ∀ index, elements[index]?.any holds = true ↔ index < place

/-- Elements with one more, at the place that the search finds for its rank. -/
def insertBisecting {α : Type} (rank : α → Int32) (element : α) (elements : List α) : List α :=
  elements.insertIdx (bisect (fun a => rank element ≤ rank a) elements 0 elements.length) element

section Search

variable {α : Type} {holds : α → Bool} {elements : List α} {place : Nat}

theorem TurnsAt.bisect_eq (h : TurnsAt holds elements place) {low high : Nat} (hlow : low ≤ place)
    (hhigh : place ≤ high) : bisect holds elements low high = place := by
  -- The place stays between the two ends, since the half that is dropped lies on one side of it.
  induction low, high using bisect.induct holds elements with
  | case1 low high hlt middle hholds ih =>
    have hbefore : middle < place := (h middle).mp hholds
    rw [bisect, if_pos hlt, if_pos hholds]
    exact ih hbefore hhigh
  | case2 low high hlt middle hnot ih =>
    have hafter : place ≤ middle := Nat.not_lt.mp fun hbefore => hnot ((h middle).mpr hbefore)
    rw [bisect, if_pos hlt, if_neg hnot]
    exact ih hlow hafter
  | case3 low high hnone =>
    rw [bisect, if_neg hnone]
    omega

theorem turnsAt_length_takeWhile (h : ∀ a ∈ elements.dropWhile holds, holds a = false) :
    TurnsAt holds elements (elements.takeWhile holds).length := by
  intro index
  have hsplit : elements[index]? =
      (elements.takeWhile holds ++ elements.dropWhile holds)[index]? := by
    rw [List.takeWhile_append_dropWhile]
  rw [hsplit, List.getElem?_append]
  split
  · rename_i hfront
    have hholds : holds (elements.takeWhile holds)[index] = true :=
      List.all_eq_true.mp List.all_takeWhile _ (List.getElem_mem hfront)
    simp [hfront, hholds]
  · rename_i hback
    simp only [hback, iff_false, Option.any_eq_true, not_exists, not_and]
    intro a ha
    exact Bool.eq_false_iff.mp (h a (List.mem_of_getElem? ha))

end Search

section Ranks

variable {α : Type} {rank : α → Int32} {elements : List α}

theorem insertIdx_length_takeWhile (rank : α → Int32) (element : α) (elements : List α) :
    elements.insertIdx (elements.takeWhile fun a => rank element ≤ rank a).length element =
      insertRanked rank element elements := by
  induction elements with
  | nil => rfl
  | cons first later ih =>
    rw [insertRanked]
    by_cases h : rank element ≤ rank first
    · simp [h, ih]
    · simp [h]

/-- Among elements in order the search finds the place behind all of equal or higher rank. -/
theorem Descending.insertBisecting_eq (h : Descending rank elements) (element : α) :
    insertBisecting rank element elements = Stencil.insertRanked rank element elements := by
  have hlower : ∀ a ∈ elements.dropWhile (fun a => rank element ≤ rank a),
      decide (rank element ≤ rank a) = false :=
    fun a ha => decide_eq_false (Int32.not_le.mpr (h.lt_of_mem_dropWhile ha))
  have hplace := (turnsAt_length_takeWhile hlower).bisect_eq (Nat.zero_le _)
    (List.takeWhile_sublist _).length_le
  rw [insertBisecting, hplace, insertIdx_length_takeWhile]

theorem foldl_insertBisecting (rank : α → Int32) (elements : List α) :
    elements.foldl (fun sorted element => insertBisecting rank element sorted) [] =
      sortRanked rank elements := by
  induction elements using List.reverseRecOn with
  | nil => rfl
  | append_singleton earlier last ih =>
    rw [List.foldl_append, ih, List.foldl_cons, List.foldl_nil, sortRanked_concat,
      (descending_sortRanked rank earlier).insertBisecting_eq]

end Ranks

end Stencil
