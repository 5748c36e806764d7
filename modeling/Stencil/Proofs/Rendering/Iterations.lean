import Stencil.Proofs.Rendering.Success

/-! What a call of `each` renders: its block once under every element that its transform keeps, as a
section does for all elements, and the part after `else` if there are none. -/

namespace Stencil

def Setting.kept? {κ : Type} (setting : Setting κ) (transform : Option FunctionId)
    (element : Value) : Option Value :=
  match transform with
  | none => some element
  | some f =>
    let answer := setting.transform f element
    if answer.isSkip then none else some answer

/-- The scopes of the elements that are kept, where `before` elements of `size` stand in front. Each
has the place that its element has among all of them. -/
def Setting.survivors {κ : Type} (setting : Setting κ) (transform : Option FunctionId) (size : Nat)
    (before : Nat) (elements : List Value) : List Frame :=
  (elements.zipIdx (before + 1)).filterMap fun (element, index) =>
    (setting.kept? transform element).map fun value => ⟨value, some ⟨index, size⟩⟩

/-- The scope of an element that is kept, in which templates are told its place among all. -/
def Setting.IsRound {κ : Type} (setting : Setting κ) (transform : Option FunctionId)
    (elements : List Value) (frame : Frame) : Prop :=
  ∃ i element entries, elements[i]? = some element ∧
    setting.kept? transform element = some frame.value ∧
    setting.naming.inFrame setting.naming.positionName frame = some (.map entries) ∧
    entries.lookup "index" = some (.ofNat (i + 1)) ∧
    entries.lookup "size" = some (.ofNat elements.length) ∧
    entries.lookup "isFirst" = some (.bool (i = 0)) ∧
    entries.lookup "isLast" = some (.bool (i + 1 = elements.length)) ∧
    entries.lookup "hasNext" = some (.bool (i + 1 < elements.length))

theorem Setting.isRound_of_mem_survivors {κ : Type} {setting : Setting κ}
    {transform : Option FunctionId} {elements : List Value} {frame : Frame}
    (h : frame ∈ setting.survivors transform elements.length 0 elements) :
    setting.IsRound transform elements frame := by
  obtain ⟨⟨element, index⟩, hmem, hframe⟩ := List.mem_filterMap.mp h
  obtain ⟨value, hkept, rfl⟩ := Option.map_eq_some_iff.mp hframe
  obtain ⟨hpos, helement⟩ := List.mk_mem_zipIdx_iff_le_and_getElem?_sub.mp hmem
  obtain ⟨i, rfl⟩ := Nat.exists_eq_add_of_le' hpos
  have hposition : setting.naming.inFrame setting.naming.positionName
      ⟨value, some ⟨i + (0 + 1), elements.length⟩⟩ =
        some (Iteration.toValue ⟨i + 1, elements.length⟩) := by simp [Naming.inFrame]
  have hfirst : (i + 1 == 1) = decide (i = 0) := Bool.eq_iff_iff.mpr (by simp)
  refine ⟨i, element, _, ?_, hkept, hposition, rfl, rfl, ?_, rfl, rfl⟩
  · simpa using helement
  · exact congrArg (fun first => some (Value.bool first)) hfirst

namespace Render

variable {κ σ α β : Type}

def rounds (setting : Setting κ) (body : Render κ σ Unit) : List Frame → Render κ σ Unit
  | [] => pure ()
  | frame :: later => do
    under setting frame.value frame.position body
    rounds setting body later

/-- Runs a script as `runScript` does, and gives beside its result what it asked transforms for, in
order. -/
def runNoting (setting : Setting κ) (sink : Sink σ) (body elseBody : Render κ σ Unit) :
    Nat → Script α → Render κ σ ((α × Nat) × List (FunctionId × Value))
  | pushed, .done result => pure ((result, pushed), [])
  | pushed, .push value position next => do
    match ← (push setting value position).attempt with
    | .ok () => runNoting setting sink body elseBody (pushed + 1) (next (.ok ()))
    | .error error => runNoting setting sink body elseBody pushed (next (.error error))
  | pushed, .pop next =>
    match pushed with
    | 0 => runNoting setting sink body elseBody 0 (next none)
    | left + 1 => do
      runNoting setting sink body elseBody left (next (← pop))
  | pushed, .renderBody next => do
    runNoting setting sink body elseBody pushed (next (← body.attempt))
  | pushed, .renderElse next => do
    runNoting setting sink body elseBody pushed (next (← elseBody.attempt))
  | pushed, .append text next => do
    runNoting setting sink body elseBody pushed (next (← (write sink text).attempt))
  | pushed, .peek next => do
    runNoting setting sink body elseBody pushed (next (← ask fun state => state.scope.peek))
  | pushed, .resolve name next => do
    runNoting setting sink body elseBody pushed (next (← resolve setting name))
  | pushed, .apply function argument next => do
    let (answer, later) ←
      runNoting setting sink body elseBody pushed (next (setting.transform function argument))
    pure (answer, (function, argument) :: later)

variable {setting : Setting κ} {sink : Sink σ} {body elseBody : Render κ σ Unit}

/-- Noting changes nothing. -/
theorem outcome_runNoting (setting : Setting κ) (sink : Sink σ) (body elseBody : Render κ σ Unit)
    (script : Script α) (pushed : Nat) (state : Rendering κ σ) :
    ∃ answer asked last,
      (runNoting setting sink body elseBody pushed script).outcome state =
        (.ok (answer, asked), last) ∧
      (runScript setting sink body elseBody pushed script).outcome state = (.ok answer, last) := by
  induction script generalizing pushed state with
  | done result => exact ⟨(result, pushed), [], state, rfl, rfl⟩
  | push value position next ih =>
    simp only [runNoting, runScript, outcome_bind, outcome_attempt]
    rcases ((push setting value position : Render κ σ Unit).outcome state) with
      ⟨error | ⟨⟩, opened⟩
    · exact ih _ _ _
    · exact ih _ _ _
  | pop next ih =>
    cases pushed with
    | zero => exact ih _ _ _
    | succ left => exact ih _ _ _
  | renderBody next ih =>
    simp only [runNoting, runScript, outcome_bind, outcome_attempt]
    exact ih _ _ _
  | renderElse next ih =>
    simp only [runNoting, runScript, outcome_bind, outcome_attempt]
    exact ih _ _ _
  | append text next ih =>
    simp only [runNoting, runScript, outcome_bind, outcome_attempt]
    exact ih _ _ _
  | peek next ih => exact ih _ _ _
  | resolve name next ih => exact ih _ _ _
  | apply function argument next ih =>
    obtain ⟨answer, asked, last, hnoting, hplain⟩ :=
      ih (setting.transform function argument) pushed state
    refine ⟨answer, (function, argument) :: asked, last, ?_, hplain⟩
    rw [runNoting, outcome_bind, hnoting]
    rfl

theorem outcome_runNoting_bind {script : Script α} {rest : α → Script β} {pushed left : Nat} {a : α}
    {answer : β × Nat} {asked later : List (FunctionId × Value)} {state next last : Rendering κ σ}
    (h : (runNoting setting sink body elseBody pushed script).outcome state =
      (.ok ((a, left), asked), next))
    (hrest : (runNoting setting sink body elseBody left (rest a)).outcome next =
      (.ok (answer, later), last)) :
    (runNoting setting sink body elseBody pushed (script.bind rest)).outcome state =
      (.ok (answer, asked ++ later), last) := by
  induction script generalizing pushed state asked with
  | done result =>
    obtain ⟨hanswer, rfl⟩ := Prod.mk.inj h
    cases hanswer
    exact hrest
  | push value position next ih =>
    simp only [runNoting, Script.bind, outcome_bind, outcome_attempt] at h ⊢
    rcases hpush : (push setting value position : Render κ σ Unit).outcome state with
      ⟨error | ⟨⟩, opened⟩
    · rw [hpush] at h
      exact ih _ h
    · rw [hpush] at h
      exact ih _ h
  | pop next ih =>
    cases pushed with
    | zero => exact ih _ h
    | succ left => exact ih _ h
  | renderBody next ih =>
    simp only [runNoting, Script.bind, outcome_bind, outcome_attempt] at h ⊢
    exact ih _ h
  | renderElse next ih =>
    simp only [runNoting, Script.bind, outcome_bind, outcome_attempt] at h ⊢
    exact ih _ h
  | append text next ih =>
    simp only [runNoting, Script.bind, outcome_bind, outcome_attempt] at h ⊢
    exact ih _ h
  | peek next ih => exact ih _ h
  | resolve name next ih => exact ih _ h
  | apply function argument next ih =>
    obtain ⟨reply, further, behind, hnoting, -⟩ := outcome_runNoting setting sink body elseBody
      (next (setting.transform function argument)) pushed state
    rw [runNoting, outcome_bind, hnoting] at h
    obtain ⟨hanswer, rfl⟩ := Prod.mk.inj h
    cases hanswer
    rw [Script.bind, runNoting, outcome_bind, ih _ hnoting]
    rfl

/-- A call carries an action out: with this result, these questions to transforms, and this state
behind it, where no scope of its own is open. -/
def Notes (setting : Setting κ) (sink : Sink σ) (body elseBody : Render κ σ Unit)
    (action : HelperAction α) (state : Rendering κ σ) (result : Except Error α)
    (asked : List (FunctionId × Value)) (last : Rendering κ σ) : Prop :=
  (runNoting setting sink body elseBody 0 action.run).outcome state =
    (.ok ((result, 0), asked), last)

section Rules

variable {state next last : Rendering κ σ} {asked later : List (FunctionId × Value)}

theorem notes_ofExcept (result : Except Error α) :
    Notes setting sink body elseBody (HelperAction.ofExcept result) state result [] state := rfl

theorem Notes.bind {action : HelperAction α} {rest : α → HelperAction β} {a : α}
    {result : Except Error β} (h : Notes setting sink body elseBody action state (.ok a) asked next)
    (hrest : Notes setting sink body elseBody (rest a) next result later last) :
    Notes setting sink body elseBody (action >>= rest) state result (asked ++ later) last :=
  outcome_runNoting_bind h hrest

theorem Notes.bind_error {action : HelperAction α} {rest : α → HelperAction β} {error : Error}
    (h : Notes setting sink body elseBody action state (.error error) asked last) :
    Notes setting sink body elseBody (action >>= rest) state (.error error) asked last := by
  rw [← List.append_nil asked]
  exact outcome_runNoting_bind h rfl

theorem notes_renderElse (state : Rendering κ σ) :
    Notes setting sink body elseBody HelperAction.renderElse state (elseBody.outcome state).1 []
      (elseBody.outcome state).2 := by
  simp only [Notes, HelperAction.renderElse, ExceptT.run, ExceptT.mk, runNoting, outcome_bind,
    outcome_attempt]
  rfl

theorem notes_renderBodyUnder (value : Value) (position : Option Iteration)
    (state : Rendering κ σ) :
    Notes setting sink body elseBody (HelperAction.renderBodyUnder value position) state
      ((under setting value position body).outcome state).1 []
      ((under setting value position body).outcome state).2 := by
  simp only [Notes, HelperAction.run_renderBodyUnder, runNoting, under, outcome_bind,
    outcome_attempt, outcome_andFinally]
  rcases (push setting value position : Render κ σ Unit).outcome state with ⟨error | ⟨⟩, opened⟩
  · rfl
  · simp only [outcome_bind, outcome_attempt]
    rcases body.outcome opened with ⟨error | ⟨⟩, last⟩ <;> rfl

end Rules

/-! ### The rounds of a call -/

variable {transform : Option FunctionId} {size : Nat}

theorem survivors_cons_of_none {element : Value} (h : setting.kept? transform element = none)
    (before : Nat) (later : List Value) :
    setting.survivors transform size before (element :: later) =
      setting.survivors transform size (before + 1) later := by
  simp [Setting.survivors, List.zipIdx_cons, h]

theorem survivors_cons_of_some {element value : Value}
    (h : setting.kept? transform element = some value) (before : Nat) (later : List Value) :
    setting.survivors transform size before (element :: later) =
      ⟨value, some ⟨before + 1, size⟩⟩ :: setting.survivors transform size (before + 1) later := by
  simp [Setting.survivors, List.zipIdx_cons, h]

/-- How many elements a call gets to, which ends with the first round that fails. -/
def reached (setting : Setting κ) (body : Render κ σ Unit) (transform : Option FunctionId)
    (size : Nat) : Nat → List Value → Rendering κ σ → Nat
  | _, [], _ => 0
  | before, element :: later, state =>
    match setting.kept? transform element with
    | none => reached setting body transform size (before + 1) later state + 1
    | some value =>
      match (under setting value (some ⟨before + 1, size⟩) body).outcome state with
      | (.ok (), next) => reached setting body transform size (before + 1) later next + 1
      | (.error _, _) => 1

def askedFor (transform : Option FunctionId) (elements : List Value) :
    List (FunctionId × Value) :=
  transform.elim [] fun f => elements.map (Prod.mk f)

theorem reached_le (before : Nat) (elements : List Value) (state : Rendering κ σ) :
    reached setting body transform size before elements state ≤ elements.length := by
  induction elements generalizing before state with
  | nil => exact Nat.le_refl 0
  | cons element later ih =>
    rw [reached, List.length_cons]
    split
    · exact Nat.succ_le_succ (ih _ _)
    · split
      · exact Nat.succ_le_succ (ih _ _)
      · exact Nat.le_add_left 1 _

/-- An element is reached exactly if no round in front of it fails. -/
theorem lt_reached_iff {before k : Nat} {elements : List Value} (hk : k < elements.length)
    (state : Rendering κ σ) :
    k < reached setting body transform size before elements state ↔
      ((rounds setting body (setting.survivors transform size before (elements.take k))).outcome
        state).1 = .ok () := by
  induction elements generalizing before k state with
  | nil => contradiction
  | cons element later ih =>
    cases k with
    | zero =>
      refine iff_of_true ?_ rfl
      rw [reached]
      split
      · exact Nat.succ_pos _
      · split <;> exact Nat.succ_pos _
    | succ k =>
      have hlater : k < later.length := Nat.lt_of_succ_lt_succ hk
      rw [reached, List.take_succ_cons]
      split
      · rename_i hkept
        rw [survivors_cons_of_none hkept, Nat.succ_lt_succ_iff]
        exact ih hlater state
      · rename_i value hkept
        rw [survivors_cons_of_some hkept, rounds, outcome_bind]
        rcases (under setting value (some ⟨before + 1, size⟩) body).outcome state with
          ⟨error | ⟨⟩, next⟩
        · simp
        · rw [Nat.succ_lt_succ_iff]
          exact ih hlater next

theorem askedFor_cons (element : Value) (later : List Value) :
    askedFor transform (element :: later) =
      askedFor transform [element] ++ askedFor transform later := by
  cases transform <;> rfl

theorem notes_element? (element : Value) (state : Rendering κ σ) :
    Notes setting sink body elseBody (EachHelper.element? transform element) state
      (.ok (setting.kept? transform element)) (askedFor transform [element]) state := by
  cases transform <;> rfl

/-- A call renders its rounds up to the first that fails, and asks for the elements it gets to. -/
theorem notes_renderElements {before : Nat} {elements : List Value} {state last : Rendering κ σ}
    {result : Except Error Unit}
    (h : (rounds setting body (setting.survivors transform size before elements)).outcome state =
      (result, last)) (rendered : Bool) :
    Notes setting sink body elseBody
      (EachHelper.renderElements transform size before rendered elements) state
      (result.map fun _ =>
        rendered || !(setting.survivors transform size before elements).isEmpty)
      (askedFor transform
        (elements.take (reached setting body transform size before elements state))) last := by
  induction elements generalizing before rendered state with
  | nil =>
    cases h
    cases transform <;> cases rendered <;> rfl
  | cons element later ih =>
    have helement : Notes setting sink body elseBody (EachHelper.element? transform element) state
        (.ok (setting.kept? transform element)) (askedFor transform [element]) state :=
      notes_element? element state
    rw [EachHelper.renderElements]
    cases hkept : setting.kept? transform element with
    | none =>
      rw [hkept] at helement
      rw [survivors_cons_of_none hkept] at h ⊢
      rw [reached, hkept, List.take_succ_cons, askedFor_cons element (later.take _)]
      exact helement.bind (ih h rendered)
    | some value =>
      have hround : Notes setting sink body elseBody
          (HelperAction.renderBodyUnder value (some ⟨before + 1, size⟩)) state _ [] _ :=
        notes_renderBodyUnder value _ state
      rw [survivors_cons_of_some hkept] at h ⊢
      rw [rounds, outcome_bind] at h
      rw [hkept] at helement
      rcases hunder : (under setting value (some ⟨before + 1, size⟩) body).outcome state with
        ⟨error | ⟨⟩, next⟩
      · simp only [hunder] at h hround
        obtain ⟨rfl, rfl⟩ := Prod.mk.inj h
        have hreached :
            reached setting body transform size before (element :: later) state = 1 := by
          simp only [reached, hkept, hunder]
        have hfailed : Notes setting sink body elseBody
            (HelperAction.renderBodyUnder value (some ⟨before + 1, size⟩) >>= fun _ =>
              EachHelper.renderElements transform size (before + 1) true later) state
            (.error error) [] next := hround.bind_error
        rw [hreached, ← List.append_nil (askedFor transform _)]
        exact helement.bind hfailed
      · simp only [hunder] at h hround
        have hreached : reached setting body transform size before (element :: later) state =
            reached setting body transform size (before + 1) later next + 1 := by
          simp only [reached, hkept, hunder]
        rw [hreached, List.take_succ_cons, askedFor_cons element (later.take _), List.isEmpty_cons,
          Bool.not_false, Bool.or_true]
        exact helement.bind (hround.bind (ih h true))

def roundsOrElse (setting : Setting κ) (body elseBody : Render κ σ Unit) (frames : List Frame) :
    Render κ σ Unit := do
  rounds setting body frames
  if frames.isEmpty then elseBody else pure ()

theorem transform?_eq_ok {call : Call}
    (h : call.named? applyKey = transform.map Value.function) :
    EachHelper.transform? call = .ok transform := by
  rw [EachHelper.transform?, h]
  cases transform <;> rfl

theorem notes_execute {call : Call} {elements : List Value}
    (helements : (call.param 0).elements = some elements)
    (htransform : call.named? applyKey = transform.map Value.function)
    {state last : Rendering κ σ} {result : Except Error Unit}
    (h : (roundsOrElse setting body elseBody
      (setting.survivors transform elements.length 0 elements)).outcome state = (result, last)) :
    Notes setting sink body elseBody (EachHelper.execute call) state result
      (askedFor transform
        (elements.take (reached setting body transform elements.length 0 elements state)))
      last := by
  have hread : Notes setting sink body elseBody (HelperAction.ofExcept (.ok transform)) state
      (.ok transform) [] state := notes_ofExcept _
  rw [EachHelper.execute, helements, transform?_eq_ok htransform,
    ← List.nil_append (askedFor transform _)]
  refine hread.bind ?_
  rw [roundsOrElse, outcome_bind] at h
  rcases houtcome : (rounds setting body
    (setting.survivors transform elements.length 0 elements)).outcome state with
    ⟨error | ⟨⟩, next⟩
  · rw [houtcome] at h
    obtain ⟨rfl, rfl⟩ := Prod.mk.inj h
    exact (notes_renderElements houtcome false).bind_error
  · rw [houtcome] at h
    rw [← List.append_nil (askedFor transform _)]
    refine (notes_renderElements houtcome false).bind ?_
    cases hnone : (setting.survivors transform elements.length 0 elements).isEmpty with
    | true =>
      have helse : Notes setting sink body elseBody HelperAction.renderElse next _ [] _ :=
        notes_renderElse next
      simp only [hnone, if_true] at h
      rw [h] at helse
      exact helse
    | false =>
      simp only [hnone, Bool.false_eq_true, if_false] at h
      obtain ⟨rfl, rfl⟩ := Prod.mk.inj h
      exact notes_ofExcept (.ok ())

/-! ### Calls -/

def invocationNoting (setting : Setting κ) (sink : Sink σ) (helper : Helper) (tag : HelperTag)
    (hasElse : Bool) (body elseBody : Render κ σ Unit) :
    Render κ σ (Except Error Unit × List (FunctionId × Value)) := do
  let call ← ask fun state => callOf setting state.scope tag hasElse
  let ((result, pushed), asked) ←
    runNoting setting sink body elseBody 0 (helper.execute call).run
  changeScope (.drop pushed)
  pure (result, asked)

theorem outcome_invocationNoting (sink : Sink σ) (helper : Helper) (tag : HelperTag)
    (hasElse : Bool) (body elseBody : Render κ σ Unit) {state last : Rendering κ σ}
    {result : Except Error Unit} {asked : List (FunctionId × Value)}
    (h : Notes setting sink body elseBody
      (helper.execute (callOf setting state.scope tag hasElse)) state result asked last) :
    (invocationNoting setting sink helper tag hasElse body elseBody).outcome state =
        (.ok (result, asked), last) ∧
      (invocation setting sink helper tag hasElse body elseBody).outcome state =
        (result, last) := by
  obtain ⟨answer, questions, behind, hnoting, hplain⟩ := outcome_runNoting setting sink body
    elseBody (helper.execute (callOf setting state.scope tag hasElse)).run 0 state
  rw [Notes, hnoting] at h
  cases h
  have hask {β : Type} (rest : Call → Render κ σ β) :
      ((ask fun state => callOf setting state.scope tag hasElse) >>= rest).outcome state =
        (rest (callOf setting state.scope tag hasElse)).outcome state := rfl
  refine ⟨?_, outcome_invocation hplain⟩
  rw [invocationNoting, hask, outcome_bind, hnoting]
  rfl

/-! ### Sections -/

/-- A section of a collection is a round under each of its elements. -/
theorem elements_eq_rounds (setting : Setting κ) (body : Render κ σ Unit) (size before : Nat)
    (values : List Value) :
    elements setting body size before values =
      rounds setting body (setting.survivors none size before values) := by
  induction values generalizing before with
  | nil => rfl
  | cons value later ih =>
    rw [survivors_cons_of_some rfl, elements, rounds, ih]

theorem outcome_plainBlock_of_elements {name : String} {value : Value} {found : List Value}
    {state : Rendering κ σ} (hvalue : setting.naming.resolve state.scope name = some value)
    (hfound : value.elements = some found) :
    (plainBlock setting name body).outcome state =
      (elements setting body found.length 0 found).outcome state := by
  rw [plainBlock, outcome_resolve_bind, hvalue]
  simp only [hfound]

theorem outcome_roundsOrElse_pure (frames : List Frame) (state : Rendering κ σ) :
    (roundsOrElse setting body (pure ()) frames).outcome state =
      (rounds setting body frames).outcome state := by
  rw [roundsOrElse, ite_self, outcome_bind]
  rcases (rounds setting body frames).outcome state with ⟨error | ⟨⟩, last⟩ <;> rfl

/-- A call of `each` with nothing but the name of a collection is a section of that name. -/
theorem outcome_invocation_eq_plainBlock {name : String} {value : Value} {found : List Value}
    {tag : HelperTag} {state : Rendering κ σ} (hparams : tag.params = [.name name])
    (hnamed : tag.named = []) (hvalue : setting.naming.resolve state.scope name = some value)
    (hfound : value.elements = some found) (sink : Sink σ) (body : Render κ σ Unit) :
    (invocation setting sink eachHelper tag false body (pure ())).outcome state =
      (plainBlock setting name body).outcome state := by
  have hparam : (callOf setting state.scope tag false).param 0 = value := by
    simp [callOf, Call.param, hparams, Naming.evaluate, hvalue]
  have happly : (callOf setting state.scope tag false).named? applyKey =
      (none : Option FunctionId).map Value.function := by simp [callOf, Call.named?, hnamed]
  have hrounds : (roundsOrElse setting body (pure ())
      (setting.survivors none found.length 0 found)).outcome state =
        (plainBlock setting name body).outcome state := by
    rw [outcome_plainBlock_of_elements hvalue hfound, elements_eq_rounds]
    exact outcome_roundsOrElse_pure _ state
  have hcall : Notes setting sink body (pure ())
      (eachHelper.execute (callOf setting state.scope tag false)) state _ _ _ :=
    notes_execute (hparam ▸ hfound) happly hrounds
  exact (outcome_invocationNoting sink eachHelper tag false body (pure ()) hcall).2

end Render

end Stencil
