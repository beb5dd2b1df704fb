import AxiomGrid.Lib.Dict
import AxiomGrid.Lib.PyFloat
import AxiomGrid.Lib.PyStr
import Mathlib.Tactic.Common

/-!
# Trajectories of interface actions

`UniversalVerifier.verify`, `detect_loop` and `CUAExecutor.execute_trajectory` of `kairo/cua/engine.py`.
The executor looks for a loop after every step, and the verifier once, at the end of the trajectory. They
agree on the trajectories that do not leave a loop.
-/

namespace AxiomGrid.Kairo.Cua

/-! ### Data structures -/

inductive ActionOutcome where
  | pass
  | failControllable
  | failUncontrollable
  | stagnation
  deriving DecidableEq

inductive UIStateType where
  | mainWindow
  | modalDialog
  | dropdownOpen
  | dropdownClosed
  | textEntered
  | checkboxToggled
  | navigation
  | errorState
  | loading
  | unchanged
  deriving DecidableEq

/-- A dictionary of texts: no key occurs twice. -/
structure TextValues where
  items : Dict Str Str := []
  nodup : (items.map Prod.fst).Nodup := by decide

structure UIState where
  stateType : UIStateType
  elementCount : ℤ := 0
  modalPresent : Bool := false
  dropdownOpen : Bool := false
  focusedElement : Str := []
  textValues : TextValues := {}
  errorIndicators : List Str := []

structure Action where
  actionType : Str
  targetElementId : Str := []
  targetQuery : Str := []
  value : Str := []
  description : Str := []

structure TrajectoryStep where
  stepIndex : ℤ
  action : Action
  predictedState : UIState
  actualState : Option UIState := none
  humanLabel : Str := []
  verified : Bool := false

structure Trajectory where
  trajectoryId : Str
  steps : List TrajectoryStep := []
  finalOutcome : ActionOutcome := .failControllable
  receiptEmitted : Bool := false
  auditLogJson : Str := []
  egressReportJson : Str := []

/-! ### Loops -/

/-- `_states_equal`. -/
def statesEqual (a b : UIState) : Bool :=
  a.stateType = b.stateType ∧ a.elementCount = b.elementCount ∧ a.modalPresent = b.modalPresent ∧
    a.dropdownOpen = b.dropdownOpen ∧ a.focusedElement = b.focusedElement ∧
    a.textValues.items.same b.textValues.items

/-- `WorldModel.detect_stagnation`, for a window that is not empty. -/
def detectStagnation (stateHistory : List UIState) (windowSize : ℕ) : Bool :=
  if stateHistory.length < windowSize then false
  else
    match stateHistory.drop (stateHistory.length - windowSize) with
    | [] => true
    | first :: recent => recent.all fun state => statesEqual state first

structure LoopResult where
  loopDetected : Bool
  repeatCount : ℕ
  repeatedState : Option UIState
  stagnation : Bool := false

/-- `detect_loop`. -/
def detectLoop (stateHistory : List UIState) (windowSize maxRepeats : ℕ) : LoopResult :=
  if stateHistory.length < windowSize then
    { loopDetected := false, repeatCount := 0, repeatedState := none }
  else
    let isStagnant := detectStagnation stateHistory windowSize
    match stateHistory.reverse with
    | [] => { loopDetected := isStagnant, repeatCount := 0, repeatedState := none }
    | last :: earlier =>
      let repeatCount := 1 + (earlier.takeWhile fun state => statesEqual state last).length
      let loopDetected := decide (maxRepeats ≤ repeatCount) || isStagnant
      { loopDetected
        repeatCount
        repeatedState := if loopDetected then some last else none
        stagnation := isStagnant }

/-! ### The verifier -/

/-- `_states_match`. -/
def statesMatch (predicted actual : UIState) : Bool :=
  if predicted.stateType ≠ actual.stateType then
    predicted.stateType = .unchanged ∧ actual.stateType ≠ .errorState
  else predicted.modalPresent = actual.modalPresent ∧ predicted.dropdownOpen = actual.dropdownOpen

/-- The state shows an error. -/
def UIState.hasError (state : UIState) : Bool :=
  state.errorIndicators ≠ [] ∨ state.stateType = .errorState

/-- The actual states that are recorded, in order. -/
def actualStates (steps : List TrajectoryStep) : List UIState :=
  steps.filterMap (·.actualState)

/-- The predictions that have an actual state. -/
def transitions (steps : List TrajectoryStep) : List (UIState × UIState) :=
  steps.filterMap fun step => step.actualState.map fun actual => (step.predictedState, actual)

def goalAchieved (steps : List TrajectoryStep) : Bool :=
  (steps.any fun step => step.humanLabel = "pass".toList) ||
    (actualStates steps).getLast?.any fun last =>
      last.stateType ≠ .errorState ∧ last.stateType ≠ .unchanged

structure Scores where
  stateTransitionMatch : Bool
  goalAchievement : Bool
  noErrorStates : Bool
  noStagnation : Bool
  actionCompletion : Bool

def Scores.values (scores : Scores) : List Bool :=
  [scores.stateTransitionMatch, scores.goalAchievement, scores.noErrorStates, scores.noStagnation,
    scores.actionCompletion]

/-- `details`. -/
structure Details where
  transitionMatches : ℕ
  transitionTotal : ℕ
  stagnationDetected : Bool
  stepsCompleted : ℕ
  stepsTotal : ℕ
  scores : Scores
  overallScore : PyFloat

/-- The window of the verifier, and the default limits of the executor. -/
def window : ℕ := 3

/-- The five criteria. -/
def score (steps : List TrajectoryStep) : Scores :=
  let stateHistory := actualStates steps
  let isStagnant := if window ≤ stateHistory.length then detectStagnation stateHistory window else false
  { stateTransitionMatch := 0 < (transitions steps).length ∧
      (transitions steps).countP (fun t => statesMatch t.1 t.2) = (transitions steps).length
    goalAchievement := goalAchieved steps
    noErrorStates := !stateHistory.any UIState.hasError
    noStagnation := !isStagnant
    actionCompletion := steps.all fun step => step.actualState.isSome }

/-- `UniversalVerifier.verify`. -/
def verify (steps : List TrajectoryStep) : ActionOutcome × Details :=
  let scores := score steps
  let outcome :=
    if scores.noStagnation = false then .stagnation
    else if scores.values.all id then .pass
    else if scores.noErrorStates = false ∧ scores.actionCompletion = true then .failUncontrollable
    else .failControllable
  (outcome,
    { transitionMatches := (transitions steps).countP fun t => statesMatch t.1 t.2
      transitionTotal := (transitions steps).length
      stagnationDetected := !scores.noStagnation
      stepsCompleted := steps.countP fun step => step.actualState.isSome
      stepsTotal := steps.length
      scores
      overallScore := (PyFloat.div (scores.values.countP id : ℕ) (5 : ℕ)).round 4 })

/-! ### The executor -/

/-- The step as it is recorded. -/
def executed (step : TrajectoryStep) : TrajectoryStep := { step with verified := false }

variable {κ : Type}

/-- The audit log and the report that `_emit_receipt` makes with a key. -/
abbrev Receipts (κ : Type) := κ → List TrajectoryStep → Str × Str

variable (receipts : Receipts κ) (privateKey : Option κ)

/-- The end of `execute_trajectory`: the receipt is gated by the verifier. -/
def finish (steps : List TrajectoryStep) : Trajectory :=
  let outcome := (verify steps).1
  let steps := if outcome = .pass then steps.map fun s => { s with verified := true } else steps
  match privateKey with
  | some key =>
    if outcome = .pass then
      { trajectoryId := "exec_0".toList
        steps
        finalOutcome := outcome
        receiptEmitted := true
        auditLogJson := (receipts key steps).1
        egressReportJson := (receipts key steps).2 }
    else { trajectoryId := "exec_0".toList, steps, finalOutcome := outcome }
  | none => { trajectoryId := "exec_0".toList, steps, finalOutcome := outcome }

/-- The loop of `execute_trajectory`, after the steps `done` with the states `stateHistory`. -/
def executeFrom (done : List TrajectoryStep) (stateHistory : List UIState) :
    List TrajectoryStep → Trajectory
  | [] => finish receipts privateKey done
  | step :: steps =>
    let done := done ++ [executed step]
    let stateHistory := stateHistory ++ step.actualState.toList
    if (detectLoop stateHistory window window).loopDetected then
      { trajectoryId := "exec_0".toList, steps := done, finalOutcome := .stagnation }
    else executeFrom done stateHistory steps

/-- `CUAExecutor.execute_trajectory` with the default settings. -/
def executeTrajectory (steps : List TrajectoryStep) : Trajectory :=
  executeFrom receipts privateKey [] [] steps

/-! ### Equal states -/

/-- The states are structurally equal. -/
def Alike (a b : UIState) : Prop := statesEqual a b = true

lemma alike_iff {a b : UIState} : Alike a b ↔
    a.stateType = b.stateType ∧ a.elementCount = b.elementCount ∧ a.modalPresent = b.modalPresent ∧
      a.dropdownOpen = b.dropdownOpen ∧ a.focusedElement = b.focusedElement ∧
      ∀ k, a.textValues.items.get? k = b.textValues.items.get? k := by
  rw [Alike, statesEqual, decide_eq_true_eq, Dict.same_iff a.textValues.nodup b.textValues.nodup]

lemma Alike.refl (a : UIState) : Alike a a :=
  alike_iff.mpr ⟨rfl, rfl, rfl, rfl, rfl, fun _ => rfl⟩

lemma Alike.symm {a b : UIState} (h : Alike a b) : Alike b a := by
  obtain ⟨htype, hcount, hmodal, hdropdown, hfocus, htexts⟩ := alike_iff.mp h
  exact alike_iff.mpr ⟨htype.symm, hcount.symm, hmodal.symm, hdropdown.symm, hfocus.symm,
    fun k => (htexts k).symm⟩

lemma Alike.trans {a b c : UIState} (h : Alike a b) (h' : Alike b c) : Alike a c := by
  obtain ⟨htype, hcount, hmodal, hdropdown, hfocus, htexts⟩ := alike_iff.mp h
  obtain ⟨htype', hcount', hmodal', hdropdown', hfocus', htexts'⟩ := alike_iff.mp h'
  exact alike_iff.mpr ⟨htype.trans htype', hcount.trans hcount', hmodal.trans hmodal',
    hdropdown.trans hdropdown', hfocus.trans hfocus', fun k => (htexts k).trans (htexts' k)⟩

/-- The last three states are equal. -/
def EndsInLoop (history : List UIState) : Prop :=
  ∃ before a b c, history = before ++ [a, b, c] ∧ Alike a b ∧ Alike b c

/-- Three states in a row are equal. -/
def HasLoop (history : List UIState) : Prop :=
  ∃ before a b c after, history = before ++ a :: b :: c :: after ∧ Alike a b ∧ Alike b c

lemma EndsInLoop.length {history : List UIState} (h : EndsInLoop history) : 3 ≤ history.length := by
  obtain ⟨before, a, b, c, rfl, -⟩ := h
  simp

/-- A history is too short for a loop, or has three last states. -/
lemma last_three (history : List UIState) :
    history.length < 3 ∨ ∃ before a b c, history = before ++ [a, b, c] := by
  rcases List.eq_nil_or_concat' history with rfl | ⟨l, c, rfl⟩
  · exact .inl (by decide)
  rcases List.eq_nil_or_concat' l with rfl | ⟨l, b, rfl⟩
  · exact .inl (by simp)
  rcases List.eq_nil_or_concat' l with rfl | ⟨l, a, rfl⟩
  · exact .inl (by simp)
  exact .inr ⟨l, a, b, c, by simp⟩

lemma endsInLoop_append {before : List UIState} {a b c : UIState} :
    EndsInLoop (before ++ [a, b, c]) ↔ Alike a b ∧ Alike b c := by
  constructor
  · rintro ⟨before', a', b', c', heq, hab, hbc⟩
    obtain ⟨-, hlast⟩ := List.append_inj' heq rfl
    simp only [List.cons.injEq, and_true] at hlast
    obtain ⟨rfl, rfl, rfl⟩ := hlast
    exact ⟨hab, hbc⟩
  · rintro ⟨hab, hbc⟩
    exact ⟨before, a, b, c, rfl, hab, hbc⟩

lemma detectStagnation_iff (history : List UIState) :
    detectStagnation history window = true ↔ EndsInLoop history := by
  rcases last_three history with hshort | ⟨before, a, b, c, rfl⟩
  · rw [detectStagnation, window, if_pos hshort]
    exact iff_of_false Bool.false_ne_true fun h => absurd h.length (by omega)
  · have hlength : ¬ (before ++ [a, b, c]).length < window := by
      simp [window]
    have hdrop : (before ++ [a, b, c]).drop ((before ++ [a, b, c]).length - window) = [a, b, c] := by
      simp [window]
    rw [detectStagnation, if_neg hlength, hdrop, endsInLoop_append]
    simp only [List.all_cons, List.all_nil, Bool.and_true, Bool.and_eq_true]
    constructor
    · rintro ⟨hba, hca⟩
      have hab : Alike a b := Alike.symm hba
      exact ⟨hab, hab.symm.trans (Alike.symm hca)⟩
    · rintro ⟨hab, hbc⟩
      exact ⟨hab.symm, (hab.trans hbc).symm⟩

/-- Counting the repetitions of the last state finds what the comparison of the window finds. -/
lemma loopDetected_iff (history : List UIState) :
    (detectLoop history window window).loopDetected = true ↔ EndsInLoop history := by
  rcases last_three history with hshort | ⟨before, a, b, c, rfl⟩
  · rw [detectLoop, window, if_pos hshort]
    exact iff_of_false Bool.false_ne_true fun h => absurd h.length (by omega)
  · have hlength : ¬ (before ++ [a, b, c]).length < window := by
      simp [window]
    have hreverse : (before ++ [a, b, c]).reverse = c :: b :: a :: before.reverse := by
      simp
    rw [detectLoop, if_neg hlength]
    simp only [hreverse]
    rw [Bool.or_eq_true, detectStagnation_iff, decide_eq_true_eq, or_iff_right_iff_imp,
      endsInLoop_append]
    intro hcount
    rw [List.takeWhile_cons] at hcount
    split_ifs at hcount with hbc
    · rw [List.takeWhile_cons] at hcount
      split_ifs at hcount with hac
      · exact ⟨Alike.trans hac (Alike.symm hbc), hbc⟩
      · simp [window] at hcount
    · simp [window] at hcount

/-! ### The verifier on the finished history -/

lemma noStagnation_iff (steps : List TrajectoryStep) :
    (score steps).noStagnation = false ↔ EndsInLoop (actualStates steps) := by
  simp only [score, Bool.not_eq_false']
  split_ifs with hlength
  · exact detectStagnation_iff _
  · refine iff_of_false not_false fun h => ?_
    exact hlength h.length

lemma verify_eq_stagnation_iff (steps : List TrajectoryStep) :
    (verify steps).1 = .stagnation ↔ EndsInLoop (actualStates steps) := by
  rw [← noStagnation_iff, verify]
  split_ifs with hstagnant
  · exact iff_of_true rfl hstagnant
  · exact iff_of_false nofun hstagnant
  · exact iff_of_false nofun hstagnant
  · exact iff_of_false nofun hstagnant

/-- What a trajectory that passes must be. -/
structure Sound (steps : List TrajectoryStep) : Prop where
  matched : ∀ step ∈ steps, ∃ actual, step.actualState = some actual ∧
    statesMatch step.predictedState actual = true
  noError : ∀ step ∈ steps, ∀ actual, step.actualState = some actual → actual.hasError = false
  noLoop : ¬ HasLoop (actualStates steps)

/-- A pass is sound except for the loops in front of the last three states. -/
lemma sound_of_pass {steps : List TrajectoryStep} (h : (verify steps).1 = .pass)
    (hloop : ¬ HasLoop (actualStates steps)) : Sound steps := by
  have hall : (score steps).values.all id = true := by
    rw [verify] at h
    split_ifs at h with hstagnant hall
    exact hall
  simp only [Scores.values, score, List.all_cons, List.all_nil, id, Bool.and_true, Bool.and_eq_true,
    decide_eq_true_eq, List.all_eq_true, Bool.not_eq_true', List.any_eq_false] at hall
  obtain ⟨⟨-, hmatched⟩, -, hclean, -, hcompleted⟩ := hall
  rw [List.countP_eq_length] at hmatched
  refine ⟨fun step hstep => ?_, fun step hstep actual hactual => ?_, hloop⟩
  · obtain ⟨actual, hactual⟩ := Option.isSome_iff_exists.mp (hcompleted step hstep)
    refine ⟨actual, hactual, hmatched (step.predictedState, actual) ?_⟩
    exact List.mem_filterMap.mpr ⟨step, hstep, by rw [hactual]; rfl⟩
  · have hmem : actual ∈ actualStates steps := List.mem_filterMap.mpr ⟨step, hstep, hactual⟩
    exact Bool.eq_false_iff.mpr (hclean actual hmem)

/-! ### The executor on a run -/

/-- The verifier does not read the marks that the executor sets. -/
lemma verify_executed (steps : List TrajectoryStep) :
    (verify (steps.map executed)).1 = (verify steps).1 := by
  have hactual : actualStates (steps.map executed) = actualStates steps := by
    rw [actualStates, List.filterMap_map]
    rfl
  have htransitions : transitions (steps.map executed) = transitions steps := by
    rw [transitions, List.filterMap_map]
    rfl
  have hscore : score (steps.map executed) = score steps := by
    simp only [score, hactual, htransitions, goalAchieved, List.any_map, List.all_map]
    rfl
  simp only [verify, hscore]

lemma finish_finalOutcome (steps : List TrajectoryStep) :
    (finish receipts privateKey steps).finalOutcome = (verify steps).1 := by
  cases privateKey with
  | none => rfl
  | some key =>
    unfold finish
    dsimp only
    split_ifs
    · rfl
    · rfl

lemma finish_receiptEmitted {steps : List TrajectoryStep}
    (h : (finish receipts privateKey steps).receiptEmitted = true) : (verify steps).1 = .pass := by
  cases privateKey with
  | none => cases h
  | some key =>
    unfold finish at h
    dsimp only at h
    split_ifs at h with hpass
    exact hpass

/-- The executor finishes a run without a loop. -/
lemma executeFrom_of_not {done steps : List TrajectoryStep} {history : List UIState}
    (h : ∀ p, p <+: steps → p ≠ [] → ¬ EndsInLoop (history ++ actualStates p)) :
    executeFrom receipts privateKey done history steps =
      finish receipts privateKey (done ++ steps.map executed) := by
  induction steps generalizing done history with
  | nil => rw [executeFrom, List.map_nil, List.append_nil]
  | cons step steps ih =>
    have hstep : actualStates [step] = step.actualState.toList := by
      cases hactual : step.actualState <;> simp [actualStates, hactual]
    have hfirst := h [step] ⟨steps, rfl⟩ (List.cons_ne_nil _ _)
    rw [hstep, ← loopDetected_iff] at hfirst
    rw [executeFrom, if_neg hfirst, ih, List.append_assoc]
    · rfl
    · intro p hp hne
      have hlater := h (step :: p) (List.cons_prefix_cons.mpr ⟨rfl, hp⟩) (List.cons_ne_nil _ _)
      have hsplit : actualStates (step :: p) = step.actualState.toList ++ actualStates p := by
        rw [← hstep, actualStates, actualStates, actualStates, ← List.filterMap_append]
        rfl
      rwa [hsplit, ← List.append_assoc] at hlater

/-- The executor stops at the first prefix that ends in a loop. -/
lemma executeFrom_of_loop {done steps p : List TrajectoryStep} {history : List UIState}
    (hp : p <+: steps) (hne : p ≠ []) (h : EndsInLoop (history ++ actualStates p)) :
    (executeFrom receipts privateKey done history steps).finalOutcome = .stagnation ∧
      (executeFrom receipts privateKey done history steps).receiptEmitted = false := by
  induction steps generalizing done history p with
  | nil => exact absurd (List.prefix_nil.mp hp) hne
  | cons step steps ih =>
    obtain ⟨step', p, rfl⟩ := List.exists_cons_of_ne_nil hne
    obtain ⟨rfl, hrest⟩ := List.cons_prefix_cons.mp hp
    have hsplit : actualStates (step' :: p) = step'.actualState.toList ++ actualStates p := by
      cases hactual : step'.actualState <;> simp [actualStates, hactual]
    rw [hsplit, ← List.append_assoc] at h
    rw [executeFrom]
    split_ifs with hstop
    · exact ⟨rfl, rfl⟩
    · refine ih hrest ?_ h
      rintro rfl
      rw [loopDetected_iff] at hstop
      exact hstop (by simpa [actualStates] using h)

/-- A loop in the history is the end of a prefix of the steps. -/
lemma hasLoop_iff_history (steps : List TrajectoryStep) :
    HasLoop (actualStates steps) ↔ ∃ p, p <+: steps ∧ p ≠ [] ∧ EndsInLoop (actualStates p) := by
  constructor
  · rintro ⟨before, a, b, c, after, heq, hab, hbc⟩
    have hsplit : actualStates steps = (before ++ [a, b, c]) ++ after := by
      rw [heq]
      simp
    obtain ⟨p, rest, rfl, hp, -⟩ := List.filterMap_eq_append_iff.mp hsplit
    refine ⟨p, List.prefix_append p rest, ?_, before, a, b, c, hp, hab, hbc⟩
    rintro rfl
    exact absurd hp.symm (by simp)
  · rintro ⟨p, ⟨rest, rfl⟩, -, before, a, b, c, hp, hab, hbc⟩
    refine ⟨before, a, b, c, actualStates rest, ?_, hab, hbc⟩
    rw [actualStates, List.filterMap_append, ← actualStates, hp, ← actualStates]
    simp

/-- The verifier and the executor agree, and nothing passes or gets a receipt without being sound. -/
structure Agrees (steps : List TrajectoryStep) : Prop where
  outcome : (verify steps).1 = (executeTrajectory receipts privateKey steps).finalOutcome
  passed : (verify steps).1 = .pass → Sound steps
  receipt : (executeTrajectory receipts privateKey steps).receiptEmitted = true → Sound steps

/-- The verifier and the executor agree exactly on the trajectories whose loops, if they have any, go on
to the end: the verifier compares the last three states and no others. -/
theorem agrees_iff (steps : List TrajectoryStep) :
    Agrees receipts privateKey steps ↔
      (HasLoop (actualStates steps) → EndsInLoop (actualStates steps)) := by
  by_cases hloop : HasLoop (actualStates steps)
  · obtain ⟨p, hp, hne, hends⟩ := (hasLoop_iff_history steps).mp hloop
    obtain ⟨hstopped, hreceipt⟩ :=
      @executeFrom_of_loop _ receipts privateKey [] steps p [] hp hne hends
    rw [← executeTrajectory] at hstopped hreceipt
    constructor
    · intro h _
      exact (verify_eq_stagnation_iff steps).mp (h.outcome.trans hstopped)
    · intro h
      have hstagnant := (verify_eq_stagnation_iff steps).mpr (h hloop)
      refine ⟨hstagnant.trans hstopped.symm, fun hpass => ?_, fun hemitted => ?_⟩
      · exact absurd (hstagnant.symm.trans hpass) nofun
      · exact absurd (hreceipt.symm.trans hemitted) nofun
  · have hrun : executeTrajectory receipts privateKey steps =
        finish receipts privateKey (steps.map executed) := by
      apply executeFrom_of_not
      intro p hp hne hends
      exact hloop ((hasLoop_iff_history steps).mpr ⟨p, hp, hne, hends⟩)
    refine iff_of_true ⟨?_, fun hpass => sound_of_pass hpass hloop, fun hemitted => ?_⟩
      fun h => absurd h hloop
    · rw [hrun, finish_finalOutcome, verify_executed]
    · rw [hrun] at hemitted
      have hpass := finish_receiptEmitted receipts privateKey hemitted
      rw [verify_executed] at hpass
      exact sound_of_pass hpass hloop

namespace Sample

/-- A state of the given type. -/
def state (stateType : UIStateType) : UIState := { stateType }

/-- A step that goes as predicted. -/
def step (stepIndex : ℤ) (stateType : UIStateType) : TrajectoryStep where
  stepIndex := stepIndex
  action := { actionType := "type".toList }
  predictedState := state stateType
  actualState := some (state stateType)

/-- Three equal states, and then another one. -/
def steps : List TrajectoryStep :=
  [step 0 .textEntered, step 1 .textEntered, step 2 .textEntered, step 3 .navigation]

end Sample

/-- The verifier passes a trajectory that the executor stops. -/
theorem verify_misses_loop :
    (verify Sample.steps).1 = .pass ∧
      (executeTrajectory (fun (_ : Unit) _ => ([], [])) none Sample.steps).finalOutcome =
        .stagnation ∧
      HasLoop (actualStates Sample.steps) := by
  refine ⟨by decide +kernel, by decide +kernel, ?_⟩
  exact ⟨[], Sample.state .textEntered, Sample.state .textEntered, Sample.state .textEntered,
    [Sample.state .navigation], rfl, Alike.refl _, Alike.refl _⟩

end AxiomGrid.Kairo.Cua
