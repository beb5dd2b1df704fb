import AxiomGrid.LoopEngineering.Green
import Mathlib.Data.List.Dedup

/-!
# Order, budget and terminal states

What holds of the tasks over whole runs besides that nothing is green without cause: a task leaves the
blocked state only when its dependencies are done, a script is only tried again while there is budget and
its failures differ, and a task that is done stays done until somebody says otherwise.
-/

namespace AxiomGrid.LoopEngineering

variable {py : Platform} {w : World} {s s' : State} {journal : List (World × Command)}

/-! ### Order -/

/-- At some point of the run all these dependencies were done. -/
def OnceDone (py : Platform) (s : State) (journal : List (World × Command)) (deps : List String) : Prop :=
  ∃ past, past <+: journal ∧ depsDone (executeAll py s past) deps = true

lemma OnceDone.mono {journal' : List (World × Command)} {deps : List String}
    (h : OnceDone py s journal deps) : OnceDone py s (journal ++ journal') deps := by
  obtain ⟨past, hprefix, hdone⟩ := h
  exact ⟨past, hprefix.trans (List.prefix_append _ _), hdone⟩

lemma onceDone_now {deps : List String} (h : depsDone (executeAll py s journal) deps = true) :
    OnceDone py s journal deps := ⟨journal, List.prefix_refl _, h⟩

/-- A task that is neither blocked nor given up has once had its dependencies done. -/
lemma onceDone_of_active (hfresh : ∀ t ∈ s.tasks, t.status ≠ .blocked → depsDone s t.deps = true) :
    ∀ t ∈ (executeAll py s journal).tasks, t.status ≠ .blocked → t.status ≠ .wontFix →
      OnceDone py s journal t.deps := by
  refine tasks_induction
    (P := fun journal t => t.status ≠ .blocked → t.status ≠ .wontFix → OnceDone py s journal t.deps)
    (fun t ht hactive _ => onceDone_now (hfresh t ht hactive)) ?_ ?_
  · intro journal step t h hactive hwontFix
    exact (h hactive hwontFix).mono
  · intro journal w c s' t t' _ hs' ih hstep hactive hwontFix
    have hbefore : ∀ {deps}, depsDone (executeAll py s journal) deps = true →
        OnceDone py s (journal ++ [(w, c)]) deps := fun h => (onceDone_now h).mono
    cases hstep with
    | kept => exact (ih hactive hwontFix).mono
    | promoted hblocked hdeps =>
      rcases hdeps with hdeps | hdeps
      · exact hbefore hdeps
      · exact onceDone_now (hs' ▸ hdeps)
    | ran hc hdone hwont hblocked =>
      by_cases hstatus : t.status = .blocked
      · exact hbefore (hblocked hstatus)
      · exact (ih hstatus hwont).mono
    | attestedFail hc hopen hdeps => exact hbefore hdeps
    | attestedPass hc hopen hdeps => exact hbefore hdeps
    | wontFixed => exact absurd rfl hwontFix
    | reset hc =>
      by_cases hdeps : depsDone (executeAll py s journal) t.deps = true
      · exact hbefore hdeps
      · simp [hdeps] at hactive

lemma mem_of_depsDone {deps : List String} (h : depsDone s deps = true) :
    ∀ d ∈ deps, ∃ t ∈ s.tasks, t.id = d ∧ t.status = .done := by
  intro d hd
  rw [depsDone, List.all_eq_true] at h
  obtain ⟨t, ht, hdone⟩ := List.any_eq_true.mp (h d hd)
  rw [Bool.and_eq_true, beq_iff_eq, beq_iff_eq] at hdone
  exact ⟨t, ht, hdone.2, hdone.1⟩

/-- From a state with nothing done and no task open before its dependencies, in every run: where a task
is open or done, there was a point of the run at which each of its dependencies was done, and had been
earned by then. -/
theorem executeAll_order (py : Platform) (s : State) (hfresh : ∀ t ∈ s.tasks, t.status ≠ .done)
    (hblocked : ∀ t ∈ s.tasks, t.status ≠ .blocked → t.deps = []) (journal : List (World × Command)) :
    ∀ t ∈ (executeAll py s journal).tasks, t.status ≠ .blocked → t.status ≠ .wontFix →
      ∃ past, past <+: journal ∧ ∀ d ∈ t.deps, ∃ t' ∈ (executeAll py s past).tasks,
        t'.id = d ∧ t'.status = .done ∧ Earned py s past t' := by
  intro t ht hactive hwontFix
  have hopen : ∀ t ∈ s.tasks, t.status ≠ .blocked → depsDone s t.deps = true := by
    intro t ht hstatus
    rw [hblocked t ht hstatus]
    rfl
  obtain ⟨past, hprefix, hdone⟩ := onceDone_of_active hopen t ht hactive hwontFix
  refine ⟨past, hprefix, ?_⟩
  intro d hd
  obtain ⟨t', ht', hid, hstatus⟩ := mem_of_depsDone hdone d hd
  exact ⟨t', ht', hid, hstatus, (earned_of_done hfresh t' ht' hstatus).1⟩

namespace Sample

/-- The attested task is done, after the one it depends on. -/
theorem executeAll_order_board : ∃ t ∈ (executeAll platform board boardJournal).tasks, t.deps = ["T0"] ∧
    ∃ past, past <+: boardJournal ∧ ∀ d ∈ t.deps, ∃ t' ∈ (executeAll platform board past).tasks,
      t'.id = d ∧ t'.status = .done ∧ Earned platform board past t' := by
  obtain ⟨green, message, -, htasks⟩ := executeAll_journal
  have hmem : { attestedTask with
      attempts := [attestedAttempt world true message], status := .done, evidence := some green } ∈
      (executeAll platform board boardJournal).tasks := by
    rw [htasks]
    simp
  exact ⟨_, hmem, rfl, executeAll_order platform board (by simp [board]) (by simp [board]) boardJournal _ hmem
    (by simp) (by simp)⟩

end Sample

/-! ### Budget -/

/-- The signatures of the failed attempts. -/
def failures (attempts : List Attempt) : List String :=
  (attempts.filter fun a => !a.passed).map (·.signature)

/-- The last two failures have one signature. -/
def SameTwice (attempts : List Attempt) : Prop :=
  ∃ sigs sig, failures attempts = sigs ++ [sig, sig]

lemma dedup_pair (a b : String) : [a, b].dedup.length = 1 ↔ a = b := by
  by_cases h : a = b
  · subst h
    rw [List.dedup_cons_of_mem (by simp)]
    simp
  · rw [List.dedup_cons_of_notMem (by simpa using h)]
    simp [h]

lemma thrashing_iff {attempts : List Attempt} : thrashing attempts = true ↔ SameTwice attempts := by
  rw [thrashing, ← failures, Bool.and_eq_true, decide_eq_true_iff, beq_iff_eq, repeatLimit, SameTwice]
  constructor
  · rintro ⟨hlength, hdedup⟩
    have hdrop : ((failures attempts).drop ((failures attempts).length - 2)).length = 2 := by
      rw [List.length_drop]
      omega
    obtain ⟨a, b, hab⟩ := List.length_eq_two.mp hdrop
    rw [hab, dedup_pair] at hdedup
    subst hdedup
    refine ⟨(failures attempts).take ((failures attempts).length - 2), a, ?_⟩
    rw [← hab, List.take_append_drop]
  · rintro ⟨sigs, sig, h⟩
    have hdrop : (sigs ++ [sig, sig]).drop ((sigs ++ [sig, sig]).length - 2) = [sig, sig] := by simp
    rw [h, hdrop, dedup_pair]
    exact ⟨by simp, rfl⟩

/-- What the status of a task with a script says about its attempts. -/
structure ScriptState (maxIterations : ℤ) (t : Task) : Prop where
  /-- A task not tried since its last reset has no attempts. -/
  fresh : t.status = .blocked ∨ t.status = .pending → t.attempts = []
  /-- A task that is tried again has budget, and its last failures differ. -/
  retried : t.status = .inProgress → (t.attempts.length : ℤ) < t.maxIterations.getD maxIterations ∧
    ¬SameTwice t.attempts
  /-- A task that is halted has failed, with its budget used up or with the same failure again. -/
  halted : t.status = .halted → t.maxIterations.getD maxIterations ≤ t.attempts.length ∨
    SameTwice t.attempts
  /-- The attempts are runs of the script. -/
  scripts : ∀ a ∈ t.attempts, a.kind = "script"
  neverAwaits : t.status ≠ .awaitingOracle

lemma recordedStatus_retried {n : ℤ} {attempts : List Attempt} {passed : Bool}
    (h : recordedStatus n attempts passed = .inProgress) :
    (attempts.length : ℤ) < n ∧ ¬SameTwice attempts := by
  unfold recordedStatus at h
  split_ifs at h with hpassed hstop
  rw [Bool.or_eq_true, not_or, decide_eq_true_iff, not_le, thrashing_iff] at hstop
  exact ⟨hstop.2, hstop.1⟩

lemma recordedStatus_halted {n : ℤ} {attempts : List Attempt} {passed : Bool}
    (h : recordedStatus n attempts passed = .halted) :
    n ≤ attempts.length ∨ SameTwice attempts := by
  unfold recordedStatus at h
  split_ifs at h with hpassed hstop
  rw [Bool.or_eq_true, decide_eq_true_iff, thrashing_iff] at hstop
  exact hstop.symm

lemma recordedStatus_cases (n : ℤ) (attempts : List Attempt) (passed : Bool) :
    recordedStatus n attempts passed = .done ∨ recordedStatus n attempts passed = .halted ∨
      recordedStatus n attempts passed = .inProgress := by
  unfold recordedStatus
  split_ifs
  · exact .inl rfl
  · exact .inr (.inl rfl)
  · exact .inr (.inr rfl)

/-- A step of a command keeps what the status says. -/
lemma ScriptState.step {c : Command} {t t' : Task} (hscript : t.oracle.type = "script")
    (h : ScriptState s.maxIterations t) (hstep : TaskStep py w s s' c t t') :
    ScriptState s.maxIterations t' := by
  cases hstep with
  | kept => exact h
  | promoted hblocked hdeps =>
    exact
      { fresh := fun _ => h.fresh (.inl hblocked)
        retried := by simp
        halted := by simp
        scripts := h.scripts
        neverAwaits := by simp }
  | @ran passed output attempts hc hdone hwont hblocked _ horacle hattempts =>
    obtain hstatus | hstatus | hstatus := recordedStatus_cases (budget s t) attempts passed
    all_goals
      refine ⟨?_, fun hi => recordedStatus_retried hi, fun hh => recordedStatus_halted hh, ?_, ?_⟩
      · rintro (hs | hs) <;> rw [hstatus] at hs <;> cases hs
      · intro a ha
        rw [hattempts, List.mem_append, List.mem_singleton] at ha
        rcases ha with ha | rfl
        · exact h.scripts a ha
        · rfl
      · simp [hstatus]
  | attestedFail hc hopen hdeps hno => exact absurd hscript hno
  | attestedPass hc hopen hdeps hno => exact absurd hscript hno
  | wontFixed hc =>
    exact
      { fresh := by simp
        retried := by simp
        halted := by simp
        scripts := h.scripts
        neverAwaits := by simp }
  | reset hc =>
    by_cases hdeps : depsDone s t.deps = true
    all_goals
      exact
        { fresh := fun _ => rfl
          retried := by simp [hdeps]
          halted := by simp [hdeps]
          scripts := by simp
          neverAwaits := by simp [hdeps] }

/-- From a state in which no script has been tried, in every run: a script whose task is in progress has
budget left and its last two failures differ; a halted one has used up its budget or failed twice in the
same way. -/
theorem executeAll_budget (py : Platform) (s : State)
    (hfresh : ∀ t ∈ s.tasks, (t.status = .blocked ∨ t.status = .pending) ∧ t.attempts = [])
    (journal : List (World × Command)) :
    ∀ t ∈ (executeAll py s journal).tasks, t.oracle.type = "script" → ScriptState s.maxIterations t := by
  refine tasks_induction (P := fun _ t => t.oracle.type = "script" → ScriptState s.maxIterations t)
    ?_ (fun _ _ _ h => h) ?_
  · intro t ht _
    obtain ⟨hstatus, hattempts⟩ := hfresh t ht
    refine ⟨fun _ => hattempts, ?_, ?_, by simp [hattempts], ?_⟩ <;>
      rcases hstatus with h | h <;> rw [h] <;> simp
  · intro journal w c s' t t' _ _ ih hstep hscript
    have hfixed := hstep.fixed
    simp only [Task.fixed, Prod.mk.injEq] at hfixed
    obtain ⟨-, -, horacle, -, -⟩ := hfixed
    rw [horacle] at hscript
    have hmax : (executeAll py s journal).maxIterations = s.maxIterations :=
      congrArg Prod.snd (settings_executeAll py s journal)
    have hstate := ih hscript
    rw [← hmax] at hstate ⊢
    exact hstate.step hscript hstep

namespace Sample

/-- The script that was run. -/
theorem executeAll_budget_board : ScriptState board.maxIterations ranTask := by
  obtain ⟨green, message, -, htasks⟩ := executeAll_journal
  have hmem : ranTask ∈ (executeAll platform board boardJournal).tasks := by
    rw [htasks]
    simp
  exact executeAll_budget platform board (by simp [board]) boardJournal ranTask hmem rfl

end Sample

/-! ### What is done stays done -/

/-- The commands that may take the status `done` from a task: they name it, and an attestation of it has
to say that it reopens it. -/
def Reopens (tid : String) : Command → Prop
  | .attest id _ _ _ reopen _ _ => id = tid ∧ reopen = true
  | .wontFix id _ _ => id = tid
  | .reset id => id = tid
  | .run _ | .refresh => False

/-- A step of a command that does not reopen a task leaves it done, with its evidence and attempts. -/
lemma TaskStep.done {c : Command} {t t' : Task} (hdone : t.status = .done) (hc : ¬Reopens t.id c)
    (hstep : TaskStep py w s s' c t t') : t' = t := by
  cases hstep with
  | kept => rfl
  | promoted hblocked =>
    rw [hdone] at hblocked
    cases hblocked
  | ran _ hnot => exact absurd hdone hnot
  | attestedFail hattest hopen =>
    rw [hattest] at hc
    exact absurd ⟨rfl, hopen (.inl hdone)⟩ hc
  | attestedPass hattest hopen =>
    rw [hattest] at hc
    exact absurd ⟨rfl, hopen (.inl hdone)⟩ hc
  | wontFixed hwont =>
    rw [hwont] at hc
    exact absurd rfl hc
  | reset hreset =>
    rw [hreset] at hc
    exact absurd rfl hc

lemma forall₂_getElem? {R : Task → Task → Prop} {xs ys : List Task} (h : List.Forall₂ R xs ys) {i : ℕ}
    {x : Task} (hx : xs[i]? = some x) : ∃ y, ys[i]? = some y ∧ R x y := by
  induction h generalizing i with
  | nil => simp at hx
  | cons hr _ ih =>
    cases i with
    | zero =>
      cases hx
      exact ⟨_, rfl, hr⟩
    | succ i => exact ih hx

/-- A task that is done stays as it is, with its attempts and its evidence, in every run of commands none
of which resets it, gives it up or attests it with `--reopen`: no other command, and no command on
another task, takes it back. -/
theorem executeAll_stays_done (py : Platform) (s : State) {i : ℕ} {t : Task} (ht : s.tasks[i]? = some t)
    (hdone : t.status = .done) (journal : List (World × Command))
    (hopen : ∀ step ∈ journal, ¬Reopens t.id step.2) :
    (executeAll py s journal).tasks[i]? = some t := by
  induction journal using List.reverseRecOn with
  | nil => exact ht
  | append_singleton journal step ih =>
    have hbefore := ih fun step' hstep' => hopen step' (List.mem_append_left _ hstep')
    rw [executeAll_concat]
    obtain ⟨-, hsame⟩ | ⟨-, -, hperform⟩ := execute_cases py (executeAll py s journal) step
    · rw [hsame]
      exact hbefore
    · obtain ⟨t', ht', hstep⟩ := forall₂_getElem? (tasks_perform hperform) hbefore
      rw [hstep.done hdone (hopen step (by simp))] at ht'
      exact ht'

namespace Sample

/-- A script that passed is run again, and another task is given up. -/
theorem executeAll_stays_done_afterRun :
    (executeAll platform afterRun
      [(world, .run "T0"), (world, .wontFix "T3" "r" ""), (world, .refresh)]).tasks[0]? = some ranTask := by
  apply executeAll_stays_done platform afterRun rfl rfl
  simp [Reopens, ranTask]

end Sample

end AxiomGrid.LoopEngineering
