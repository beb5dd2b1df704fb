import AxiomGrid.LoopEngineering.Ledger
import Mathlib.Data.List.Forall2

/-!
# What a command does to tasks and gates

A command that succeeds does to each task one of the seven things of `TaskStep`, and to each gate one of
the five of `GateStep`. Everything that holds over the runs of the orchestrator follows from these.
-/

namespace AxiomGrid.LoopEngineering

/-! ### The cases -/

/-- The status that `record` gives a task. -/
def recordedStatus (maxIterations : ℤ) (attempts : List Attempt) (passed : Bool) : Status :=
  if passed then .done
  else if thrashing attempts || maxIterations ≤ attempts.length then .halted
  else .inProgress

/-- What a command does to a task. -/
inductive TaskStep (py : Platform) (w : World) (s s' : State) (c : Command) (t : Task) : Task → Prop
  | kept : TaskStep py w s s' c t t
  | promoted (hblocked : t.status = .blocked) (hdeps : depsDone s t.deps ∨ depsDone s' t.deps) :
    TaskStep py w s s' c t { t with status := .pending }
  | ran {passed : Bool} {output : String} {attempts : List Attempt} (hc : c = .run t.id)
    (hdone : t.status ≠ .done) (hwontFix : t.status ≠ .wontFix)
    (hblocked : t.status = .blocked → depsDone s t.deps) (hscript : t.oracle.type = "script")
    (horacle : runOracle py w t.oracle = .ok (passed, output))
    (hattempts : attempts = t.attempts ++ [recordedAttempt py w passed output "script"]) :
    TaskStep py w s s' c t
      { t with attempts := attempts, status := recordedStatus (budget s t) attempts passed }
  | attestedFail {note evidence roots base : String} {reopen : Bool}
    (hc : c = .attest t.id false note evidence reopen roots base)
    (hopen : (t.status = .done ∨ t.status = .wontFix) → reopen = true)
    (hdeps : depsDone s t.deps) (hscript : t.oracle.type ≠ "script") :
    TaskStep py w s s' c t
      { t with attempts := t.attempts ++ [attestedAttempt w false note], status := .inProgress }
  | attestedPass {note evidence roots base message : String} {reopen : Bool} {record : EvidenceRecord}
    (hc : c = .attest t.id true note evidence reopen roots base)
    (hopen : (t.status = .done ∨ t.status = .wontFix) → reopen = true)
    (hdeps : depsDone s t.deps) (hscript : t.oracle.type ≠ "script")
    (haccepted : verifyAttestationEvidence py w t.id evidence roots (expectedCommit s base)
      t.oracle.artifact = .ok (record, message)) :
    TaskStep py w s s' c t
      { t with attempts := t.attempts ++ [attestedAttempt w true message], status := .done,
               evidence := some record }
  | wontFixed {reason evidence : String} (hc : c = .wontFix t.id reason evidence) {wontFix : WontFix} :
    TaskStep py w s s' c t { t with status := .wontFix, wontFix := some wontFix }
  | reset (hc : c = .reset t.id) :
    TaskStep py w s s' c t
      { t with attempts := [], wontFix := none, evidence := none,
               status := if depsDone s t.deps then .pending else .blocked }

/-- What a command does to a gate. -/
inductive GateStep (py : Platform) (w : World) (s : State) (c : Command) (gid : String) (g : Gate) :
    Gate → Prop
  | kept : GateStep py w s c gid g g
  | pended : GateStep py w s c gid g { g with status := .pending }
  | attested {note evidence roots base message : String} {reopen : Bool} {record : EvidenceRecord}
    (hc : c = .attest gid true note evidence reopen roots base) (hdeps : depsDone s g.deps)
    (haccepted : verifyAttestationEvidence py w gid evidence roots (expectedCommit s base) none =
      .ok (record, message)) :
    GateStep py w s c gid g { g with status := .done, evidence := some record }
  | fed {note evidence roots base message : String} {reopen : Bool} {record : EvidenceRecord} {t : Task}
    (ht : t ∈ s.tasks) (hfeeds : t.feeds = some gid) (hscript : t.oracle.type ≠ "script")
    (hc : c = .attest t.id true note evidence reopen roots base)
    (haccepted : verifyAttestationEvidence py w t.id evidence roots (expectedCommit s base)
      t.oracle.artifact = .ok (record, message)) :
    GateStep py w s c gid g { g with status := .done, evidence := some record }
  | wontFixed {wontFix : WontFix} : GateStep py w s c gid g { g with status := .wontFix, wontFix := some wontFix }

/-! ### Lists of tasks -/

variable {py : Platform} {w : World} {s s' : State}

/-- The task without its status. -/
lemma refreshBlocked_tasks (s : State) :
    (refreshBlocked s).tasks = s.tasks.map fun t => { t with status := effectiveStatus s t } := rfl

lemma effectiveStatus_eq_done {t : Task} : effectiveStatus s t = .done ↔ t.status = .done := by
  rw [effectiveStatus]
  split_ifs with h
  · simp [h.1]
  · rfl

/-- Promotions do not change what is done. -/
lemma depsDone_refreshBlocked (s : State) (deps : List String) :
    depsDone (refreshBlocked s) deps = depsDone s deps := by
  have hdone : ∀ t : Task, (effectiveStatus s t == .done) = (t.status == .done) := by
    intro t
    rw [Bool.eq_iff_iff, beq_iff_eq, beq_iff_eq, effectiveStatus_eq_done]
  rw [depsDone, depsDone]
  simp only [refreshBlocked_tasks, List.any_map, Function.comp_def, hdone]

lemma findTask_some {t : Task} {tid : String} (h : findTask s tid = some t) : t ∈ s.tasks ∧ t.id = tid := by
  refine ⟨List.mem_of_find?_eq_some h, ?_⟩
  have := List.find?_some h
  simpa using this

lemma task_ok {t : Task} {tid : String} (h : s.task tid = .ok t) : findTask s tid = some t := by
  unfold State.task at h
  split at h
  · cases h
    assumption
  · cases h

/-- What replacing the task that was found does to the list. -/
lemma forall₂_replaceTask {R : Task → Task → Prop} {t t' : Task} {xs : List Task}
    (hfind : xs.find? (·.id == t.id) = some t) (hid : t'.id = t.id) (hkept : ∀ x ∈ xs, R x x) (ht : R t t') :
    List.Forall₂ R xs (replaceTask t' xs) := by
  induction xs with
  | nil => exact .nil
  | cons x xs ih =>
    rw [List.forall_mem_cons] at hkept
    rw [replaceTask]
    by_cases hx : x.id = t.id
    · rw [List.find?_cons, beq_iff_eq.mpr hx] at hfind
      cases hfind
      rw [if_pos (by rw [hid])]
      exact .cons ht (List.forall₂_same.mpr hkept.2)
    · rw [List.find?_cons, beq_eq_false_iff_ne.mpr hx] at hfind
      rw [if_neg (by rwa [hid])]
      exact .cons hkept.1 (ih hfind hkept.2)

lemma forall₂_comp {R S T : Task → Task → Prop} {xs ys zs : List Task} (hxy : List.Forall₂ R xs ys)
    (hyz : List.Forall₂ S ys zs) (h : ∀ x y z, R x y → S y z → T x z) : List.Forall₂ T xs zs := by
  induction hxy generalizing zs with
  | nil =>
    cases hyz
    exact .nil
  | cons hr _ ih =>
    cases hyz with
    | cons hs hrest => exact .cons (h _ _ _ hr hs) (ih hrest)

/-- What `refresh_blocked` does to a task. -/
def Refreshed (s : State) (t t' : Task) : Prop :=
  t' = t ∨ (t.status = .blocked ∧ depsDone s t.deps ∧ t' = { t with status := .pending })

lemma refreshed_effective (s : State) (t : Task) :
    Refreshed s t { t with status := effectiveStatus s t } := by
  rw [effectiveStatus]
  split_ifs with h
  · exact .inr ⟨h.1, h.2, rfl⟩
  · exact .inl rfl

lemma forall₂_refreshBlocked (s : State) : List.Forall₂ (Refreshed s) s.tasks (refreshBlocked s).tasks := by
  rw [refreshBlocked_tasks, List.forall₂_map_right_iff, List.forall₂_same]
  intro t _
  exact refreshed_effective s t

/-- The task that is found after a refresh, as it was before. -/
lemma find_refreshBlocked {t : Task} {tid : String} (h : findTask (refreshBlocked s) tid = some t) :
    ∃ t₀ ∈ s.tasks, t₀.id = tid ∧ t = { t₀ with status := effectiveStatus s t₀ } := by
  obtain ⟨hmem, hid⟩ := findTask_some h
  rw [refreshBlocked_tasks, List.mem_map] at hmem
  obtain ⟨t₀, ht₀, rfl⟩ := hmem
  exact ⟨t₀, ht₀, hid, rfl⟩

/-- A command on one task: a refresh, the replacement of the task by another, and maybe a refresh of the
result. -/
lemma forall₂_of_replaced {R : Task → Task → Prop} {t t' : Task} {s₁ : State}
    (hfind : findTask (refreshBlocked s) t.id = some t) (hid : t'.id = t.id)
    (htasks : s₁.tasks = replaceTask t' (refreshBlocked s).tasks)
    (hs' : s'.tasks = s₁.tasks ∨ s' = refreshBlocked s₁) (hactive : t'.status ≠ .blocked)
    (hkept : ∀ x, R x x)
    (hpromoted : ∀ x : Task, x.status = .blocked → depsDone s x.deps ∨ depsDone s' x.deps →
      R x { x with status := .pending })
    (ht : ∀ x : Task, t = { x with status := effectiveStatus s x } → R x t') :
    List.Forall₂ R s.tasks s'.tasks := by
  -- the task that is replaced, and the others
  have hreplace : List.Forall₂ (fun x y => y = x ∨ (x = t ∧ y = t')) (refreshBlocked s).tasks s₁.tasks := by
    rw [htasks]
    exact forall₂_replaceTask hfind hid (fun x _ => .inl rfl) (.inr ⟨rfl, rfl⟩)
  have hfirst : List.Forall₂ (fun x y => Refreshed s x y ∨ (R x t' ∧ y = t')) s.tasks s₁.tasks := by
    have hrefresh : List.Forall₂ (fun x y => y = { x with status := effectiveStatus s x }) s.tasks
        (refreshBlocked s).tasks := by
      rw [refreshBlocked_tasks, List.forall₂_map_right_iff, List.forall₂_same]
      exact fun _ _ => rfl
    refine forall₂_comp hrefresh hreplace ?_
    rintro x y z rfl (rfl | ⟨hxt, rfl⟩)
    · exact .inl (refreshed_effective s x)
    · exact .inr ⟨ht x hxt.symm, rfl⟩
  obtain hsame | rfl := hs'
  · rw [hsame]
    refine hfirst.imp ?_
    rintro x y ((rfl | ⟨hblocked, hdeps, rfl⟩) | ⟨hx, rfl⟩)
    · exact hkept y
    · exact hpromoted x hblocked (.inl hdeps)
    · exact hx
  · refine forall₂_comp hfirst (forall₂_refreshBlocked s₁) ?_
    rintro x y z ((rfl | ⟨hblocked, hdeps, rfl⟩) | ⟨hx, rfl⟩) (rfl | ⟨hblocked', hdeps', rfl⟩)
    · exact hkept z
    · refine hpromoted y hblocked' (.inr ?_)
      rwa [depsDone_refreshBlocked]
    · exact hpromoted x hblocked (.inl hdeps)
    · cases hblocked'
    · exact hx
    · exact absurd hblocked' hactive

/-! ### Tasks -/

lemma tasks_log {event : String} {kw : Event} (h : log w s event kw = .ok s') :
    s'.tasks = s.tasks ∧ s'.gates = s.gates ∧ s'.headCommit = s.headCommit ∧
      s'.maxIterations = s.maxIterations := by
  obtain ⟨prev, -, rfl⟩ := log_spec h
  exact ⟨rfl, rfl, rfl, rfl⟩

lemma tasks_pendGate {gate : Option String} (h : pendGate s gate = .ok s') : s'.tasks = s.tasks := by
  cases gate with
  | none =>
    cases h
    rfl
  | some gid =>
    obtain ⟨g, -, h⟩ := Except.of_bind_eq_ok h
    cases h
    rfl

lemma tasks_passGate {evidence : EvidenceRecord} {gate : Option String}
    (h : passGate s evidence gate = .ok s') : s'.tasks = s.tasks := by
  cases gate with
  | none =>
    cases h
    rfl
  | some gid =>
    obtain ⟨g, -, h⟩ := Except.of_bind_eq_ok h
    cases h
    rfl

/-- What `record` replaces the task with. -/
lemma tasks_record {t : Task} {passed : Bool} {output kind : String}
    (h : record py w s t passed output kind = .ok s') :
    ∃ s₁ attempts, attempts = t.attempts ++ [recordedAttempt py w passed output kind] ∧
      s₁.tasks = replaceTask
        { t with attempts := attempts, status := recordedStatus (budget s t) attempts passed } s.tasks ∧
      (s'.tasks = s₁.tasks ∨ s' = refreshBlocked s₁) := by
  obtain ⟨s₂, hlog, h⟩ := Except.of_bind_eq_ok h
  obtain ⟨htasks, -, -, hmax⟩ := tasks_log hlog
  cases passed with
  | true =>
    rw [if_pos rfl] at h
    obtain ⟨s₃, hgate, h⟩ := Except.of_bind_eq_ok h
    cases h
    refine ⟨s₃, _, rfl, ?_, .inr rfl⟩
    rw [tasks_pendGate hgate, ← htasks]
    rfl
  | false =>
    rw [if_neg Bool.false_ne_true] at h
    cases h
    refine ⟨_, _, rfl, ?_, .inl rfl⟩
    rw [State.setTask, htasks, recordedStatus, if_neg Bool.false_ne_true, budget, budget, hmax]

lemma recordedStatus_ne_blocked (n : ℤ) (attempts : List Attempt) (passed : Bool) :
    recordedStatus n attempts passed ≠ .blocked := by
  rw [recordedStatus]
  split_ifs <;> decide

lemma throwIf_ok {ε : Type} {c : Prop} [Decidable c] {e : ε} {u : Unit}
    (h : throwIf (decide c) e = .ok u) : ¬c := by
  rw [throwIf_eq_ok] at h
  exact of_decide_eq_false h

/-- What `run` does to the tasks. -/
lemma tasks_run {tid : String} (h : cmdRun py w s tid = .ok s') :
    List.Forall₂ (TaskStep py w s s' (.run tid)) s.tasks s'.tasks := by
  obtain ⟨t, ht, h⟩ := Except.of_bind_eq_ok h
  obtain ⟨_, hterminal, h⟩ := Except.of_bind_eq_ok h
  obtain ⟨_, hblocked, h⟩ := Except.of_bind_eq_ok h
  obtain ⟨_, hscript, h⟩ := Except.of_bind_eq_ok h
  obtain ⟨⟨passed, output⟩, horacle, h⟩ := Except.of_bind_eq_ok h
  have hterminal' := throwIf_ok hterminal
  have hblocked' := throwIf_ok hblocked
  have hscript' := throwIf_ok hscript
  rw [not_or] at hterminal'
  rw [not_not] at hscript'
  obtain ⟨s₁, attempts, hattempts, htasks, hs'⟩ := tasks_record h
  have hfind := task_ok ht
  obtain ⟨-, rfl⟩ := findTask_some hfind
  refine forall₂_of_replaced hfind (by rfl) htasks hs' (recordedStatus_ne_blocked _ _ _)
    (fun x => .kept) (fun x hx hdeps => .promoted hx hdeps) ?_
  rintro x rfl
  refine .ran rfl ?_ ?_ ?_ hscript' horacle hattempts
  · exact fun hdone => hterminal'.1 (effectiveStatus_eq_done.mpr hdone)
  · intro hwont
    apply hterminal'.2
    dsimp only
    rw [effectiveStatus, if_neg (by rw [hwont]; simp), hwont]
  · intro hx
    by_contra hdeps
    apply hblocked'
    dsimp only
    rw [effectiveStatus, if_neg (fun hand => hdeps hand.2), hx]

lemma refuseFailure_ok {α : Type} {refusal : String → Refusal} {x : Except Failure α} {a : α}
    (h : refuseFailure refusal x = .ok a) : x = .ok a := by
  unfold refuseFailure at h
  split at h <;> cases h
  rfl

/-- The guards that an attestation of a task passes. -/
lemma attestedStatus_task {tid : String} {status : Status} (hgate : s.gates.get? tid = none)
    (h : attestedStatus s tid = .ok status) :
    ∃ t, findTask s tid = some t ∧ depsDone s t.deps = true ∧ t.oracle.type ≠ "script" ∧
      status = t.status := by
  rw [attestedStatus, hgate] at h
  obtain ⟨t, ht, h⟩ := Except.of_bind_eq_ok h
  obtain ⟨_, hdeps, h⟩ := Except.of_bind_eq_ok h
  obtain ⟨_, hscript, h⟩ := Except.of_bind_eq_ok h
  cases h
  rw [throwIf_eq_ok, Bool.or_eq_false_iff, Bool.not_eq_false'] at hdeps
  exact ⟨t, task_ok ht, hdeps.2, throwIf_ok hscript, rfl⟩

lemma reopen_of_guard {status : Status} {reopen : Bool} {e : Refusal} {u : Unit}
    (h : throwIf (decide ((status = .done ∨ status = .wontFix) ∧ (!reopen) = true)) e = .ok u) :
    (status = .done ∨ status = .wontFix) → reopen = true := by
  intro hstatus
  by_contra hreopen
  exact throwIf_ok h ⟨hstatus, by simpa using hreopen⟩

lemma effectiveStatus_of_terminal {t : Task} (h : t.status = .done ∨ t.status = .wontFix) :
    effectiveStatus s t = .done ∨ effectiveStatus s t = .wontFix := by
  have hactive : t.status ≠ .blocked := by
    rcases h with h | h <;> rw [h] <;> decide
  rw [effectiveStatus, if_neg fun hand => hactive hand.1]
  exact h

/-- What a failed attestation does to the tasks. -/
lemma tasks_attestedFail {s₀ : State} {tid note evidence roots base : String} {reopen : Bool} {status : Status}
    (hstatus : attestedStatus (refreshBlocked s) tid = .ok status)
    (hopen : (status = .done ∨ status = .wontFix) → reopen = true)
    (h : attestedFail w (refreshBlocked s) tid note = .ok s₀) (hs' : s'.tasks = s₀.tasks) :
    List.Forall₂ (TaskStep py w s s' (.attest tid false note evidence reopen roots base)) s.tasks
      s'.tasks := by
  cases hgate : (refreshBlocked s).gates.get? tid with
  | some g =>
    rw [attestedFail, hgate] at h
    cases h
    rw [hs']
    refine (forall₂_refreshBlocked s).imp ?_
    rintro x y (rfl | ⟨hblocked, hdeps, rfl⟩)
    · exact .kept
    · exact .promoted hblocked (.inl hdeps)
  | none =>
    obtain ⟨t, hfind, hdeps, hscript, rfl⟩ := attestedStatus_task hgate hstatus
    rw [attestedFail, hgate, State.task, hfind] at h
    cases h
    obtain ⟨-, rfl⟩ := findTask_some hfind
    refine forall₂_of_replaced hfind (by rfl) hs' (.inl rfl) (by simp)
      (fun x => .kept) (fun x hx hd => .promoted hx hd) ?_
    rintro x rfl
    rw [depsDone_refreshBlocked] at hdeps
    exact .attestedFail rfl (fun hx => hopen (effectiveStatus_of_terminal hx)) hdeps hscript

/-- What a successful attestation does to the tasks. -/
lemma tasks_attestedPass {s₀ : State} {tid note evidence roots base message : String} {reopen : Bool}
    {status : Status} {record : EvidenceRecord}
    (hstatus : attestedStatus (refreshBlocked s) tid = .ok status)
    (hopen : (status = .done ∨ status = .wontFix) → reopen = true)
    (haccepted : verifyAttestationEvidence py w tid evidence roots (expectedCommit s base)
      (requiredArtifact (refreshBlocked s) tid) = .ok (record, message))
    (hs₀ : s₀.tasks = (refreshBlocked s).tasks) (hgates : s₀.gates = (refreshBlocked s).gates)
    (h : attestedPass w s₀ tid record message = .ok s') :
    List.Forall₂ (TaskStep py w s s' (.attest tid true note evidence reopen roots base)) s.tasks
      s'.tasks := by
  cases hgate : (refreshBlocked s).gates.get? tid with
  | some g =>
    rw [attestedPass, hgates, hgate] at h
    cases h
    rw [State.setGate, hs₀]
    refine (forall₂_refreshBlocked s).imp ?_
    rintro x y (rfl | ⟨hblocked, hdeps, rfl⟩)
    · exact .kept
    · exact .promoted hblocked (.inl hdeps)
  | none =>
    obtain ⟨t, hfind, hdeps, hscript, rfl⟩ := attestedStatus_task hgate hstatus
    have hfind₀ : findTask s₀ tid = some t := by rw [findTask, hs₀, ← findTask, hfind]
    rw [attestedPass, hgates, hgate, State.task, hfind₀] at h
    obtain ⟨t₁, ht₁, h⟩ := Except.of_bind_eq_ok h
    cases ht₁
    obtain ⟨s₁, hpass, h⟩ := Except.of_bind_eq_ok h
    cases h
    rw [requiredArtifact, hgate, Option.isSome_none, if_neg Bool.false_ne_true, hfind] at haccepted
    obtain ⟨-, rfl⟩ := findTask_some hfind
    have htasks : s₁.tasks = replaceTask
        { t with attempts := t.attempts ++ [attestedAttempt w true message], status := .done,
                 evidence := some record } (refreshBlocked s).tasks := by
      rw [tasks_passGate hpass, ← hs₀]
      rfl
    refine forall₂_of_replaced hfind (by rfl) htasks (.inr rfl) (by simp)
      (fun x => .kept) (fun x hx hd => .promoted hx hd) ?_
    rintro x rfl
    rw [depsDone_refreshBlocked] at hdeps
    exact .attestedPass rfl (fun hx => hopen (effectiveStatus_of_terminal hx)) hdeps hscript haccepted

/-- What a command that succeeds does to the tasks. -/
theorem tasks_perform {c : Command} (h : c.perform py w s = .ok s') :
    List.Forall₂ (TaskStep py w s s' c) s.tasks s'.tasks := by
  cases c with
  | run tid => exact tasks_run h
  | attest tid pass note evidence reopen trustRoots baseCommit =>
    obtain ⟨status, hstatus, h⟩ := Except.of_bind_eq_ok h
    obtain ⟨_, hguard, h⟩ := Except.of_bind_eq_ok h
    have hopen := reopen_of_guard hguard
    cases pass with
    | false =>
      rw [if_pos (by decide)] at h
      obtain ⟨s₀, hfail, hlog⟩ := Except.of_bind_eq_ok h
      exact tasks_attestedFail hstatus hopen hfail (tasks_log hlog).1
    | true =>
      rw [if_neg (by decide)] at h
      obtain ⟨⟨record, message⟩, haccepted, h⟩ := Except.of_bind_eq_ok h
      obtain ⟨s₀, hlog, hpass⟩ := Except.of_bind_eq_ok h
      obtain ⟨htasks, hgates, -, -⟩ := tasks_log hlog
      exact tasks_attestedPass hstatus hopen (refuseFailure_ok haccepted) htasks hgates hpass
  | wontFix tid reason evidence =>
    obtain ⟨-, -, h⟩ := Except.of_bind_eq_ok h
    obtain ⟨file, -, h⟩ := Except.of_bind_eq_ok h
    obtain ⟨s₀, hmarked, hlog⟩ := Except.of_bind_eq_ok h
    rw [(tasks_log hlog).1]
    cases hgate : s.gates.get? tid with
    | some g =>
      rw [markedWontFix, hgate] at hmarked
      cases hmarked
      exact List.forall₂_same.mpr fun _ _ => .kept
    | none =>
      rw [markedWontFix, hgate] at hmarked
      obtain ⟨t, ht, hmarked⟩ := Except.of_bind_eq_ok hmarked
      cases hmarked
      have hfind := task_ok ht
      obtain ⟨-, rfl⟩ := findTask_some hfind
      exact forall₂_replaceTask hfind rfl (fun _ _ => .kept) (.wontFixed rfl)
  | refresh =>
    rw [(tasks_log h).1]
    refine (forall₂_refreshBlocked s).imp ?_
    rintro x y (rfl | ⟨hblocked, hdeps, rfl⟩)
    · exact .kept
    · exact .promoted hblocked (.inl hdeps)
  | reset tid =>
    obtain ⟨t, ht, hlog⟩ := Except.of_bind_eq_ok h
    rw [(tasks_log hlog).1]
    have hfind := task_ok ht
    obtain ⟨-, rfl⟩ := findTask_some hfind
    exact forall₂_replaceTask hfind rfl (fun _ _ => .kept) (.reset rfl)

/-! ### Gates -/

/-- Which gates two states have, and what a step does to each. -/
def GatesStep (R : String → Gate → Gate → Prop) (gates gates' : Dict String Gate) : Prop :=
  ∀ gid g', gates'.get? gid = some g' → ∃ g, gates.get? gid = some g ∧ R gid g g'

lemma gatesStep_kept {R : String → Gate → Gate → Prop} (hkept : ∀ gid g, R gid g g)
    (gates : Dict String Gate) : GatesStep R gates gates :=
  fun gid g' hg' => ⟨g', hg', hkept gid g'⟩

lemma gatesStep_set {R : String → Gate → Gate → Prop} (hkept : ∀ gid g, R gid g g)
    {gates : Dict String Gate} {gid : String} {g g' : Gate} (hg : gates.get? gid = some g)
    (hR : R gid g g') : GatesStep R gates (gates.set gid g') := by
  intro k x hx
  rw [Dict.get?_set] at hx
  split_ifs at hx with hk
  · cases hx
    subst hk
    exact ⟨g, hg, hR⟩
  · exact ⟨x, hx, hkept k x⟩

lemma gate_ok {gid : String} {g : Gate} (h : s.gate gid = .ok g) : s.gates.get? gid = some g := by
  unfold State.gate at h
  split at h
  · cases h
    assumption
  · cases h

lemma gates_pendGate {R : String → Gate → Gate → Prop} (hkept : ∀ gid g, R gid g g)
    (hpended : ∀ gid g, R gid g { g with status := .pending }) {gate : Option String}
    (h : pendGate s gate = .ok s') : GatesStep R s.gates s'.gates := by
  cases gate with
  | none =>
    cases h
    exact gatesStep_kept hkept _
  | some gid =>
    obtain ⟨g, hg, h⟩ := Except.of_bind_eq_ok h
    cases h
    exact gatesStep_set hkept (gate_ok hg) (hpended gid g)

lemma gates_record {R : String → Gate → Gate → Prop} (hkept : ∀ gid g, R gid g g)
    (hpended : ∀ gid g, R gid g { g with status := .pending }) {t : Task} {passed : Bool}
    {output kind : String} (h : record py w s t passed output kind = .ok s') :
    GatesStep R s.gates s'.gates := by
  obtain ⟨s₁, hlog, h⟩ := Except.of_bind_eq_ok h
  obtain ⟨-, hgates, -, -⟩ := tasks_log hlog
  rw [← hgates]
  cases passed with
  | true =>
    rw [if_pos rfl] at h
    obtain ⟨s₂, hgate, h⟩ := Except.of_bind_eq_ok h
    cases h
    have hstep := gates_pendGate hkept hpended hgate
    exact hstep
  | false =>
    rw [if_neg Bool.false_ne_true] at h
    cases h
    exact gatesStep_kept hkept _

lemma gates_refreshBlocked (s : State) : (refreshBlocked s).gates = s.gates := rfl

/-- The guard that an attestation of a gate passes. -/
lemma attestedStatus_gate {tid : String} {g : Gate} {status : Status}
    (hgate : s.gates.get? tid = some g) (h : attestedStatus s tid = .ok status) :
    depsDone s g.deps = true := by
  rw [attestedStatus, hgate] at h
  obtain ⟨_, hdeps, h⟩ := Except.of_bind_eq_ok h
  rw [throwIf_eq_ok, Bool.not_eq_false'] at hdeps
  exact hdeps

/-- What a successful attestation does to the gates. -/
lemma gates_attestedPass {s₀ : State} {tid note evidence roots base message : String} {reopen : Bool}
    {status : Status} {record : EvidenceRecord}
    (hstatus : attestedStatus (refreshBlocked s) tid = .ok status)
    (haccepted : verifyAttestationEvidence py w tid evidence roots (expectedCommit s base)
      (requiredArtifact (refreshBlocked s) tid) = .ok (record, message))
    (hs₀ : s₀.tasks = (refreshBlocked s).tasks) (hgates : s₀.gates = (refreshBlocked s).gates)
    (h : attestedPass w s₀ tid record message = .ok s') :
    GatesStep (GateStep py w s (.attest tid true note evidence reopen roots base)) s.gates s'.gates := by
  cases hgate : (refreshBlocked s).gates.get? tid with
  | some g =>
    have hdeps := attestedStatus_gate hgate hstatus
    rw [depsDone_refreshBlocked] at hdeps
    rw [requiredArtifact, hgate, Option.isSome_some, if_pos rfl] at haccepted
    rw [attestedPass, hgates, hgate] at h
    cases h
    rw [State.setGate, hgates]
    exact gatesStep_set (fun _ _ => .kept) hgate (.attested rfl hdeps haccepted)
  | none =>
    obtain ⟨t, hfind, hdeps, hscript, rfl⟩ := attestedStatus_task hgate hstatus
    have hfind₀ : findTask s₀ tid = some t := by rw [findTask, hs₀, ← findTask, hfind]
    rw [attestedPass, hgates, hgate, State.task, hfind₀] at h
    obtain ⟨t₁, ht₁, h⟩ := Except.of_bind_eq_ok h
    cases ht₁
    obtain ⟨s₁, hpass, h⟩ := Except.of_bind_eq_ok h
    cases h
    rw [requiredArtifact, hgate, Option.isSome_none, if_neg Bool.false_ne_true, hfind] at haccepted
    obtain ⟨t₀, ht₀, rfl, rfl⟩ := find_refreshBlocked hfind
    rw [gates_refreshBlocked]
    cases hfeeds : t₀.feeds with
    | none =>
      rw [show Task.feeds { t₀ with status := effectiveStatus s t₀ } = none from hfeeds] at hpass
      cases hpass
      rw [State.setTask, hgates]
      exact gatesStep_kept (fun _ _ => .kept) _
    | some gid =>
      rw [show Task.feeds { t₀ with status := effectiveStatus s t₀ } = some gid from hfeeds] at hpass
      obtain ⟨g, hg, hpass⟩ := Except.of_bind_eq_ok hpass
      cases hpass
      have hg' := gate_ok hg
      rw [State.setTask, hgates] at hg'
      rw [State.setGate, State.setTask, hgates]
      exact gatesStep_set (fun _ _ => .kept) hg' (.fed ht₀ hfeeds hscript rfl haccepted)

/-- What a command that succeeds does to the gates. -/
theorem gates_perform {c : Command} (h : c.perform py w s = .ok s') :
    GatesStep (GateStep py w s c) s.gates s'.gates := by
  cases c with
  | run tid =>
    obtain ⟨t, -, h⟩ := Except.of_bind_eq_ok h
    obtain ⟨_, -, h⟩ := Except.of_bind_eq_ok h
    obtain ⟨_, -, h⟩ := Except.of_bind_eq_ok h
    obtain ⟨_, -, h⟩ := Except.of_bind_eq_ok h
    obtain ⟨result, -, h⟩ := Except.of_bind_eq_ok h
    have hstep : GatesStep (GateStep py w s (.run tid)) (refreshBlocked s).gates s'.gates :=
      gates_record (fun _ _ => .kept) (fun _ _ => .pended) h
    exact hstep
  | attest tid pass note evidence reopen trustRoots baseCommit =>
    obtain ⟨status, hstatus, h⟩ := Except.of_bind_eq_ok h
    obtain ⟨_, -, h⟩ := Except.of_bind_eq_ok h
    cases pass with
    | false =>
      rw [if_pos (by decide)] at h
      obtain ⟨s₀, hfail, hlog⟩ := Except.of_bind_eq_ok h
      rw [(tasks_log hlog).2.1]
      cases hgate : (refreshBlocked s).gates.get? tid with
      | some g =>
        rw [attestedFail, hgate] at hfail
        cases hfail
        exact gatesStep_set (fun _ _ => .kept) hgate .pended
      | none =>
        rw [attestedFail, hgate] at hfail
        obtain ⟨t, -, hfail⟩ := Except.of_bind_eq_ok hfail
        cases hfail
        exact gatesStep_kept (fun _ _ => .kept) _
    | true =>
      rw [if_neg (by decide)] at h
      obtain ⟨⟨record, message⟩, haccepted, h⟩ := Except.of_bind_eq_ok h
      obtain ⟨s₀, hlog, hpass⟩ := Except.of_bind_eq_ok h
      obtain ⟨htasks, hgates, -, -⟩ := tasks_log hlog
      exact gates_attestedPass hstatus (refuseFailure_ok haccepted) htasks hgates hpass
  | wontFix tid reason evidence =>
    obtain ⟨_, -, h⟩ := Except.of_bind_eq_ok h
    obtain ⟨file, -, h⟩ := Except.of_bind_eq_ok h
    obtain ⟨s₀, hmarked, hlog⟩ := Except.of_bind_eq_ok h
    rw [(tasks_log hlog).2.1]
    cases hgate : s.gates.get? tid with
    | some g =>
      rw [markedWontFix, hgate] at hmarked
      cases hmarked
      exact gatesStep_set (fun _ _ => .kept) hgate .wontFixed
    | none =>
      rw [markedWontFix, hgate] at hmarked
      obtain ⟨t, -, hmarked⟩ := Except.of_bind_eq_ok hmarked
      cases hmarked
      exact gatesStep_kept (fun _ _ => .kept) _
  | refresh =>
    rw [(tasks_log h).2.1]
    exact gatesStep_kept (fun _ _ => .kept) _
  | reset tid =>
    obtain ⟨t, -, hlog⟩ := Except.of_bind_eq_ok h
    rw [(tasks_log hlog).2.1]
    exact gatesStep_kept (fun _ _ => .kept) _

/-! ### What no command changes -/

/-- The part of the state that is only read. -/
def State.settings (s : State) : Json × ℤ := (s.headCommit, s.maxIterations)

lemma settings_log {event : String} {kw : Event} (h : log w s event kw = .ok s') :
    s'.settings = s.settings := by
  obtain ⟨-, -, hhead, hmax⟩ := tasks_log h
  rw [State.settings, hhead, hmax, State.settings]

lemma settings_pendGate {gate : Option String} (h : pendGate s gate = .ok s') :
    s'.settings = s.settings := by
  cases gate with
  | none =>
    cases h
    rfl
  | some gid =>
    obtain ⟨g, -, h⟩ := Except.of_bind_eq_ok h
    cases h
    rfl

lemma settings_passGate {evidence : EvidenceRecord} {gate : Option String}
    (h : passGate s evidence gate = .ok s') : s'.settings = s.settings := by
  cases gate with
  | none =>
    cases h
    rfl
  | some gid =>
    obtain ⟨g, -, h⟩ := Except.of_bind_eq_ok h
    cases h
    rfl

lemma settings_record {t : Task} {passed : Bool} {output kind : String}
    (h : record py w s t passed output kind = .ok s') : s'.settings = s.settings := by
  obtain ⟨s₁, hlog, h⟩ := Except.of_bind_eq_ok h
  rw [← settings_log hlog]
  split at h
  · obtain ⟨s₂, hgate, h⟩ := Except.of_bind_eq_ok h
    cases h
    have hsame := settings_pendGate hgate
    exact hsame
  · cases h
    rfl

lemma settings_attestedFail {tid note : String} (h : attestedFail w s tid note = .ok s') :
    s'.settings = s.settings := by
  unfold attestedFail at h
  split at h
  · cases h
    rfl
  · obtain ⟨t, -, h⟩ := Except.of_bind_eq_ok h
    cases h
    rfl

lemma settings_attestedPass {tid message : String} {evidence : EvidenceRecord}
    (h : attestedPass w s tid evidence message = .ok s') : s'.settings = s.settings := by
  unfold attestedPass at h
  split at h
  · cases h
    rfl
  · obtain ⟨t, -, h⟩ := Except.of_bind_eq_ok h
    obtain ⟨s₁, hgate, h⟩ := Except.of_bind_eq_ok h
    cases h
    have hsame := settings_passGate hgate
    exact hsame

lemma settings_perform {c : Command} (h : c.perform py w s = .ok s') : s'.settings = s.settings := by
  cases c with
  | run tid =>
    obtain ⟨t, -, h⟩ := Except.of_bind_eq_ok h
    obtain ⟨_, -, h⟩ := Except.of_bind_eq_ok h
    obtain ⟨_, -, h⟩ := Except.of_bind_eq_ok h
    obtain ⟨_, -, h⟩ := Except.of_bind_eq_ok h
    obtain ⟨result, -, h⟩ := Except.of_bind_eq_ok h
    have hsame := settings_record h
    exact hsame
  | attest tid pass note evidence reopen trustRoots baseCommit =>
    obtain ⟨status, -, h⟩ := Except.of_bind_eq_ok h
    obtain ⟨_, -, h⟩ := Except.of_bind_eq_ok h
    split at h
    · obtain ⟨s₁, hfail, hlog⟩ := Except.of_bind_eq_ok h
      rw [settings_log hlog, settings_attestedFail hfail]
      rfl
    · obtain ⟨accepted, -, h⟩ := Except.of_bind_eq_ok h
      obtain ⟨s₁, hlog, hpass⟩ := Except.of_bind_eq_ok h
      rw [settings_attestedPass hpass, settings_log hlog]
      rfl
  | wontFix tid reason evidence =>
    obtain ⟨_, -, h⟩ := Except.of_bind_eq_ok h
    obtain ⟨file, -, h⟩ := Except.of_bind_eq_ok h
    obtain ⟨s₁, hmarked, hlog⟩ := Except.of_bind_eq_ok h
    rw [settings_log hlog]
    unfold markedWontFix at hmarked
    split at hmarked
    · cases hmarked
      rfl
    · obtain ⟨t, -, hmarked⟩ := Except.of_bind_eq_ok hmarked
      cases hmarked
      rfl
  | refresh =>
    rw [settings_log h]
    rfl
  | reset tid =>
    obtain ⟨t, -, hlog⟩ := Except.of_bind_eq_ok h
    rw [settings_log hlog]
    rfl

end AxiomGrid.LoopEngineering
