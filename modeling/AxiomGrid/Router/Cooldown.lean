import AxiomGrid.Router.Basic

/-!
# Retry-After

A 429 sets the deadline before which its model is left alone. The deadline is written under the
router's lock and read under it by the two admission checks: that of a first attempt, with a clock
read before the lock was taken, and that of a retry, with a clock read inside. The deadline of a
model only grows, so no admission later than the 429 passes with a reading before its deadline,
whatever the other calls do in between. Nothing here depends on how the readings of different calls
are ordered.
-/

namespace AxiomGrid.Router

open Transition

/-- A step from one point to another that passes an admission check, with the clock reading that was
checked. -/
inductive Admits : Pc → Event → Pc → ℚ → Prop
  | first (now : ℚ) (t : Tick) : Admits (.askRoute now) (.run t) .countFallback now
  | retry (t : Tick) : Admits .checkRoute (.run t) .dispatch t.now

namespace Call

variable {cfg : Config} {r r' : ModelRouter} {g g' : SpendGovernor} {c c' : Call} {e : Event}

/-! ### One call -/

/-- The deadlines after the bookkeeping of a failure. -/
def noteCooldown (r : ModelRouter) (c : Call) (exc : Exc) (t : Tick) : String → ℚ :=
  match exc.isTooMany, exc.retryAfterSeconds t.wall with
  | true, some seconds => Function.update r.cooldownUntil c.model
      (max (r.cooldownUntil c.model) (t.later + seconds))
  | _, _ => r.cooldownUntil

lemma noteFailure_cooldown (exc : Exc) (t : Tick) :
    (c.noteFailure r exc t).1.cooldownUntil = c.noteCooldown r exc t := by
  unfold noteFailure noteCooldown
  cases exc.isTooMany with
  | false => rfl
  | true => cases exc.retryAfterSeconds t.wall <;> rfl

lemma askBreaker_cooldown (now : ℚ) :
    (c.askBreaker r now).1.cooldownUntil = r.cooldownUntil := by
  rcases askBreaker_cases now with ⟨-, h⟩ | h
  · rw [h]
    rfl
  · rw [h]

lemma releaseProbe_cooldown (now : ℚ) : (c.releaseProbe r now).cooldownUntil = r.cooldownUntil := by
  unfold releaseProbe
  split <;> rfl

/-- Only the bookkeeping of a failure moves a deadline. -/
lemma step_cooldown (h : c.step cfg r g e = some (r', g', c')) :
    r'.cooldownUntil = r.cooldownUntil ∨
    ∃ exc t, c.pc = .recordFailure exc ∧ e = .run t ∧
      r'.cooldownUntil = c.noteCooldown r exc t := by
  cases step_cases h with
  | recordFailure t exc hc => exact .inr ⟨exc, t, hc, rfl, noteFailure_cooldown exc t⟩
  | askRoute t now hc => exact .inl (askBreaker_cooldown now)
  | cleanup t next hc => exact .inl (releaseProbe_cooldown t.now)
  | countFallback t hc =>
    refine .inl ?_
    split <;> rfl
  | _ => exact .inl rfl

/-- A deadline never moves back. -/
lemma step_cooldown_le (h : c.step cfg r g e = some (r', g', c')) (m : String) :
    r.cooldownUntil m ≤ r'.cooldownUntil m := by
  rcases step_cooldown h with h | ⟨exc, t, -, -, h⟩
  · rw [h]
  · rw [h]
    unfold noteCooldown
    cases exc.isTooMany with
    | false => exact le_rfl
    | true =>
      cases exc.retryAfterSeconds t.wall with
      | none => exact le_rfl
      | some seconds =>
        by_cases hm : m = c.model
        · subst hm
          simp
        · simp [hm]

/-- An admission check passes only with a reading at or after the deadline. -/
lemma cooldown_le_of_admits {now : ℚ} (h : c.step cfg r g e = some (r', g', c'))
    (ha : Admits c.pc e c'.pc now) : r.cooldownUntil c.model ≤ now := by
  cases hc : c.pc with
  | askRoute now' =>
    rw [hc] at ha
    generalize hpc : c'.pc = pc at ha
    cases ha with
    | first now t =>
      simp only [step, hc, Option.some.injEq, Prod.mk.injEq] at h
      obtain ⟨-, -, rfl⟩ := h
      unfold askBreaker at hpc
      dsimp only at hpc
      split at hpc
      · rename_i hallowed
        exact hallowed.1
      · cases hpc
  | checkRoute =>
    rw [hc] at ha
    generalize hpc : c'.pc = pc at ha
    cases ha with
    | retry t =>
      simp only [step, hc] at h
      split at h
      · rename_i hmay
        have hmay := of_decide_eq_true hmay
        exact hmay.2.2
      · cases h
        cases hpc
  | _ =>
    rw [hc] at ha
    cases ha

end Call

/-! ### Every interleaving -/

namespace State

variable {ρ : Type*} [DecidableEq ρ] {cfg : ρ → Config} {s s' : State ρ}

lemma step_cooldown_le {a : Action ρ} (h : s.step cfg a = some s') (i : ρ) (m : String) :
    (s.routers i).cooldownUntil m ≤ (s'.routers i).cooldownUntil m := by
  rcases step_cases h with ⟨j, request, -, -, rfl⟩ | ⟨j, request, -, -, rfl⟩ |
    ⟨n, e, j, c, r, g, c', -, -, hc, rfl⟩
  · by_cases hj : i = j
    · subst hj
      simp
    · simp [hj]
  · exact le_rfl
  · by_cases hj : i = j
    · subst hj
      simpa using Call.step_cooldown_le hc m
    · simp [hj]

lemma run_cooldown_le {acts : List (Action ρ)} (h : run (step cfg) s acts = some s') (i : ρ)
    (m : String) : (s.routers i).cooldownUntil m ≤ (s'.routers i).cooldownUntil m :=
  run_invariant (step cfg) (P := fun t => (s.routers i).cooldownUntil m ≤ (t.routers i).cooldownUntil m)
    (fun _ _ _ ht ha => ht.trans (step_cooldown_le ha i m)) le_rfl h

/-- A 429 that is recorded sets the deadline. -/
lemma step_sets_cooldown {n : ℕ} {t : Tick} {i : ρ} {c : Call} {exc : Exc} {seconds : ℚ}
    (hn : s.calls[n]? = some (i, c)) (hpc : c.pc = .recordFailure exc) (h429 : exc.isTooMany = true)
    (hr : exc.retryAfterSeconds t.wall = some seconds)
    (h : s.step cfg (.step n (.run t)) = some s') :
    t.later + seconds ≤ (s'.routers i).cooldownUntil c.model := by
  simp only [step, hn, Call.step, hpc, Option.some.injEq] at h
  subst h
  simp [Call.noteFailure_cooldown, Call.noteCooldown, h429, hr]

/-- In every interleaving of calls, from any state: the deadline of a model never decreases, and
once a 429 with `seconds` to wait is recorded for a model at the reading `t.later`, every later first
attempt and every later retry of that model passes its admission check with a reading of at least
`t.later + seconds`. -/
theorem cooldown_respected (cfg : ρ → Config) (s : State ρ) :
    (∀ acts s', run (step cfg) s acts = some s' → ∀ i m,
      (s.routers i).cooldownUntil m ≤ (s'.routers i).cooldownUntil m) ∧
    ∀ n t i c exc seconds, s.calls[n]? = some (i, c) → c.pc = .recordFailure exc →
      exc.isTooMany = true → exc.retryAfterSeconds t.wall = some seconds →
      ∀ acts s₁, run (step cfg) s (.step n (.run t) :: acts) = some s₁ →
      ∀ n' e s₂ c₁ c₂ now, s₁.calls[n']? = some (i, c₁) → c₁.model = c.model →
        s₁.step cfg (.step n' e) = some s₂ → s₂.calls[n']? = some (i, c₂) →
        Admits c₁.pc e c₂.pc now → t.later + seconds ≤ now := by
  refine ⟨fun acts s' h i m => run_cooldown_le h i m, ?_⟩
  intro n t i c exc seconds hn hpc h429 hr acts s₁ hrun n' e s₂ c₁ c₂ now hn₁ hmodel hstep hn₂ ha
  obtain ⟨s₀, hs₀, hrest⟩ := Option.bind_eq_some_iff.mp (by simpa using hrun)
  have hset := step_sets_cooldown hn hpc h429 hr hs₀
  have hkeep := run_cooldown_le hrest i c.model
  simp only [step, hn₁] at hstep
  split at hstep
  · cases hstep
  · rename_i r g c' hc
    cases hstep
    obtain rfl : c' = c₂ := by
      have hlt : n' < s₁.calls.length := (List.getElem?_eq_some_iff.mp hn₁).1
      simpa [List.getElem?_set_self hlt] using hn₂
    have hadmit := Call.cooldown_le_of_admits hc ha
    rw [hmodel] at hadmit
    exact (hset.trans hkeep).trans hadmit

/-- A 429 that asks for seven seconds. -/
def waitSeven : Exc := { status := .int 429, retryAfter := .seconds (.fin 7) }

/-- A call is told to wait by a 429; a second call has read its clock before that. -/
def rateLimitedRun : List (Action Unit) :=
  let hello : Request :=
    { messages := some [some ⟨some "user", some "hello"⟩], encoded := some 64 }
  let run (n : ℕ) (now : ℚ) : Action Unit := .step n (.run ⟨now, now, 0, 0⟩)
  [.start () hello, run 0 0, run 0 0, run 0 0, run 0 0, run 0 0, run 0 0, run 0 0,
    .start () hello, run 1 0, run 1 0, run 1 0, run 1 0, .step 0 (.reply (.raised waitSeven))]

/-- The second call goes on once the 429 is recorded; a third one starts at the reading 9. -/
def waitedRun : List (Action Unit) :=
  let hello : Request :=
    { messages := some [some ⟨some "user", some "hello"⟩], encoded := some 64 }
  let run (n : ℕ) (now : ℚ) : Action Unit := .step n (.run ⟨now, now, 0, 0⟩)
  [run 1 1, .start () hello, run 2 9, run 2 9, run 2 9, run 2 9]

/-- One model. -/
def singleRoute : Unit → Config := fun _ => { models := ["glm"] }

/-- Whether a call waits for the lock with the reading `now`. -/
def asksAt (now : ℚ) (p : Unit × Call) : Bool :=
  match p.2.pc with
  | .askRoute now' => p.2.model = "glm" ∧ now' = now
  | _ => false

lemma asksAt_iff {now : ℚ} {p : Unit × Call} (h : asksAt now p = true) :
    p.2.model = "glm" ∧ p.2.pc = .askRoute now := by
  unfold asksAt at h
  split at h
  · rename_i now' hpc
    obtain ⟨hm, rfl⟩ := of_decide_eq_true h
    exact ⟨hm, hpc⟩
  · cases h

/-- Whether a call is about to record the 429. -/
def limited (p : Unit × Call) : Bool :=
  match p.2.pc with
  | .recordFailure exc => p.2.model = "glm" ∧ exc = waitSeven
  | _ => false

lemma limited_iff {p : Unit × Call} (h : limited p = true) :
    p.2.model = "glm" ∧ p.2.pc = .recordFailure waitSeven := by
  unfold limited at h
  split at h
  · rename_i exc hpc
    obtain ⟨hm, rfl⟩ := of_decide_eq_true h
    exact ⟨hm, hpc⟩
  · cases h

/-- Whether a call has been admitted. -/
def admitted (p : Unit × Call) : Bool :=
  match p.2.pc with
  | .countFallback => true
  | _ => false

lemma admitted_iff {p : Unit × Call} (h : admitted p = true) : p.2.pc = .countFallback := by
  unfold admitted at h
  split at h
  · assumption
  · cases h

/-- After the 429 is recorded at the reading 1, the second call is turned away and the third one is
admitted at the reading 9, which is past the deadline. -/
theorem cooldown_respected_waitedRun :
    ∃ s s₁ s₂, run (step singleRoute) (init singleRoute none) rateLimitedRun = some s ∧
      run (step singleRoute) s (.step 0 (.run ⟨1, 1, 0, 0⟩) :: waitedRun) = some s₁ ∧
      s₁.step singleRoute (.step 2 (.run ⟨9, 9, 0, 0⟩)) = some s₂ ∧
      (s₁.calls[1]?.any fun p => p.2.trace = [("glm", .circuitOpen)]) = true ∧
      (s₁.calls[2]?.any (asksAt 9)) = true ∧ (s₂.calls[2]?.any admitted) = true ∧
      (1 : ℚ) + 7 ≤ 9 := by
  have h : ((run (step singleRoute) (init singleRoute none) rateLimitedRun).any fun s =>
      s.calls[0]?.any limited &&
      (run (step singleRoute) s (.step 0 (.run ⟨1, 1, 0, 0⟩) :: waitedRun)).any fun s₁ =>
        (s₁.calls[1]?.any fun p => p.2.trace = [("glm", .circuitOpen)]) &&
        s₁.calls[2]?.any (asksAt 9) &&
        (s₁.step singleRoute (.step 2 (.run ⟨9, 9, 0, 0⟩))).any fun s₂ =>
          s₂.calls[2]?.any admitted) = true := by
    decide +kernel
  simp only [Option.any_eq_true, Bool.and_eq_true] at h
  obtain ⟨s, hs, ⟨⟨_, c⟩, hn, hlim⟩, s₁, hs₁, ⟨hturned, ⟨⟨_, c₁⟩, hn₁, hask⟩⟩, s₂, hs₂,
    ⟨⟨_, c₂⟩, hn₂, hadm⟩⟩ := h
  obtain ⟨hm, hpc⟩ := limited_iff hlim
  obtain ⟨hm₁, hpc₁⟩ := asksAt_iff hask
  have hpc₂ := admitted_iff hadm
  refine ⟨s, s₁, s₂, hs, hs₁, hs₂, (Option.any_eq_true _ _).mpr hturned, ?_, ?_, ?_⟩
  · simp [hn₁, hask]
  · simp [hn₂, hadm]
  · refine (cooldown_respected singleRoute s).2 0 ⟨1, 1, 0, 0⟩ () c waitSeven 7 hn hpc rfl rfl waitedRun
      s₁ hs₁ 2 (.run ⟨9, 9, 0, 0⟩) s₂ c₁ c₂ 9 hn₁ (hm₁.trans hm.symm) hs₂ hn₂ ?_
    rw [hpc₁, hpc₂]
    exact .first 9 ⟨9, 9, 0, 0⟩

end State

end AxiomGrid.Router
