import AxiomGrid.Router.Accounting

/-!
# Requests, successes and failures

Each counted request ends as one success or one failure, unless its call leaves with an exception
that no handler stops. With the balance of the books this settles what holds whenever no call is in
flight.
-/

namespace AxiomGrid.Router

open Transition

/-- A call that ends this way was counted as a request and as nothing else. -/
def Exit.untallied : Exit → ℕ
  | .escaped => 1
  | _ => 0

/-- Whether a call at this point is counted as a request and not yet as a success or a failure. -/
def Pc.untallied : Pc → ℕ
  | .reserve | .enter | .countRequest => 0
  | .cleanup (.leave e) | .settle e | .release e | .done e => e.untallied
  | _ => 1

lemma Pc.untallied_of_trying {pc : Pc} (h : pc.trying = true) : pc.untallied = 1 := by
  match pc with
  | .cleanup (.leave e) => cases e <;> first | rfl | simp [trying] at h
  | .cleanup .nextModel | .countFallback | .dispatch | .transport _ | .recordSuccess _
  | .recordBudget | .recordFailure _ | .afterFailure _ | .backoff _ | .sleeping _ | .retry
  | .checkRoute => rfl

namespace Call

/-- Requests counted and requests tallied, with the requests in between, change together. -/
def TallyMove (m m' : Metrics) (pc pc' : Pc) : Prop :=
  m'.requests + (m.successes + m.failures) + pc.untallied =
    m.requests + (m'.successes + m'.failures) + pc'.untallied

variable {cfg : Config} {r r' : ModelRouter} {g g' : SpendGovernor} {c c' : Call} {e : Event}

lemma TallyMove.quiet {m : Metrics} {pc pc' : Pc} (h : pc'.untallied = pc.untallied) :
    TallyMove m m pc pc' := by
  unfold TallyMove
  omega

/-- Every step but a lock acquisition that gives up. -/
theorem step_tally (h : c.step cfg r g e = some (r', g', c')) (he : e ≠ .lockTimeout) :
    TallyMove r.metrics r'.metrics c.pc c'.pc := by
  cases step_cases h with
  | countRequest t hc =>
    simp [TallyMove, goto, hc, Pc.untallied]
    omega
  | route t hc =>
    rw [hc]
    rcases @enterRoute_cases cfg c t.now with hr | ⟨model, hr⟩ <;> (rw [hr]; exact .quiet rfl)
  | askRoute t now hc =>
    rw [hc]
    rcases @askBreaker_cases r c now with ⟨-, hb⟩ | hb <;> (rw [hb]; exact .quiet rfl)
  | countFallback t hc =>
    rw [hc]
    split <;> exact .quiet rfl
  | dispatch t hc =>
    rw [hc]
    exact .quiet (Pc.untallied_of_trying (dispatchPc_trying t.now))
  | account t counts d hc =>
    have hpc : (c.goto (c.checkedPc counts d)).pc.untallied = 1 :=
      Pc.untallied_of_trying (checkedPc_trying counts d)
    rw [TallyMove, hpc, hc]
    simp [Metrics.account, Pc.untallied]
  | recordSuccess t d hc =>
    simp [TallyMove, goto, hc, Pc.untallied, Exit.untallied]
    omega
  | recordBudget t hc =>
    simp [TallyMove, hc, Pc.untallied, Exit.untallied]
    omega
  | recordFailure t exc hc =>
    obtain ⟨ht, -, hm, -⟩ := noteFailure_spec (r := r) (c := c) exc t
    rw [hm, hc]
    exact .quiet (Pc.untallied_of_trying ht)
  | afterFailure t exc hc =>
    rw [hc]
    exact .quiet (Pc.untallied_of_trying (afterFailurePc_trying exc))
  | backoff t exc hc =>
    rw [hc]
    exact .quiet (Pc.untallied_of_trying (backoffPc_trying exc t))
  | retry t hc =>
    rw [hc]
    refine .quiet (Pc.untallied_of_trying ?_)
    dsimp only [goto]
    split <;> rfl
  | cleanup t next hc =>
    rw [releaseProbe_metrics, hc]
    cases next <;> exact .quiet rfl
  | recordAllFailed t hc =>
    simp [TallyMove, goto, hc, Pc.untallied, Exit.untallied]
    omega
  | reply timeout reply hc =>
    rw [hc]
    cases reply with
    | data d =>
      simp only [receive]
      split <;> exact .quiet rfl
    | raised exc => exact .quiet rfl
    | budgetExhausted => exact .quiet rfl
    | interrupted => exact .quiet rfl
  | refuse t hc | grant t hc | enter t hc | reject t hc | again t hc | giveUp t hc | settle t e hc
  | release t e hc | woke delay hc | interrupted delay hc =>
    rw [hc]
    exact .quiet rfl
  | unlockedCount | unlockedAsk | unlockedFallback | unlockedSuccess | unlockedBudget
  | unlockedFailure | unlockedCheck | unlockedAllFailed => exact absurd rfl he

end Call

namespace State

variable {ρ : Type*} [DecidableEq ρ] {cfg : ρ → Config} {s s' : State ρ} {ceiling : Option ℤ}
  {acts : List (Action ρ)}

/-- Every counted request is tallied, or its call is under way or has escaped. -/
def Tallied (acts : List (Action ρ)) (s : State ρ) : Prop :=
  (∀ n, .step n .lockTimeout ∉ acts) → ∀ i,
    (s.routers i).metrics.requests = (s.routers i).metrics.successes +
      (s.routers i).metrics.failures + totalOn (·.pc.untallied) s.calls i

lemma tallied_step {a : Action ρ} (h : Tallied acts s) (hs : s.step cfg a = some s') :
    Tallied (acts ++ [a]) s' := by
  intro hno i
  have hbefore := h (fun n hn => hno n (List.mem_append_left _ hn)) i
  have hlast : ∀ n, a ≠ .step n .lockTimeout := by
    rintro n rfl
    exact hno n (by simp)
  obtain ⟨j, request, rfl, -, rfl⟩ | ⟨j, request, rfl, -, rfl⟩ |
    ⟨n, e, j, c, r, g, c', rfl, hn, hc, rfl⟩ := step_cases hs
  · rw [totalOn_concat]
    by_cases hj : i = j
    · subst hj
      simpa [Pc.untallied] using hbefore
    · simpa [hj, Ne.symm hj] using hbefore
  · rw [totalOn_concat]
    simpa [Pc.untallied, Exit.untallied] using hbefore
  · by_cases hj : j = i
    · subst hj
      have hmove := Call.step_tally hc fun he => hlast n (by rw [he])
      have hset := totalOn_set (·.pc.untallied) hn c'
      simp only [Call.TallyMove] at hmove
      simp only [Function.update_self]
      omega
    · dsimp only
      rw [Function.update_of_ne (Ne.symm hj), totalOn_set_of_ne _ hn c' hj]
      exact hbefore

lemma tallied_run (h : run (step cfg) (init cfg ceiling) acts = some s) : Tallied acts s :=
  run_induction (step cfg) (P := Tallied) (fun _ _ => rfl)
    (fun _ _ _ _ _ hs ha => tallied_step hs ha) h

/-! ### When no call is in flight -/

/-- A weight that vanishes on every call sums to zero on every router. -/
lemma totalOn_eq_zero {w : Call → ℕ} {calls : List (ρ × Call)} (h : ∀ p ∈ calls, w p.2 = 0)
    (i : ρ) : totalOn w calls i = 0 := by
  refine List.sum_eq_zero fun x hx => ?_
  obtain ⟨p, hp, rfl⟩ := List.mem_map.mp hx
  simp [h p hp]

/-- Summed over the routers, the calls on each router are all calls. -/
lemma sum_totalOn [Fintype ρ] (w : Call → ℕ) (calls : List (ρ × Call)) :
    ∑ i, totalOn w calls i = (calls.map fun p => w p.2).sum := by
  induction calls with
  | nil => simp [totalOn]
  | cons p calls ih =>
    simp only [totalOn, List.map_cons, List.sum_cons, Finset.sum_add_distrib] at ih ⊢
    rw [ih]
    simp

omit [DecidableEq ρ] in
/-- Once every call has ended, all that was spent is committed. -/
lemma total_actual_of_finished {calls : List (ρ × Call)}
    (h : ∀ p ∈ calls, p.2.book.stage = .finished) :
    total Book.actual calls = ((calls.map fun p => p.2.spent).sum : ℕ) := by
  induction calls with
  | nil => rfl
  | cons p calls ih =>
    have hp : p.2.book.actual = p.2.book.spent := by
      simp [Book.actual, Book.isSettled, h p (by simp)]
    have hcalls := ih fun q hq => h q (List.mem_cons_of_mem _ hq)
    simp only [total, List.map_cons, List.sum_cons, Nat.cast_add] at hcalls ⊢
    rw [hcalls, hp]
    rfl

/-- In every reachable state of routers that share a governor: `reserved` is the sum of the
reservations of the admitted calls that are not settled, so the clamp in `settle` never bites;
`committed` is the sum of what the settled calls were billed, which for each call is the sum over
its validated responses; and the ceiling holds up to what settled calls went over their reservations.
When no call is in flight nothing is reserved, every permit is back, `committed` is the sum of the
routers' token metrics, and unless a lock acquisition gave up or a call was left by an exception that
nothing stops, requests are successes and failures. -/
theorem governor_balanced [Fintype ρ] (hc : ∀ cap ∈ ceiling, 1 ≤ cap)
    (h : run (step cfg) (init cfg ceiling) acts = some s) :
    s.spend.reserved = total Book.outstanding s.calls ∧
    (∀ p ∈ s.calls, ∀ n, p.2.reservation = some n → p.2.book.isSettled = false →
      max 0 (s.spend.reserved - n) = s.spend.reserved - n) ∧
    (∀ n p, s.calls[n]? = some p → p.2.spent = billed acts n) ∧
    s.spend.committed = total Book.actual s.calls ∧
    (∀ cap ∈ ceiling,
      s.spend.committed + s.spend.reserved ≤ cap + total Book.overshoot s.calls) ∧
    ((∀ p ∈ s.calls, ∃ e, p.2.pc = .done e) →
      s.spend.reserved = 0 ∧
      (∀ i, (s.routers i).slots = (cfg i).maxInflight) ∧
      s.spend.committed = ∑ i, ((s.routers i).metrics.totalTokens : ℤ) ∧
      ((∀ n, .step n .lockTimeout ∉ acts) → (∀ p ∈ s.calls, p.2.pc ≠ .done .escaped) →
        ∀ i, (s.routers i).metrics.requests =
          (s.routers i).metrics.successes + (s.routers i).metrics.failures)) := by
  have hb := balanced_run hc h
  refine ⟨hb.reserved, fun p hp n hn hs => ?_, hb.spent, hb.committed, hb.bound, fun hdone => ?_⟩
  · have hle := hb.outstanding_le hp
    have hout : p.2.book.outstanding = n := by
      have hr : p.2.book.reservation = some n := hn
      simp [Book.outstanding, hs, hr]
    omega
  · have hfin : ∀ p ∈ s.calls, p.2.book.stage = .finished := by
      intro p hp
      obtain ⟨e, he⟩ := hdone p hp
      simp [Call.book, he, Pc.stage]
    refine ⟨?_, fun i => ?_, ?_, fun hlock hesc i => ?_⟩
    · rw [hb.reserved]
      refine List.sum_eq_zero fun x hx => ?_
      obtain ⟨p, hp, rfl⟩ := List.mem_map.mp hx
      simp [Book.outstanding, Book.isSettled, hfin p hp]
    · have := hb.permits i
      rw [totalOn_eq_zero (fun p hp => by simp [Book.permits, hfin p hp]), add_zero] at this
      exact this
    · have htok : ∀ i, (s.routers i).metrics.totalTokens = totalOn (·.spent) s.calls i := by
        intro i
        have := hb.tokens i
        rwa [totalOn_eq_zero (fun p hp => (hb.sound p hp).pending (by simp [hfin p hp])),
          add_zero] at this
      rw [hb.committed, total_actual_of_finished hfin, ← sum_totalOn, Nat.cast_sum]
      simp only [htok]
    · have := tallied_run h hlock i
      rw [totalOn_eq_zero (fun p hp => ?_), add_zero] at this
      · exact this
      · obtain ⟨e, he⟩ := hdone p hp
        have hne := hesc p hp
        rw [he] at hne ⊢
        cases e <;> first | rfl | exact absurd rfl hne

/-- Two routers with one model each. -/
def twoRouters : Bool → Config := fun _ => { models := ["glm"] }

/-- A call that is billed beyond the ceiling, and one on the other router that is then refused. -/
def overshootCalls : List (Action Bool) :=
  let hello : Request :=
    { messages := some [some ⟨some "user", some "hello"⟩], encoded := some 64 }
  let run (n : ℕ) : Action Bool := .step n (.run ⟨0, 0, 0, 0⟩)
  let response : Json := .obj [("usage", .obj [("total_tokens", .int 7000)]),
    ("choices", .arr [.obj [("message", .obj [("content", .str "hi")])]])]
  [.start true hello, run 0, run 0, run 0, run 0, run 0, run 0, run 0,
    .step 0 (.reply (.data response)), run 0, run 0, run 0, run 0, run 0,
    .start false hello, run 1, run 1]

/-- The books of `overshootCalls` with a ceiling of 5000 tokens. -/
theorem governor_balanced_overshootCalls :
    ∃ s, run (step twoRouters) (init twoRouters (some 5000)) overshootCalls = some s ∧
      s.spend.committed = 7000 ∧ s.spend.refused = 1 ∧
      s.spend.committed = ∑ i, ((s.routers i).metrics.totalTokens : ℤ) ∧
      ∀ i, (s.routers i).metrics.requests =
        (s.routers i).metrics.successes + (s.routers i).metrics.failures := by
  have h : (run (step twoRouters) (init twoRouters (some 5000)) overshootCalls).any fun s =>
      s.spend.committed = 7000 && s.spend.refused = 1 &&
        s.calls.all fun p => p.2.pc.stage = .finished && p.2.pc.untallied = 0 := by
    decide +kernel
  obtain ⟨s, hs, hp⟩ := (Option.any_eq_true _ _).mp h
  simp only [Bool.and_eq_true, decide_eq_true_eq, List.all_eq_true] at hp
  obtain ⟨⟨hcommitted, hrefused⟩, hcalls⟩ := hp
  have hdone : ∀ p ∈ s.calls, ∃ e, p.2.pc = .done e := by
    intro p hp
    have := (hcalls p hp).1
    cases hpc : p.2.pc with
    | done e => exact ⟨e, rfl⟩
    | _ => simp [hpc, Pc.stage] at this
  have hescaped : ∀ p ∈ s.calls, p.2.pc ≠ .done .escaped := by
    intro p hp he
    have := (hcalls p hp).2
    simp [he, Pc.untallied, Exit.untallied] at this
  have hlock : ∀ n, .step n .lockTimeout ∉ overshootCalls := by
    intro n hn
    simp [overshootCalls] at hn
  obtain ⟨-, -, -, -, -, hquiet⟩ := governor_balanced (by simp) hs
  obtain ⟨-, -, htokens, htally⟩ := hquiet hdone
  exact ⟨s, hs, hcommitted, hrefused, htokens, htally hlock hescaped⟩

end State

end AxiomGrid.Router
