import AxiomGrid.Lib.Transition
import AxiomGrid.Router.Basic

/-!
# Fencing of half-open probes

A call that a breaker admitted has a lease on its model's route until the `finally` clause of that
route has run. `Call.BreakerMove` says once what a step of a call can do to the breakers and to its own
lease; that every breaker and the leases on it satisfy `LeaseInv` in every reachable state follows
from it, for any number of routers, models and calls.
-/

namespace AxiomGrid.Router

open Transition

/-! ### Leases of calls -/

/-- Whether a call at this point has been admitted to a route and has not left it yet. -/
def Pc.leased : Pc → Bool
  | .countFallback | .dispatch | .transport _ | .account _ _ | .recordSuccess _ | .recordBudget
  | .recordFailure _ | .afterFailure _ | .backoff _ | .sleeping _ | .retry | .checkRoute
  | .cleanup _ => true
  | .reserve | .enter | .countRequest | .route | .askRoute _ | .recordAllFailed | .settle _
  | .release _ | .done _ => false

lemma Pc.leased_of_trying {pc : Pc} (h : pc.trying = true) : pc.leased = true := by
  cases pc <;> first | rfl | simp [trying] at h

/-- The lease a call has on the route of model `m`. -/
def Call.leaseOn (c : Call) (m : String) : Option Lease :=
  if c.pc.leased ∧ c.model = m then some ⟨c.isProbe, c.generation⟩ else none

/-- The leases on the route of model `m` of router `i`, by the number of the call. -/
def State.lease {ρ : Type*} [DecidableEq ρ] (s : State ρ) (i : ρ) (m : String) (n : ℕ) :
    Option Lease :=
  (s.calls[n]?).bind fun p => if p.1 = i then p.2.leaseOn m else none

namespace Call

variable {cfg : Config} {r r' : ModelRouter} {g g' : SpendGovernor} {c c' : Call} {e : Event}

lemma leaseOn_of_not_leased (h : c.pc.leased = false) (m : String) : c.leaseOn m = none := by
  simp [leaseOn, h]

lemma leaseOn_of_leased (h : c.pc.leased = true) (m : String) :
    c.leaseOn m = if c.model = m then some ⟨c.isProbe, c.generation⟩ else none := by
  simp [leaseOn, h]

/-- A call that stays on its route keeps its lease. -/
lemma leaseOn_keep (h : c.pc.leased = true) (h' : c'.pc.leased = true := by rfl)
    (hm : c'.model = c.model := by rfl) (hi : c'.isProbe = c.isProbe := by rfl)
    (hg : c'.generation = c.generation := by rfl) (m : String) :
    c'.leaseOn m = c.leaseOn m := by
  simp [leaseOn, h, h', hm, hi, hg]

/-- A call that stays off the routes has no lease before or after. -/
lemma leaseOn_off (h : c.pc.leased = false) (h' : c'.pc.leased = false) (m : String) :
    c'.leaseOn m = c.leaseOn m := by
  rw [leaseOn_of_not_leased h, leaseOn_of_not_leased h']

/-! ### What a step does to the breakers -/

/-- What one step of a call can do to the breakers of its router and to its own lease. -/
inductive BreakerMove (r r' : ModelRouter) (c c' : Call) : Prop
  | quiet (hb : r'.breakers = r.breakers) (hl : ∀ m, c'.leaseOn m = c.leaseOn m)
  | grant (now : ℚ) (hl : ∀ m, c.leaseOn m = none)
      (ha : ((r.breakers c.model).allow now).1 = true)
      (hb : r'.breakers = Function.update r.breakers c.model ((r.breakers c.model).allow now).2)
      (hl' : ∀ m, c'.leaseOn m = if c.model = m then
        some ⟨((r.breakers c.model).allow now).2.probing,
          ((r.breakers c.model).allow now).2.generation⟩ else none)
  | success (hc : c.pc.leased = true)
      (hb : r'.breakers = Function.update r.breakers c.model
        ((r.breakers c.model).success (some c.generation)))
      (hl : ∀ m, c'.leaseOn m = c.leaseOn m)
  | failure (now : ℚ) (hc : c.pc.leased = true)
      (hb : r'.breakers = Function.update r.breakers c.model
        ((r.breakers c.model).failure now (some c.generation)))
      (hl : ∀ m, c'.leaseOn m = c.leaseOn m)
  | leave (now : ℚ) (hc : c.pc.leased = true) (hb : r' = c.releaseProbe r now)
      (hl : ∀ m, c'.leaseOn m = none)

lemma enterRoute_leased (now : ℚ) : (c.enterRoute cfg now).pc.leased = false := by
  rcases @enterRoute_cases cfg c now with h | ⟨model, h⟩ <;> rw [h] <;> rfl

lemma askBreaker_move (h : c.pc.leased = false) (now : ℚ) :
    BreakerMove r (c.askBreaker r now).1 c (c.askBreaker r now).2 := by
  have hl := leaseOn_of_not_leased h
  rcases askBreaker_cases now with ⟨ha, hb⟩ | hb
  · rw [hb]
    exact .grant now hl ha rfl fun m => leaseOn_of_leased rfl m
  · rw [hb]
    exact .quiet rfl fun m => by rw [hl, leaseOn_of_not_leased rfl]

lemma receive_leaseOn (h : c.pc.leased = true) (reply : Reply) (m : String) :
    (c.receive reply).leaseOn m = c.leaseOn m := by
  cases reply with
  | data d =>
    simp only [receive]
    split <;> apply leaseOn_keep h
  | raised exc => apply leaseOn_keep h
  | budgetExhausted => apply leaseOn_keep h
  | interrupted => apply leaseOn_keep h

lemma resume_leased (next : After) : (c.resume next).pc.leased = false := by
  cases next <;> rfl

/-- A step at a point off the routes, other than the admission, is quiet. -/
private lemma move_off {pc : Pc} (hc : c.pc = pc) (h' : c'.pc.leased = false := by rfl)
    (hp : pc.leased = false := by rfl) (hb : r'.breakers = r.breakers := by rfl) :
    BreakerMove r r' c c' :=
  .quiet hb (leaseOn_off (by rw [hc, hp]) h')

/-- A step that stays on the route and touches no breaker is quiet. -/
private lemma move_on {pc pc' : Pc} (hc : c.pc = pc) (h' : pc'.leased = true := by rfl)
    (hp : pc.leased = true := by rfl) (hb : r'.breakers = r.breakers := by rfl) :
    BreakerMove r r' c (c.goto pc') :=
  .quiet hb (leaseOn_keep (by rw [hc, hp]) h')

/-- Every step of a call is one of the moves. -/
theorem step_move (h : c.step cfg r g e = some (r', g', c')) : BreakerMove r r' c c' := by
  cases step_cases h with
  | route t hc => exact move_off hc (enterRoute_leased t.now)
  | askRoute t now hc => exact askBreaker_move (by rw [hc]; rfl) now
  | countFallback t hc => exact move_on hc rfl rfl (by split <;> rfl)
  | dispatch t hc => exact move_on hc (Pc.leased_of_trying (dispatchPc_trying t.now))
  | account t counts d hc => exact move_on hc (Pc.leased_of_trying (checkedPc_trying counts d))
  | recordSuccess t d hc => exact .success (by rw [hc]; rfl) rfl (leaseOn_keep (by rw [hc]; rfl))
  | recordBudget t hc => exact .success (by rw [hc]; rfl) rfl (leaseOn_keep (by rw [hc]; rfl))
  | recordFailure t exc hc =>
    exact .failure t.now (by rw [hc]; rfl) (noteFailure_spec exc t).2.1
      (leaseOn_keep (by rw [hc]; rfl) (Pc.leased_of_trying (noteFailure_spec exc t).1))
  | afterFailure t exc hc => exact move_on hc (Pc.leased_of_trying (afterFailurePc_trying exc))
  | backoff t exc hc => exact move_on hc (Pc.leased_of_trying (backoffPc_trying exc t))
  | retry t hc => exact move_on hc (by split <;> rfl)
  | cleanup t next hc =>
    exact .leave t.now (by rw [hc]; rfl) rfl (leaseOn_of_not_leased (resume_leased next))
  | reply timeout reply hc => exact .quiet rfl (receive_leaseOn (by rw [hc]; rfl) reply)
  | refuse t hc | grant t hc | enter t hc | reject t hc | countRequest t hc | recordAllFailed t hc
  | settle t e hc | release t e hc | unlockedCount hc | unlockedAsk now hc | unlockedAllFailed hc =>
    exact move_off hc
  | again t hc | unlockedFallback hc | unlockedSuccess d hc | unlockedCheck hc
  | interrupted delay hc => exact move_on hc
  | giveUp t hc | unlockedBudget hc | unlockedFailure exc hc | woke delay hc =>
    exact .quiet rfl (leaseOn_keep (by rw [hc]; rfl))

/-- A call admitted under an earlier generation leaves the breaker of its route as it is. -/
lemma BreakerMove.stale {l : Lease} {m : String} (h : BreakerMove r r' c c')
    (hl : c.leaseOn m = some l) (hg : l.generation ≠ (r.breakers m).generation) :
    r'.breakers m = r.breakers m := by
  obtain ⟨hc, rfl, rfl⟩ : c.pc.leased = true ∧ c.model = m ∧ ⟨c.isProbe, c.generation⟩ = l := by
    unfold leaseOn at hl
    split at hl
    · rename_i hc
      exact ⟨hc.1, hc.2, Option.some.inj hl⟩
    · cases hl
  cases h with
  | quiet hb hl' => rw [hb]
  | grant now hl' => simp [hl'] at hl
  | success _ hb => rw [hb, Function.update_self, CircuitBreaker.success_stale hg]
  | failure now _ hb => rw [hb, Function.update_self, CircuitBreaker.failure_stale hg]
  | leave now _ hb =>
    have hno : ¬(c.isProbe = true ∧ (r.breakers c.model).generation = c.generation ∧
        (r.breakers c.model).probing = true) := fun hp => hg hp.2.1.symm
    rw [hb, releaseProbe, if_neg hno]

end Call

/-! ### The invariant of the system -/

namespace LeaseInv

variable {r r' : ModelRouter} {c c' : Call} {lease : ℕ → Option Lease} {n : ℕ} {m : String}

/-- A move of the `n`-th call keeps the invariant of every breaker of its router. -/
theorem move (h : LeaseInv (r.breakers m) lease) (hn : lease n = c.leaseOn m)
    (hm : Call.BreakerMove r r' c c') :
    LeaseInv (r'.breakers m) (Function.update lease n (c'.leaseOn m)) := by
  have same : c'.leaseOn m = c.leaseOn m → Function.update lease n (c'.leaseOn m) = lease := by
    intro hl
    rw [hl, ← hn, Function.update_eq_self]
  cases hm with
  | quiet hb hl =>
    rw [same (hl m), hb]
    exact h
  | grant now hl ha hb hl' =>
    by_cases hcm : c.model = m
    · subst hcm
      rw [hb, Function.update_self, hl' c.model, if_pos rfl]
      exact h.grant (hn.trans (hl _)) ha
    · rw [same (by rw [hl', hl, if_neg hcm]), hb, Function.update_of_ne (Ne.symm hcm)]
      exact h
  | success hc hb hl =>
    rw [same (hl m), hb]
    by_cases hcm : c.model = m
    · subst hcm
      rw [Function.update_self]
      exact h.success c.generation
    · rw [Function.update_of_ne (Ne.symm hcm)]
      exact h
  | failure now hc hb hl =>
    rw [same (hl m), hb]
    by_cases hcm : c.model = m
    · subst hcm
      rw [Function.update_self]
      exact h.failure now c.generation
    · rw [Function.update_of_ne (Ne.symm hcm)]
      exact h
  | leave now hc hb hl =>
    subst hb
    by_cases hcm : c.model = m
    · subst hcm
      rw [Call.leaseOn_of_leased hc, if_pos rfl] at hn
      rw [hl]
      unfold Call.releaseProbe
      split
      · -- the probe is still out: it is reported as failed, which makes its lease stale
        rename_i hp
        rw [ModelRouter.setBreaker_breakers, Function.update_self]
        exact (h.failure now c.generation).release (h.not_holds_of_failure hn hp.1 now)
      · rename_i hp
        refine h.release fun hold => hp ?_
        have hprobing := h.probe_probing n hold
        obtain ⟨l, hl, hprobe, hgen⟩ := hold
        obtain rfl : _ = l := Option.some.inj (hn.symm.trans hl)
        exact ⟨hprobe, hgen.symm, hprobing⟩
    · rw [same (by rw [hl, Call.leaseOn_of_leased hc, if_neg hcm])]
      unfold Call.releaseProbe
      split
      · rw [ModelRouter.setBreaker_breakers, Function.update_of_ne (Ne.symm hcm)]
        exact h
      · exact h

end LeaseInv

namespace State

variable {ρ : Type*} [DecidableEq ρ] {cfg : ρ → Config} {s s' : State ρ} {i : ρ} {m : String}

/-- Every breaker of every router is in order with the leases on it. -/
def Fenced (s : State ρ) : Prop :=
  ∀ i m, LeaseInv ((s.routers i).breakers m) (s.lease i m)

lemma fenced_init (ceiling : Option ℤ) : (init cfg ceiling).Fenced := fun _ _ =>
  LeaseInv.init rfl rfl fun _ => rfl

/-- A call that has just started, or was turned away, has no lease. -/
lemma lease_concat {c : Call} (hc : c.pc.leased = false) (spend : SpendGovernor)
    (routers : ρ → ModelRouter) (j : ρ) :
    (⟨spend, routers, s.calls ++ [(j, c)]⟩ : State ρ).lease i m = s.lease i m := by
  funext n
  unfold lease
  rcases lt_trichotomy n s.calls.length with hn | rfl | hn
  · rw [List.getElem?_append_left hn]
  · simp [Call.leaseOn_of_not_leased hc]
  · rw [List.getElem?_eq_none (by simp; omega), List.getElem?_eq_none hn.le]

/-- A step of the `n`-th call changes only its own lease. -/
lemma lease_set {n : ℕ} {j : ρ} {c : Call} (hn : s.calls[n]? = some (j, c)) (c' : Call)
    (spend : SpendGovernor) (routers : ρ → ModelRouter) :
    (⟨spend, routers, s.calls.set n (j, c')⟩ : State ρ).lease i m =
      if j = i then Function.update (s.lease i m) n (c'.leaseOn m) else s.lease i m := by
  have hlt : n < s.calls.length := (List.getElem?_eq_some_iff.mp hn).1
  funext k
  by_cases hk : k = n
  · subst hk
    have hset : (s.calls.set k (j, c'))[k]? = some (j, c') := by
      rw [List.getElem?_set_self hlt]
    by_cases hj : j = i
    · subst hj
      simp only [lease, hset, Option.bind_some, if_true, Function.update_self]
    · simp only [lease, hset, hn, Option.bind_some, hj, if_false]
  · have hset : (s.calls.set n (j, c'))[k]? = s.calls[k]? := List.getElem?_set_ne (Ne.symm hk)
    by_cases hj : j = i
    · rw [if_pos hj, Function.update_of_ne hk]
      simp only [lease, hset]
    · rw [if_neg hj]
      simp only [lease, hset]

lemma lease_of_call {n : ℕ} {c : Call} (hn : s.calls[n]? = some (i, c)) :
    s.lease i m n = c.leaseOn m := by
  simp [lease, hn]

/-- Every step of the system keeps every breaker in order. -/
theorem fenced_step {a : Action ρ} (h : s.Fenced) (hs : s.step cfg a = some s') : s'.Fenced := by
  intro i m
  obtain ⟨j, request, -, -, rfl⟩ | ⟨j, request, -, -, rfl⟩ |
    ⟨n, e, j, c, r, g, c', -, hn, hc, rfl⟩ := step_cases hs
  · rw [lease_concat rfl]
    by_cases hj : i = j
    · subst hj
      simpa using h i m
    · simpa [hj] using h i m
  · rw [lease_concat rfl]
    exact h i m
  · rw [lease_set hn]
    by_cases hj : j = i
    · subst hj
      rw [if_pos rfl]
      simpa using (h j m).move (lease_of_call hn) (Call.step_move hc)
    · simpa [hj, Ne.symm hj] using h i m

theorem fenced_run {ceiling : Option ℤ} {acts : List (Action ρ)}
    (h : run (step cfg) (init cfg ceiling) acts = some s) : s.Fenced :=
  run_invariant (step cfg) (fun _ _ _ hs => fenced_step hs) (fenced_init ceiling) h

/-- In every reachable state of any routers under any interleaving of calls: at most one call in
flight holds the half-open probe of a route, and while one does, `allow` admits nobody; the breaker
is `probing` exactly while some call in flight holds the probe; and no step of a call that was
admitted under another generation changes the breaker. -/
theorem probe_fenced {ceiling : Option ℤ} {acts : List (Action ρ)}
    (h : run (step cfg) (init cfg ceiling) acts = some s) (i : ρ) (m : String) :
    let b := (s.routers i).breakers m
    (∀ j k, HoldsProbe b (s.lease i m) j → HoldsProbe b (s.lease i m) k → j = k) ∧
    (∀ j now, HoldsProbe b (s.lease i m) j → (b.allow now).1 = false) ∧
    (b.probing = true ↔ ∃ j, HoldsProbe b (s.lease i m) j) ∧
    (∀ n l e s', s.lease i m n = some l → l.generation ≠ b.generation →
      s.step cfg (.step n e) = some s' → (s'.routers i).breakers m = b) := by
  intro b
  have inv : LeaseInv b (s.lease i m) := fenced_run h i m
  refine ⟨inv.probe_unique, fun j now hj => ?_, ⟨inv.probing_held, ?_⟩, ?_⟩
  · have hp := inv.probe_probing j hj
    exact CircuitBreaker.allow_of_probing (inv.probing_open hp) hp now
  · rintro ⟨j, hj⟩
    exact inv.probe_probing j hj
  · intro n l e s' hl hg hs
    obtain ⟨_, _, ha, -⟩ | ⟨_, _, ha, -⟩ | ⟨n', e', j, c, r, g, c', ha, hn, hc, rfl⟩ :=
      step_cases hs
    · cases ha
    · cases ha
    · cases ha
      by_cases hj : j = i
      · subst hj
        rw [lease_of_call hn] at hl
        simpa using (Call.step_move hc).stale hl hg
      · simp [b, Ne.symm hj]

/-- One model whose breaker opens at the first failure. -/
def oneRoute : Unit → Config := fun _ => { models := ["glm"], failureThreshold := fun _ => 1 }

/-- A call fails and opens the circuit; after the recovery time a second call is admitted. -/
def probeRun : List (Action Unit) :=
  let hello : Request :=
    { messages := some [some ⟨some "user", some "hello"⟩], encoded := some 64 }
  let run (n : ℕ) (now : ℚ) : Action Unit := .step n (.run ⟨now, now, 0, 0⟩)
  [.start () hello, run 0 0, run 0 0, run 0 0, run 0 0, run 0 0, run 0 0, run 0 0,
    .step 0 (.reply (.raised {})), run 0 1,
    .start () hello, run 1 20, run 1 20, run 1 20, run 1 20, run 1 20]

/-- The first call is still in flight with a stale lease when the second one holds the probe. -/
theorem probe_fenced_probeRun :
    ∃ s, run (step oneRoute) (init oneRoute none) probeRun = some s ∧
      (∃ j, HoldsProbe ((s.routers ()).breakers "glm") (s.lease () "glm") j) ∧
      s.lease () "glm" 0 = some ⟨false, 0⟩ ∧ s.lease () "glm" 1 = some ⟨true, 1⟩ := by
  have h : (run (step oneRoute) (init oneRoute none) probeRun).any fun s =>
      ((s.routers ()).breakers "glm").probing && s.lease () "glm" 0 = some ⟨false, 0⟩ &&
        s.lease () "glm" 1 = some ⟨true, 1⟩ := by
    decide +kernel
  obtain ⟨s, hs, hp⟩ := (Option.any_eq_true _ _).mp h
  simp only [Bool.and_eq_true, decide_eq_true_eq] at hp
  exact ⟨s, hs, ((probe_fenced hs () "glm").2.2.1).mp hp.1.1, hp.1.2, hp.2⟩

end State

end AxiomGrid.Router
