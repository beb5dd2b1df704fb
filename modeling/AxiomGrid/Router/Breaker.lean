import Mathlib.Algebra.Order.Ring.Rat
import Mathlib.Logic.Function.Basic
import Mathlib.Tactic.Common

/-!
# The circuit breaker of a model route

`CircuitBreaker` and its three transitions `allow`, `success` and `failure`, as in
`kernel/sidecar/melious_router.py`. Clock readings are exact rationals; no reading is assumed to be
related to another one.

A request that `allow` admits keeps a *lease*: whether it is the half-open probe, and the generation
it was admitted under. `LeaseInv` ties the leases of the requests in flight to the breaker, and is
kept by every operation a request performs between its admission and its end.
-/

namespace AxiomGrid.Router

/-- The breaker of one model. -/
structure CircuitBreaker where
  failureThreshold : ℕ := 3
  recoverySeconds : ℚ := 15
  failures : ℕ := 0
  openedAt : Option ℚ := none
  probing : Bool := false
  generation : ℕ := 0
  deriving DecidableEq, Repr

/-- What `CircuitBreaker.state` reports. -/
inductive CircuitState where
  | closed
  | open
  | halfOpen
  deriving DecidableEq, Repr

namespace CircuitBreaker

variable (b : CircuitBreaker)

/-- Closed admits; open refuses; half-open admits exactly one caller, the probe. -/
def allow (now : ℚ) : Bool × CircuitBreaker :=
  match b.openedAt with
  | none => (true, b)
  | some openedAt =>
    if now - openedAt < b.recoverySeconds ∨ b.probing then (false, b)
    else (true, { b with probing := true })

/-- A response was good. Only a response of the current generation counts. -/
def success (generation : Option ℕ) : CircuitBreaker :=
  if generation.any (· ≠ b.generation) then b
  else
    { b with
      generation := if b.openedAt.isSome then b.generation + 1 else b.generation
      failures := 0
      openedAt := none
      probing := false }

/-- A request failed. Only a request of the current generation counts. -/
def failure (now : ℚ) (generation : Option ℕ) : CircuitBreaker :=
  if generation.any (· ≠ b.generation) then b
  else
    let failures := b.failures + 1
    if b.failureThreshold ≤ failures then
      { b with failures, probing := false, openedAt := some now, generation := b.generation + 1 }
    else { b with failures, probing := false }

/-- The state shown in the metrics at the clock reading `now`. -/
def state (now : ℚ) : CircuitState :=
  match b.openedAt with
  | none => .closed
  | some openedAt => if b.recoverySeconds ≤ now - openedAt then .halfOpen else .open

/-! ### What the transitions change -/

variable {b}

lemma success_stale {g : ℕ} (h : g ≠ b.generation) : b.success (some g) = b := by
  simp [success, h]

lemma failure_stale {g : ℕ} {now : ℚ} (h : g ≠ b.generation) : b.failure now (some g) = b := by
  simp [failure, h]

@[simp] lemma allow_failureThreshold (now : ℚ) :
    (b.allow now).2.failureThreshold = b.failureThreshold := by
  unfold allow
  split
  · rfl
  · split <;> rfl

@[simp] lemma success_failureThreshold (g : Option ℕ) :
    (b.success g).failureThreshold = b.failureThreshold := by
  unfold success
  split <;> rfl

@[simp] lemma failure_failureThreshold (now : ℚ) (g : Option ℕ) :
    (b.failure now g).failureThreshold = b.failureThreshold := by
  unfold failure
  split
  · rfl
  · dsimp only
    split <;> rfl

/-- An admitted caller finds the breaker closed, or becomes the probe of an open one. -/
lemma allow_admitted {now : ℚ} (h : (b.allow now).1 = true) :
    (b.openedAt = none ∧ (b.allow now).2 = b) ∨
      (b.openedAt ≠ none ∧ b.probing = false ∧ (b.allow now).2 = { b with probing := true }) := by
  revert h
  unfold allow
  split
  · rename_i ho
    intro _
    exact .inl ⟨ho, rfl⟩
  · rename_i t ho
    split
    · simp
    · rename_i hn
      intro _
      refine .inr ⟨by simp [ho], ?_, rfl⟩
      rw [not_or] at hn
      simpa using hn.2

/-- While the probe is out, nobody is admitted. -/
lemma allow_of_probing (ho : b.openedAt ≠ none) (hp : b.probing = true) (now : ℚ) :
    (b.allow now).1 = false := by
  unfold allow
  split
  · contradiction
  · simp [hp]

lemma success_current {g : ℕ} (h : g = b.generation) :
    b.success (some g) =
      { b with
        generation := if b.openedAt.isSome then b.generation + 1 else b.generation
        failures := 0
        openedAt := none
        probing := false } := by
  simp [success, h]

lemma failure_current_opens {g : ℕ} {now : ℚ} (h : g = b.generation)
    (ht : b.failureThreshold ≤ b.failures + 1) :
    b.failure now (some g) =
      { b with
        failures := b.failures + 1
        probing := false
        openedAt := some now
        generation := b.generation + 1 } := by
  simp [failure, h, ht]

lemma failure_current_counts {g : ℕ} {now : ℚ} (h : g = b.generation)
    (ht : ¬b.failureThreshold ≤ b.failures + 1) :
    b.failure now (some g) = { b with failures := b.failures + 1, probing := false } := by
  simp [failure, h, ht]

end CircuitBreaker

/-! ### Leases -/

/-- What an admitted request remembers of its admission. -/
structure Lease where
  isProbe : Bool
  generation : ℕ
  deriving DecidableEq, Repr

variable {ι : Type*} {b : CircuitBreaker} {lease : ι → Option Lease}

/-- Request `i` is in flight as the half-open probe of the current generation. -/
def HoldsProbe (b : CircuitBreaker) (lease : ι → Option Lease) (i : ι) : Prop :=
  ∃ l, lease i = some l ∧ l.isProbe = true ∧ l.generation = b.generation

/-- The invariant between a breaker and the leases of the requests in flight. -/
structure LeaseInv (b : CircuitBreaker) (lease : ι → Option Lease) : Prop where
  probing_open : b.probing = true → b.openedAt ≠ none
  open_failures : b.openedAt ≠ none → b.failureThreshold ≤ b.failures
  le_generation : ∀ i l, lease i = some l → l.generation ≤ b.generation
  shared_closed : ∀ i l, lease i = some l → l.isProbe = false →
    l.generation = b.generation → b.openedAt = none
  probe_probing : ∀ i, HoldsProbe b lease i → b.probing = true
  probing_held : b.probing = true → ∃ i, HoldsProbe b lease i
  probe_unique : ∀ i j, HoldsProbe b lease i → HoldsProbe b lease j → i = j

namespace LeaseInv

/-- No request in flight and a closed breaker. -/
lemma init (hc : b.openedAt = none) (hp : b.probing = false) (hl : ∀ i, lease i = none) :
    LeaseInv b lease where
  probing_open h := by simp [hp] at h
  open_failures h := absurd hc h
  le_generation i l h := by simp [hl] at h
  shared_closed i l h := by simp [hl] at h
  probe_probing i h := by
    obtain ⟨l, h, -⟩ := h
    simp [hl] at h
  probing_held h := by simp [hp] at h
  probe_unique i j h := by
    obtain ⟨l, h, -⟩ := h
    simp [hl] at h

variable [DecidableEq ι]

/-- Admission: the request without a lease gets one that names the breaker's new state. -/
lemma grant (h : LeaseInv b lease) {i : ι} (hi : lease i = none) {now : ℚ}
    (ha : (b.allow now).1 = true) :
    LeaseInv (b.allow now).2 (Function.update lease i
      (some ⟨(b.allow now).2.probing, (b.allow now).2.generation⟩)) := by
  have other : ∀ {b' : CircuitBreaker} {l : Lease} {j : ι}, j ≠ i →
      HoldsProbe b' (Function.update lease i (some l)) j → HoldsProbe b' lease j := by
    rintro b' l j hj ⟨l', hl', hp⟩
    rw [Function.update_of_ne hj] at hl'
    exact ⟨l', hl', hp⟩
  rcases CircuitBreaker.allow_admitted ha with ⟨hc, hb⟩ | ⟨ho, hp, hb⟩
  · -- closed: the new lease is shared, and nobody holds a probe
    have hprobing : b.probing = false := by
      cases hpb : b.probing with
      | false => rfl
      | true => exact absurd hc (h.probing_open hpb)
    have hnone : ∀ j, ¬HoldsProbe b lease j := fun j hj => by
      have := h.probe_probing j hj
      simp [hprobing] at this
    have hnone' : ∀ j, ¬HoldsProbe b (Function.update lease i
        (some ⟨b.probing, b.generation⟩)) j := fun j hj => by
      by_cases hji : j = i
      · obtain ⟨l, hl, hlp, -⟩ := hj
        subst hji
        obtain rfl : _ = l := by simpa using hl
        simp [hprobing] at hlp
      · exact hnone j (other hji hj)
    rw [hb]
    refine ⟨h.probing_open, h.open_failures, fun j l hl => ?_, fun j l hl hs hg => hc,
      fun j hj => absurd hj (hnone' j), fun hpb => ?_, fun j k hj => absurd hj (hnone' j)⟩
    · by_cases hji : j = i
      · subst hji
        obtain rfl : _ = l := by simpa using hl
        exact le_rfl
      · rw [Function.update_of_ne hji] at hl
        exact h.le_generation j l hl
    · rw [hprobing] at hpb
      cases hpb
  · -- open: the new lease is the only probe of the current generation
    have hnone : ∀ j, ¬HoldsProbe b lease j := fun j hj => by
      have := h.probe_probing j hj
      rw [hp] at this
      cases this
    have hself : HoldsProbe { b with probing := true } (Function.update lease i
        (some ⟨true, b.generation⟩)) i := ⟨_, Function.update_self _ _ _, rfl, rfl⟩
    have honly : ∀ j, HoldsProbe { b with probing := true } (Function.update lease i
        (some ⟨true, b.generation⟩)) j → j = i := fun j hj => by
      by_contra hji
      exact hnone j (other hji hj)
    rw [hb]
    refine ⟨fun _ => ho, h.open_failures, fun j l hl => ?_, fun j l hl hs hg => ?_, fun _ _ => rfl,
      fun _ => ⟨i, hself⟩, fun j k hj hk => (honly j hj).trans (honly k hk).symm⟩
    · by_cases hji : j = i
      · subst hji
        obtain rfl : _ = l := by simpa using hl
        exact le_rfl
      · rw [Function.update_of_ne hji] at hl
        exact h.le_generation j l hl
    · by_cases hji : j = i
      · subst hji
        obtain rfl : _ = l := by simpa using hl
        cases hs
      · rw [Function.update_of_ne hji] at hl
        exact h.shared_closed j l hl hs hg

/-- A lease that is not the current probe may be given back at any time. -/
lemma release (h : LeaseInv b lease) {i : ι} (hi : ¬HoldsProbe b lease i) :
    LeaseInv b (Function.update lease i none) := by
  have iff : ∀ j, HoldsProbe b (Function.update lease i none) j ↔ HoldsProbe b lease j := by
    intro j
    by_cases hji : j = i
    · subst hji
      simp only [hi, iff_false]
      rintro ⟨l, hl, -⟩
      simp at hl
    · simp [HoldsProbe, hji]
  have sub : ∀ {j l}, Function.update lease i none j = some l → lease j = some l := by
    intro j l hl
    by_cases hji : j = i
    · subst hji
      simp at hl
    · rwa [Function.update_of_ne hji] at hl
  exact
    { probing_open := h.probing_open
      open_failures := h.open_failures
      le_generation := fun j l hl => h.le_generation j l (sub hl)
      shared_closed := fun j l hl => h.shared_closed j l (sub hl)
      probe_probing := fun j hj => h.probe_probing j ((iff j).mp hj)
      probing_held := fun hp => (h.probing_held hp).imp fun j hj => (iff j).mpr hj
      probe_unique := fun j k hj hk => h.probe_unique j k ((iff j).mp hj) ((iff k).mp hk) }

omit [DecidableEq ι] in
/-- A new generation makes every lease stale: nobody holds the probe any more. -/
private lemma of_new_generation {b' : CircuitBreaker} (h : LeaseInv b lease)
    (hg : b.generation < b'.generation) (hp : b'.probing = false)
    (ht : b'.openedAt ≠ none → b'.failureThreshold ≤ b'.failures) : LeaseInv b' lease := by
  have hnone : ∀ j, ¬HoldsProbe b' lease j := by
    rintro j ⟨l, hl, -, hgen⟩
    have := h.le_generation j l hl
    omega
  refine ⟨fun hpb => ?_, ht, fun j l hl => ?_, fun j l hl _ hgen => ?_,
    fun j hj => absurd hj (hnone j), fun hpb => ?_, fun j k hj => absurd hj (hnone j)⟩
  · rw [hp] at hpb
    cases hpb
  · have := h.le_generation j l hl
    omega
  · have := h.le_generation j l hl
    omega
  · rw [hp] at hpb
    cases hpb

omit [DecidableEq ι] in
/-- In a closed breaker, changing the failure count keeps the invariant. -/
private lemma of_closed {b' : CircuitBreaker} (h : LeaseInv b lease) (hc : b.openedAt = none)
    (hg : b'.generation = b.generation) (ho : b'.openedAt = none) (hp : b'.probing = false) :
    LeaseInv b' lease := by
  have hprobing : b.probing ≠ true := fun hpb => h.probing_open hpb hc
  have hnone : ∀ j, ¬HoldsProbe b' lease j := by
    rintro j ⟨l, hl, hlp, hgen⟩
    exact hprobing (h.probe_probing j ⟨l, hl, hlp, hgen.trans hg⟩)
  refine ⟨fun hpb => ?_, fun ho' => absurd ho ho', fun j l hl => ?_, fun _ _ _ _ _ => ho,
    fun j hj => absurd hj (hnone j), fun hpb => ?_, fun j k hj => absurd hj (hnone j)⟩
  · rw [hp] at hpb
    cases hpb
  · rw [hg]
    exact h.le_generation j l hl
  · rw [hp] at hpb
    cases hpb

omit [DecidableEq ι] in
/-- A success reported under one of the leases. -/
lemma success (h : LeaseInv b lease) (g : ℕ) : LeaseInv (b.success (some g)) lease := by
  by_cases hg : g = b.generation
  · rw [CircuitBreaker.success_current hg]
    cases ho : b.openedAt with
    | none => exact h.of_closed ho (by simp) rfl rfl
    | some t => exact h.of_new_generation (by simp) rfl (by simp)
  · rwa [CircuitBreaker.success_stale hg]

omit [DecidableEq ι] in
/-- A failure reported under one of the leases. -/
lemma failure (h : LeaseInv b lease) (now : ℚ) (g : ℕ) :
    LeaseInv (b.failure now (some g)) lease := by
  by_cases hg : g = b.generation
  · by_cases hf : b.failureThreshold ≤ b.failures + 1
    · rw [CircuitBreaker.failure_current_opens hg hf]
      exact h.of_new_generation (by simp) rfl (fun _ => hf)
    · rw [CircuitBreaker.failure_current_counts hg hf]
      -- below the threshold the breaker is closed
      have hc : b.openedAt = none := by
        by_contra ho
        have := h.open_failures ho
        omega
      exact h.of_closed hc rfl hc rfl
  · rwa [CircuitBreaker.failure_stale hg]

omit [DecidableEq ι] in
/-- After a failure reported under its own lease, a probe no longer holds the route. -/
lemma not_holds_of_failure (h : LeaseInv b lease) {i : ι} {l : Lease} (hi : lease i = some l)
    (hp : l.isProbe = true) (now : ℚ) : ¬HoldsProbe (b.failure now (some l.generation)) lease i := by
  rintro ⟨l', hl', -, hg⟩
  obtain rfl : l = l' := by simpa [hi] using hl'
  by_cases hcur : l.generation = b.generation
  · have ho := h.probing_open (h.probe_probing i ⟨l, hi, hp, hcur⟩)
    have hf := h.open_failures ho
    rw [CircuitBreaker.failure_current_opens hcur (by omega)] at hg
    simp only at hg
    omega
  · rw [CircuitBreaker.failure_stale hcur] at hg
    exact hcur hg

end LeaseInv

end AxiomGrid.Router
