import AxiomGrid.Router.Ledger

/-!
# What the durable ledger charges

`settle` of `DurableSpendLedger` updates the row of the attempt only while that row is reserved. An
attempt that settles after another replica's `reconcile` has expired its reservation finds the row
settled at the reserved amount, and its own amount is not recorded. The spend committed for an
attempt covers the first amount it was settled with exactly when the row was still reserved at that
call, or had been settled at no less.
-/

namespace AxiomGrid.Router

variable {ρ : Type*}

/-! ### The first settlement of an attempt -/

/-- The settlements asked for so far, one for each attempt, and one more transaction. -/
def noteSettle (calls : List (String × ℤ)) : LedgerAction ρ → List (String × ℤ)
  | .settle _ id actual _ => if calls.any (·.1 = id) then calls else calls ++ [(id, actual)]
  | _ => calls

/-- The attempts that some call settles, each with the amount its first call passes. -/
def firstSettles (acts : List (LedgerAction ρ)) : List (String × ℤ) := acts.foldl noteSettle []

lemma firstSettles_concat (acts : List (LedgerAction ρ)) (act : LedgerAction ρ) :
    firstSettles (acts ++ [act]) = noteSettle (firstSettles acts) act := by
  simp [firstSettles]

/-- A transaction that is not the first settlement of an attempt adds nothing. -/
lemma noteSettle_cases (calls : List (String × ℤ)) (act : LedgerAction ρ) :
    noteSettle calls act = calls ∨
    ∃ r id actual now, act = .settle r id actual now ∧ id ∉ calls.map Prod.fst ∧
      noteSettle calls act = calls ++ [(id, actual)] := by
  cases act with
  | settle r id actual now =>
    by_cases hid : calls.any (·.1 = id) = true
    · refine .inl ?_
      simp only [noteSettle, hid, if_true]
    · refine .inr ⟨r, id, actual, now, rfl, ?_, ?_⟩
      · simpa using hid
      · simp only [noteSettle, hid, if_false, Bool.false_eq_true]
  | reserve | reconcile | crash => exact .inl rfl

namespace Ledger

variable {t : Ledger} {id : String} {actual : ℤ}

/-- The spend committed for the attempt `id` is at least `actual`. -/
def Covers (t : Ledger) (id : String) (actual : ℤ) : Prop :=
  actual ≤ 0 ∨ ∃ a ∈ t, a.attemptId = id ∧ a.state = .settled ∧ actual ≤ a.actual.getD 0

/-- Settling the attempt `id` at `actual` is recorded, or need not be: the row is reserved and
SQLite can hold the amount, or the spend is covered already. -/
def Charges (t : Ledger) (id : String) (actual : ℤ) : Prop :=
  (fitsInt64 (max 0 actual) = true ∧ ∃ a ∈ t, a.attemptId = id ∧ a.state = .reserved) ∨
    t.Covers id actual

instance : Decidable (t.Covers id actual) := inferInstanceAs (Decidable (_ ∨ _))

instance : Decidable (t.Charges id actual) := inferInstanceAs (Decidable (_ ∨ _))

/-! ### One transaction -/

/-- Settling rows keeps what is covered. -/
lemma Settles.covers {f : Attempt → Attempt} (hf : Settles f t) (h : t.Covers id actual) :
    Ledger.Covers (t.map f) id actual := by
  rcases h with h | ⟨a, ha, hid, hs, hle⟩
  · exact .inl h
  · refine .inr ⟨a, List.mem_map.mpr ⟨a, ha, ?_⟩, hid, hs, hle⟩
    rcases hf a ha with hfa | ⟨n, now, hr, -, -⟩
    · exact hfa
    · rw [hs] at hr
      cases hr

/-- Exactly the settlements that `Charges` names leave the attempt covered. -/
lemma covers_settle_iff (now : ℚ) :
    Ledger.Covers (Replica.settle t id actual now) id actual ↔ t.Charges id actual := by
  unfold Replica.settle
  by_cases hfit : fitsInt64 (max 0 actual) = true
  · simp only [hfit, if_true, Charges, true_and]
    constructor
    · rintro (h | ⟨b, hb, hid, hs, hle⟩)
      · exact .inr (.inl h)
      · obtain ⟨a, ha, rfl⟩ := List.mem_map.mp hb
        split_ifs at hid hs hle with hcond
        · exact .inl ⟨a, ha, hcond⟩
        · exact .inr (.inr ⟨a, ha, hid, hs, hle⟩)
    · rintro (⟨a, ha, hid, hr⟩ | h)
      · refine .inr ⟨a.settleAt (max 0 actual) now, List.mem_map.mpr ⟨a, ha, ?_⟩, hid, rfl, ?_⟩
        · rw [if_pos ⟨hid, hr⟩]
        · exact le_max_right ..
      · exact (settles_settle id actual now).covers h
  · simp [hfit, Charges]

end Ledger

variable [DecidableEq ρ]

lemma LedgerState.step_covers {s s' : LedgerState ρ} {act : LedgerAction ρ} (hv : s.table.Valid)
    (h : s.step act = some s') {id : String} {actual : ℤ} (hc : s.table.Covers id actual) :
    s'.table.Covers id actual := by
  rcases (step_cases hv h).2 with ht | ⟨f, hf, ht⟩ | ⟨r, tokens, id', now, -, -, -, ht⟩
  · rwa [ht]
  · rw [ht]
    exact hf.covers hc
  · rw [ht]
    rcases hc with hc | ⟨a, ha, hrow⟩
    · exact .inl hc
    · exact .inr ⟨a, List.mem_append_left _ ha, hrow⟩

/-! ### The committed total -/

namespace Ledger

variable {t : Ledger}

/-- The spend committed for one attempt. -/
def committedFor (t : Ledger) (id : String) : ℤ :=
  (t.map fun a => if a.attemptId = id then a.committedShare else 0).sum

lemma Valid.committedShare_nonneg (h : t.Valid) {a : Attempt} (ha : a ∈ t) :
    0 ≤ a.committedShare := by
  unfold Attempt.committedShare
  split_ifs with hs
  · obtain ⟨n, hn, hpos⟩ := h.actual_settled a ha hs
    simpa [hn] using hpos
  · exact le_rfl

lemma Valid.le_committedFor (h : t.Valid) {id : String} {actual : ℤ} (hc : t.Covers id actual) :
    actual ≤ t.committedFor id := by
  have hshare : ∀ x ∈ t.map fun a => if a.attemptId = id then a.committedShare else 0, 0 ≤ x := by
    intro x hx
    obtain ⟨a, ha, rfl⟩ := List.mem_map.mp hx
    split_ifs
    · exact h.committedShare_nonneg ha
    · exact le_rfl
  rcases hc with hc | ⟨a, ha, hid, hs, hle⟩
  · exact hc.trans (List.sum_nonneg hshare)
  · have hmem := List.single_le_sum hshare _ (List.mem_map.mpr ⟨a, ha, rfl⟩)
    rw [if_pos hid, Attempt.committedShare, if_pos hs] at hmem
    exact hle.trans hmem

/-- A row counts for at most one of several distinct attempts. -/
lemma sum_share_le {a : Attempt} (ha : 0 ≤ a.committedShare) {ids : List String} (hids : ids.Nodup) :
    (ids.map fun id => if a.attemptId = id then a.committedShare else 0).sum ≤ a.committedShare := by
  induction ids with
  | nil => simpa using ha
  | cons id ids ih =>
    obtain ⟨hid, hids⟩ := List.nodup_cons.mp hids
    rw [List.map_cons, List.sum_cons]
    by_cases heq : a.attemptId = id
    · have hzero : (ids.map fun id => if a.attemptId = id then a.committedShare else 0).sum = 0 := by
        refine List.sum_eq_zero fun x hx => ?_
        obtain ⟨id', hid', rfl⟩ := List.mem_map.mp hx
        rw [if_neg]
        rintro rfl
        exact hid (heq ▸ hid')
      rw [if_pos heq, hzero, add_zero]
    · rw [if_neg heq, zero_add]
      exact ih hids

/-- Distinct attempts share the committed total between them. -/
lemma sum_committedFor_le {ids : List String} (hids : ids.Nodup)
    (h : ∀ a ∈ t, 0 ≤ a.committedShare) :
    (ids.map (committedFor t)).sum ≤ committedTotal t := by
  induction t with
  | nil =>
    have hnil : committedFor [] = fun _ => 0 := rfl
    simp [hnil, committedTotal]
  | cons a t ih =>
    have ih := ih fun b hb => h b (List.mem_cons_of_mem a hb)
    have hsplit : (ids.map (committedFor (a :: t))).sum =
        (ids.map fun id => if a.attemptId = id then a.committedShare else 0).sum +
          (ids.map (committedFor t)).sum := by
      rw [← List.sum_map_add]
      rfl
    have hone := sum_share_le (h a (List.mem_cons_self ..)) hids
    have htotal : committedTotal (a :: t) = a.committedShare + committedTotal t := rfl
    rw [hsplit, htotal]
    exact add_le_add hone ih

end Ledger

/-! ### Whole runs -/

/-- Every first settlement of the run is recorded or need not be. -/
def FirstSettlesCharged (replicas : ρ → Replica) (acts : List (LedgerAction ρ)) : Prop :=
  ∀ pre r id actual now post s, acts = pre ++ .settle r id actual now :: post →
    Transition.run LedgerState.step (.init replicas) pre = some s →
    id ∉ (firstSettles pre).map Prod.fst → s.table.Charges id actual

/-- The attempts that were settled, and what the table commits for each of them. -/
structure SettlesCovered (acts : List (LedgerAction ρ)) (s : LedgerState ρ) : Prop where
  nodup : ((firstSettles acts).map Prod.fst).Nodup
  covers : ∀ p ∈ firstSettles acts, s.table.Covers p.1 p.2

lemma SettlesCovered.step {replicas : ρ → Replica} {acts : List (LedgerAction ρ)}
    {s s' : LedgerState ρ} {act : LedgerAction ρ}
    (hrun : Transition.run LedgerState.step (.init replicas) acts = some s)
    (hc : FirstSettlesCharged replicas (acts ++ [act])) (hi : SettlesCovered acts s)
    (h : s.step act = some s') : SettlesCovered (acts ++ [act]) s' := by
  have hv := (LedgerInv.run hrun).valid
  have hkeep : ∀ p ∈ firstSettles acts, s'.table.Covers p.1 p.2 := fun p hp =>
    LedgerState.step_covers hv h (hi.covers p hp)
  rcases noteSettle_cases (firstSettles acts) act with hnote | ⟨r, id, actual, now, rfl, hid, hnote⟩
  · exact ⟨by rw [firstSettles_concat, hnote]; exact hi.nodup,
      by rw [firstSettles_concat, hnote]; exact hkeep⟩
  · refine ⟨?_, ?_⟩ <;> rw [firstSettles_concat, hnote]
    · rw [List.map_append, List.nodup_append]
      refine ⟨hi.nodup, by simp, fun a ha b hb => ?_⟩
      obtain rfl : b = id := by simpa using hb
      rintro rfl
      exact hid ha
    · intro p hp
      rcases List.mem_append.mp hp with hp | hp
      · exact hkeep p hp
      · obtain rfl := List.mem_singleton.mp hp
        simp only [LedgerState.step, Option.some.injEq] at h
        subst h
        exact (Ledger.covers_settle_iff now).mpr (hc acts r id actual now [] s rfl hrun hid)

lemma SettlesCovered.run {replicas : ρ → Replica} {acts : List (LedgerAction ρ)}
    (hc : FirstSettlesCharged replicas acts) {s : LedgerState ρ}
    (h : Transition.run LedgerState.step (.init replicas) acts = some s) : SettlesCovered acts s := by
  refine Transition.run_induction LedgerState.step
    (P := fun acts s => FirstSettlesCharged replicas acts → SettlesCovered acts s) ?_ ?_ h hc
  · exact fun _ => ⟨List.nodup_nil, fun p hp => by simp [firstSettles] at hp⟩
  · intro acts s act s' hrun ih hstep hc
    refine (ih ?_).step hrun hc hstep
    -- the condition on the longer run covers the shorter one
    intro pre r id actual now post t heq
    exact hc pre r id actual now (post ++ [act]) t (by rw [heq]; simp)

/-- In every state of a run whose first settlements are all recorded, the committed total is at
least the sum of the amounts of the first settlements. -/
theorem committed_covers_first_settles {replicas : ρ → Replica} {acts : List (LedgerAction ρ)}
    (hc : FirstSettlesCharged replicas acts) {pre post : List (LedgerAction ρ)} {s : LedgerState ρ}
    (hacts : acts = pre ++ post)
    (h : Transition.run LedgerState.step (.init replicas) pre = some s) :
    ((firstSettles pre).map Prod.snd).sum ≤ s.table.committedTotal := by
  have hpre : FirstSettlesCharged replicas pre := fun pre' r id actual now post' t heq =>
    hc pre' r id actual now (post' ++ post) t (by rw [hacts, heq]; simp)
  obtain ⟨hnodup, hcovers⟩ := SettlesCovered.run hpre h
  have hv := (LedgerInv.run h).valid
  calc ((firstSettles pre).map Prod.snd).sum
      ≤ ((firstSettles pre).map fun p => s.table.committedFor p.1).sum :=
        List.sum_le_sum fun p hp => hv.le_committedFor (hcovers p hp)
    _ = (((firstSettles pre).map Prod.fst).map s.table.committedFor).sum := by rw [List.map_map]; rfl
    _ ≤ s.table.committedTotal :=
        Ledger.sum_committedFor_le hnodup fun a ha => hv.committedShare_nonneg ha

/-- An attempt settles above its reservation, and another one below it after it has expired. -/
def lateRun : List (LedgerAction Bool) :=
  [.reserve false 60 (some "a") "" 0, .settle false "a" 70 1, .reserve true 20 (some "b") "" 2,
    .reconcile false 1000, .settle true "b" 15 1001]

lemma firstSettlesCharged_lateRun : FirstSettlesCharged twoReplicas lateRun := by
  intro pre r id actual now post s hacts hrun _
  rcases pre with _ | ⟨x₁, _ | ⟨x₂, _ | ⟨x₃, _ | ⟨x₄, _ | ⟨x₅, pre⟩⟩⟩⟩⟩ <;>
    simp only [lateRun, List.nil_append, List.cons_append, List.cons.injEq, reduceCtorEq,
      LedgerAction.settle.injEq, false_and, and_false, List.nil_eq, List.append_eq_nil_iff] at hacts
  · obtain ⟨rfl, ⟨rfl, rfl, rfl, rfl⟩, -⟩ := hacts
    cases hrun
    decide +kernel
  · obtain ⟨rfl, rfl, rfl, rfl, ⟨rfl, rfl, rfl, rfl⟩, -⟩ := hacts
    cases hrun
    decide +kernel

/-- The run above commits 90 tokens, for settlements of 85. -/
theorem committed_covers_first_settles_lateRun :
    ∃ s, Transition.run LedgerState.step (.init twoReplicas) lateRun = some s ∧
      firstSettles lateRun = [("a", 70), ("b", 15)] ∧ s.table.committedTotal = 90 ∧
      ((firstSettles lateRun).map Prod.snd).sum ≤ s.table.committedTotal :=
  ⟨_, rfl, by decide, by decide +kernel,
    committed_covers_first_settles firstSettlesCharged_lateRun (List.append_nil lateRun).symm rfl⟩

/-- An attempt that settles at 25 after its reservation of 10 has expired is charged 10. -/
theorem not_committed_covers_expired :
    ¬ ∀ (acts : List (LedgerAction Bool)) (s : LedgerState Bool),
      Transition.run LedgerState.step (.init twoReplicas) acts = some s →
        ((firstSettles acts).map Prod.snd).sum ≤ s.table.committedTotal := by
  intro h
  have hlost := h [.reserve false 10 (some "a") "" 0, .reconcile true 1000, .settle false "a" 25 1001]
    _ rfl
  revert hlost
  decide +kernel

end AxiomGrid.Router
