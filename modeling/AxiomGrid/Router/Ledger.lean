import AxiomGrid.Lib.Transition
import Mathlib.Algebra.Order.Ring.Rat
import Mathlib.Data.List.Nodup
import Mathlib.Tactic.Linarith

/-!
# The durable spend ledger

`DurableSpendLedger` of `kernel/sidecar/melious_router.py`: several replicas admit attempts against
one SQLite table. Each `BEGIN IMMEDIATE .. COMMIT` block is one atomic step on the table; a replica
may crash between two blocks, which loses its in-memory counters only. Clock readings and the ids
drawn by `uuid4` are inputs of the step.

SQLite integers have 64 bits: binding a larger Python integer raises, and so does a `SUM` that
overflows. Both roll the transaction back.
-/

namespace AxiomGrid.Router

/-- The `state` column. -/
inductive AttemptState where
  | reserved
  | settled
  deriving DecidableEq, Repr

/-- A row of `spend_attempts`. -/
structure Attempt where
  attemptId : String
  reserved : ℤ
  actual : Option ℤ
  state : AttemptState
  createdAt : ℚ
  settledAt : Option ℚ
  deriving DecidableEq, Repr

/-- The table, in insertion order. -/
abbrev Ledger := List Attempt

/-- The in-memory part of one `DurableSpendLedger`. The constructor refuses a ceiling below one. -/
structure Replica where
  ceiling : Option ℤ
  ceiling_pos : ∀ c ∈ ceiling, 1 ≤ c
  staleAfterSeconds : ℚ := 900
  refused : ℕ := 0

/-- The integers an SQLite column can hold. -/
def fitsInt64 (n : ℤ) : Bool := -2 ^ 63 ≤ n && n < 2 ^ 63

namespace Attempt

/-- The amount a row adds to the reserved total. -/
def reservedShare (a : Attempt) : ℤ := if a.state = .reserved then a.reserved else 0

/-- The amount a row adds to the committed total; `SUM` skips NULL. -/
def committedShare (a : Attempt) : ℤ := if a.state = .settled then a.actual.getD 0 else 0

/-- How far a settled row exceeds its reservation. -/
def overshoot (a : Attempt) : ℤ :=
  if a.state = .settled then max 0 (a.actual.getD 0 - a.reserved) else 0

/-- A row after settlement at `amount`. -/
def settleAt (a : Attempt) (amount : ℤ) (now : ℚ) : Attempt :=
  { a with actual := some amount, state := .settled, settledAt := some now }

end Attempt

namespace Ledger

variable (t : Ledger)

def reservedTotal : ℤ := (t.map Attempt.reservedShare).sum

def committedTotal : ℤ := (t.map Attempt.committedShare).sum

/-- `_totals`: reserved and committed, unless a sum overflows. -/
def totals : Option (ℤ × ℤ) :=
  if fitsInt64 t.reservedTotal && fitsInt64 t.committedTotal then
    some (t.reservedTotal, t.committedTotal)
  else none

/-- The ids whose rows are summed into the reserved total (`.reserved`) or into the committed total
(`.settled`, where `SUM` skips a NULL amount). -/
def idsIn : AttemptState → List String
  | .reserved => (t.filter (·.state = .reserved)).map Attempt.attemptId
  | .settled => (t.filter fun a => a.state = .settled ∧ a.actual.isSome).map Attempt.attemptId

end Ledger

/-- How `reserve` ends without an id. -/
inductive ReserveError where
  /-- `RouterError`: the reservation is not a non-negative integer. -/
  | invalid
  /-- `SpendCeilingError`. -/
  | ceilingExceeded (ceiling committed reserved requested : ℤ)
  /-- An integer that SQLite cannot hold; the transaction is rolled back. -/
  | overflow
  deriving DecidableEq, Repr

namespace Replica

/-- The transaction of `reserve` for the attempt `attemptId`. -/
def reserveAs (r : Replica) (t : Ledger) (tokens : ℤ) (attemptId : String) (now : ℚ) :
    Except ReserveError String × Replica × Ledger :=
  if t.any (·.attemptId = attemptId) then (.ok attemptId, r, t)
  else
    match t.totals with
    | none => (.error .overflow, r, t)
    | some (reserved, committed) =>
      match r.ceiling.filter (· < committed + reserved + tokens) with
      | some ceiling =>
        (.error (.ceilingExceeded ceiling committed reserved tokens),
          { r with refused := r.refused + 1 }, t)
      | none =>
        if fitsInt64 tokens then
          (.ok attemptId, r, t ++ [⟨attemptId, tokens, none, .reserved, now, none⟩])
        else (.error .overflow, r, t)

/-- `reserve(tokens, attempt_id)`; `uuid` is the id drawn when none is given. -/
def reserve (r : Replica) (t : Ledger) (tokens : ℤ) (attemptId : Option String) (uuid : String)
    (now : ℚ) : Except ReserveError String × Replica × Ledger :=
  if tokens < 0 then (.error .invalid, r, t)
  else r.reserveAs t tokens ((attemptId.filter (· ≠ "")).getD uuid) now

/-- `settle(reservation, actual)`. -/
def settle (t : Ledger) (reservation : String) (actual : ℤ) (now : ℚ) : Ledger :=
  if fitsInt64 (max 0 actual) then
    t.map fun a =>
      if a.attemptId = reservation ∧ a.state = .reserved then a.settleAt (max 0 actual) now else a
  else t

/-- `reconcile(now)`: reservations older than the limit settle at their full amount. -/
def reconcile (r : Replica) (t : Ledger) (now : ℚ) : Ledger :=
  t.map fun a =>
    if a.state = .reserved ∧ a.createdAt < now - r.staleAfterSeconds then a.settleAt a.reserved now
    else a

end Replica

/-! ### The replicas on one file -/

/-- The shared table and the replicas mounted on it. -/
structure LedgerState (ρ : Type*) where
  table : Ledger
  replicas : ρ → Replica

/-- One transaction of one replica, or the crash of a replica. -/
inductive LedgerAction (ρ : Type*) where
  | reserve (r : ρ) (tokens : ℤ) (attemptId : Option String) (uuid : String) (now : ℚ)
  | settle (r : ρ) (reservation : String) (actual : ℤ) (now : ℚ)
  | reconcile (r : ρ) (now : ℚ)
  | crash (r : ρ)

variable {ρ : Type*} [DecidableEq ρ]

namespace LedgerState

/-- Every transaction is enabled in every state; a failed one leaves the table as it was. -/
def step (s : LedgerState ρ) : LedgerAction ρ → Option (LedgerState ρ)
  | .reserve r tokens attemptId uuid now =>
    let (_, replica, table) := (s.replicas r).reserve s.table tokens attemptId uuid now
    some ⟨table, Function.update s.replicas r replica⟩
  | .settle _ reservation actual now => some { s with table := Replica.settle s.table reservation actual now }
  | .reconcile r now => some { s with table := (s.replicas r).reconcile s.table now }
  | .crash r =>
    some { s with replicas := Function.update s.replicas r { s.replicas r with refused := 0 } }

/-- A fresh file. -/
def init (replicas : ρ → Replica) : LedgerState ρ := ⟨[], replicas⟩

end LedgerState

/-- Some `reserve` of the run returned `id`. -/
def Admitted (replicas : ρ → Replica) (acts : List (LedgerAction ρ)) (id : String) : Prop :=
  ∃ pre post r tokens attemptId uuid now s,
    acts = pre ++ .reserve r tokens attemptId uuid now :: post ∧
    Transition.run LedgerState.step (.init replicas) pre = some s ∧
    ((s.replicas r).reserve s.table tokens attemptId uuid now).1 = .ok id

/-- Some `settle` of the run went through for an attempt admitted before it. -/
def SettledOnce (replicas : ρ → Replica) (acts : List (LedgerAction ρ)) (id : String) : Prop :=
  ∃ pre post r actual now, acts = pre ++ .settle r id actual now :: post ∧
    Admitted replicas pre id ∧ fitsInt64 (max 0 actual) = true

/-! ### The invariant -/

namespace Ledger

/-- Rows have distinct ids, reservations are not negative, and a row has an amount exactly when it
is settled. -/
structure Valid (t : Ledger) : Prop where
  nodup : (t.map Attempt.attemptId).Nodup
  reserved_nonneg : ∀ a ∈ t, 0 ≤ a.reserved
  actual_settled : ∀ a ∈ t, a.state = .settled → ∃ n, a.actual = some n ∧ 0 ≤ n

/-- `f` settles some of the reserved rows of `t` and leaves the other rows alone. -/
def Settles (f : Attempt → Attempt) (t : Ledger) : Prop :=
  ∀ a ∈ t, f a = a ∨ ∃ n now, a.state = .reserved ∧ 0 ≤ n ∧ f a = a.settleAt n now

variable {t : Ledger} {f : Attempt → Attempt}

lemma Settles.attemptId (h : Settles f t) : (t.map f).map Attempt.attemptId = t.map Attempt.attemptId := by
  rw [List.map_map]
  refine List.map_congr_left fun a ha => ?_
  rcases h a ha with h | ⟨n, now, -, -, h⟩ <;> simp [h, Attempt.settleAt]

lemma Settles.valid (hf : Settles f t) (h : t.Valid) : Ledger.Valid (t.map f) where
  nodup := hf.attemptId ▸ h.nodup
  reserved_nonneg a ha := by
    obtain ⟨b, hb, rfl⟩ := List.mem_map.mp ha
    rcases hf b hb with hfb | ⟨n, now, -, -, hfb⟩ <;> rw [hfb]
    · exact h.reserved_nonneg b hb
    · exact h.reserved_nonneg b hb
  actual_settled a ha hs := by
    obtain ⟨b, hb, rfl⟩ := List.mem_map.mp ha
    rcases hf b hb with hfb | ⟨n, now, -, hn, hfb⟩ <;> rw [hfb] at hs ⊢
    · exact h.actual_settled b hb hs
    · exact ⟨n, rfl, hn⟩

/-- Settling never moves spend beyond what the overshoot accounts for. -/
lemma Settles.totals_le (hf : Settles f t) :
    committedTotal (t.map f) + reservedTotal (t.map f) - ((t.map f).map Attempt.overshoot).sum ≤
      committedTotal t + reservedTotal t - (t.map Attempt.overshoot).sum := by
  induction t with
  | nil => simp [committedTotal, reservedTotal]
  | cons a t ih =>
    have ih := ih fun b hb => hf b (List.mem_cons_of_mem a hb)
    have ha : (f a).committedShare + (f a).reservedShare - (f a).overshoot ≤
        a.committedShare + a.reservedShare - a.overshoot := by
      rcases hf a (List.mem_cons_self ..) with h | ⟨n, now, hs, -, h⟩
      · rw [h]
      · rw [h]
        simp only [Attempt.committedShare, Attempt.reservedShare, Attempt.overshoot,
          Attempt.settleAt, hs, if_true, Option.getD_some, reduceCtorEq, if_false]
        omega
    simp only [committedTotal, reservedTotal, List.map_cons, List.sum_cons] at ih ⊢
    linarith

lemma settles_settle (id : String) (actual : ℤ) (now : ℚ) :
    Settles (fun a => if a.attemptId = id ∧ a.state = .reserved then a.settleAt (max 0 actual) now
      else a) t := by
  intro a _
  dsimp only
  split_ifs with h
  · exact .inr ⟨_, now, h.2, le_max_left .., rfl⟩
  · exact .inl rfl

lemma settles_reconcile (h : t.Valid) (limit now : ℚ) :
    Settles (fun a => if a.state = .reserved ∧ a.createdAt < limit then a.settleAt a.reserved now
      else a) t := by
  intro a ha
  dsimp only
  split_ifs with hs
  · exact .inr ⟨_, now, hs.1, h.reserved_nonneg a ha, rfl⟩
  · exact .inl rfl

/-- Each id of a valid table is counted in exactly one of the two totals. -/
lemma Valid.count_idsIn (h : t.Valid) {id : String} (hid : id ∈ t.map Attempt.attemptId) :
    (t.idsIn .reserved).count id + (t.idsIn .settled).count id = 1 := by
  rw [← List.count_eq_one_of_mem h.nodup hid]
  have hactual := h.actual_settled
  clear h hid
  induction t with
  | nil => rfl
  | cons a t ih =>
    have ih := ih fun b hb => hactual b (List.mem_cons_of_mem a hb)
    simp only [idsIn, List.filter_cons, List.map_cons, List.count_cons] at ih ⊢
    cases hs : a.state with
    | reserved =>
      simp only [List.map_cons, List.count_cons, decide_true, if_true, reduceCtorEq, false_and,
        decide_false, Bool.false_eq_true, if_false]
      omega
    | settled =>
      obtain ⟨n, hn, -⟩ := hactual a (List.mem_cons_self ..) hs
      simp only [hn, Option.isSome_some, and_true, List.map_cons, List.count_cons, decide_true,
        if_true, reduceCtorEq, decide_false, Bool.false_eq_true, if_false]
      omega

end Ledger

/-- Everything `reserve` can do: nothing, or count a refusal, or add one new row that the ceiling
allows. -/
lemma Replica.reserveAs_cases (r : Replica) (t : Ledger) (tokens : ℤ) (id : String) (now : ℚ) :
    ((r.reserveAs t tokens id now).2.2 = t ∧ (r.reserveAs t tokens id now).2.1.ceiling = r.ceiling ∧
      ∀ id', (r.reserveAs t tokens id now).1 = .ok id' → id' ∈ t.map Attempt.attemptId) ∨
    (id ∉ t.map Attempt.attemptId ∧
      (∀ c ∈ r.ceiling, t.committedTotal + t.reservedTotal + tokens ≤ c) ∧
      r.reserveAs t tokens id now =
        (.ok id, r, t ++ [⟨id, tokens, none, .reserved, now, none⟩])) := by
  by_cases hid : t.any (·.attemptId = id) = true
  · have hmem : id ∈ t.map Attempt.attemptId := by simpa using hid
    refine .inl ?_
    simp only [reserveAs, hid, if_true, Except.ok.injEq, true_and]
    rintro _ rfl
    exact hmem
  have hmem : id ∉ t.map Attempt.attemptId := by simpa using hid
  rw [reserveAs, if_neg hid]
  cases htot : t.totals with
  | none => exact .inl ⟨rfl, rfl, by simp⟩
  | some sums =>
    obtain rfl : (t.reservedTotal, t.committedTotal) = sums := by
      unfold Ledger.totals at htot
      split_ifs at htot
      exact Option.some.inj htot
    simp only
    cases hceil : r.ceiling.filter
        (fun c => decide (c < t.committedTotal + t.reservedTotal + tokens)) with
    | some c => exact .inl ⟨rfl, rfl, by simp⟩
    | none =>
      simp only
      split_ifs with hfit
      · refine .inr ⟨hmem, fun c hc => ?_, rfl⟩
        rw [Option.mem_def] at hc
        simpa [hc, Option.filter] using hceil
      · exact .inl ⟨rfl, rfl, by simp⟩

/-- A `reserve` that names an id of the table changes nothing. -/
lemma Replica.reserve_replay (r : Replica) {t : Ledger} {id : String} (hne : id ≠ "")
    (hid : id ∈ t.map Attempt.attemptId) (tokens : ℤ) (uuid : String) (now : ℚ) :
    (r.reserve t tokens (some id) uuid now).2.2 = t := by
  have hany : t.any (·.attemptId = id) = true := by simpa using hid
  unfold reserve
  split_ifs with hneg
  · rfl
  · simp [reserveAs, Option.filter, hne, hany]

/-- A `settle` whose rows are all settled already changes nothing. -/
lemma Replica.settle_replay {t : Ledger} {id : String}
    (hs : ∀ a ∈ t, a.attemptId = id → a.state = .settled) (actual : ℤ) (now : ℚ) :
    Replica.settle t id actual now = t := by
  unfold settle
  split_ifs
  · refine (List.map_congr_left fun a ha => ?_).trans (List.map_id t)
    rw [if_neg]
    · rfl
    · rintro ⟨hid, hr⟩
      rw [hs a ha hid] at hr
      cases hr
  · rfl

/-! ### What a transaction can do to the table -/

/-- A transaction adds one admitted row, settles reserved rows, or leaves the table alone; it never
changes a ceiling. -/
lemma LedgerState.step_cases {s s' : LedgerState ρ} {act : LedgerAction ρ} (hv : s.table.Valid)
    (h : s.step act = some s') :
    (∀ r, (s'.replicas r).ceiling = (s.replicas r).ceiling) ∧
    (s'.table = s.table ∨ (∃ f, Ledger.Settles f s.table ∧ s'.table = s.table.map f) ∨
      ∃ r tokens id now, 0 ≤ tokens ∧ id ∉ s.table.map Attempt.attemptId ∧
        (∀ c ∈ (s.replicas r).ceiling, s.table.committedTotal + s.table.reservedTotal + tokens ≤ c) ∧
        s'.table = s.table ++ [⟨id, tokens, none, .reserved, now, none⟩]) := by
  cases act with
  | reserve r tokens attemptId uuid now =>
    simp only [step, Option.some.injEq] at h
    subst h
    have hceil : ∀ replica : Replica, replica.ceiling = (s.replicas r).ceiling → ∀ r',
        (Function.update s.replicas r replica r').ceiling = (s.replicas r').ceiling := by
      intro replica hr r'
      by_cases hrr : r' = r
      · subst hrr
        simpa using hr
      · simp [hrr]
    unfold Replica.reserve
    split_ifs with hneg
    · exact ⟨hceil _ rfl, .inl rfl⟩
    · rcases Replica.reserveAs_cases (s.replicas r) s.table tokens
        ((attemptId.filter (· ≠ "")).getD uuid) now with ⟨ht, hc, -⟩ | ⟨hid, hc, hout⟩
      · exact ⟨hceil _ hc, .inl ht⟩
      · rw [hout]
        exact ⟨hceil _ rfl, .inr (.inr ⟨r, tokens, _, now, not_lt.mp hneg, hid, hc, rfl⟩)⟩
  | settle r id actual now =>
    simp only [step, Option.some.injEq] at h
    subst h
    refine ⟨fun _ => rfl, ?_⟩
    unfold Replica.settle
    split_ifs
    · exact .inr (.inl ⟨_, Ledger.settles_settle id actual now, rfl⟩)
    · exact .inl rfl
  | reconcile r now =>
    simp only [step, Option.some.injEq] at h
    subst h
    exact ⟨fun _ => rfl, .inr (.inl ⟨_, Ledger.settles_reconcile hv _ now, rfl⟩)⟩
  | crash r =>
    simp only [step, Option.some.injEq] at h
    subst h
    refine ⟨fun r' => ?_, .inl rfl⟩
    by_cases hrr : r' = r
    · subst hrr
      simp
    · simp [hrr]

lemma Ledger.Valid.append {t : Ledger} (h : t.Valid) {id : String} {tokens : ℤ} {now : ℚ}
    (hid : id ∉ t.map Attempt.attemptId) (hn : 0 ≤ tokens) :
    Ledger.Valid (t ++ [⟨id, tokens, none, .reserved, now, none⟩]) where
  nodup := by
    rw [List.map_append, List.nodup_append]
    refine ⟨h.nodup, by simp, fun a ha b hb => ?_⟩
    obtain rfl : b = id := by simpa using hb
    rintro rfl
    exact hid ha
  reserved_nonneg a ha := by
    rcases List.mem_append.mp ha with ha | ha
    · exact h.reserved_nonneg a ha
    · obtain rfl := List.mem_singleton.mp ha
      exact hn
  actual_settled a ha hs := by
    rcases List.mem_append.mp ha with ha | ha
    · exact h.actual_settled a ha hs
    · obtain rfl := List.mem_singleton.mp ha
      cases hs

lemma LedgerState.step_valid {s s' : LedgerState ρ} {act : LedgerAction ρ} (hv : s.table.Valid)
    (h : s.step act = some s') : s'.table.Valid := by
  rcases (step_cases hv h).2 with ht | ⟨f, hf, ht⟩ | ⟨r, tokens, id, now, hn, hid, -, ht⟩
  · rwa [ht]
  · rw [ht]
    exact hf.valid hv
  · rw [ht]
    exact hv.append hid hn

/-- The ceiling: once every replica is configured with one, admissions and settlements keep the
totals below it up to the overshoot of the settled attempts. -/
lemma LedgerState.step_bound {s s' : LedgerState ρ} {act : LedgerAction ρ} {ceiling : ℤ}
    (hv : s.table.Valid) (hc : ∀ r, ∃ c ∈ (s.replicas r).ceiling, c ≤ ceiling)
    (hb : s.table.committedTotal + s.table.reservedTotal ≤
      ceiling + (s.table.map Attempt.overshoot).sum)
    (h : s.step act = some s') :
    s'.table.committedTotal + s'.table.reservedTotal ≤
      ceiling + (s'.table.map Attempt.overshoot).sum := by
  rcases (step_cases hv h).2 with ht | ⟨f, hf, ht⟩ | ⟨r, tokens, id, now, hn, hid, hadm, ht⟩
  · rwa [ht]
  · rw [ht]
    have := hf.totals_le
    omega
  · obtain ⟨c, hcr, hle⟩ := hc r
    have := hadm c hcr
    have hover : 0 ≤ (s.table.map Attempt.overshoot).sum := List.sum_nonneg fun x hx => by
      obtain ⟨a, -, rfl⟩ := List.mem_map.mp hx
      unfold Attempt.overshoot
      split_ifs <;> simp
    rw [ht]
    simp only [Ledger.committedTotal, Ledger.reservedTotal, List.map_append, List.map_cons,
      List.map_nil, List.sum_append, List.sum_cons, List.sum_nil, Attempt.committedShare,
      Attempt.reservedShare, Attempt.overshoot, reduceCtorEq, if_false, if_true] at this ⊢
    omega

/-! ### Whole runs -/

lemma LedgerState.step_mem_ids {s s' : LedgerState ρ} {act : LedgerAction ρ} (hv : s.table.Valid)
    (h : s.step act = some s') {id : String} (hid : id ∈ s.table.map Attempt.attemptId) :
    id ∈ s'.table.map Attempt.attemptId := by
  rcases (step_cases hv h).2 with ht | ⟨f, hf, ht⟩ | ⟨r, tokens, id', now, -, -, -, ht⟩
  · rwa [ht]
  · rwa [ht, hf.attemptId]
  · rw [ht, List.map_append]
    exact List.mem_append_left _ hid

/-- A settled row stays settled, and its id is not admitted a second time. -/
lemma LedgerState.step_settled {s s' : LedgerState ρ} {act : LedgerAction ρ} (hv : s.table.Valid)
    (h : s.step act = some s') {id : String} (hid : id ∈ s.table.map Attempt.attemptId)
    (hs : ∀ a ∈ s.table, a.attemptId = id → a.state = .settled) :
    ∀ a ∈ s'.table, a.attemptId = id → a.state = .settled := by
  intro a ha haid
  rcases (step_cases hv h).2 with ht | ⟨f, hf, ht⟩ | ⟨r, tokens, id', now, -, hnew, -, ht⟩
  · exact hs a (ht ▸ ha) haid
  · rw [ht] at ha
    obtain ⟨b, hb, rfl⟩ := List.mem_map.mp ha
    rcases hf b hb with hfb | ⟨n, now, -, -, hfb⟩
    · rw [hfb] at haid ⊢
      exact hs b hb haid
    · rw [hfb]
      rfl
  · rw [ht] at ha
    rcases List.mem_append.mp ha with ha | ha
    · exact hs a ha haid
    · obtain rfl := List.mem_singleton.mp ha
      obtain rfl : id' = id := haid
      exact absurd hid hnew

/-- What holds of the table together with the transactions that led to it. -/
structure LedgerInv (replicas : ρ → Replica) (acts : List (LedgerAction ρ)) (s : LedgerState ρ) :
    Prop where
  valid : s.table.Valid
  ceiling : ∀ r, (s.replicas r).ceiling = (replicas r).ceiling
  admitted : ∀ id, Admitted replicas acts id → id ∈ s.table.map Attempt.attemptId
  settled : ∀ id, SettledOnce replicas acts id → ∀ a ∈ s.table, a.attemptId = id → a.state = .settled

lemma LedgerInv.init (replicas : ρ → Replica) : LedgerInv replicas [] (.init replicas) where
  valid := ⟨by simp [LedgerState.init], by simp [LedgerState.init], by simp [LedgerState.init]⟩
  ceiling _ := rfl
  admitted id := by
    rintro ⟨pre, post, r, tokens, attemptId, uuid, now, s, h, -⟩
    simp at h
  settled id := by
    rintro ⟨pre, post, r, actual, now, h, -⟩
    simp at h

lemma LedgerInv.step {replicas : ρ → Replica} {acts : List (LedgerAction ρ)} {s s' : LedgerState ρ}
    {act : LedgerAction ρ} (hrun : Transition.run LedgerState.step (.init replicas) acts = some s)
    (hi : LedgerInv replicas acts s) (h : s.step act = some s') :
    LedgerInv replicas (acts ++ [act]) s' where
  valid := LedgerState.step_valid hi.valid h
  ceiling r := ((LedgerState.step_cases hi.valid h).1 r).trans (hi.ceiling r)
  admitted id := by
    rintro ⟨pre, post, r, tokens, attemptId, uuid, now, t, heq, ht, hok⟩
    rcases List.concat_eq_append_cons heq with ⟨rfl, rfl⟩ | ⟨post', rfl, rfl⟩
    · obtain rfl : s = t := Option.some.inj (hrun.symm.trans ht)
      simp only [LedgerState.step, Option.some.injEq] at h
      subst h
      unfold Replica.reserve at hok ⊢
      split_ifs at hok ⊢
      rcases Replica.reserveAs_cases (s.replicas r) s.table tokens
        ((attemptId.filter (· ≠ "")).getD uuid) now with ⟨htab, -, hmem⟩ | ⟨-, -, hout⟩
      · rw [htab]
        exact hmem id hok
      · rw [hout] at hok ⊢
        obtain rfl : _ = id := by simpa using hok
        simp
    · exact LedgerState.step_mem_ids hi.valid h
        (hi.admitted id ⟨pre, post', r, tokens, attemptId, uuid, now, t, rfl, ht, hok⟩)
  settled id := by
    rintro ⟨pre, post, r, actual, now, heq, hadm, hfit⟩
    rcases List.concat_eq_append_cons heq with ⟨rfl, rfl⟩ | ⟨post', rfl, rfl⟩
    · -- the settlement itself
      simp only [LedgerState.step, Option.some.injEq] at h
      subst h
      intro a ha haid
      simp only [Replica.settle, hfit, if_true] at ha
      obtain ⟨b, hb, rfl⟩ := List.mem_map.mp ha
      split_ifs at haid ⊢ with hcond
      · rfl
      · cases hs : b.state with
        | settled => rfl
        | reserved => exact absurd ⟨haid, hs⟩ hcond
    · have hadm' : Admitted replicas (pre ++ .settle r id actual now :: post') id := by
        obtain ⟨pre', post'', r', tokens, attemptId, uuid, now', t, rfl, ht, hok⟩ := hadm
        exact ⟨pre', post'' ++ .settle r id actual now :: post', r', tokens, attemptId, uuid, now', t,
          by simp, ht, hok⟩
      exact LedgerState.step_settled hi.valid h (hi.admitted id hadm')
        (hi.settled id ⟨pre, post', r, actual, now, rfl, hadm, hfit⟩)

lemma LedgerInv.run {replicas : ρ → Replica} {acts : List (LedgerAction ρ)} {s : LedgerState ρ}
    (h : Transition.run LedgerState.step (.init replicas) acts = some s) :
    LedgerInv replicas acts s :=
  Transition.run_induction LedgerState.step (LedgerInv.init replicas)
    (fun _ _ _ _ hrun hi hstep => hi.step hrun hstep) h

/-- The bound on the totals holds after every run. -/
lemma LedgerState.run_bound {replicas : ρ → Replica} {acts : List (LedgerAction ρ)}
    {s : LedgerState ρ} (h : Transition.run LedgerState.step (.init replicas) acts = some s)
    {ceiling : ℤ} (hpos : 0 ≤ ceiling) (hc : ∀ r, ∃ c ∈ (replicas r).ceiling, c ≤ ceiling) :
    s.table.committedTotal + s.table.reservedTotal ≤
      ceiling + (s.table.map Attempt.overshoot).sum := by
  refine Transition.run_induction LedgerState.step (P := fun _ t =>
    t.table.committedTotal + t.table.reservedTotal ≤
      ceiling + (t.table.map Attempt.overshoot).sum) ?_ ?_ h
  · simpa [LedgerState.init, Ledger.committedTotal, Ledger.reservedTotal] using hpos
  · intro acts t act t' hrun hb hstep
    have hi := LedgerInv.run hrun
    exact LedgerState.step_bound hi.valid (fun r => by rw [hi.ceiling r]; exact hc r) hb hstep

/-- In every state that any interleaving of the replicas' transactions reaches: an id that was ever
admitted is counted in exactly one of the two totals, replaying its `reserve` or its `settle` leaves
both totals as they are, and under a ceiling the totals stay below it up to the overshoot. -/
theorem durable_ledger_balanced {replicas : ρ → Replica} {acts : List (LedgerAction ρ)}
    {s : LedgerState ρ} (h : Transition.run LedgerState.step (.init replicas) acts = some s) :
    (∀ id, Admitted replicas acts id →
      (s.table.idsIn .reserved).count id + (s.table.idsIn .settled).count id = 1) ∧
    (∀ id, Admitted replicas acts id → id ≠ "" → ∀ r tokens uuid now,
      let t := ((s.replicas r).reserve s.table tokens (some id) uuid now).2.2
      t.reservedTotal = s.table.reservedTotal ∧ t.committedTotal = s.table.committedTotal) ∧
    (∀ id, SettledOnce replicas acts id → ∀ actual now,
      let t := Replica.settle s.table id actual now
      t.reservedTotal = s.table.reservedTotal ∧ t.committedTotal = s.table.committedTotal) ∧
    (∀ ceiling : ℤ, 1 ≤ ceiling → (∀ r, ∃ c ∈ (replicas r).ceiling, c ≤ ceiling) →
      s.table.committedTotal + s.table.reservedTotal ≤
        ceiling + ((s.table.filter (·.state = .settled)).map
          fun a => max 0 (a.actual.getD 0 - a.reserved)).sum) := by
  have hi := LedgerInv.run h
  refine ⟨fun id hid => hi.valid.count_idsIn (hi.admitted id hid), fun id hid hne r tokens uuid now => ?_,
    fun id hid actual now => ?_, fun ceiling hpos hc => ?_⟩
  · simp only [Replica.reserve_replay _ hne (hi.admitted id hid), and_self]
  · simp only [Replica.settle_replay (hi.settled id hid), and_self]
  · have hover : ((s.table.filter (·.state = .settled)).map
        fun a => max 0 (a.actual.getD 0 - a.reserved)).sum = (s.table.map Attempt.overshoot).sum := by
      induction s.table with
      | nil => rfl
      | cons a t ih =>
        simp only [List.filter_cons, List.map_cons, List.sum_cons, Attempt.overshoot] at ih ⊢
        split_ifs with hs <;> simp_all
    rw [hover]
    exact LedgerState.run_bound h (by omega) hc

/-- Two replicas under a ceiling of 100. -/
def twoReplicas : Bool → Replica := fun _ => ⟨some 100, by simp, 900, 0⟩

/-- The second replica is refused once, the first settles above its reservation and replays. -/
def overshootRun : List (LedgerAction Bool) :=
  [.reserve false 60 (some "a") "" 0, .reserve true 50 none "u" 1, .reserve true 40 (some "b") "" 2,
    .settle false "a" 70 3, .settle false "a" 70 4, .settle true "b" 50 5]

/-- The run above is one the replicas can make: it ends 20 tokens over the ceiling, which is the
overshoot of its two attempts. -/
theorem durable_ledger_balanced_overshootRun :
    ∃ s, Transition.run LedgerState.step (.init twoReplicas) overshootRun = some s ∧
      s.table.committedTotal = 120 ∧ s.table.reservedTotal = 0 ∧
      (s.table.idsIn .reserved).count "a" + (s.table.idsIn .settled).count "a" = 1 ∧
      (Replica.settle s.table "a" 70 6).committedTotal = s.table.committedTotal ∧
      s.table.committedTotal + s.table.reservedTotal ≤
        100 + ((s.table.filter (·.state = .settled)).map
          fun a => max 0 (a.actual.getD 0 - a.reserved)).sum := by
  have hadm : Admitted twoReplicas [.reserve false 60 (some "a") "" 0, .reserve true 50 none "u" 1,
      .reserve true 40 (some "b") "" 2] "a" := ⟨[], _, false, 60, some "a", "", 0, _, rfl, rfl, rfl⟩
  have hadm' : Admitted twoReplicas overshootRun "a" :=
    ⟨[], _, false, 60, some "a", "", 0, _, rfl, rfl, rfl⟩
  have hrun : Transition.run LedgerState.step (.init twoReplicas) overshootRun = some _ := rfl
  obtain ⟨hone, -, hreplay, hbound⟩ := durable_ledger_balanced hrun
  exact ⟨_, rfl, by decide, by decide, hone "a" hadm',
    (hreplay "a" ⟨_, _, false, 70, 3, rfl, hadm, by decide⟩ 70 6).2,
    hbound 100 (by decide) fun _ => ⟨100, rfl, le_rfl⟩⟩

end AxiomGrid.Router
