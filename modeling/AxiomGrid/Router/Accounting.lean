import Mathlib.Algebra.BigOperators.Ring.Finset
import AxiomGrid.Lib.Transition
import AxiomGrid.Router.Basic

/-!
# The books of the in-memory governor

What the governor, the semaphores and the metrics know of a call is its `Book`: the reservation, the
tokens of the responses it received, those of them not yet in the metrics, and its stage.
`Call.BookMove` says once what a step of a call can do to its book and to the shared counters. The
balance of every reachable state follows by summing over the calls.
-/

namespace AxiomGrid.Router

open Transition

/-! ### Books -/

/-- How far a call is, as far as the books are concerned. -/
inductive Stage where
  /-- It has a permit and no reservation yet. -/
  | fresh
  | running
  /-- The reservation is settled, or was never granted. -/
  | settled
  /-- The permit is returned, or was never granted. -/
  | finished
  deriving DecidableEq, Repr

/-- The stage of a point. -/
def Pc.stage : Pc → Stage
  | .reserve => .fresh
  | .release _ => .settled
  | .done _ => .finished
  | _ => .running

/-- Tokens received at this point that are not in the metrics yet. -/
def Pc.pending : Pc → ℕ
  | .account counts _ => counts.totalTokens
  | _ => 0

lemma Pc.stage_of_trying {pc : Pc} (h : pc.trying = true) : pc.stage = .running := by
  cases pc <;> first | rfl | simp [trying] at h

lemma Pc.pending_of_trying {pc : Pc} (h : pc.trying = true) : pc.pending = 0 := by
  cases pc <;> first | rfl | simp [trying] at h

/-- The book of one call. -/
structure Book where
  estimate : ℤ
  reservation : Option ℤ
  spent : ℕ
  pending : ℕ
  stage : Stage
  deriving DecidableEq, Repr

/-- The book of a call. -/
def Call.book (c : Call) : Book where
  estimate := c.request.reservationEstimate
  reservation := c.reservation
  spent := c.spent
  pending := c.pc.pending
  stage := c.pc.stage

namespace Book

/-- The stages after settlement. -/
def isSettled (b : Book) : Bool := b.stage = .settled ∨ b.stage = .finished

/-- The part of the governor's `reserved` that is this call's. -/
def outstanding (b : Book) : ℤ := if b.isSettled then 0 else b.reservation.getD 0

/-- The part of the governor's `committed` that is this call's. -/
def actual (b : Book) : ℤ := if b.isSettled then b.spent else 0

/-- By how much a settled call went over its reservation. -/
def overshoot (b : Book) : ℤ := if b.isSettled then max 0 (b.spent - b.reservation.getD 0) else 0

/-- The permits this call holds. -/
def permits (b : Book) : ℕ := if b.stage = .finished then 0 else 1

/-- A call without a reservation has no spend and is not running; one with a reservation has its
own estimate. Tokens are pending only while it runs. -/
structure Sound (b : Book) : Prop where
  estimate_nonneg : 0 ≤ b.estimate
  reservation : (b.reservation = none ∧ b.spent = 0 ∧ b.stage ≠ .running) ∨
    (b.reservation = some b.estimate ∧ b.stage ≠ .fresh)
  pending : b.stage ≠ .running → b.pending = 0

lemma Sound.outstanding_nonneg {b : Book} (h : b.Sound) : 0 ≤ b.outstanding := by
  unfold outstanding
  split
  · exact le_rfl
  · rcases h.reservation with ⟨hr, -⟩ | ⟨hr, -⟩
    · simp [hr]
    · simpa [hr] using h.estimate_nonneg

end Book

lemma Request.reservationEstimate_nonneg (req : Request) : 0 ≤ req.reservationEstimate := by
  unfold reservationEstimate
  split
  · exact le_rfl
  · refine add_nonneg (Int.natCast_nonneg _) ?_
    split
    · split
      · decide
      · omega
    · decide

/-- The validated tokens an event brings to the call it happens to. -/
def Event.tokens : Event → ℕ
  | .reply (.data d) => ((usageCounts d).map Counts.totalTokens).getD 0
  | _ => 0

/-! ### What a step does to the books -/

namespace Call

/-- What one step of a call can do to its book, the governor, the permits and the token metrics. -/
inductive BookMove (r r' : ModelRouter) (g g' : SpendGovernor) (b b' : Book) (e : Event) : Prop
  | idle (hb : b.stage = .running) (hb' : b' = b) (hg : g' = g) (hs : r'.slots = r.slots)
      (ht : r'.metrics.totalTokens = r.metrics.totalTokens) (he : e.tokens = 0)
  | grant (hb : b.stage = .fresh)
      (hb' : b' = { b with reservation := some b.estimate, stage := .running })
      (hg : g' = { g with reserved := g.reserved + b.estimate })
      (hc : ∀ cap, g.ceiling = some cap → g.committed + g.reserved + b.estimate ≤ cap)
      (hr : r' = r) (he : e.tokens = 0)
  | refuse (hb : b.stage = .fresh) (hb' : b' = { b with stage := .settled })
      (hg : g' = { g with refused := g'.refused }) (hr : r' = r) (he : e.tokens = 0)
  | receive (hb : b.stage = .running) (hp : b.pending = 0)
      (hb' : b' = { b with spent := b.spent + e.tokens, pending := e.tokens })
      (hg : g' = g) (hr : r' = r)
  | account (hb : b.stage = .running) (hb' : b' = { b with pending := 0 })
      (hg : g' = g) (hs : r'.slots = r.slots)
      (ht : r'.metrics.totalTokens = r.metrics.totalTokens + b.pending) (he : e.tokens = 0)
  | settle (hb : b.stage = .running) (hp : b.pending = 0) (hb' : b' = { b with stage := .settled })
      (hg : ∀ n, b.reservation = some n → g' = g.settle n b.spent) (hr : r' = r)
      (he : e.tokens = 0)
  | release (hb : b.stage = .settled) (hb' : b' = { b with stage := .finished })
      (hg : g' = g) (hs : r'.slots = r.slots + 1) (ht : r'.metrics = r.metrics)
      (he : e.tokens = 0)

variable {cfg : Config} {r r' : ModelRouter} {g g' : SpendGovernor} {c c' : Call} {e : Event}
  {t : Tick}

/-- A step between two points where the call runs and has nothing pending. -/
private lemma book_idle {pc : Pc} (hc : c.pc = pc) (hr : r'.slots = r.slots)
    (hm : r'.metrics.totalTokens = r.metrics.totalTokens) (he : e.tokens = 0)
    (hs : pc.stage = .running := by rfl) (hp : pc.pending = 0 := by rfl)
    (hs' : c'.pc.stage = .running := by rfl) (hp' : c'.pc.pending = 0 := by rfl)
    (hq : c'.request = c.request := by rfl) (hv : c'.reservation = c.reservation := by rfl)
    (ht : c'.spent = c.spent := by rfl) : BookMove r r' g g c.book c'.book e := by
  refine .idle (by rw [book, hc, hs]) ?_ rfl hr hm he
  simp only [book, hc, hs, hp, hs', hp', hq, hv, ht]

/-- A step to a point where a route is being tried. -/
private lemma book_trying {pc pc' : Pc} (hc : c.pc = pc) (h' : pc'.trying = true)
    (hs : pc.stage = .running := by rfl) (hp : pc.pending = 0 := by rfl) :
    BookMove r r g g c.book (c.goto pc').book (.run t) :=
  book_idle hc rfl rfl rfl hs hp (Pc.stage_of_trying h') (Pc.pending_of_trying h')

/-- The transport has ended. -/
lemma receive_book {timeout : ℚ} (hc : c.pc = .transport timeout) (reply : Reply) :
    BookMove r r g g c.book (c.receive reply).book (.reply reply) := by
  cases reply with
  | data d =>
    cases hd : usageCounts d with
    | none =>
      have he : (Event.reply (.data d)).tokens = 0 := by simp [Event.tokens, hd]
      simp only [receive, hd]
      exact book_idle hc rfl rfl he
    | some counts =>
      refine .receive (by rw [book, hc]; rfl) (by rw [book, hc]; rfl) ?_ rfl rfl
      simp [receive, book, hd, hc, Pc.stage, Pc.pending, Event.tokens]
  | raised exc => exact book_idle hc rfl rfl rfl
  | budgetExhausted => exact book_idle hc rfl rfl rfl
  | interrupted => exact book_idle hc rfl rfl rfl

/-- Every step of a call is one of the moves. -/
theorem step_book (h : c.step cfg r g e = some (r', g', c')) :
    BookMove r r' g g' c.book c'.book e := by
  cases step_cases h with
  | refuse t hc hg =>
    exact .refuse (by rw [book, hc]; rfl) (by simp [book, goto, hc, Pc.pending, Pc.stage])
      (SpendGovernor.reserve_refused hg) rfl rfl
  | grant t hc hg =>
    obtain ⟨rfl, rfl, hroom⟩ := SpendGovernor.reserve_granted hg
    exact .grant (by rw [book, hc]; rfl) (by simp [book, hc, Pc.pending, Pc.stage]) rfl hroom rfl rfl
  | route t hc =>
    rcases @enterRoute_cases cfg c t.now with hr | ⟨model, hr⟩
    · rw [hr]
      exact book_idle hc rfl rfl rfl
    · rw [hr]
      exact book_idle hc rfl rfl rfl
  | askRoute t now hc =>
    rcases @askBreaker_cases r c now with ⟨-, hb⟩ | hb
    · rw [hb]
      exact book_idle hc rfl rfl rfl
    · rw [hb]
      exact book_idle hc rfl rfl rfl
  | countFallback t hc => exact book_idle hc (by split <;> rfl) (by split <;> rfl) rfl
  | dispatch t hc => exact book_trying hc (dispatchPc_trying t.now)
  | account t counts d hc =>
    have ht := checkedPc_trying (c := c) counts d
    refine .account (by rw [book, hc]; rfl) ?_ rfl rfl ?_ rfl
    · have hs : (Pc.account counts d).stage = .running := rfl
      simp only [book, goto, hc, Pc.stage_of_trying ht, Pc.pending_of_trying ht, hs]
    · simp [book, hc, Pc.pending, Metrics.account]
  | recordFailure t exc hc =>
    obtain ⟨ht, -, hm, hs⟩ := noteFailure_spec (r := r) (c := c) exc t
    exact book_idle hc hs (by rw [hm]) rfl rfl rfl (Pc.stage_of_trying ht) (Pc.pending_of_trying ht)
  | afterFailure t exc hc => exact book_trying hc (afterFailurePc_trying exc)
  | backoff t exc hc => exact book_trying hc (backoffPc_trying exc t)
  | retry t hc => exact book_trying hc (by split <;> rfl)
  | cleanup t next hc =>
    have hs := releaseProbe_slots (r := r) (c := c) t.now
    have hm := releaseProbe_metrics (r := r) (c := c) t.now
    cases next with
    | nextModel => exact book_idle hc hs (by rw [hm]) rfl
    | leave e => exact book_idle hc hs (by rw [hm]) rfl
  | settle t e hc =>
    refine .settle (by rw [book, hc]; rfl) (by rw [book, hc]; rfl) ?_ (fun n hn => ?_) rfl rfl
    · simp [book, goto, hc, Pc.stage, Pc.pending]
    · simp only [book] at hn
      simp only [hn, book]
  | release t e hc =>
    exact .release (by rw [book, hc]; rfl) (by simp [book, goto, hc, Pc.stage, Pc.pending]) rfl rfl
      rfl rfl
  | reply timeout reply hc => exact receive_book hc reply
  | enter t hc | reject t hc | countRequest t hc | recordSuccess t d hc | recordBudget t hc
  | again t hc | giveUp t hc | recordAllFailed t hc | unlockedCount hc | unlockedAsk now hc
  | unlockedFallback hc | unlockedSuccess d hc | unlockedBudget hc | unlockedFailure exc hc
  | unlockedCheck hc | unlockedAllFailed hc | woke delay hc | interrupted delay hc =>
    exact book_idle hc rfl rfl rfl

end Call

namespace Call.BookMove

variable {r r' : ModelRouter} {g g' : SpendGovernor} {b b' : Book} {e : Event}

lemma ceiling_eq (h : BookMove r r' g g' b b' e) (hb : b.Sound) : g'.ceiling = g.ceiling := by
  cases h with
  | idle _ _ hg => rw [hg]
  | grant _ _ hg => rw [hg]
  | refuse _ _ hg => rw [hg]
  | receive _ _ _ hg => rw [hg]
  | account _ _ hg => rw [hg]
  | settle hs _ _ hg =>
    rcases hb.reservation with ⟨-, -, hn⟩ | ⟨hr, -⟩
    · exact absurd hs hn
    · rw [hg _ hr]
      rfl
  | release _ _ hg => rw [hg]

lemma sound (h : BookMove r r' g g' b b' e) (hb : b.Sound) : b'.Sound := by
  obtain ⟨hest, hres, hpend⟩ := hb
  cases h with
  | idle _ hb' =>
    subst hb'
    exact ⟨hest, hres, hpend⟩
  | grant hs hb' =>
    subst hb'
    exact ⟨hest, .inr ⟨rfl, by simp⟩, by simp⟩
  | refuse hs hb' =>
    subst hb'
    refine ⟨hest, .inl ?_, fun _ => hpend (by simp [hs])⟩
    rcases hres with ⟨hr, ht, -⟩ | ⟨-, hn⟩
    · exact ⟨hr, ht, by simp⟩
    · exact absurd hs hn
  | receive hs _ hb' =>
    subst hb'
    refine ⟨hest, .inr ?_, fun hn => absurd hs hn⟩
    rcases hres with ⟨-, -, hn⟩ | hr
    · exact absurd hs hn
    · exact hr
  | account hs hb' =>
    subst hb'
    exact ⟨hest, hres, fun _ => rfl⟩
  | settle hs hp hb' =>
    subst hb'
    refine ⟨hest, .inr ?_, fun _ => hp⟩
    rcases hres with ⟨-, -, hn⟩ | ⟨hr, -⟩
    · exact absurd hs hn
    · exact ⟨hr, by simp⟩
  | release hs hb' =>
    subst hb'
    refine ⟨hest, ?_, fun _ => hpend (by simp [hs])⟩
    rcases hres with ⟨hr, ht, -⟩ | ⟨hr, -⟩
    · exact .inl ⟨hr, ht, by simp⟩
    · exact .inr ⟨hr, by simp⟩

lemma spent_eq (h : BookMove r r' g g' b b' e) : b'.spent = b.spent + e.tokens := by
  cases h with
  | idle _ hb' _ _ _ he => simp [hb', he]
  | grant _ hb' _ _ _ he => simp [hb', he]
  | refuse _ hb' _ _ he => simp [hb', he]
  | receive _ _ hb' => simp [hb']
  | account _ hb' _ _ _ he => simp [hb', he]
  | settle _ _ hb' _ _ he => simp [hb', he]
  | release _ hb' _ _ _ he => simp [hb', he]

/-- The permits of the semaphore and of the call together stay the same. -/
lemma permits_eq (h : BookMove r r' g g' b b' e) :
    r'.slots + b'.permits = r.slots + b.permits := by
  cases h with
  | idle _ hb' _ hs => simp [hb', hs]
  | grant hb hb' _ _ hr => simp [hb', hr, Book.permits, hb]
  | refuse hb hb' _ hr => simp [hb', hr, Book.permits, hb]
  | receive _ _ hb' _ hr => simp [hb', hr, Book.permits]
  | account _ hb' _ hs => simp [hb', hs, Book.permits]
  | settle hb _ hb' _ hr => simp [hb', hr, Book.permits, hb]
  | release hb hb' _ hs => simp [hb', hs, Book.permits, hb]

/-- Tokens go from the response through the pending ones into the metrics. -/
lemma tokens_eq (h : BookMove r r' g g' b b' e) :
    r'.metrics.totalTokens + b'.pending + b.spent =
      r.metrics.totalTokens + b.pending + b'.spent := by
  cases h with
  | idle _ hb' _ _ ht => simp [hb', ht]
  | grant _ hb' _ _ hr => simp [hb', hr]
  | refuse _ hb' _ hr => simp [hb', hr]
  | receive _ hp hb' _ hr =>
    simp only [hb', hr, hp]
    omega
  | account _ hb' _ _ ht => simp [hb', ht]
  | settle _ _ hb' _ hr => simp [hb', hr]
  | release _ hb' _ _ ht => simp [hb', ht]

/-- The reservation moves with the call, provided the clamp in `settle` does not bite. -/
lemma reserved_eq (h : BookMove r r' g g' b b' e) (hb : b.Sound)
    (hle : b.outstanding ≤ g.reserved) :
    g'.reserved + b.outstanding = g.reserved + b'.outstanding := by
  cases h with
  | idle _ hb' hg => simp [hb', hg]
  | grant hs hb' hg =>
    rcases hb.reservation with ⟨hr, -⟩ | ⟨-, hn⟩
    · simp [hb', hg, Book.outstanding, Book.isSettled, hs, hr]
    · exact absurd hs hn
  | refuse hs hb' hg =>
    rcases hb.reservation with ⟨hr, -⟩ | ⟨-, hn⟩
    · rw [hg]
      simp [hb', Book.outstanding, Book.isSettled, hs, hr]
    · exact absurd hs hn
  | receive _ _ hb' hg => simp [hb', hg, Book.outstanding, Book.isSettled]
  | account _ hb' hg => simp [hb', hg, Book.outstanding, Book.isSettled]
  | settle hs _ hb' hg =>
    rcases hb.reservation with ⟨-, -, hn⟩ | ⟨hr, -⟩
    · exact absurd hs hn
    · simp only [Book.outstanding, Book.isSettled, hs, hr] at hle
      simp only [hg _ hr, hb', SpendGovernor.settle, Book.outstanding, Book.isSettled, hs, hr]
      simp at hle ⊢
      omega
  | release hs hb' hg => simp [hb', hg, Book.outstanding, Book.isSettled, hs]

lemma committed_eq (h : BookMove r r' g g' b b' e) (hb : b.Sound) :
    g'.committed + b.actual = g.committed + b'.actual := by
  cases h with
  | idle _ hb' hg => simp [hb', hg]
  | grant hs hb' hg => simp [hb', hg, Book.actual, Book.isSettled, hs]
  | refuse hs hb' hg =>
    rcases hb.reservation with ⟨-, ht, -⟩ | ⟨-, hn⟩
    · rw [hg]
      simp [hb', Book.actual, Book.isSettled, hs, ht]
    · exact absurd hs hn
  | receive hs _ hb' hg => simp [hb', hg, Book.actual, Book.isSettled, hs]
  | account hs hb' hg => simp [hb', hg, Book.actual, Book.isSettled, hs]
  | settle hs _ hb' hg =>
    rcases hb.reservation with ⟨-, -, hn⟩ | ⟨hr, -⟩
    · exact absurd hs hn
    · simp [hg _ hr, hb', SpendGovernor.settle, Book.actual, Book.isSettled, hs]
  | release hs hb' hg => simp [hb', hg, Book.actual, Book.isSettled, hs]

/-- A step raises `committed + reserved` only by an admission below the ceiling or by what the
call spent over its reservation. -/
lemma bound (h : BookMove r r' g g' b b' e) (hb : b.Sound) (hle : b.outstanding ≤ g.reserved)
    {cap excess : ℤ} (hcap : g.ceiling = some cap) (hover : 0 ≤ excess)
    (hbound : g.committed + g.reserved ≤ cap + excess) :
    g'.committed + g'.reserved + b.overshoot ≤ cap + excess + b'.overshoot := by
  cases h with
  | idle _ hb' hg => simpa [hb', hg] using hbound
  | grant hs hb' hg hc =>
    have := hc cap hcap
    simp only [hb', hg, Book.overshoot, Book.isSettled, hs]
    simp
    omega
  | refuse hs hb' hg =>
    rcases hb.reservation with ⟨hr, ht, -⟩ | ⟨-, hn⟩
    · rw [hg]
      simpa [hb', Book.overshoot, Book.isSettled, hs, hr, ht] using hbound
    · exact absurd hs hn
  | receive hs _ hb' hg => simpa [hb', hg, Book.overshoot, Book.isSettled, hs] using hbound
  | account hs hb' hg => simpa [hb', hg, Book.overshoot, Book.isSettled, hs] using hbound
  | settle hs _ hb' hg =>
    rcases hb.reservation with ⟨-, -, hn⟩ | ⟨hr, -⟩
    · exact absurd hs hn
    · simp only [Book.outstanding, Book.isSettled, hs, hr] at hle
      simp only [hg _ hr, hb', SpendGovernor.settle, Book.overshoot, Book.isSettled, hs, hr]
      simp at hle ⊢
      omega
  | release hs hb' hg => simpa [hb', hg, Book.overshoot, Book.isSettled, hs] using hbound

end Call.BookMove

/-! ### Sums over the calls -/

namespace State

variable {ρ : Type*} [DecidableEq ρ]

/-- The sum of a weight of the books over all calls. -/
def total {β : Type*} [AddCommMonoid β] (w : Book → β) (calls : List (ρ × Call)) : β :=
  (calls.map fun p => w p.2.book).sum

/-- The sum of a weight of the calls over the calls on one router. -/
def totalOn (w : Call → ℕ) (calls : List (ρ × Call)) (i : ρ) : ℕ :=
  (calls.map fun p => if p.1 = i then w p.2 else 0).sum

variable {cfg : ρ → Config} {s : State ρ} {calls : List (ρ × Call)} {i j : ρ} {n : ℕ} {c c' : Call}

omit [DecidableEq ρ] in
lemma total_concat {β : Type*} [AddCommMonoid β] (w : Book → β) :
    total w (calls ++ [(j, c)]) = total w calls + w c.book := by
  simp [total]

omit [DecidableEq ρ] in
lemma total_set {β : Type*} [AddCommMonoid β] (w : Book → β) (h : calls[n]? = some (j, c))
    (c' : Call) : total w (calls.set n (j, c')) + w c.book = total w calls + w c'.book :=
  List.sum_map_set (fun p : ρ × Call => w p.2.book) h (j, c')

lemma totalOn_concat (w : Call → ℕ) :
    totalOn w (calls ++ [(j, c)]) i = totalOn w calls i + if j = i then w c else 0 := by
  simp [totalOn]

lemma totalOn_set (w : Call → ℕ) (h : calls[n]? = some (i, c)) (c' : Call) :
    totalOn w (calls.set n (i, c')) i + w c = totalOn w calls i + w c' := by
  simpa [totalOn] using
    List.sum_map_set (fun p : ρ × Call => if p.1 = i then w p.2 else 0) h (i, c')

lemma totalOn_set_of_ne (w : Call → ℕ) (h : calls[n]? = some (j, c)) (c' : Call) (hj : j ≠ i) :
    totalOn w (calls.set n (j, c')) i = totalOn w calls i := by
  simpa [totalOn, hj] using
    List.sum_map_set (fun p : ρ × Call => if p.1 = i then w p.2 else 0) h (j, c')

/-- The tokens of the validated responses the `n`-th call has received. -/
def billed (acts : List (Action ρ)) (n : ℕ) : ℕ :=
  (acts.map fun
    | .start _ _ => 0
    | .step k e => if k = n then e.tokens else 0).sum

omit [DecidableEq ρ] in
@[simp] lemma billed_nil : billed ([] : List (Action ρ)) n = 0 := rfl

omit [DecidableEq ρ] in
@[simp] lemma billed_start (acts : List (Action ρ)) (request : Request) :
    billed (acts ++ [.start i request]) n = billed acts n := by
  simp [billed]

omit [DecidableEq ρ] in
@[simp] lemma billed_step (acts : List (Action ρ)) (k : ℕ) (e : Event) :
    billed (acts ++ [.step k e]) n = billed acts n + if k = n then e.tokens else 0 := by
  simp [billed]

/-! ### The balance of a reachable state -/

/-- The books of a state that the actions `acts` led to. -/
structure Balanced (cfg : ρ → Config) (ceiling : Option ℤ) (acts : List (Action ρ))
    (s : State ρ) : Prop where
  ceiling_eq : s.spend.ceiling = ceiling
  sound : ∀ p ∈ s.calls, p.2.book.Sound
  spent : ∀ n p, s.calls[n]? = some p → p.2.spent = billed acts n
  unborn : ∀ n, s.calls.length ≤ n → billed acts n = 0
  reserved : s.spend.reserved = total Book.outstanding s.calls
  committed : s.spend.committed = total Book.actual s.calls
  bound : ∀ cap, ceiling = some cap →
    s.spend.committed + s.spend.reserved ≤ cap + total Book.overshoot s.calls
  permits : ∀ i, (s.routers i).slots + totalOn (·.book.permits) s.calls i = (cfg i).maxInflight
  tokens : ∀ i, (s.routers i).metrics.totalTokens + totalOn (·.book.pending) s.calls i =
    totalOn (·.spent) s.calls i

variable {ceiling : Option ℤ} {acts : List (Action ρ)} {s' : State ρ} {g : SpendGovernor}
  {routers : ρ → ModelRouter}

lemma balanced_init (hc : ∀ cap ∈ ceiling, 1 ≤ cap) : Balanced cfg ceiling [] (init cfg ceiling) where
  ceiling_eq := rfl
  sound p hp := by cases hp
  spent n p hp := by simp [init] at hp
  unborn n _ := rfl
  reserved := rfl
  committed := rfl
  bound cap hcap := by
    have := hc cap hcap
    change 0 + 0 ≤ cap + 0
    omega
  permits i := rfl
  tokens i := rfl

/-- A call is added: with a permit taken from the semaphore, or finished without one. -/
lemma Balanced.concat (h : Balanced cfg ceiling acts s) {request : Request}
    (hc : c.book = ⟨request.reservationEstimate, none, 0, 0, c.pc.stage⟩)
    (hstage : c.pc.stage ≠ .running)
    (hslots : ∀ i, (routers i).slots + (if j = i then c.book.permits else 0) = (s.routers i).slots)
    (hmetrics : ∀ i, (routers i).metrics = (s.routers i).metrics) :
    Balanced cfg ceiling (acts ++ [.start j request]) ⟨s.spend, routers, s.calls ++ [(j, c)]⟩ := by
  have hspent : c.spent = 0 := congrArg Book.spent hc
  have hpending : c.book.pending = 0 := by rw [hc]
  have hout : c.book.outstanding = 0 := by simp [hc, Book.outstanding]
  have hact : c.book.actual = 0 := by simp [hc, Book.actual]
  have hover : c.book.overshoot = 0 := by simp [hc, Book.overshoot]
  refine ⟨h.ceiling_eq, fun p hp => ?_, fun n p hp => ?_, fun n hn => ?_, ?_, ?_, fun cap hcap => ?_,
    fun i => ?_, fun i => ?_⟩
  · rcases List.mem_append.mp hp with hp | hp
    · exact h.sound p hp
    · obtain rfl : p = (j, c) := by simpa using hp
      rw [hc]
      exact ⟨request.reservationEstimate_nonneg, .inl ⟨rfl, rfl, hstage⟩, fun _ => rfl⟩
  · rw [billed_start]
    rcases lt_trichotomy n s.calls.length with hn | rfl | hn
    · rw [List.getElem?_append_left hn] at hp
      exact h.spent n p hp
    · obtain rfl : (j, c) = p := by simpa using hp
      rw [hspent, h.unborn _ le_rfl]
    · rw [List.getElem?_eq_none (by simp; omega)] at hp
      cases hp
  · rw [billed_start]
    refine h.unborn n ?_
    simp only [List.length_append, List.length_singleton] at hn
    omega
  · rw [total_concat, hout, add_zero]
    exact h.reserved
  · rw [total_concat, hact, add_zero]
    exact h.committed
  · rw [total_concat, hover, add_zero]
    exact h.bound cap hcap
  · have := h.permits i
    have := hslots i
    rw [totalOn_concat]
    dsimp only
    omega
  · rw [totalOn_concat, totalOn_concat, hmetrics, hspent, hpending]
    simpa using h.tokens i

/-- The reservation of a call is part of what the governor holds. -/
lemma Balanced.outstanding_le (h : Balanced cfg ceiling acts s) {p : ρ × Call} (hp : p ∈ s.calls) :
    p.2.book.outstanding ≤ s.spend.reserved := by
  rw [h.reserved]
  have hall : ∀ x ∈ s.calls.map fun p => p.2.book.outstanding, 0 ≤ x := by
    intro x hx
    obtain ⟨q, hq, rfl⟩ := List.mem_map.mp hx
    exact (h.sound q hq).outstanding_nonneg
  exact List.single_le_sum hall _ (List.mem_map.mpr ⟨p, hp, rfl⟩)

omit [DecidableEq ρ] in
lemma overshoot_nonneg (calls : List (ρ × Call)) : 0 ≤ total Book.overshoot calls := by
  refine List.sum_nonneg fun x hx => ?_
  obtain ⟨p, -, rfl⟩ := List.mem_map.mp hx
  unfold Book.overshoot
  split
  · exact le_max_left _ _
  · exact le_rfl

/-- A step of one call keeps the books balanced. -/
lemma Balanced.step (h : Balanced cfg ceiling acts s) {e : Event} {r : ModelRouter}
    (hn : s.calls[n]? = some (j, c))
    (hm : Call.BookMove (s.routers j) r s.spend g c.book c'.book e) :
    Balanced cfg ceiling (acts ++ [.step n e])
      ⟨g, Function.update s.routers j r, s.calls.set n (j, c')⟩ := by
  have hmem : (j, c) ∈ s.calls := List.mem_of_getElem? hn
  have hlt : n < s.calls.length := (List.getElem?_eq_some_iff.mp hn).1
  have hsound : c.book.Sound := h.sound _ hmem
  have hle : c.book.outstanding ≤ s.spend.reserved := h.outstanding_le hmem
  have hspent : c'.spent = c.spent + e.tokens := hm.spent_eq
  refine ⟨(hm.ceiling_eq hsound).trans h.ceiling_eq, fun p hp => ?_, fun k p hp => ?_,
    fun k hk => ?_, ?_, ?_, fun cap hcap => ?_, fun i => ?_, fun i => ?_⟩
  · rcases List.mem_or_eq_of_mem_set hp with hp | rfl
    · exact h.sound p hp
    · exact hm.sound hsound
  · rw [billed_step]
    by_cases hk : n = k
    · subst hk
      rw [List.getElem?_set_self hlt] at hp
      cases hp
      rw [if_pos rfl, hspent, h.spent n _ hn]
    · rw [List.getElem?_set_ne hk] at hp
      rw [if_neg hk, h.spent k p hp, add_zero]
  · have hk' : s.calls.length ≤ k := by simpa using hk
    rw [billed_step, h.unborn k hk', if_neg (by omega)]
  · have := hm.reserved_eq hsound hle
    have := total_set Book.outstanding hn c'
    have := h.reserved
    dsimp only
    omega
  · have := hm.committed_eq hsound
    have := total_set Book.actual hn c'
    have := h.committed
    dsimp only
    omega
  · have := hm.bound hsound hle (h.ceiling_eq.trans hcap) (overshoot_nonneg s.calls)
      (h.bound cap hcap)
    have := total_set Book.overshoot hn c'
    dsimp only
    omega
  · by_cases hj : j = i
    · subst hj
      have := hm.permits_eq
      have := totalOn_set (·.book.permits) hn c'
      have := h.permits j
      simp only [Function.update_self] at this ⊢
      omega
    · dsimp only
      rw [Function.update_of_ne (Ne.symm hj), totalOn_set_of_ne _ hn c' hj]
      exact h.permits i
  · by_cases hj : j = i
    · subst hj
      have htok : r.metrics.totalTokens + c'.book.pending + c.spent =
        (s.routers j).metrics.totalTokens + c.book.pending + c'.spent := hm.tokens_eq
      have := totalOn_set (·.book.pending) hn c'
      have := totalOn_set (·.spent) hn c'
      have := h.tokens j
      simp only [Function.update_self] at this ⊢
      omega
    · dsimp only
      rw [Function.update_of_ne (Ne.symm hj), totalOn_set_of_ne _ hn c' hj,
        totalOn_set_of_ne _ hn c' hj]
      exact h.tokens i

/-- Every step of the system keeps the books balanced. -/
theorem balanced_step {a : Action ρ} (h : Balanced cfg ceiling acts s)
    (hs : s.step cfg a = some s') : Balanced cfg ceiling (acts ++ [a]) s' := by
  obtain ⟨j, request, rfl, hpos, rfl⟩ | ⟨j, request, rfl, hzero, rfl⟩ |
    ⟨n, e, j, c, r, g, c', rfl, hn, hc, rfl⟩ := step_cases hs
  · refine h.concat rfl (by simp [Pc.stage]) (fun i => ?_) (fun i => ?_)
    · by_cases hj : j = i
      · subst hj
        simp [Call.book, Book.permits, Pc.stage]
        omega
      · simp [hj, Ne.symm hj]
    · by_cases hj : i = j
      · subst hj
        simp
      · simp [hj]
  · refine h.concat rfl (by simp [Pc.stage]) (fun i => ?_) (fun i => rfl)
    simp [Call.book, Book.permits, Pc.stage]
  · exact h.step hn (Call.step_book hc)

theorem balanced_run (hc : ∀ cap ∈ ceiling, 1 ≤ cap)
    (h : run (step cfg) (init cfg ceiling) acts = some s) : Balanced cfg ceiling acts s :=
  run_induction (step cfg) (balanced_init hc) (fun _ _ _ _ _ hs ha => balanced_step hs ha) h

end State

end AxiomGrid.Router
