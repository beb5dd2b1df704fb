import AxiomGrid.Router.Basic
import Mathlib.Data.List.ModifyLast

/-!
# The transport calls of one completion

`_complete` tries the models of its chain in order, and a model several times. The control flow of a
call is first brought into the form of a relation `Flow`, one rule for each way a step can lead; then
a log records which models are visited, where the call is admitted, and each call of the transport
with its outcome. Between two steps of the call other calls may change the router and the governor in
any way.
-/

namespace AxiomGrid.Router

/-! ### Control flow -/

/-- The call has not reached the loop over the models. -/
def Pc.isFresh : Pc → Bool
  | .reserve | .enter | .countRequest => true
  | _ => false

/-- No transport call can follow. -/
def Pc.isOver : Pc → Bool
  | .cleanup (.leave _) | .recordAllFailed | .settle _ | .release _ | .done _ => true
  | _ => false

/-- An event may end the loops of a call at this point. -/
def Pc.mayLeave : Pc → Event → Bool
  | .countFallback, _ | .dispatch, _ | .transport _, _ | .recordSuccess _, .lockTimeout => false
  | _, _ => true

/-- An exception after which a route is not tried again: a rate limit, a status that is no server
error, or a server error when there is another route. -/
def Exc.endsRoute (exc : Exc) (fallbackLeft : Prop) : Prop :=
  exc.isTooMany = true ∨ (exc.status ≠ .absent ∧ exc.isServerError ≠ some true) ∨
    (∃ code : ℤ, exc.status = .int code ∧ 500 ≤ code ∧ code < 600 ∧ fallbackLeft)

/-- Two points of a call on the same route. -/
structure Call.SameRoute (c c' : Call) : Prop where
  request : c'.request = c.request
  deadline : c'.deadline = c.deadline
  index : c'.index = c.index
  model : c'.model = c.model
  isProbe : c'.isProbe = c.isProbe
  attempt : c'.attempt = c.attempt

lemma Call.sameRoute_goto (c : Call) (pc : Pc) : c.SameRoute (c.goto pc) := ⟨rfl, rfl, rfl, rfl, rfl, rfl⟩

lemma Call.sameRoute_receive (c : Call) (reply : Reply) : c.SameRoute (c.receive reply) := by
  cases reply with
  | data d =>
    simp only [receive]
    split <;> exact ⟨rfl, rfl, rfl, rfl, rfl, rfl⟩
  | raised | budgetExhausted | interrupted => exact c.sameRoute_goto _

/-- How a step can lead from one point of a call to another. -/
inductive Call.Flow (cfg : Config) (c : Call) : Event → Call → Prop where
  | fresh {e c'} : c.pc.isFresh = true → c'.pc.isFresh = true ∨ c'.pc = .route →
      c'.index = c.index → Flow cfg c e c'
  | ended {e c'} : c.pc.mayLeave e = true → c'.pc.isOver = true → c.SameRoute c' → Flow cfg c e c'
  | ask {e} (model : String) (now : ℚ) : c.pc = .route → cfg.models[c.index]? = some model →
      Flow cfg c e { c with model, pc := .askRoute now }
  | skip {e c'} (now : ℚ) : c.pc = .askRoute now → c'.pc = .route → c'.index = c.index + 1 →
      c'.deadline = c.deadline → Flow cfg c e c'
  | admitted {e} (now : ℚ) (isProbe : Bool) (generation : ℕ) : c.pc = .askRoute now →
      Flow cfg c e { c with isProbe, generation, attempt := 0, pc := .countFallback }
  | ready {e} : c.pc = .countFallback → Flow cfg c e (c.goto .dispatch)
  | call (t : Tick) (timeout : ℚ) : c.pc = .dispatch → t.now < c.deadline →
      Flow cfg c (.run t) (c.goto (.transport timeout))
  | expire (t : Tick) : c.pc = .dispatch → c.deadline ≤ t.now ∨ cfg.totalTimeout ≤ 0 →
      Flow cfg c (.run t) (c.goto (.recordFailure .routerError))
  | reply (timeout : ℚ) (reply : Reply) : c.pc = .transport timeout →
      Flow cfg c (.reply reply) (c.receive reply)
  | check {e} (counts : Counts) (d : Json) : c.pc = .account counts d →
      Flow cfg c e (c.goto (c.checkedPc counts d))
  | lose (d : Json) : c.pc = .recordSuccess d →
      Flow cfg c .lockTimeout (c.goto (.recordFailure .routerError))
  | note {e c'} (exc : Exc) : c.pc = .recordFailure exc → c'.pc = .afterFailure exc →
      c.SameRoute c' → Flow cfg c e c'
  | again {e} (exc : Exc) : c.pc = .afterFailure exc → c.isProbe = false →
      ¬ exc.endsRoute (c.index + 1 < cfg.models.length) → c.attempt < cfg.maxRetries →
      Flow cfg c e (c.goto (.backoff exc))
  | pause {e} (exc : Exc) (delay : ℚ) : c.pc = .backoff exc → Flow cfg c e (c.goto (.sleeping delay))
  | wake {e} (delay : ℚ) : c.pc = .sleeping delay →
      Flow cfg c e { c with attempt := c.attempt + 1, pc := .retry }
  | recheck {e} : c.pc = .retry → Flow cfg c e (c.goto .checkRoute)
  | redispatch {e} : c.pc = .checkRoute → Flow cfg c e (c.goto .dispatch)
  | next {e c'} : (∃ exc, c.pc = .afterFailure exc) ∨ (∃ exc, c.pc = .backoff exc) ∨ c.pc = .retry ∨
      c.pc = .checkRoute → c'.pc = .cleanup .nextModel → c.SameRoute c' → Flow cfg c e c'
  | advance {e} : c.pc = .cleanup .nextModel →
      Flow cfg c e { c with index := c.index + 1, pc := .route }

namespace Call

variable {cfg : Config} {r r' : ModelRouter} {g g' : SpendGovernor} {c c' : Call} {e : Event}

lemma flow_route (hc : c.pc = .route) (now : ℚ) : c.Flow cfg e (c.enterRoute cfg now) := by
  unfold enterRoute
  split
  · exact .ended (by rw [hc]; rfl) rfl (c.sameRoute_goto _)
  · rename_i model hmodel
    split
    · exact .ended (by rw [hc]; rfl) rfl (c.sameRoute_goto _)
    · exact .ask model now hc hmodel

lemma flow_askRoute {now : ℚ} (hc : c.pc = .askRoute now) :
    c.Flow cfg e (c.askBreaker r now).2 := by
  rcases @askBreaker_cases r c now with ⟨-, hb⟩ | hb
  · rw [hb]
    exact .admitted now _ _ hc
  · rw [hb]
    exact .skip now hc rfl rfl rfl

lemma flow_dispatch (hc : c.pc = .dispatch) (t : Tick) :
    c.Flow cfg (.run t) (c.goto (c.dispatchPc cfg t.now)) := by
  unfold dispatchPc
  by_cases hremaining : c.remaining cfg t.now ≤ 0
  · rw [if_pos hremaining]
    rw [remaining, min_le_iff, sub_nonpos] at hremaining
    exact .expire t hc hremaining
  · rw [if_neg hremaining]
    rw [remaining, not_le, lt_min_iff, sub_pos] at hremaining
    exact .call t _ hc hremaining.1

lemma flow_afterFailure {exc : Exc} (hc : c.pc = .afterFailure exc) :
    c.Flow cfg e (c.goto (c.afterFailurePc cfg r exc)) := by
  have hnext : c.Flow cfg e (c.goto (.cleanup .nextModel)) :=
    .next (.inl ⟨exc, hc⟩) rfl (c.sameRoute_goto _)
  have go (hcode : exc.isTooMany = false ∧ ¬ ∃ code : ℤ, exc.status = .int code ∧ 500 ≤ code ∧
      code < 600 ∧ c.index + 1 < cfg.models.length) :
      c.Flow cfg e (c.goto (afterFailurePc.go cfg r c exc)) := by
    unfold afterFailurePc.go
    split_ifs with hprobe hraises hclient hopen hattempt
    · exact hnext
    · exact .ended (by rw [hc]; rfl) rfl (c.sameRoute_goto _)
    · exact hnext
    · exact hnext
    · refine .again exc hc (by simpa using hprobe) ?_ hattempt
      rintro (htoo | ⟨hstatus, hserver⟩ | hfallback)
      · simp [hcode.1] at htoo
      · cases hserverError : exc.isServerError with
        | none => exact hraises ⟨hstatus, hserverError⟩
        | some b =>
          cases b with
          | false => exact hclient ⟨hstatus, hserverError⟩
          | true => exact hserver hserverError
      · exact hcode.2 hfallback
    · exact hnext
  unfold afterFailurePc
  split
  · rename_i code hstatus
    split_ifs with hfinal
    · exact hnext
    · apply go
      rw [not_or] at hfinal
      refine ⟨by simp [Exc.isTooMany, hstatus, hfinal.1], ?_⟩
      rintro ⟨code', hstatus', hlow, hhigh, hfallback⟩
      rw [hstatus] at hstatus'
      cases hstatus'
      exact hfinal.2 ⟨hlow, hhigh, hfallback⟩
  · rename_i hstatus
    split_ifs with htoo
    · exact hnext
    · apply go
      refine ⟨by simpa using htoo, ?_⟩
      rintro ⟨code, hcode, -⟩
      exact hstatus code hcode

lemma flow_backoff {exc : Exc} (hc : c.pc = .backoff exc) (t : Tick) :
    c.Flow cfg e (c.goto (c.backoffPc exc t)) := by
  unfold backoffPc
  split
  · exact .ended (by rw [hc]; rfl) rfl (c.sameRoute_goto _)
  · dsimp only
    split_ifs
    · exact .next (.inr (.inl ⟨exc, hc⟩)) rfl (c.sameRoute_goto _)
    · exact .pause exc _ hc
    · exact .next (.inr (.inl ⟨exc, hc⟩)) rfl (c.sameRoute_goto _)
    · exact .pause exc _ hc

lemma flow_recordFailure {exc : Exc} (hc : c.pc = .recordFailure exc) (t : Tick) :
    c.Flow cfg e ((c.failed exc).goto (c.noteFailure r exc t).2) := by
  have hsame : ∀ pc, c.SameRoute ((c.failed exc).goto pc) := fun pc => ⟨rfl, rfl, rfl, rfl, rfl, rfl⟩
  unfold noteFailure
  dsimp only
  split
  · split
    · exact .ended (by rw [hc]; rfl) rfl (hsame _)
    · exact .note exc hc rfl (hsame _)
  · exact .note exc hc rfl (hsame _)

/-- Every step of a call follows one of the rules. -/
theorem flow_of_step (h : c.step cfg r g e = some (r', g', c')) : c.Flow cfg e c' := by
  cases step_cases h with
  | grant t hc | enter t hc => exact .fresh (by rw [hc]; rfl) (.inl rfl) rfl
  | countRequest t hc => exact .fresh (by rw [hc]; rfl) (.inr rfl) rfl
  | route t hc => exact flow_route hc t.now
  | askRoute t now hc => exact flow_askRoute hc
  | countFallback t hc | unlockedFallback hc => exact .ready hc
  | dispatch t hc => exact flow_dispatch hc t
  | account t counts d hc => exact .check counts d hc
  | recordFailure t exc hc => exact flow_recordFailure hc t
  | afterFailure t exc hc => exact flow_afterFailure hc
  | backoff t exc hc => exact flow_backoff hc t
  | retry t hc =>
    split
    · exact .next (.inr (.inr (.inl hc))) rfl (c.sameRoute_goto _)
    · exact .recheck hc
  | again t hc => exact .redispatch hc
  | giveUp t hc => exact .next (.inr (.inr (.inr hc))) rfl ⟨rfl, rfl, rfl, rfl, rfl, rfl⟩
  | cleanup t next hc =>
    cases next with
    | nextModel => exact .advance hc
    | leave e => exact .ended (by rw [hc]; rfl) rfl (c.sameRoute_goto _)
  | unlockedSuccess d hc => exact .lose d hc
  | unlockedFailure exc hc => exact .note exc hc rfl ⟨rfl, rfl, rfl, rfl, rfl, rfl⟩
  | reply timeout reply hc => exact .reply timeout reply hc
  | woke delay hc => exact .wake delay hc
  | recordBudget t hc | unlockedBudget hc =>
    exact .ended (by rw [hc]; rfl) rfl ⟨rfl, rfl, rfl, rfl, rfl, rfl⟩
  | refuse t hc | reject t hc | recordSuccess t d hc | recordAllFailed t hc | settle t e hc
  | release t e hc | unlockedCount hc | unlockedAsk now hc | unlockedCheck hc | unlockedAllFailed hc
  | interrupted delay hc => exact .ended (by rw [hc]; rfl) rfl (c.sameRoute_goto _)

end Call

/-! ### The log -/

/-- A call of the transport. -/
structure TransportCall where
  index : ℕ
  model : String
  /-- The route was admitted as a half-open probe. -/
  probe : Bool
  budget : Budget
  /-- The clock reading of the deadline check before it. -/
  now : ℚ
  outcome : Option Reply := none
  /-- The lock was not acquired to record its success. -/
  lost : Bool := false

namespace TransportCall

/-- What the checks on its response come to. -/
def verdict (a : TransportCall) : Option Verdict :=
  match a.outcome with
  | some (.data d) => (usageCounts d).map fun counts => checkResponse d counts a.budget
  | some .budgetExhausted => some .budgetExhausted
  | _ => none

/-- A budget-exhausted completion, or a valid one whose success is recorded. -/
def EndsCall (a : TransportCall) : Prop :=
  a.verdict = some .budgetExhausted ∨ (a.verdict = some .ok ∧ a.lost = false)

/-- An exception after which its route is not tried again. -/
def EndsRoute (cfg : Config) (a : TransportCall) : Prop :=
  ∃ exc, a.outcome = some (.raised exc) ∧ exc.endsRoute (a.index + 1 < cfg.models.length)

/-- It is the last one on its route. -/
def Last (cfg : Config) (a : TransportCall) : Prop := a.probe = true ∨ a.EndsCall ∨ a.EndsRoute cfg

end TransportCall

structure Log where
  /-- The models whose route has been asked for, in order. -/
  visits : List String := []
  /-- The positions where the call was admitted, and whether as a half-open probe. -/
  admitted : List (ℕ × Bool) := []
  attempts : List TransportCall := []
  /-- The positions where the deadline had passed before the transport call, and the clock. -/
  expired : List (ℕ × ℚ) := []

/-- What a step adds to the log. -/
def Log.note (log : Log) (c : Call) (e : Event) (c' : Call) : Log :=
  match c.pc, e, c'.pc with
  | .route, _, .askRoute _ => { log with visits := log.visits ++ [c'.model] }
  | .askRoute _, _, .countFallback => { log with admitted := log.admitted ++ [(c'.index, c'.isProbe)] }
  | .dispatch, .run t, .transport _ =>
    { log with
      attempts := log.attempts ++ [⟨c.index, c.model, c.isProbe, c.request.budget, t.now, none, false⟩] }
  | .dispatch, .run t, .recordFailure _ => { log with expired := log.expired ++ [(c.index, t.now)] }
  | .transport _, .reply reply, _ =>
    { log with attempts := log.attempts.modifyLast fun a => { a with outcome := some reply } }
  | .recordSuccess _, .lockTimeout, _ =>
    { log with attempts := log.attempts.modifyLast fun a => { a with lost := true } }
  | _, _, _ => log

/-- A call with its router and governor, and the log of what it has done. -/
structure Logged where
  router : ModelRouter
  spend : SpendGovernor
  call : Call
  log : Log := {}

/-- The call goes on, or other calls change what it shares with them. -/
inductive Turn where
  | own (e : Event)
  | others (router : ModelRouter) (spend : SpendGovernor)

def Logged.step (cfg : Config) (s : Logged) : Turn → Option Logged
  | .own e =>
    (s.call.step cfg s.router s.spend e).map fun next =>
      ⟨next.1, next.2.1, next.2.2, s.log.note s.call e next.2.2⟩
  | .others router spend => some { s with router, spend }

namespace Log

variable (cfg : Config) (c : Call) (log : Log)

/-- The number of transport calls at a position of the chain. -/
def countAt (i : ℕ) : ℕ := log.attempts.countP fun a => a.index = i

/-- A transport call was made at a position, or found the deadline passed. -/
def Reached (i : ℕ) : Prop := (∃ a ∈ log.attempts, a.index = i) ∨ ∃ now, (i, now) ∈ log.expired

/-- The route of the call is the last one visited. -/
structure OnRoute : Prop where
  visits : log.visits.length = c.index + 1
  model : cfg.models[c.index]? = some c.model
  probe : ∀ p ∈ log.admitted, p.1 = c.index → p.2 = c.isProbe
  attempt : c.attempt ≤ cfg.maxRetries

/-- All transport calls belong to earlier routes. -/
structure Behind : Prop where
  earlier : ∀ a ∈ log.attempts, a.index < c.index ∧ ¬ a.EndsCall
  admitted : ∀ p ∈ log.admitted, p.1 < c.index

/-- No transport call so far is the last one of this route, and there is room for another. -/
structure Open (room : ℕ) : Prop where
  unended : ∀ a ∈ log.attempts, ¬ a.EndsCall ∧ (a.index = c.index → ¬ a.Last cfg)
  room : log.countAt c.index ≤ room

/-- The last transport call is the one under way. -/
def Flying (P : TransportCall → Prop) : Prop :=
  ∃ earlier a, log.attempts = earlier ++ [a] ∧ a.index = c.index ∧ a.probe = c.isProbe ∧
    a.budget = c.request.budget ∧ a.lost = false ∧ P a ∧
    (∀ b ∈ earlier, ¬ b.EndsCall ∧ (b.index = c.index → ¬ b.Last cfg)) ∧
    log.countAt c.index ≤ c.attempt + 1

/-- A failure is handled: only its own exception, or the probe, can end the route. -/
structure Failing (exc : Exc) : Prop where
  unended : ∀ a ∈ log.attempts, ¬ a.EndsCall ∧
    (a.index = c.index → a.Last cfg → c.isProbe = true ∨
      exc.endsRoute (c.index + 1 < cfg.models.length))
  room : log.countAt c.index ≤ c.attempt + 1
  reached : log.Reached c.index

/-- What the log says at each point of a call. -/
def Situation : Prop :=
  match c.pc with
  | .reserve | .enter | .countRequest => log = {} ∧ c.index = 0
  | .route => log.visits.length = c.index ∧ log.Behind c
  | .askRoute _ => (log.visits.length = c.index + 1 ∧ cfg.models[c.index]? = some c.model) ∧ log.Behind c
  | .countFallback => log.OnRoute cfg c ∧ log.Open cfg c 0 ∧ c.attempt = 0
  | .dispatch => log.OnRoute cfg c ∧ log.Open cfg c c.attempt ∧ (c.attempt = 0 ∨ log.Reached c.index)
  | .transport _ => log.OnRoute cfg c ∧ log.Flying cfg c fun a => a.outcome = none
  | .account counts d => log.OnRoute cfg c ∧ log.Flying cfg c fun a =>
      a.verdict = some (checkResponse d counts a.budget)
  | .recordSuccess _ => log.OnRoute cfg c ∧ log.Flying cfg c fun a => a.verdict = some .ok
  | .recordBudget => log.OnRoute cfg c ∧ log.Flying cfg c fun a => a.verdict = some .budgetExhausted
  | .recordFailure exc | .afterFailure exc => log.OnRoute cfg c ∧ log.Failing cfg c exc
  | .backoff _ | .sleeping _ =>
    log.OnRoute cfg c ∧ log.Open cfg c (c.attempt + 1) ∧ c.attempt < cfg.maxRetries ∧
      log.Reached c.index
  | .retry | .checkRoute => log.OnRoute cfg c ∧ log.Open cfg c c.attempt ∧ log.Reached c.index
  | .cleanup .nextModel => log.OnRoute cfg c ∧ (∀ a ∈ log.attempts, ¬ a.EndsCall) ∧
      log.countAt c.index ≤ cfg.maxRetries + 1 ∧ log.Reached c.index
  | .cleanup (.leave _) | .recordAllFailed | .settle _ | .release _ | .done _ =>
    ∀ p ∈ log.admitted, log.Reached p.1

/-- What the log says at every point of a call. -/
structure Sound : Prop where
  visits : log.visits = cfg.models.take log.visits.length
  order : log.attempts.Pairwise fun a b =>
    a.index ≤ b.index ∧ ¬ a.EndsCall ∧ (a.Last cfg → a.index < b.index)
  place : ∀ a ∈ log.attempts, a.index ≤ c.index ∧ cfg.models[a.index]? = some a.model ∧
    a.now < c.deadline
  bound : ∀ i, log.countAt i ≤ cfg.maxRetries + 1
  admitted : ∀ p ∈ log.admitted, p.1 ≤ c.index ∧ (p.1 < c.index → log.Reached p.1) ∧
    ∀ a ∈ log.attempts, a.index = p.1 → a.probe = p.2
  expired : ∀ p ∈ log.expired, c.deadline ≤ p.2 ∨ cfg.totalTimeout ≤ 0

/-! ### Each rule keeps the log sound -/

section Rules

variable {cfg c log} {c' : Call}

lemma OnRoute.same (h : log.OnRoute cfg c) (hc : c.SameRoute c') : log.OnRoute cfg c' where
  visits := by rw [hc.index, h.visits]
  model := by rw [hc.index, hc.model, h.model]
  probe := by rw [hc.index, hc.isProbe]; exact h.probe
  attempt := by rw [hc.attempt]; exact h.attempt

lemma Open.same {room : ℕ} (h : log.Open cfg c room) (hc : c.SameRoute c') :
    log.Open cfg c' room where
  unended := by rw [hc.index]; exact h.unended
  room := by rw [hc.index]; exact h.room

lemma Failing.same {exc : Exc} (h : log.Failing cfg c exc) (hc : c.SameRoute c') :
    log.Failing cfg c' exc where
  unended := by rw [hc.index, hc.isProbe]; exact h.unended
  room := by rw [hc.index, hc.attempt]; exact h.room
  reached := by rw [hc.index]; exact h.reached

lemma Flying.same {P Q : TransportCall → Prop} (h : log.Flying cfg c P) (hc : c.SameRoute c')
    (hPQ : ∀ a, a.budget = c.request.budget → P a → Q a) : log.Flying cfg c' Q := by
  obtain ⟨earlier, a, hattempts, hindex, hprobe, hbudget, hlost, hP, hearlier, hroom⟩ := h
  refine ⟨earlier, a, hattempts, ?_, ?_, ?_, hlost, hPQ a hbudget hP, ?_, ?_⟩
  · rw [hc.index, hindex]
  · rw [hc.isProbe, hprobe]
  · rw [hc.request, hbudget]
  · rw [hc.index]
    exact hearlier
  · rw [hc.index, hc.attempt]
    exact hroom

lemma Flying.reached {P : TransportCall → Prop} (h : log.Flying cfg c P) : log.Reached c.index := by
  obtain ⟨earlier, a, hattempts, hindex, -⟩ := h
  exact .inl ⟨a, by simp [hattempts], hindex⟩

lemma Sound.same (h : log.Sound cfg c) (hc : c.SameRoute c') : log.Sound cfg c' where
  visits := h.visits
  order := h.order
  place := by rw [hc.index, hc.deadline]; exact h.place
  bound := h.bound
  admitted := by rw [hc.index]; exact h.admitted
  expired := by rw [hc.deadline]; exact h.expired

/-- The next position of the chain. -/
lemma Sound.advance (h : log.Sound cfg c) (hreached : ∀ p ∈ log.admitted, log.Reached p.1)
    (hindex : c'.index = c.index + 1) (hdeadline : c'.deadline = c.deadline) :
    log.Sound cfg c' where
  visits := h.visits
  order := h.order
  place a ha := by
    obtain ⟨hle, hmodel, hnow⟩ := h.place a ha
    exact ⟨by omega, hmodel, hdeadline ▸ hnow⟩
  bound := h.bound
  admitted p hp := by
    obtain ⟨hle, -, hprobe⟩ := h.admitted p hp
    exact ⟨by omega, fun _ => hreached p hp, hprobe⟩
  expired := by rw [hdeadline]; exact h.expired

/-- Where a call may leave, every admitted position has had its transport call. -/
lemma Sound.reached (h : log.Sound cfg c) (hs : log.Situation cfg c) (hready : c.pc ≠ .countFallback)
    (hdispatch : c.pc ≠ .dispatch) : ∀ p ∈ log.admitted, log.Reached p.1 := by
  have hearlier : log.Behind c → ∀ p ∈ log.admitted, log.Reached p.1 := fun hbehind p hp =>
    (h.admitted p hp).2.1 (hbehind.admitted p hp)
  have hcurrent : log.Reached c.index → ∀ p ∈ log.admitted, log.Reached p.1 := by
    intro hreached p hp
    obtain ⟨hle, hlt, -⟩ := h.admitted p hp
    obtain heq | hlt' := Nat.eq_or_lt_of_le hle
    · rw [heq]
      exact hreached
    · exact hlt hlt'
  cases hpc : c.pc with
  | reserve | enter | countRequest =>
    simp only [Situation, hpc] at hs
    simp [hs.1]
  | route | askRoute =>
    simp only [Situation, hpc] at hs
    exact hearlier hs.2
  | countFallback => exact absurd hpc hready
  | dispatch => exact absurd hpc hdispatch
  | transport | account | recordSuccess | recordBudget | recordFailure | afterFailure =>
    simp only [Situation, hpc] at hs
    exact hcurrent hs.2.reached
  | backoff | sleeping =>
    simp only [Situation, hpc] at hs
    exact hcurrent hs.2.2.2
  | retry | checkRoute =>
    simp only [Situation, hpc] at hs
    exact hcurrent hs.2.2
  | cleanup next =>
    cases next with
    | nextModel =>
      simp only [Situation, hpc] at hs
      exact hcurrent hs.2.2.2
    | leave =>
      simp only [Situation, hpc] at hs
      exact hs
  | recordAllFailed | settle | release | done =>
    simp only [Situation, hpc] at hs
    exact hs

/-- The next model of the chain is visited. -/
lemma Sound.visit (h : log.Sound cfg c) (hvisits : log.visits.length = c.index) {model : String}
    (hmodel : cfg.models[c.index]? = some model) :
    ({ log with visits := log.visits ++ [model] } : Log).Sound cfg c where
  visits := by
    have htake := h.visits
    rw [hvisits] at htake
    simp [hvisits, List.take_add_one, hmodel, ← htake]
  order := h.order
  place := h.place
  bound := h.bound
  admitted := h.admitted
  expired := h.expired

/-- The call is admitted to a route on which it has not been. -/
lemma Sound.admit (h : log.Sound cfg c) (hbehind : log.Behind c) (isProbe : Bool) :
    ({ log with admitted := log.admitted ++ [(c.index, isProbe)] } : Log).Sound cfg c where
  visits := h.visits
  order := h.order
  place := h.place
  bound := h.bound
  admitted p hp := by
    obtain hp | rfl := List.mem_append.mp hp |>.imp id List.mem_singleton.mp
    · exact h.admitted p hp
    · exact ⟨le_rfl, fun hlt => absurd hlt (lt_irrefl _),
        fun a ha heq => absurd heq (hbehind.earlier a ha).1.ne⟩
  expired := h.expired

lemma Behind.onRoute_admit (hbehind : log.Behind c) (hvisits : log.visits.length = c.index + 1)
    (hmodel : cfg.models[c.index]? = some c.model) (hindex : c'.index = c.index)
    (hmodel' : c'.model = c.model) (hattempt : c'.attempt = 0) :
    ({ log with admitted := log.admitted ++ [(c.index, c'.isProbe)] } : Log).OnRoute cfg c' where
  visits := by rw [hindex, hvisits]
  model := by rw [hindex, hmodel', hmodel]
  probe p hp heq := by
    obtain hp | rfl := List.mem_append.mp hp |>.imp id List.mem_singleton.mp
    · exact absurd (heq.trans hindex) (hbehind.admitted p hp).ne
    · rfl
  attempt := by rw [hattempt]; exact Nat.zero_le _

/-- A route without transport calls is open. -/
lemma Behind.open (hbehind : log.Behind c) : log.Open cfg c 0 where
  unended a ha := ⟨(hbehind.earlier a ha).2, fun heq => absurd heq (hbehind.earlier a ha).1.ne⟩
  room := by
    rw [Nat.le_zero, countAt, List.countP_eq_zero]
    intro a ha
    simpa using (hbehind.earlier a ha).1.ne

/-- The deadline has passed before a transport call. -/
lemma Sound.expire (h : log.Sound cfg c) {now : ℚ} (hnow : c.deadline ≤ now ∨ cfg.totalTimeout ≤ 0) :
    ({ log with expired := log.expired ++ [(c.index, now)] } : Log).Sound cfg c where
  visits := h.visits
  order := h.order
  place := h.place
  bound := h.bound
  admitted p hp := by
    obtain ⟨hle, hreached, hprobe⟩ := h.admitted p hp
    refine ⟨hle, fun hlt => (hreached hlt).imp_right ?_, hprobe⟩
    rintro ⟨now', hnow'⟩
    exact ⟨now', List.mem_append_left _ hnow'⟩
  expired p hp := by
    obtain hp | rfl := List.mem_append.mp hp |>.imp id List.mem_singleton.mp
    · exact h.expired p hp
    · exact hnow

/-- A failure that is not the outcome of a transport call. -/
lemma Open.failing_expire (hopen : log.Open cfg c c.attempt) (now : ℚ) (exc : Exc) :
    ({ log with expired := log.expired ++ [(c.index, now)] } : Log).Failing cfg c exc where
  unended a ha := by
    obtain ⟨hend, hlast⟩ := hopen.unended a ha
    exact ⟨hend, fun hindex hlast' => absurd hlast' (hlast hindex)⟩
  room := hopen.room.trans (Nat.le_succ _)
  reached := .inr ⟨now, List.mem_append_right _ (List.mem_singleton_self _)⟩

/-- A transport call goes out. -/
lemma Sound.call (h : log.Sound cfg c) (hroute : log.OnRoute cfg c) (hopen : log.Open cfg c c.attempt)
    {a : TransportCall} (hindex : a.index = c.index) (hmodel : a.model = c.model)
    (hprobe : a.probe = c.isProbe) (hnow : a.now < c.deadline) :
    ({ log with attempts := log.attempts ++ [a] } : Log).Sound cfg c where
  visits := h.visits
  order := by
    rw [List.pairwise_append]
    refine ⟨h.order, List.pairwise_singleton _ _, ?_⟩
    intro b hb a' ha'
    rw [List.mem_singleton.mp ha', hindex]
    obtain ⟨hend, hlast⟩ := hopen.unended b hb
    obtain ⟨hle, -⟩ := h.place b hb
    refine ⟨hle, hend, fun hbLast => ?_⟩
    exact lt_of_le_of_ne hle fun heq => hlast heq hbLast
  place b hb := by
    obtain hb | rfl := List.mem_append.mp hb |>.imp id List.mem_singleton.mp
    · exact h.place b hb
    · exact ⟨hindex.le, by rw [hindex, hmodel]; exact hroute.model, hnow⟩
  bound i := by
    rw [countAt, List.countP_append, ← countAt, List.countP_singleton]
    by_cases hi : a.index = i
    · have hroom := hopen.room
      have hattempt := hroute.attempt
      rw [← hindex, hi] at hroom
      simp only [hi, decide_true, if_true]
      omega
    · simpa [hi] using h.bound i
  admitted p hp := by
    obtain ⟨hle, hreached, hprobes⟩ := h.admitted p hp
    refine ⟨hle, fun hlt => (hreached hlt).imp_left ?_, ?_⟩
    · rintro ⟨b, hb, hbi⟩
      exact ⟨b, List.mem_append_left _ hb, hbi⟩
    · intro b hb hbi
      obtain hb | rfl := List.mem_append.mp hb |>.imp id List.mem_singleton.mp
      · exact hprobes b hb hbi
      · rw [hprobe]
        exact (hroute.probe p hp (hbi.symm.trans hindex)).symm
  expired := h.expired

lemma Open.flying_call (hopen : log.Open cfg c c.attempt) {a : TransportCall} (hindex : a.index = c.index)
    (hprobe : a.probe = c.isProbe) (hbudget : a.budget = c.request.budget) (hlost : a.lost = false)
    {P : TransportCall → Prop} (hP : P a) :
    ({ log with attempts := log.attempts ++ [a] } : Log).Flying cfg c P := by
  refine ⟨log.attempts, a, rfl, hindex, hprobe, hbudget, hlost, hP, hopen.unended, ?_⟩
  have hroom := hopen.room
  rw [countAt, List.countP_append, ← countAt, List.countP_singleton]
  simpa [hindex] using hroom

/-- A transport call that is known better. -/
structure Refines (a a' : TransportCall) : Prop where
  index : a'.index = a.index
  model : a'.model = a.model
  probe : a'.probe = a.probe
  budget : a'.budget = a.budget
  now : a'.now = a.now

section Refine

variable {earlier : List TransportCall} {a a' : TransportCall}

lemma countAt_refine (hattempts : log.attempts = earlier ++ [a]) (ha : Refines a a') (i : ℕ) :
    ({ log with attempts := earlier ++ [a'] } : Log).countAt i = log.countAt i := by
  rw [countAt, countAt, hattempts, List.countP_append, List.countP_append, List.countP_singleton,
    List.countP_singleton, ha.index]

lemma Sound.refine (h : log.Sound cfg c) (hattempts : log.attempts = earlier ++ [a])
    (ha : Refines a a') : ({ log with attempts := earlier ++ [a'] } : Log).Sound cfg c where
  visits := h.visits
  order := by
    have horder := h.order
    rw [hattempts, List.pairwise_append] at horder
    rw [List.pairwise_append]
    refine ⟨horder.1, List.pairwise_singleton _ _, ?_⟩
    intro b hb d hd
    rw [List.mem_singleton.mp hd, ha.index]
    exact horder.2.2 b hb a (by simp)
  place b hb := by
    obtain hb | rfl := List.mem_append.mp hb |>.imp id List.mem_singleton.mp
    · exact h.place b (by simp [hattempts, hb])
    · rw [ha.index, ha.model, ha.now]
      exact h.place a (by simp [hattempts])
  bound i := by
    rw [countAt_refine hattempts ha]
    exact h.bound i
  admitted p hp := by
    obtain ⟨hle, hreached, hprobes⟩ := h.admitted p hp
    refine ⟨hle, fun hlt => (hreached hlt).imp_left ?_, ?_⟩
    · rintro ⟨b, hb, hbi⟩
      rw [hattempts] at hb
      obtain hb | rfl := List.mem_append.mp hb |>.imp id List.mem_singleton.mp
      · exact ⟨b, List.mem_append_left _ hb, hbi⟩
      · exact ⟨a', by simp, ha.index.trans hbi⟩
    · intro b hb hbi
      obtain hb | rfl := List.mem_append.mp hb |>.imp id List.mem_singleton.mp
      · exact hprobes b (by simp [hattempts, hb]) hbi
      · rw [ha.probe]
        exact hprobes a (by simp [hattempts]) (ha.index.symm.trans hbi)
  expired := h.expired

lemma OnRoute.refine (h : log.OnRoute cfg c) :
    ({ log with attempts := earlier ++ [a'] } : Log).OnRoute cfg c :=
  ⟨h.visits, h.model, h.probe, h.attempt⟩

/-- The transport call under way, with the calls before it. -/
structure Current (cfg : Config) (c : Call) (log : Log) (earlier : List TransportCall) (a : TransportCall) :
    Prop where
  attempts : log.attempts = earlier ++ [a]
  index : a.index = c.index
  probe : a.probe = c.isProbe
  budget : a.budget = c.request.budget
  earlier : ∀ b ∈ earlier, ¬ b.EndsCall ∧ (b.index = c.index → ¬ b.Last cfg)
  room : log.countAt c.index ≤ c.attempt + 1

lemma Flying.current {P : TransportCall → Prop} (h : log.Flying cfg c P) :
    ∃ earlier a, log.Current cfg c earlier a ∧ a.lost = false ∧ P a := by
  obtain ⟨earlier, a, hattempts, hindex, hprobe, hbudget, hlost, hP, hearlier, hroom⟩ := h
  exact ⟨earlier, a, ⟨hattempts, hindex, hprobe, hbudget, hearlier, hroom⟩, hlost, hP⟩

lemma Current.refine (h : log.Current cfg c earlier a) (ha : Refines a a') :
    ({ log with attempts := earlier ++ [a'] } : Log).Current cfg c earlier a' where
  attempts := rfl
  index := ha.index.trans h.index
  probe := ha.probe.trans h.probe
  budget := ha.budget.trans h.budget
  earlier := h.earlier
  room := by rw [countAt_refine h.attempts ha]; exact h.room

lemma Current.flying {P : TransportCall → Prop} (h : log.Current cfg c earlier a) (hlost : a.lost = false)
    (hP : P a) : log.Flying cfg c P :=
  ⟨earlier, a, h.attempts, h.index, h.probe, h.budget, hlost, hP, h.earlier, h.room⟩

/-- A transport call has failed. -/
lemma Current.failing (h : log.Current cfg c earlier a) {exc : Exc} (hcall : ¬ a.EndsCall)
    (hroute : a.EndsRoute cfg → exc.endsRoute (c.index + 1 < cfg.models.length)) :
    log.Failing cfg c exc where
  unended b hb := by
    rw [h.attempts] at hb
    obtain hb | rfl := List.mem_append.mp hb |>.imp id List.mem_singleton.mp
    · exact ⟨(h.earlier b hb).1, fun hindex hlast => absurd hlast ((h.earlier b hb).2 hindex)⟩
    · refine ⟨hcall, fun _ hlast => ?_⟩
      rcases hlast with hprobe | hend | hend
      · exact .inl (h.probe ▸ hprobe)
      · exact absurd hend hcall
      · exact .inr (hroute hend)
  room := h.room
  reached := .inl ⟨a, by simp [h.attempts], h.index⟩

end Refine

/-- A response that ends nothing. -/
lemma not_endsCall {a : TransportCall} (hexhausted : a.verdict ≠ some .budgetExhausted)
    (hok : a.verdict = some .ok → a.lost = true) : ¬ a.EndsCall := by
  rintro (h | ⟨h, hlost⟩)
  · exact hexhausted h
  · simp [hok h] at hlost

lemma not_endsRoute {a : TransportCall} (h : ∀ exc, a.outcome ≠ some (.raised exc)) :
    ¬ a.EndsRoute cfg := by
  rintro ⟨exc, hexc, -⟩
  exact h exc hexc

lemma situation_receive (hroute : log.OnRoute cfg c) {earlier : List TransportCall} {a : TransportCall}
    {reply : Reply} (ha : log.Current cfg c earlier a) (hlost : a.lost = false)
    (houtcome : a.outcome = some reply) (hreached : ∀ p ∈ log.admitted, log.Reached p.1) :
    log.Situation cfg (c.receive reply) := by
  cases reply with
  | interrupted => exact hreached
  | raised exc =>
    refine ⟨hroute.same (c.sameRoute_goto _), ?_⟩
    refine (ha.failing (not_endsCall ?_ ?_) ?_).same (c.sameRoute_goto _)
    · simp [TransportCall.verdict, houtcome]
    · simp [TransportCall.verdict, houtcome]
    · rintro ⟨exc', hexc', hends⟩
      rw [houtcome] at hexc'
      cases hexc'
      rwa [ha.index] at hends
  | budgetExhausted =>
    refine ⟨hroute.same (c.sameRoute_goto _), ?_⟩
    exact (ha.flying hlost (by simp [TransportCall.verdict, houtcome])).same (c.sameRoute_goto _)
      fun _ _ => id
  | data d =>
    simp only [Call.receive]
    cases hcounts : usageCounts d with
    | none =>
      refine ⟨hroute.same (c.sameRoute_goto _), ?_⟩
      refine (ha.failing (not_endsCall ?_ ?_) fun h => absurd h (not_endsRoute ?_)).same
        (c.sameRoute_goto _)
      · simp [TransportCall.verdict, houtcome, hcounts]
      · simp [TransportCall.verdict, houtcome, hcounts]
      · simp [houtcome]
    | some counts =>
      have hsame : c.SameRoute { c with spent := c.spent + counts.totalTokens, pc := .account counts d } :=
        ⟨rfl, rfl, rfl, rfl, rfl, rfl⟩
      refine ⟨hroute.same hsame, ?_⟩
      exact (ha.flying hlost (by simp [TransportCall.verdict, houtcome, hcounts])).same hsame fun _ _ => id

lemma not_raised_of_verdict {a : TransportCall} {v : Verdict} (h : a.verdict = some v) (exc : Exc) :
    a.outcome ≠ some (.raised exc) := by
  intro houtcome
  simp [TransportCall.verdict, houtcome] at h

lemma situation_checked {counts : Counts} {d : Json} (hroute : log.OnRoute cfg c)
    (hfly : log.Flying cfg c fun a => a.verdict = some (checkResponse d counts a.budget)) :
    log.Situation cfg (c.goto (c.checkedPc counts d)) := by
  have hsame := fun pc => c.sameRoute_goto pc
  unfold Call.checkedPc
  cases hverdict : checkResponse d counts c.request.budget with
  | ok =>
    refine ⟨hroute.same (hsame _), hfly.same (hsame _) fun a hbudget ha => ?_⟩
    rw [ha, hbudget, hverdict]
  | budgetExhausted =>
    refine ⟨hroute.same (hsame _), hfly.same (hsame _) fun a hbudget ha => ?_⟩
    rw [ha, hbudget, hverdict]
  | malformed =>
    obtain ⟨earlier, a, ha, hlost, hP⟩ := hfly.current
    have hmalformed : a.verdict = some .malformed := by rw [hP, ha.budget, hverdict]
    refine ⟨hroute.same (hsame _), (ha.failing (not_endsCall ?_ ?_) ?_).same (hsame _)⟩
    · simp [hmalformed]
    · simp [hmalformed]
    · exact fun h => absurd h (not_endsRoute (not_raised_of_verdict hmalformed))

lemma reached_refine {earlier : List TransportCall} {a a' : TransportCall}
    (hattempts : log.attempts = earlier ++ [a])
    (ha : Refines a a') {i : ℕ} (h : log.Reached i) :
    ({ log with attempts := earlier ++ [a'] } : Log).Reached i := by
  refine h.imp_left ?_
  rintro ⟨b, hb, hbi⟩
  rw [hattempts] at hb
  obtain hb | rfl := List.mem_append.mp hb |>.imp id List.mem_singleton.mp
  · exact ⟨b, List.mem_append_left _ hb, hbi⟩
  · exact ⟨a', by simp, ha.index.trans hbi⟩

lemma situation_of_isFresh (hc : c.pc.isFresh = true) :
    log.Situation cfg c ↔ log = {} ∧ c.index = 0 := by
  unfold Situation
  cases hpc : c.pc <;> simp_all [Pc.isFresh]

lemma situation_of_isOver (hc : c.pc.isOver = true) :
    log.Situation cfg c ↔ ∀ p ∈ log.admitted, log.Reached p.1 := by
  unfold Situation
  cases hpc : c.pc with
  | cleanup next => cases next <;> simp_all [Pc.isOver]
  | _ => simp_all [Pc.isOver]

lemma note_of_isFresh (hc : c.pc.isFresh = true) (e : Event) : log.note c e c' = log := by
  unfold note
  split <;> simp_all [Pc.isFresh]

lemma note_of_mayLeave {e : Event} (hc : c.pc.mayLeave e = true) (hc' : c'.pc.isOver = true) :
    log.note c e c' = log := by
  unfold note
  split <;> simp_all [Pc.mayLeave, Pc.isOver]

lemma sound_empty (cfg : Config) (c : Call) : ({} : Log).Sound cfg c :=
  ⟨rfl, List.Pairwise.nil, by simp, by simp [countAt], by simp, by simp⟩

/-- A route is given up. -/
lemma situation_next {e : Event} (hs : log.Situation cfg c)
    (hc : (∃ exc, c.pc = .afterFailure exc) ∨ (∃ exc, c.pc = .backoff exc) ∨ c.pc = .retry ∨
      c.pc = .checkRoute) :
    log.note c e c' = log ∧ log.OnRoute cfg c ∧ (∀ a ∈ log.attempts, ¬ a.EndsCall) ∧
      log.countAt c.index ≤ cfg.maxRetries + 1 ∧ log.Reached c.index := by
  rcases hc with ⟨exc, hc⟩ | ⟨exc, hc⟩ | hc | hc
  · simp only [Situation, hc] at hs
    have hattempt := hs.1.attempt
    have hroom := hs.2.room
    exact ⟨by simp [note, hc], hs.1, fun a ha => (hs.2.unended a ha).1, by omega, hs.2.reached⟩
  · simp only [Situation, hc] at hs
    have hroom := hs.2.1.room
    exact ⟨by simp [note, hc], hs.1, fun a ha => (hs.2.1.unended a ha).1, by omega, hs.2.2.2⟩
  · simp only [Situation, hc] at hs
    have hattempt := hs.1.attempt
    have hroom := hs.2.1.room
    exact ⟨by simp [note, hc], hs.1, fun a ha => (hs.2.1.unended a ha).1, by omega, hs.2.2⟩
  · simp only [Situation, hc] at hs
    have hattempt := hs.1.attempt
    have hroom := hs.2.1.room
    exact ⟨by simp [note, hc], hs.1, fun a ha => (hs.2.1.unended a ha).1, by omega, hs.2.2⟩

/-- Every rule keeps the log sound. -/
theorem keep {e : Event} (h : log.Sound cfg c) (hs : log.Situation cfg c) (hf : c.Flow cfg e c') :
    (log.note c e c').Sound cfg c' ∧ (log.note c e c').Situation cfg c' := by
  cases hf with
  | fresh hc hc' hindex =>
    rw [note_of_isFresh hc]
    obtain ⟨rfl, hzero⟩ := (situation_of_isFresh hc).mp hs
    refine ⟨sound_empty cfg c', ?_⟩
    obtain hc' | hc' := hc'
    · exact (situation_of_isFresh hc').mpr ⟨rfl, hindex.trans hzero⟩
    · simp only [Situation, hc']
      exact ⟨(hindex.trans hzero).symm, by simp, by simp⟩
  | ended hleave hover hsame =>
    rw [note_of_mayLeave hleave hover, situation_of_isOver hover]
    refine ⟨h.same hsame, h.reached hs ?_ ?_⟩
    · rintro hc
      simp [hc, Pc.mayLeave] at hleave
    · rintro hc
      simp [hc, Pc.mayLeave] at hleave
  | ask model now hc hmodel =>
    simp only [Situation, hc] at hs
    simp only [note, hc]
    have hsound := h.visit hs.1 hmodel
    refine ⟨⟨hsound.visits, hsound.order, hsound.place, hsound.bound, hsound.admitted, hsound.expired⟩,
      ⟨?_, hmodel⟩, hs.2.earlier, hs.2.admitted⟩
    rw [List.length_append, List.length_singleton, hs.1]
  | skip now hc hc' hindex hdeadline =>
    have hreached := h.reached hs (by simp [hc]) (by simp [hc])
    simp only [Situation, hc] at hs
    simp only [note, hc, hc', Situation]
    refine ⟨h.advance hreached hindex hdeadline, hs.1.1.trans hindex.symm, ?_, ?_⟩
    · intro a ha
      exact ⟨hindex ▸ (hs.2.earlier a ha).1.trans (Nat.lt_succ_self _), (hs.2.earlier a ha).2⟩
    · intro p hp
      exact hindex ▸ (hs.2.admitted p hp).trans (Nat.lt_succ_self _)
  | admitted now isProbe generation hc =>
    simp only [Situation, hc] at hs
    simp only [note, hc]
    obtain ⟨⟨hvisits, hmodel⟩, hbehind⟩ := hs
    have hsound := h.admit hbehind isProbe
    have hopen : log.Open cfg c 0 := hbehind.open
    exact ⟨⟨hsound.visits, hsound.order, hsound.place, hsound.bound, hsound.admitted, hsound.expired⟩,
      hbehind.onRoute_admit hvisits hmodel rfl rfl rfl, ⟨hopen.unended, hopen.room⟩, rfl⟩
  | ready hc =>
    simp only [Situation, hc] at hs
    simp only [note, hc]
    obtain ⟨hroute, hopen, hzero⟩ := hs
    refine ⟨h.same (c.sameRoute_goto _), hroute.same (c.sameRoute_goto _), ?_, .inl hzero⟩
    refine Open.same (c := c) ⟨hopen.unended, ?_⟩ (c.sameRoute_goto _)
    exact hopen.room.trans (Nat.zero_le _)
  | call t timeout hc hnow =>
    have hnote : log.note c (.run t) (c.goto (.transport timeout)) = { log with
        attempts := log.attempts ++
          [⟨c.index, c.model, c.isProbe, c.request.budget, t.now, none, false⟩] } := by
      simp [note, hc, Call.goto]
    simp only [Situation, hc] at hs
    rw [hnote]
    obtain ⟨hroute, hopen, -⟩ := hs
    have hsame := c.sameRoute_goto (.transport timeout)
    refine ⟨(h.call hroute hopen rfl rfl rfl hnow).same hsame, ?_, ?_⟩
    · exact OnRoute.same (c := c) ⟨hroute.visits, hroute.model, hroute.probe, hroute.attempt⟩ hsame
    · have hflying := hopen.flying_call (P := fun a => a.outcome = none)
        (a := ⟨c.index, c.model, c.isProbe, c.request.budget, t.now, none, false⟩) rfl rfl rfl rfl rfl
      exact hflying.same hsame fun _ _ => id
  | expire t hc hexpired =>
    have hnote : log.note c (.run t) (c.goto (.recordFailure .routerError)) =
        { log with expired := log.expired ++ [(c.index, t.now)] } := by
      simp [note, hc, Call.goto]
    simp only [Situation, hc] at hs
    rw [hnote]
    obtain ⟨hroute, hopen, -⟩ := hs
    have hsame := c.sameRoute_goto (.recordFailure .routerError)
    refine ⟨(h.expire hexpired).same hsame, ?_, (hopen.failing_expire t.now _).same hsame⟩
    exact OnRoute.same (c := c) ⟨hroute.visits, hroute.model, hroute.probe, hroute.attempt⟩ hsame
  | reply timeout reply hc =>
    have hreached := h.reached hs (by simp [hc]) (by simp [hc])
    simp only [Situation, hc] at hs
    simp only [note, hc]
    obtain ⟨hroute, hfly⟩ := hs
    obtain ⟨earlier, a, ha, hlost, -⟩ := hfly.current
    have hrefines : Refines a { a with outcome := some reply } := ⟨rfl, rfl, rfl, rfl, rfl⟩
    rw [ha.attempts, List.modifyLast_concat]
    refine ⟨(h.refine ha.attempts hrefines).same (c.sameRoute_receive reply), ?_⟩
    refine situation_receive hroute.refine (ha.refine hrefines) hlost rfl ?_
    exact fun p hp => reached_refine ha.attempts hrefines (hreached p hp)
  | check counts d hc =>
    simp only [Situation, hc] at hs
    have hnote : ∀ pc, log.note c e (c.goto pc) = log := by simp [note, hc]
    rw [hnote]
    exact ⟨h.same (c.sameRoute_goto _), situation_checked hs.1 hs.2⟩
  | lose d hc =>
    simp only [Situation, hc] at hs
    simp only [note, hc]
    obtain ⟨hroute, hfly⟩ := hs
    obtain ⟨earlier, a, ha, -, hok⟩ := hfly.current
    have hrefines : Refines a { a with lost := true } := ⟨rfl, rfl, rfl, rfl, rfl⟩
    have hverdict : ({ a with lost := true } : TransportCall).verdict = some .ok := hok
    have hsame := c.sameRoute_goto (.recordFailure .routerError)
    rw [ha.attempts, List.modifyLast_concat]
    refine ⟨(h.refine ha.attempts hrefines).same hsame, hroute.refine.same hsame, ?_⟩
    refine ((ha.refine hrefines).failing (not_endsCall ?_ fun _ => rfl) ?_).same hsame
    · simp [hverdict]
    · exact fun h => absurd h (not_endsRoute (not_raised_of_verdict hverdict))
  | note exc hc hc' hsame =>
    simp only [Situation, hc] at hs
    simp only [Log.note, hc, Situation, hc']
    exact ⟨h.same hsame, hs.1.same hsame, hs.2.same hsame⟩
  | again exc hc hprobe hends hattempt =>
    simp only [Situation, hc] at hs
    simp only [Log.note, hc]
    obtain ⟨hroute, hfailing⟩ := hs
    have hsame := c.sameRoute_goto (.backoff exc)
    refine ⟨h.same hsame, hroute.same hsame, Open.same (c := c) ⟨?_, hfailing.room⟩ hsame, hattempt,
      hfailing.reached⟩
    intro a ha
    refine ⟨(hfailing.unended a ha).1, fun hindex hlast => ?_⟩
    obtain hprobe' | hends' := (hfailing.unended a ha).2 hindex hlast
    · simp [hprobe] at hprobe'
    · exact hends hends'
  | pause exc delay hc =>
    simp only [Situation, hc] at hs
    simp only [Log.note, hc]
    have hsame := c.sameRoute_goto (.sleeping delay)
    exact ⟨h.same hsame, hs.1.same hsame, hs.2.1.same hsame, hs.2.2⟩
  | wake delay hc =>
    simp only [Situation, hc] at hs
    simp only [Log.note, hc]
    obtain ⟨hroute, hopen, hattempt, hreached⟩ := hs
    refine ⟨⟨h.visits, h.order, h.place, h.bound, h.admitted, h.expired⟩, ?_, ?_, hreached⟩
    · exact ⟨hroute.visits, hroute.model, hroute.probe, hattempt⟩
    · exact ⟨hopen.unended, hopen.room⟩
  | recheck hc =>
    simp only [Situation, hc] at hs
    simp only [Log.note, hc]
    have hsame := c.sameRoute_goto .checkRoute
    exact ⟨h.same hsame, hs.1.same hsame, hs.2.1.same hsame, hs.2.2⟩
  | redispatch hc =>
    simp only [Situation, hc] at hs
    simp only [Log.note, hc]
    have hsame := c.sameRoute_goto .dispatch
    exact ⟨h.same hsame, hs.1.same hsame, hs.2.1.same hsame, .inr hs.2.2⟩
  | next hc hc' hsame =>
    obtain ⟨hnote, hroute, hend, hroom, hreached⟩ : log.note c e c' = log ∧ _ := situation_next hs hc
    rw [hnote]
    simp only [Situation, hc']
    rw [hsame.index]
    exact ⟨h.same hsame, hroute.same hsame, hend, hroom, hreached⟩
  | advance hc =>
    have hreached := h.reached hs (by simp [hc]) (by simp [hc])
    simp only [Situation, hc] at hs
    simp only [Log.note, hc, Situation]
    refine ⟨h.advance hreached rfl rfl, hs.1.visits, ?_, ?_⟩
    · intro a ha
      exact ⟨Nat.lt_succ_of_le (h.place a ha).1, hs.2.1 a ha⟩
    · intro p hp
      exact Nat.lt_succ_of_le (h.admitted p hp).1

end Rules

/-! ### Counting -/

/-- At most `n` entries for each of the first `k` numbers are at most `k * n` entries. -/
lemma length_le_of_countP_le {α : Type*} (f : α → ℕ) {xs : List α} {k n : ℕ}
    (hlt : ∀ x ∈ xs, f x < k) (hcount : ∀ i, xs.countP (fun x => f x = i) ≤ n) :
    xs.length ≤ k * n := by
  induction k generalizing xs with
  | zero =>
    obtain rfl : xs = [] := List.eq_nil_iff_forall_not_mem.mpr fun x hx => Nat.not_lt_zero _ (hlt x hx)
    simp
  | succ k ih =>
    have hsplit := List.length_eq_length_filter_add (l := xs) fun x => decide (f x = k)
    have hrest : (xs.filter fun x => !decide (f x = k)).length ≤ k * n := by
      apply ih
      · intro x hx
        obtain ⟨hmem, hne⟩ := List.mem_filter.mp hx
        have hle := hlt x hmem
        have hne : f x ≠ k := by simpa using hne
        omega
      · intro i
        rw [List.countP_filter]
        refine (List.countP_mono_left ?_).trans (hcount i)
        simp only [Bool.and_eq_true]
        exact fun x _ hx => hx.1
    have hlast := hcount k
    rw [List.countP_eq_length_filter] at hlast
    rw [Nat.succ_mul]
    omega

section Counts

variable {cfg c log}

/-- The last transport call of a route is its only one when it is the first. -/
lemma Sound.countAt_eq_one (h : log.Sound cfg c) {earlier later : List TransportCall} {a : TransportCall}
    (hattempts : log.attempts = earlier ++ a :: later) (hearlier : ∀ b ∈ earlier, b.index ≠ a.index)
    (hlast : a.Last cfg) : log.countAt a.index = 1 := by
  have horder := h.order
  rw [hattempts, List.pairwise_append, List.pairwise_cons] at horder
  have hlater : ∀ b ∈ later, b.index ≠ a.index := fun b hb =>
    ((horder.2.1.1 b hb).2.2 hlast).ne'
  have hzero : ∀ xs : List TransportCall, (∀ b ∈ xs, b.index ≠ a.index) →
      xs.countP (fun b => decide (b.index = a.index)) = 0 := by
    intro xs hxs
    rw [List.countP_eq_zero]
    simpa using hxs
  rw [countAt, hattempts, List.countP_append, List.countP_cons, hzero earlier hearlier,
    hzero later hlater]
  simp

/-- A probe makes at most one transport call. -/
lemma Sound.countAt_probe (h : log.Sound cfg c) {i : ℕ} (hi : (i, true) ∈ log.admitted) :
    log.countAt i = 0 ∨ log.countAt i = 1 := by
  by_cases hnone : ∃ a ∈ log.attempts, a.index = i
  · obtain ⟨a, ha, rfl⟩ := hnone
    obtain ⟨earlier, later, hattempts⟩ := List.append_of_mem ha
    have hprobe : ∀ b ∈ log.attempts, b.index = a.index → b.Last cfg := fun b hb hbi =>
      .inl ((h.admitted _ hi).2.2 b hb hbi)
    refine .inr (h.countAt_eq_one hattempts ?_ (hprobe a ha rfl))
    intro b hb heq
    have horder := h.order
    rw [hattempts, List.pairwise_append] at horder
    have hlt := (horder.2.2 b hb a (by simp)).2.2 (hprobe b (by simp [hattempts, hb]) heq)
    omega
  · left
    rw [countAt, List.countP_eq_zero]
    intro a ha
    simpa using fun heq => hnone ⟨a, ha, heq⟩

end Counts

end Log

/-- What the transport calls of one completion respect. -/
structure Logged.Respects (cfg : Config) (s : Logged) : Prop where
  /-- The models are visited in the order of the chain. -/
  visits : s.log.visits = cfg.models.take s.log.visits.length
  chain : ∀ a ∈ s.log.attempts, cfg.models[a.index]? = some a.model
  order : s.log.attempts.Pairwise fun a b => a.index ≤ b.index
  bound : ∀ i, s.log.countAt i ≤ cfg.maxRetries + 1
  /-- A first outcome that ends the route leaves it at one call. -/
  once : ∀ earlier a later, s.log.attempts = earlier ++ a :: later →
    (∀ b ∈ earlier, b.index ≠ a.index) → a.EndsRoute cfg → s.log.countAt a.index = 1
  /-- A probe makes one call, unless the deadline has passed before it. -/
  probe : ∀ exit, s.call.pc = .done exit → ∀ i, (i, true) ∈ s.log.admitted →
    s.log.countAt i = 1 ∨ (s.log.countAt i = 0 ∧
      ∃ now, (i, now) ∈ s.log.expired ∧ (s.call.deadline ≤ now ∨ cfg.totalTimeout ≤ 0))
  deadline : ∀ a ∈ s.log.attempts, a.now < s.call.deadline
  /-- Nothing follows a budget-exhausted completion, or a valid one that is recorded. -/
  final : ∀ earlier a later, s.log.attempts = earlier ++ a :: later → a.EndsCall → later = []
  total : s.log.attempts.length ≤ cfg.models.length * (cfg.maxRetries + 1)

namespace Logged

variable {cfg : Config} {s s' : Logged}

lemma respects_of_sound (h : s.log.Sound cfg s.call) (hs : s.log.Situation cfg s.call) :
    s.Respects cfg where
  visits := h.visits
  chain a ha := (h.place a ha).2.1
  order := h.order.imp fun hab => hab.1
  bound := h.bound
  once earlier a later hattempts hearlier hends :=
    h.countAt_eq_one hattempts hearlier (.inr (.inr hends))
  probe := by
    intro exit hexit i hi
    have hreached := h.reached hs (by simp [hexit]) (by simp [hexit]) _ hi
    obtain hzero | hone := h.countAt_probe hi
    · right
      refine ⟨hzero, ?_⟩
      obtain ⟨a, ha, hai⟩ | ⟨now, hnow⟩ := hreached
      · rw [Log.countAt, List.countP_eq_zero] at hzero
        exact absurd hai (by simpa using hzero a ha)
      · exact ⟨now, hnow, h.expired _ hnow⟩
    · exact .inl hone
  deadline a ha := (h.place a ha).2.2
  final := by
    intro earlier a later hattempts hends
    have horder := h.order
    rw [hattempts, List.pairwise_append, List.pairwise_cons] at horder
    refine List.eq_nil_iff_forall_not_mem.mpr fun b hb => ?_
    exact (horder.2.1.1 b hb).2.1 hends
  total := by
    refine Log.length_le_of_countP_le TransportCall.index ?_ h.bound
    intro a ha
    exact (List.getElem?_eq_some_iff.mp (h.place a ha).2.1).1

lemma keep_step {turn : Turn} (h : s.log.Sound cfg s.call ∧ s.log.Situation cfg s.call)
    (hstep : s.step cfg turn = some s') :
    s'.log.Sound cfg s'.call ∧ s'.log.Situation cfg s'.call := by
  cases turn with
  | own e =>
    obtain ⟨⟨r, g, c⟩, hnext, rfl⟩ := Option.map_eq_some_iff.mp hstep
    exact Log.keep h.1 h.2 (Call.flow_of_step hnext)
  | others router spend =>
    cases hstep
    exact h

/-- On every chain, from every state of the router, and whatever other calls do meanwhile, a
completion respects the bounds on its transport calls. -/
theorem respects_run {router : ModelRouter} {spend : SpendGovernor} {request : Request}
    {turns : List Turn}
    (h : Transition.run (step cfg) ⟨router, spend, { request }, {}⟩ turns = some s) :
    s.Respects cfg := by
  have hinit : ({} : Log).Sound cfg { request } ∧ ({} : Log).Situation cfg { request } :=
    ⟨Log.sound_empty cfg _, rfl, rfl⟩
  have hs := Transition.run_invariant (step cfg)
    (P := fun s => s.log.Sound cfg s.call ∧ s.log.Situation cfg s.call)
    (fun _ _ _ hs hstep => keep_step hs hstep) hinit h
  exact respects_of_sound hs.1 hs.2

/-! ### Runs that the bounds allow -/

/-- The call goes on at a clock reading. -/
def tick (now : ℚ) : Turn := .own (.run ⟨now, now, 0, 0⟩)

def hello : Request := { messages := some [some ⟨some "user", some "hello"⟩], encoded := some 64 }

/-- A valid completion. -/
def greeting : Json :=
  .obj [("choices", .arr [.obj [("message", .obj [("content", .str "hi")])]])]

/-- One model, with two attempts. -/
def oneModel : Config := { models := ["glm"] }

/-- A valid completion arrives, the lock is not acquired to record it, and the model is asked
again. -/
def lostTurns : List Turn :=
  List.replicate 7 (tick 0) ++ [.own (.reply (.data greeting)), tick 1, .own .lockTimeout] ++
    List.replicate 3 (tick 1) ++ [.own .woke] ++ List.replicate 3 (tick 2)

/-- A router whose circuit for the model has been open since 0. -/
def openRouter : ModelRouter :=
  oneModel.router.setBreaker "glm"
    { failureThreshold := 3, recoverySeconds := 15, failures := 3, openedAt := some 0, generation := 1 }

/-- The call is admitted as a probe, and its clock reads 60 before the transport call. -/
def lateTurns : List Turn := List.replicate 6 (tick 20) ++ List.replicate 8 (tick 60)

theorem respects_run_lostTurns :
    ∃ s, Transition.run (step oneModel) ⟨oneModel.router, { ceiling := none }, { request := hello }, {}⟩
        lostTurns = some s ∧ s.log.attempts.length = 2 ∧ s.Respects oneModel := by
  have h : ((Transition.run (step oneModel)
      ⟨oneModel.router, { ceiling := none }, { request := hello }, {}⟩ lostTurns).any fun s =>
        s.log.attempts.length = 2) = true := by
    decide +kernel
  obtain ⟨s, hs, hlength⟩ := (Option.any_eq_true _ _).mp h
  exact ⟨s, hs, of_decide_eq_true hlength, respects_run hs⟩

def isDone : Pc → Bool
  | .done _ => true
  | _ => false

lemma exists_exit {pc : Pc} (h : isDone pc = true) : ∃ exit, pc = .done exit := by
  cases pc with
  | done exit => exact ⟨exit, rfl⟩
  | _ => cases h

/-- A probe may make no transport call at all, and a valid completion may be followed by another
call. -/
theorem transport_calls_not_exact :
    (¬ ∀ (cfg : Config) router spend request turns (s : Logged),
      Transition.run (step cfg) ⟨router, spend, { request }, {}⟩ turns = some s →
        ∀ exit, s.call.pc = .done exit → ∀ i, (i, true) ∈ s.log.admitted → s.log.countAt i = 1) ∧
    ¬ ∀ (cfg : Config) router spend request turns (s : Logged),
      Transition.run (step cfg) ⟨router, spend, { request }, {}⟩ turns = some s →
        ∀ earlier a later, s.log.attempts = earlier ++ a :: later → a.verdict = some .ok →
          later = [] := by
  constructor
  · intro hclaim
    have h : ((Transition.run (step oneModel)
        ⟨openRouter, { ceiling := none }, { request := hello }, {}⟩ lateTurns).any fun s =>
          isDone s.call.pc && (0, true) ∈ s.log.admitted && s.log.countAt 0 = 0) = true := by
      decide +kernel
    obtain ⟨s, hs, hlate⟩ := (Option.any_eq_true _ _).mp h
    simp only [Bool.and_eq_true, decide_eq_true_eq] at hlate
    obtain ⟨⟨hdone, hadmitted⟩, hzero⟩ := hlate
    obtain ⟨exit, hexit⟩ := exists_exit hdone
    have hone := hclaim _ _ _ _ _ s hs exit hexit 0 hadmitted
    omega
  · intro hclaim
    have h : ((Transition.run (step oneModel)
        ⟨oneModel.router, { ceiling := none }, { request := hello }, {}⟩ lostTurns).any fun s =>
          s.log.attempts.length = 2 && s.log.attempts.head?.any fun a => a.verdict = some .ok) =
        true := by
      decide +kernel
    obtain ⟨s, hs, hlost⟩ := (Option.any_eq_true _ _).mp h
    simp only [Bool.and_eq_true, decide_eq_true_eq] at hlost
    obtain ⟨hlength, hfirst⟩ := hlost
    match hattempts : s.log.attempts with
    | [] => simp [hattempts] at hlength
    | a :: later =>
      have hok : a.verdict = some .ok := by simpa [hattempts] using hfirst
      have hnil := hclaim _ _ _ _ _ s hs [] a later hattempts hok
      simp [hattempts, hnil] at hlength

end Logged

end AxiomGrid.Router
