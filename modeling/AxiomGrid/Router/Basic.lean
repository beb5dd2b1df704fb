import AxiomGrid.Lib.Json
import AxiomGrid.Lib.PyStr
import AxiomGrid.Lib.Transition
import AxiomGrid.Router.Breaker

/-!
# The model router

`MeliousModelRouter` of `kernel/sidecar/melious_router.py`: `complete` and `_complete` as the steps
of one call. A call is at a program point `Pc`; each step is a stretch of the source between two
points where another thread may run, so a critical section under the router's lock or the
governor's lock is one step. The environment supplies clock readings, the outcome of timed lock
acquisitions, of the transport and of `sleep`.

The transport is injected and may return or raise anything. A response is a `Json`; an exception is
known by its `status` and `retry_after` attributes, classified by how the handler's comparisons and
`_retry_after` react to them.
-/

namespace AxiomGrid.Router

/-! ### The in-memory spend governor -/

/-- `SpendGovernor`. -/
structure SpendGovernor where
  ceiling : Option ℤ
  reserved : ℤ := 0
  committed : ℤ := 0
  refused : ℕ := 0
  deriving DecidableEq, Repr

namespace SpendGovernor

/-- `reserve(tokens)`; `none` is a `RouterError`, for a ceiling that would be exceeded a
`SpendCeilingError`. -/
def reserve (g : SpendGovernor) (tokens : ℤ) : Option ℤ × SpendGovernor :=
  if tokens < 0 then (none, g)
  else
    match g.ceiling.filter (· < g.committed + g.reserved + tokens) with
    | some _ => (none, { g with refused := g.refused + 1 })
    | none => (some tokens, { g with reserved := g.reserved + tokens })

/-- `settle(reservation, actual)`. -/
def settle (g : SpendGovernor) (reservation actual : ℤ) : SpendGovernor :=
  { g with
    reserved := max 0 (g.reserved - reservation)
    committed := g.committed + max 0 actual }

variable {g g' : SpendGovernor} {tokens n : ℤ}

/-- A refusal is counted, and changes nothing else. -/
lemma reserve_refused (h : g.reserve tokens = (none, g')) : g' = { g with refused := g'.refused } := by
  unfold reserve at h
  split at h
  · cases h
    rfl
  · split at h
    · cases h
      rfl
    · cases h

/-- What is reserved fits under the ceiling. -/
lemma reserve_granted (h : g.reserve tokens = (some n, g')) :
    n = tokens ∧ g' = { g with reserved := g.reserved + tokens } ∧
      ∀ cap, g.ceiling = some cap → g.committed + g.reserved + tokens ≤ cap := by
  unfold reserve at h
  split at h
  · cases h
  · split at h
    · cases h
    · rename_i hroom
      cases h
      refine ⟨rfl, rfl, fun cap hcap => ?_⟩
      rw [hcap] at hroom
      simpa [Option.filter] using hroom

end SpendGovernor

/-! ### Requests -/

/-- A message that is a dictionary: its `role` and `content` when these are strings. -/
structure Message where
  role : Option String
  content : Option String
  deriving DecidableEq, Repr

/-- The value of a completion budget option. -/
inductive Budget where
  | int (n : ℤ)
  /-- A value whose type is not `int`. -/
  | other
  deriving DecidableEq, Repr

/-- The arguments of `complete(messages, **options)`, as far as the router looks at them. -/
structure Request where
  /-- `none` when `messages` is not a list; an item is `none` when it is not a dictionary. -/
  messages : Option (List (Option Message))
  /-- `"model" in options`. -/
  model : Bool := false
  /-- `options.get("max_tokens")`, when it is there. -/
  maxTokens : Option Budget := none
  /-- `options.get("max_completion_tokens")`, when it is there. -/
  maxCompletion : Option Budget := none
  /-- Whether `options.get("stream")` is true. -/
  stream : Bool := false
  /-- Whether `options.get("n", 1) == 1`. -/
  single : Bool := true
  /-- The size of the payload as UTF-8 JSON; `none` when it is not finite JSON. -/
  encoded : Option ℕ
  deriving DecidableEq, Repr

def maxMessages : ℕ := 256
def maxCompletionTokens : ℤ := 4096
def maxRequestBytes : ℕ := 262144
def promptCharsPerToken : ℕ := 3

namespace Request

variable (req : Request)

/-- The number of characters in the string contents of the messages. -/
def chars : ℕ :=
  ((req.messages.getD []).map fun m => ((m.bind Message.content).map String.length).getD 0).sum

/-- `_reservation_estimate`. -/
def reservationEstimate : ℤ :=
  match req.messages with
  | none => 0
  | some _ =>
    let budget :=
      match (req.maxCompletion.or req.maxTokens).getD (.int maxCompletionTokens) with
      | .int n => if n < 1 then maxCompletionTokens else n
      | .other => maxCompletionTokens
    ((req.chars + promptCharsPerToken - 1) / promptCharsPerToken : ℕ) + budget

/-- The completion budget in force. -/
def budget : Budget :=
  (if req.maxCompletion.isSome then req.maxCompletion else req.maxTokens).getD
    (.int maxCompletionTokens)

/-- The checks of `_complete` before any network cost; false is a `RouterError`. -/
def valid : Bool :=
  (match req.messages with
    | none => false
    | some ms =>
      !ms.isEmpty && ms.length ≤ maxMessages &&
        ms.all fun m => m.any fun m => m.role.isSome && m.content.isSome) &&
  req.chars ≤ maxRequestBytes && !req.model &&
  !(req.maxTokens.isSome && req.maxCompletion.isSome) &&
  (match req.budget with
    | .int n => 1 ≤ n && n ≤ maxCompletionTokens
    | .other => false) &&
  !req.stream && req.single && req.encoded.any (· ≤ maxRequestBytes)

end Request

/-! ### Responses and failures -/

/-- The validated token counts of a response. -/
structure Counts where
  promptTokens : ℕ
  completionTokens : ℕ
  totalTokens : ℕ
  reasoningTokens : ℕ
  deriving DecidableEq, Repr

/-- A count that is missing is zero; one that is there must be a non-negative `int`. -/
def count? : Option Json → Option ℕ
  | none => some 0
  | some (.int n) => if 0 ≤ n then some n.toNat else none
  | some _ => none

/-- `_usage_counts(data)` on a dictionary; `none` is a `RouterError`, also for other values. -/
def usageCounts (data : Json) : Option Counts := do
  let _ ← data.members?
  let usage := (data.get? "usage").getD (Json.obj [])
  let _ ← usage.members?
  let details : Json :=
    match usage.get? "completion_tokens_details" with
    | none | some .null => Json.obj []
    | some details => details
  let _ ← details.members?
  let prompt ← count? (usage.get? "prompt_tokens")
  let completion ← count? (usage.get? "completion_tokens")
  let total ← count? (usage.get? "total_tokens")
  let reasoning ← count? ((details.get? "reasoning_tokens").or (usage.get? "reasoning_tokens"))
  some ⟨prompt, completion, max total (prompt + completion), reasoning⟩

/-- What the checks on the choices of a billed response come to. -/
inductive Verdict where
  | ok
  | budgetExhausted
  | malformed
  deriving DecidableEq, Repr

/-- The first choice that is not a text completion decides. -/
def checkChoices : List Json → Verdict
  | [] => .ok
  | choice :: choices =>
    match (choice.get? "message").bind Json.members? with
    | none => .malformed
    | some message =>
      match (message.lookup "content").bind Json.str? with
      | some content => if Str.strip content.toList ≠ [] then checkChoices choices else blank choice
      | none => blank choice
where
  /-- A choice without visible text. -/
  blank (choice : Json) : Verdict :=
    if (choice.get? "finish_reason").any (Json.pyEq · (.str "length")) then .budgetExhausted
    else .malformed

/-- The checks of `_complete` on a response whose usage has been accounted for. -/
def checkResponse (data : Json) (counts : Counts) (budget : Budget) : Verdict :=
  match (data.get? "choices").bind Json.items? with
  | none | some [] => .malformed
  | some choices =>
    match checkChoices choices with
    | .ok =>
      if choices.length ≠ 1 then .malformed
      else
        match budget with
        | .int n => if n < counts.completionTokens then .malformed else .ok
        | .other => .malformed
    | verdict => verdict

/-- `getattr(exc, "status", None)`. -/
inductive Status where
  | absent
  | int (code : ℤ)
  /-- A number whose type is not `int`. -/
  | number (x : ℚ)
  /-- An object that cannot be ordered against an integer: the comparison raises. -/
  | unordered
  deriving DecidableEq, Repr

/-- `getattr(exc, "retry_after", 0)`, by how `_retry_after` reads it. -/
inductive RetryAfter where
  /-- Missing, `None`, or neither a number nor a date. -/
  | none
  /-- What `float` makes of it. -/
  | seconds (x : PyFloat)
  /-- An HTTP date, as a timestamp. -/
  | date (timestamp : ℚ)
  /-- `float` or the date parser raises something that is not caught. -/
  | raises
  deriving DecidableEq, Repr

/-- An exception raised while a route is tried. -/
structure Exc where
  status : Status := .absent
  retryAfter : RetryAfter := .none
  deriving DecidableEq, Repr

/-- A `RouterError` of the router's own: no status, no `retry_after`. -/
def Exc.routerError : Exc := {}

namespace Exc

variable (exc : Exc)

/-- `status == 429`. -/
def isTooMany : Bool :=
  match exc.status with
  | .int code => code = 429
  | .number x => x = 429
  | _ => false

/-- `500 <= status < 600` on a status that is there; `none` when the comparison raises. -/
def isServerError : Option Bool :=
  match exc.status with
  | .int code => some (500 ≤ code ∧ code < 600)
  | .number x => some (500 ≤ x ∧ x < 600)
  | _ => none

/-- `_retry_after`, at wall-clock time `wall`; `none` when it raises. -/
def retryAfterSeconds (wall : ℚ) : Option ℚ :=
  match exc.retryAfter with
  | .none => some 0
  | .seconds (.fin q) => some (max 0 q)
  | .seconds _ => some 0
  | .date timestamp => some (max 0 (timestamp - wall))
  | .raises => none

end Exc

/-! ### The router -/

/-- The counters of one router. -/
structure Metrics where
  requests : ℕ := 0
  successes : ℕ := 0
  failures : ℕ := 0
  fallbacks : ℕ := 0
  promptTokens : ℕ := 0
  completionTokens : ℕ := 0
  reasoningTokens : ℕ := 0
  totalTokens : ℕ := 0
  budgetExhausted : ℕ := 0
  deriving DecidableEq, Repr

/-- Account for one response. -/
def Metrics.account (m : Metrics) (counts : Counts) : Metrics :=
  { m with
    promptTokens := m.promptTokens + counts.promptTokens
    completionTokens := m.completionTokens + counts.completionTokens
    totalTokens := m.totalTokens + counts.totalTokens
    reasoningTokens := m.reasoningTokens + counts.reasoningTokens }

/-- The settings of one router. -/
structure Config where
  models : List String
  maxRetries : ℕ := 1
  timeout : ℚ := 10
  probeTimeout : ℚ := 5
  totalTimeout : ℚ := 30
  modelTimeouts : String → Option ℚ := fun _ => none
  maxInflight : ℕ := 32
  failureThreshold : String → ℕ := fun _ => 3
  recoverySeconds : String → ℚ := fun _ => 15

/-- The shared state of one router, all of it guarded by the router's lock or its semaphore. -/
structure ModelRouter where
  breakers : String → CircuitBreaker
  cooldownUntil : String → ℚ
  metrics : Metrics
  /-- Permits left in the in-flight semaphore. -/
  slots : ℕ

/-- A new router. -/
def Config.router (cfg : Config) : ModelRouter where
  breakers m :=
    { failureThreshold := cfg.failureThreshold m, recoverySeconds := cfg.recoverySeconds m }
  cooldownUntil _ := 0
  metrics := {}
  slots := cfg.maxInflight

/-! ### Calls -/

/-- What became of one route, as the trace of a call records it. -/
inductive RouteResult where
  | circuitOpen
  | success
  | failure (exc : Exc)
  | budgetExhausted
  deriving DecidableEq, Repr

/-- How `complete` ends. -/
inductive Exit where
  /-- No permit was free. -/
  | saturated
  /-- `SpendCeilingError`. -/
  | refused
  /-- The request failed a check before any route was tried. -/
  | rejected
  /-- The router's lock was not acquired in time. -/
  | lockTimeout
  /-- A response, with the routes tried for it. -/
  | returned (data : Json) (trace : List (String × RouteResult))
  /-- `BudgetExhaustedError`. -/
  | budgetExhausted
  /-- All routes failed; the status of the last exception. -/
  | allFailed (status : Status)
  /-- An exception that no `except` clause of `_complete` stops: a `BaseException` of the transport or
  of `sleep`, or one raised by the handler itself. -/
  | escaped

/-- Where a call goes after the `finally` clause of a route. -/
inductive After where
  | nextModel
  | leave (e : Exit)

/-- The point a call has reached. -/
inductive Pc where
  /-- In `complete`, with a permit: `self.spend.reserve`. -/
  | reserve
  /-- The start of `_complete`. -/
  | enter
  | countRequest
  /-- The head of the loop over the models. -/
  | route
  /-- Waiting for the lock to ask the breaker, with the clock read before. -/
  | askRoute (now : ℚ)
  /-- Admitted; the fallback metric. From here to `cleanup` the call has a lease. -/
  | countFallback
  /-- The deadline check before the transport. -/
  | dispatch
  | transport (timeout : ℚ)
  /-- A billed response, not yet in the metrics. -/
  | account (counts : Counts) (data : Json)
  | recordSuccess (data : Json)
  | recordBudget
  | recordFailure (exc : Exc)
  /-- The decision between another attempt, another route and leaving. -/
  | afterFailure (exc : Exc)
  | backoff (exc : Exc)
  | sleeping (delay : ℚ)
  /-- The head of the loop over the attempts, from the second one on. -/
  | retry
  | checkRoute
  /-- The `finally` clause of a route. -/
  | cleanup (next : After)
  | recordAllFailed
  /-- The `finally` clause of `complete`. -/
  | settle (e : Exit)
  | release (e : Exit)
  | done (e : Exit)

/-- One call: its request, its point, and its local variables. -/
structure Call where
  request : Request
  pc : Pc := .reserve
  reservation : Option ℤ := none
  spent : ℕ := 0
  deadline : ℚ := 0
  index : ℕ := 0
  model : String := ""
  isProbe : Bool := false
  generation : ℕ := 0
  attempt : ℕ := 0
  trace : List (String × RouteResult) := []
  last : Status := .absent

/-- Readings the environment supplies to one step. -/
structure Tick where
  /-- `time.monotonic()`. -/
  now : ℚ
  /-- A second `time.monotonic()` in the same step. -/
  later : ℚ
  /-- `time.time()`. -/
  wall : ℚ
  /-- `random.random()`. -/
  jitter : ℚ

/-- How the transport ends. -/
inductive Reply where
  | data (d : Json)
  | raised (exc : Exc)
  /-- It raises `BudgetExhaustedError` itself. -/
  | budgetExhausted
  /-- It raises a `BaseException` that is not an `Exception`. -/
  | interrupted

/-- What the environment does to one call. -/
inductive Event where
  /-- The call goes on; a lock it waits for is acquired. -/
  | run (t : Tick)
  /-- A timed lock acquisition gives up. -/
  | lockTimeout
  | reply (r : Reply)
  /-- `sleep` returns. -/
  | woke
  /-- `sleep` raises. -/
  | interrupted

/-- The call at a new point. -/
def Call.goto (c : Call) (pc : Pc) : Call := { c with pc }

/-- The router with a new breaker for `m`. -/
def ModelRouter.setBreaker (r : ModelRouter) (m : String) (b : CircuitBreaker) : ModelRouter :=
  { r with breakers := Function.update r.breakers m b }

/-- The router with new metrics. -/
def ModelRouter.modifyMetrics (r : ModelRouter) (f : Metrics → Metrics) : ModelRouter :=
  { r with metrics := f r.metrics }

namespace ModelRouter

variable (r : ModelRouter) (m : String) (b : CircuitBreaker) (f : Metrics → Metrics)

@[simp] lemma setBreaker_breakers :
    (r.setBreaker m b).breakers = Function.update r.breakers m b := rfl

@[simp] lemma setBreaker_metrics : (r.setBreaker m b).metrics = r.metrics := rfl

@[simp] lemma setBreaker_slots : (r.setBreaker m b).slots = r.slots := rfl

@[simp] lemma modifyMetrics_breakers : (r.modifyMetrics f).breakers = r.breakers := rfl

@[simp] lemma modifyMetrics_metrics : (r.modifyMetrics f).metrics = f r.metrics := rfl

@[simp] lemma modifyMetrics_slots : (r.modifyMetrics f).slots = r.slots := rfl

end ModelRouter

namespace Call

variable (cfg : Config) (r : ModelRouter) (c : Call)

/-- The clock check at the head of the loop over the models. -/
def enterRoute (now : ℚ) : Call :=
  match cfg.models[c.index]? with
  | none => c.goto .recordAllFailed
  | some model => if c.deadline ≤ now then c.goto .recordAllFailed else { c with model, pc := .askRoute now }

/-- Admission, under the lock. -/
def askBreaker (now : ℚ) : ModelRouter × Call :=
  let (allowed, b) := (r.breakers c.model).allow now
  if r.cooldownUntil c.model ≤ now ∧ allowed then
    (r.setBreaker c.model b,
      { c with isProbe := b.probing, generation := b.generation, attempt := 0, pc := .countFallback })
  else
    (r, { c with trace := c.trace ++ [(c.model, .circuitOpen)], index := c.index + 1, pc := .route })

/-- Time left, at the clock reading `now`. -/
def remaining (now : ℚ) : ℚ := min (c.deadline - now) cfg.totalTimeout

/-- The deadline check before the transport, and the timeout it is called with. -/
def dispatchPc (now : ℚ) : Pc :=
  if c.remaining cfg now ≤ 0 then .recordFailure .routerError
  else
    .transport (min (c.remaining cfg now)
      (if c.isProbe then cfg.probeTimeout else (cfg.modelTimeouts c.model).getD cfg.timeout))

/-- The transport has ended. -/
def receive : Reply → Call
  | .interrupted => c.goto (.cleanup (.leave .escaped))
  | .raised exc => c.goto (.recordFailure exc)
  | .budgetExhausted => c.goto .recordBudget
  | .data d =>
    match usageCounts d with
    | none => c.goto (.recordFailure .routerError)
    | some counts => { c with spent := c.spent + counts.totalTokens, pc := .account counts d }

/-- Where a response goes once it is accounted for. -/
def checkedPc (counts : Counts) (d : Json) : Pc :=
  match checkResponse d counts c.request.budget with
  | .ok => .recordSuccess d
  | .budgetExhausted => .recordBudget
  | .malformed => .recordFailure .routerError

/-- The bookkeeping of a failure, under the lock: the breaker, and the cooldown after a 429. -/
def noteFailure (exc : Exc) (t : Tick) : ModelRouter × Pc :=
  let r := r.setBreaker c.model ((r.breakers c.model).failure t.now (some c.generation))
  if exc.isTooMany then
    match exc.retryAfterSeconds t.wall with
    | none => (r, .cleanup (.leave .escaped))
    | some seconds =>
      ({ r with
          cooldownUntil := Function.update r.cooldownUntil c.model
            (max (r.cooldownUntil c.model) (t.later + seconds)) },
        .afterFailure exc)
  else (r, .afterFailure exc)

/-- The call with a failure in its trace. -/
def failed (exc : Exc) : Call :=
  { c with trace := c.trace ++ [(c.model, .failure exc)], last := exc.status }

/-- The handler's decision after a failure. -/
def afterFailurePc (exc : Exc) : Pc :=
  match exc.status with
  | .int code =>
    if code = 429 ∨ (500 ≤ code ∧ code < 600 ∧ c.index + 1 < cfg.models.length) then
      .cleanup .nextModel
    else go
  | _ => if exc.isTooMany then .cleanup .nextModel else go
where
  /-- Not a rate limit, and not a server error with a fallback left. -/
  go : Pc :=
    if c.isProbe then .cleanup .nextModel
    else if exc.status ≠ .absent ∧ exc.isServerError = none then .cleanup (.leave .escaped)
    else if exc.status ≠ .absent ∧ exc.isServerError = some false then .cleanup .nextModel
    else if (r.breakers c.model).openedAt.isSome then .cleanup .nextModel
    else if c.attempt < cfg.maxRetries then .backoff exc
    else .cleanup .nextModel

/-- The delay before the next attempt, if the deadline leaves room for it. -/
def backoffPc (exc : Exc) (t : Tick) : Pc :=
  match exc.retryAfterSeconds t.wall with
  | none => .cleanup (.leave .escaped)
  | some seconds =>
    let delay := if seconds ≠ 0 then seconds else 1 / 10 * 2 ^ c.attempt + t.jitter / 20
    if c.deadline - t.now ≤ delay then .cleanup .nextModel else .sleeping delay

/-- Whether a retry is still admissible, under the lock. -/
def mayRetry (now : ℚ) : Bool :=
  (r.breakers c.model).generation = c.generation ∧ (r.breakers c.model).openedAt = none ∧
    r.cooldownUntil c.model ≤ now

/-- The `finally` clause of a route: a probe that is still out counts as a failure. -/
def releaseProbe (now : ℚ) : ModelRouter :=
  if c.isProbe ∧ (r.breakers c.model).generation = c.generation ∧ (r.breakers c.model).probing then
    r.setBreaker c.model ((r.breakers c.model).failure now (some c.generation))
  else r

/-- The point after the `finally` clause of a route. -/
def resume : After → Call
  | .nextModel => { c with index := c.index + 1, pc := .route }
  | .leave e => c.goto (.settle e)

/-- One step of a call; `none` when the event does not fit the point the call is at. -/
def step (g : SpendGovernor) : Event → Option (ModelRouter × SpendGovernor × Call)
  | .run t =>
    match c.pc with
    | .reserve =>
      match g.reserve c.request.reservationEstimate with
      | (none, g) => some (r, g, c.goto (.release .refused))
      | (some n, g) => some (r, g, { c with reservation := some n, pc := .enter })
    | .enter =>
      if c.request.valid then
        some (r, g, { c with deadline := t.now + cfg.totalTimeout, pc := .countRequest })
      else some (r, g, c.goto (.settle .rejected))
    | .countRequest =>
      some (r.modifyMetrics fun m => { m with requests := m.requests + 1 }, g, c.goto .route)
    | .route => some (r, g, c.enterRoute cfg t.now)
    | .askRoute now => some ((c.askBreaker r now).1, g, (c.askBreaker r now).2)
    | .countFallback =>
      some (if c.index ≠ 0 then r.modifyMetrics fun m => { m with fallbacks := m.fallbacks + 1 } else r,
        g, c.goto .dispatch)
    | .dispatch => some (r, g, c.goto (c.dispatchPc cfg t.now))
    | .account counts d =>
      some (r.modifyMetrics (·.account counts), g, c.goto (c.checkedPc counts d))
    | .recordSuccess d =>
      some ((r.setBreaker c.model ((r.breakers c.model).success (some c.generation))).modifyMetrics
          fun m => { m with successes := m.successes + 1 }, g,
        c.goto (.cleanup (.leave (.returned d (c.trace ++ [(c.model, .success)])))))
    | .recordBudget =>
      some ((r.setBreaker c.model ((r.breakers c.model).success (some c.generation))).modifyMetrics
          fun m => { m with failures := m.failures + 1, budgetExhausted := m.budgetExhausted + 1 }, g,
        { c with
          trace := c.trace ++ [(c.model, .budgetExhausted)]
          pc := .cleanup (.leave .budgetExhausted) })
    | .recordFailure exc =>
      some ((c.noteFailure r exc t).1, g, (c.failed exc).goto (c.noteFailure r exc t).2)
    | .afterFailure exc => some (r, g, c.goto (c.afterFailurePc cfg r exc))
    | .backoff exc => some (r, g, c.goto (c.backoffPc exc t))
    | .retry =>
      some (r, g, c.goto (if c.remaining cfg t.now ≤ 0 then .cleanup .nextModel else .checkRoute))
    | .checkRoute =>
      if c.mayRetry r t.now then some (r, g, c.goto .dispatch)
      else
        some (r, g,
          { c with trace := c.trace ++ [(c.model, .circuitOpen)], pc := .cleanup .nextModel })
    | .cleanup next => some (c.releaseProbe r t.now, g, c.resume next)
    | .recordAllFailed =>
      some (r.modifyMetrics fun m => { m with failures := m.failures + 1 }, g,
        c.goto (.settle (.allFailed c.last)))
    | .settle e =>
      some (r, match c.reservation with
        | some n => g.settle n c.spent
        | none => g, c.goto (.release e))
    | .release e => some ({ r with slots := r.slots + 1 }, g, c.goto (.done e))
    | .transport _ | .sleeping _ | .done _ => none
  | .lockTimeout =>
    match c.pc with
    | .countRequest | .askRoute _ => some (r, g, c.goto (.settle .lockTimeout))
    | .countFallback => if c.index ≠ 0 then some (r, g, c.goto .dispatch) else none
    | .recordSuccess _ => some (r, g, c.goto (.recordFailure .routerError))
    | .recordBudget =>
      some (r, g,
        { c with
          trace := c.trace ++ [(c.model, .budgetExhausted)]
          pc := .cleanup (.leave .budgetExhausted) })
    | .recordFailure exc => some (r, g, (c.failed exc).goto (.afterFailure exc))
    | .checkRoute => some (r, g, c.goto (.cleanup (.leave .lockTimeout)))
    | .recordAllFailed => some (r, g, c.goto (.settle (.allFailed c.last)))
    | _ => none
  | .reply reply =>
    match c.pc with
    | .transport _ => some (r, g, c.receive reply)
    | _ => none
  | .woke =>
    match c.pc with
    | .sleeping _ => some (r, g, { c with attempt := c.attempt + 1, pc := .retry })
    | _ => none
  | .interrupted =>
    match c.pc with
    | .sleeping _ => some (r, g, c.goto (.cleanup (.leave .escaped)))
    | _ => none

end Call

/-! ### Where the handlers lead -/

/-- A route is being tried and its outcome is not known to the metrics, or never will be. -/
def Pc.trying : Pc → Bool
  | .countFallback | .dispatch | .transport _ | .recordSuccess _ | .recordBudget
  | .recordFailure _ | .afterFailure _ | .backoff _ | .sleeping _ | .retry | .checkRoute
  | .cleanup .nextModel | .cleanup (.leave .escaped) => true
  | _ => false

namespace Call

variable {cfg : Config} {r : ModelRouter} {c : Call}

lemma enterRoute_cases (now : ℚ) : c.enterRoute cfg now = c.goto .recordAllFailed ∨
    ∃ model, c.enterRoute cfg now = { c with model, pc := .askRoute now } := by
  unfold enterRoute
  split
  · exact .inl rfl
  · split
    · exact .inl rfl
    · exact .inr ⟨_, rfl⟩

lemma askBreaker_cases (now : ℚ) :
    (((r.breakers c.model).allow now).1 = true ∧
      c.askBreaker r now = (r.setBreaker c.model ((r.breakers c.model).allow now).2,
        { c with
          isProbe := ((r.breakers c.model).allow now).2.probing
          generation := ((r.breakers c.model).allow now).2.generation
          attempt := 0
          pc := .countFallback })) ∨
    c.askBreaker r now = (r,
      { c with trace := c.trace ++ [(c.model, .circuitOpen)], index := c.index + 1, pc := .route }) := by
  by_cases ha : r.cooldownUntil c.model ≤ now ∧ ((r.breakers c.model).allow now).1
  · refine .inl ⟨ha.2, ?_⟩
    simp only [askBreaker, ha, and_self, if_true]
  · refine .inr ?_
    simp only [askBreaker, ha, if_false]

lemma dispatchPc_trying (now : ℚ) : (c.dispatchPc cfg now).trying = true := by
  unfold dispatchPc
  split <;> rfl

lemma checkedPc_trying (counts : Counts) (d : Json) : (c.checkedPc counts d).trying = true := by
  unfold checkedPc
  split <;> rfl

lemma afterFailurePc_trying (exc : Exc) : (c.afterFailurePc cfg r exc).trying = true := by
  have go : (afterFailurePc.go cfg r c exc).trying = true := by
    unfold afterFailurePc.go
    split_ifs <;> rfl
  unfold afterFailurePc
  split
  · split
    · rfl
    · exact go
  · split
    · rfl
    · exact go

lemma backoffPc_trying (exc : Exc) (t : Tick) : (c.backoffPc exc t).trying = true := by
  unfold backoffPc
  split
  · rfl
  · dsimp only
    split_ifs <;> rfl

/-- The bookkeeping of a failure reports to the breaker, and changes no metric and no permit. -/
lemma noteFailure_spec (exc : Exc) (t : Tick) :
    (c.noteFailure r exc t).2.trying = true ∧
    (c.noteFailure r exc t).1.breakers = Function.update r.breakers c.model
      ((r.breakers c.model).failure t.now (some c.generation)) ∧
    (c.noteFailure r exc t).1.metrics = r.metrics ∧ (c.noteFailure r exc t).1.slots = r.slots := by
  unfold noteFailure
  dsimp only
  split
  · split <;> exact ⟨rfl, rfl, rfl, rfl⟩
  · exact ⟨rfl, rfl, rfl, rfl⟩

lemma releaseProbe_metrics (now : ℚ) : (c.releaseProbe r now).metrics = r.metrics := by
  unfold releaseProbe
  split <;> rfl

lemma releaseProbe_slots (now : ℚ) : (c.releaseProbe r now).slots = r.slots := by
  unfold releaseProbe
  split <;> rfl

end Call

/-! ### Every step -/

/-- What a step of a call does, one rule for each branch of `Call.step`. -/
inductive Call.Step (cfg : Config) (r : ModelRouter) (g : SpendGovernor) (c : Call) :
    Event → ModelRouter → SpendGovernor → Call → Prop where
  | refuse (t : Tick) {g' : SpendGovernor} (hc : c.pc = .reserve)
      (hg : g.reserve c.request.reservationEstimate = (none, g')) :
      Step cfg r g c (.run t) r g' (c.goto (.release .refused))
  | grant (t : Tick) {n : ℤ} {g' : SpendGovernor} (hc : c.pc = .reserve)
      (hg : g.reserve c.request.reservationEstimate = (some n, g')) :
      Step cfg r g c (.run t) r g' { c with reservation := some n, pc := .enter }
  | enter (t : Tick) (hc : c.pc = .enter) :
      Step cfg r g c (.run t) r g
        { c with deadline := t.now + cfg.totalTimeout, pc := .countRequest }
  | reject (t : Tick) (hc : c.pc = .enter) :
      Step cfg r g c (.run t) r g (c.goto (.settle .rejected))
  | countRequest (t : Tick) (hc : c.pc = .countRequest) :
      Step cfg r g c (.run t) (r.modifyMetrics fun m => { m with requests := m.requests + 1 }) g
        (c.goto .route)
  | route (t : Tick) (hc : c.pc = .route) :
      Step cfg r g c (.run t) r g (c.enterRoute cfg t.now)
  | askRoute (t : Tick) (now : ℚ) (hc : c.pc = .askRoute now) :
      Step cfg r g c (.run t) (c.askBreaker r now).1 g (c.askBreaker r now).2
  | countFallback (t : Tick) (hc : c.pc = .countFallback) :
      Step cfg r g c (.run t)
        (if c.index ≠ 0 then r.modifyMetrics fun m => { m with fallbacks := m.fallbacks + 1 } else r)
        g (c.goto .dispatch)
  | dispatch (t : Tick) (hc : c.pc = .dispatch) :
      Step cfg r g c (.run t) r g (c.goto (c.dispatchPc cfg t.now))
  | account (t : Tick) (counts : Counts) (d : Json) (hc : c.pc = .account counts d) :
      Step cfg r g c (.run t) (r.modifyMetrics (·.account counts)) g (c.goto (c.checkedPc counts d))
  | recordSuccess (t : Tick) (d : Json) (hc : c.pc = .recordSuccess d) :
      Step cfg r g c (.run t)
        ((r.setBreaker c.model ((r.breakers c.model).success (some c.generation))).modifyMetrics
          fun m => { m with successes := m.successes + 1 }) g
        (c.goto (.cleanup (.leave (.returned d (c.trace ++ [(c.model, .success)])))))
  | recordBudget (t : Tick) (hc : c.pc = .recordBudget) :
      Step cfg r g c (.run t)
        ((r.setBreaker c.model ((r.breakers c.model).success (some c.generation))).modifyMetrics
          fun m => { m with failures := m.failures + 1, budgetExhausted := m.budgetExhausted + 1 }) g
        { c with
          trace := c.trace ++ [(c.model, .budgetExhausted)]
          pc := .cleanup (.leave .budgetExhausted) }
  | recordFailure (t : Tick) (exc : Exc) (hc : c.pc = .recordFailure exc) :
      Step cfg r g c (.run t) (c.noteFailure r exc t).1 g ((c.failed exc).goto (c.noteFailure r exc t).2)
  | afterFailure (t : Tick) (exc : Exc) (hc : c.pc = .afterFailure exc) :
      Step cfg r g c (.run t) r g (c.goto (c.afterFailurePc cfg r exc))
  | backoff (t : Tick) (exc : Exc) (hc : c.pc = .backoff exc) :
      Step cfg r g c (.run t) r g (c.goto (c.backoffPc exc t))
  | retry (t : Tick) (hc : c.pc = .retry) :
      Step cfg r g c (.run t) r g
        (c.goto (if c.remaining cfg t.now ≤ 0 then .cleanup .nextModel else .checkRoute))
  | again (t : Tick) (hc : c.pc = .checkRoute) (hmay : c.mayRetry r t.now = true) :
      Step cfg r g c (.run t) r g (c.goto .dispatch)
  | giveUp (t : Tick) (hc : c.pc = .checkRoute) :
      Step cfg r g c (.run t) r g
        { c with trace := c.trace ++ [(c.model, .circuitOpen)], pc := .cleanup .nextModel }
  | cleanup (t : Tick) (next : After) (hc : c.pc = .cleanup next) :
      Step cfg r g c (.run t) (c.releaseProbe r t.now) g (c.resume next)
  | recordAllFailed (t : Tick) (hc : c.pc = .recordAllFailed) :
      Step cfg r g c (.run t) (r.modifyMetrics fun m => { m with failures := m.failures + 1 }) g
        (c.goto (.settle (.allFailed c.last)))
  | settle (t : Tick) (e : Exit) (hc : c.pc = .settle e) :
      Step cfg r g c (.run t) r
        (match c.reservation with
          | some n => g.settle n c.spent
          | none => g) (c.goto (.release e))
  | release (t : Tick) (e : Exit) (hc : c.pc = .release e) :
      Step cfg r g c (.run t) { r with slots := r.slots + 1 } g (c.goto (.done e))
  | unlockedCount (hc : c.pc = .countRequest) :
      Step cfg r g c .lockTimeout r g (c.goto (.settle .lockTimeout))
  | unlockedAsk (now : ℚ) (hc : c.pc = .askRoute now) :
      Step cfg r g c .lockTimeout r g (c.goto (.settle .lockTimeout))
  | unlockedFallback (hc : c.pc = .countFallback) :
      Step cfg r g c .lockTimeout r g (c.goto .dispatch)
  | unlockedSuccess (d : Json) (hc : c.pc = .recordSuccess d) :
      Step cfg r g c .lockTimeout r g (c.goto (.recordFailure .routerError))
  | unlockedBudget (hc : c.pc = .recordBudget) :
      Step cfg r g c .lockTimeout r g
        { c with
          trace := c.trace ++ [(c.model, .budgetExhausted)]
          pc := .cleanup (.leave .budgetExhausted) }
  | unlockedFailure (exc : Exc) (hc : c.pc = .recordFailure exc) :
      Step cfg r g c .lockTimeout r g ((c.failed exc).goto (.afterFailure exc))
  | unlockedCheck (hc : c.pc = .checkRoute) :
      Step cfg r g c .lockTimeout r g (c.goto (.cleanup (.leave .lockTimeout)))
  | unlockedAllFailed (hc : c.pc = .recordAllFailed) :
      Step cfg r g c .lockTimeout r g (c.goto (.settle (.allFailed c.last)))
  | reply (timeout : ℚ) (reply : Reply) (hc : c.pc = .transport timeout) :
      Step cfg r g c (.reply reply) r g (c.receive reply)
  | woke (delay : ℚ) (hc : c.pc = .sleeping delay) :
      Step cfg r g c .woke r g { c with attempt := c.attempt + 1, pc := .retry }
  | interrupted (delay : ℚ) (hc : c.pc = .sleeping delay) :
      Step cfg r g c .interrupted r g (c.goto (.cleanup (.leave .escaped)))

namespace Call

variable {cfg : Config} {r r' : ModelRouter} {g g' : SpendGovernor} {c c' : Call}

lemma step_run_cases {t : Tick} (h : c.step cfg r g (.run t) = some (r', g', c')) :
    c.Step cfg r g (.run t) r' g' c' := by
  cases hc : c.pc with
  | reserve =>
    simp only [step, hc] at h
    split at h
    · rename_i hg
      cases h
      exact .refuse t hc hg
    · rename_i hg
      cases h
      exact .grant t hc hg
  | enter =>
    simp only [step, hc] at h
    split at h
    · cases h
      exact .enter t hc
    · cases h
      exact .reject t hc
  | checkRoute =>
    simp only [step, hc] at h
    split at h
    · rename_i hmay
      cases h
      exact .again t hc hmay
    · cases h
      exact .giveUp t hc
  | transport | sleeping | done => simp [step, hc] at h
  | countRequest =>
    simp only [step, hc] at h
    cases h
    exact .countRequest t hc
  | route =>
    simp only [step, hc] at h
    cases h
    exact .route t hc
  | askRoute now =>
    simp only [step, hc] at h
    cases h
    exact .askRoute t now hc
  | countFallback =>
    simp only [step, hc] at h
    cases h
    exact .countFallback t hc
  | dispatch =>
    simp only [step, hc] at h
    cases h
    exact .dispatch t hc
  | account counts d =>
    simp only [step, hc] at h
    cases h
    exact .account t counts d hc
  | recordSuccess d =>
    simp only [step, hc] at h
    cases h
    exact .recordSuccess t d hc
  | recordBudget =>
    simp only [step, hc] at h
    cases h
    exact .recordBudget t hc
  | recordFailure exc =>
    simp only [step, hc] at h
    cases h
    exact .recordFailure t exc hc
  | afterFailure exc =>
    simp only [step, hc] at h
    cases h
    exact .afterFailure t exc hc
  | backoff exc =>
    simp only [step, hc] at h
    cases h
    exact .backoff t exc hc
  | retry =>
    simp only [step, hc] at h
    cases h
    exact .retry t hc
  | cleanup next =>
    simp only [step, hc] at h
    cases h
    exact .cleanup t next hc
  | recordAllFailed =>
    simp only [step, hc] at h
    cases h
    exact .recordAllFailed t hc
  | settle e =>
    simp only [step, hc] at h
    cases h
    exact .settle t e hc
  | release e =>
    simp only [step, hc] at h
    cases h
    exact .release t e hc

lemma step_lockTimeout_cases (h : c.step cfg r g .lockTimeout = some (r', g', c')) :
    c.Step cfg r g .lockTimeout r' g' c' := by
  simp only [step] at h
  split at h
  · rename_i hc
    cases h
    exact .unlockedCount hc
  · rename_i hc
    cases h
    exact .unlockedAsk _ hc
  · rename_i hc
    split at h
    · cases h
      exact .unlockedFallback hc
    · cases h
  · rename_i hc
    cases h
    exact .unlockedSuccess _ hc
  · rename_i hc
    cases h
    exact .unlockedBudget hc
  · rename_i hc
    cases h
    exact .unlockedFailure _ hc
  · rename_i hc
    cases h
    exact .unlockedCheck hc
  · rename_i hc
    cases h
    exact .unlockedAllFailed hc
  · cases h

/-- Every step follows one of the rules. -/
theorem step_cases {e : Event} (h : c.step cfg r g e = some (r', g', c')) :
    c.Step cfg r g e r' g' c' := by
  cases e with
  | run t => exact step_run_cases h
  | lockTimeout => exact step_lockTimeout_cases h
  | reply reply =>
    simp only [step] at h
    split at h
    · rename_i hc
      cases h
      exact .reply _ reply hc
    · cases h
  | woke =>
    simp only [step] at h
    split at h
    · rename_i hc
      cases h
      exact .woke _ hc
    · cases h
  | interrupted =>
    simp only [step] at h
    split at h
    · rename_i hc
      cases h
      exact .interrupted _ hc
    · cases h

end Call

/-! ### Several routers on one governor -/

/-- The governor, the routers that share it, and every call made so far with its router. -/
structure State (ρ : Type*) where
  spend : SpendGovernor
  routers : ρ → ModelRouter
  calls : List (ρ × Call)

/-- A new call on a router, or a step of the `i`-th call. -/
inductive Action (ρ : Type*) where
  | start (router : ρ) (request : Request)
  | step (i : ℕ) (e : Event)

namespace State

variable {ρ : Type*} [DecidableEq ρ]

/-- The initial state: a governor without spend and routers without calls. -/
def init (cfg : ρ → Config) (ceiling : Option ℤ) : State ρ where
  spend := { ceiling }
  routers i := (cfg i).router
  calls := []

/-- One step of the system. A call starts by taking a permit without waiting. -/
def step (cfg : ρ → Config) (s : State ρ) : Action ρ → Option (State ρ)
  | .start i request =>
    let r := s.routers i
    if 0 < r.slots then
      some { s with
        routers := Function.update s.routers i { r with slots := r.slots - 1 }
        calls := s.calls ++ [(i, { request })] }
    else some { s with calls := s.calls ++ [(i, { request, pc := .done .saturated })] }
  | .step n e =>
    match s.calls[n]? with
    | none => none
    | some (i, c) =>
      match c.step (cfg i) (s.routers i) s.spend e with
      | none => none
      | some (r, g, c) =>
        some { spend := g, routers := Function.update s.routers i r, calls := s.calls.set n (i, c) }

/-- Everything a step of the system can do: a call takes a permit, is turned away, or advances. -/
lemma step_cases {cfg : ρ → Config} {s s' : State ρ} {a : Action ρ} (h : s.step cfg a = some s') :
    (∃ i request, a = .start i request ∧ 0 < (s.routers i).slots ∧
      s' = { s with
        routers := Function.update s.routers i
          { s.routers i with slots := (s.routers i).slots - 1 }
        calls := s.calls ++ [(i, { request })] }) ∨
    (∃ i request, a = .start i request ∧ (s.routers i).slots = 0 ∧
      s' = { s with calls := s.calls ++ [(i, { request, pc := .done .saturated })] }) ∨
    (∃ n e i c r g c', a = .step n e ∧ s.calls[n]? = some (i, c) ∧
      c.step (cfg i) (s.routers i) s.spend e = some (r, g, c') ∧
      s' = ⟨g, Function.update s.routers i r, s.calls.set n (i, c')⟩) := by
  cases a with
  | start i request =>
    simp only [step] at h
    split at h
    · rename_i hs
      cases h
      exact .inl ⟨i, request, rfl, hs, rfl⟩
    · rename_i hs
      cases h
      exact .inr (.inl ⟨i, request, rfl, Nat.eq_zero_of_not_pos hs, rfl⟩)
  | step n e =>
    simp only [step] at h
    split at h
    · cases h
    · rename_i i c hn
      split at h
      · cases h
      · rename_i r g c' hc
        cases h
        exact .inr (.inr ⟨n, e, i, c, r, g, c', rfl, hn, hc, rfl⟩)

end State

end AxiomGrid.Router
