import AxiomGrid.Lib.Oneshot
import AxiomGrid.Lib.PyStr
import AxiomGrid.Lib.Transition

/-!
# The preview runtime

The `/materialize` and `/cancel` handlers of `axiom-runtime/src/lib.rs`, on any number of requests
that run on several threads. A step is a stretch of a handler between two points where another
thread may interfere: an acquisition of the semaphore, a critical section of the slot's lock, an
operation on a channel. The lock of the slot is never held over a call that can panic, so it is
never poisoned. `generate` talks to the local model and is known by its result.

The handler of `/materialize` can be dropped where it awaits: before it is first polled, and inside
`select!`. There the receiver goes first, then the permit; the stored sender stays.
-/

namespace AxiomGrid.Runtime

/-- A status code and a message. -/
structure ApiError where
  status : ℕ
  message : String
  deriving DecidableEq, Repr

structure PreviewResponse where
  suggestion : Str
  wordCount : ℕ
  charCount : ℕ
  deriving DecidableEq, Repr

/-- The characters that `trim` removes: `White_Space`. -/
def isWhiteSpace (c : Char) : Bool :=
  let n := c.toNat
  (9 ≤ n && n ≤ 13) || n = 32 || n = 133 || n = 160 || n = 5760 || (8192 ≤ n && n ≤ 8202) ||
    n = 8232 || n = 8233 || n = 8239 || n = 8287 || n = 12288

/-- The answer of `/materialize`. -/
abbrev Preview := Except ApiError PreviewResponse

def badContext : ApiError := ⟨400, "Provide between 1 and 16000 characters of explicit context"⟩

def alreadyRunning : ApiError := ⟨429, "Generation already running; retry after it finishes"⟩

def cancelled : ApiError := ⟨499, "Generation cancelled; the local model request was aborted"⟩

/-- The point a `/materialize` request has reached. -/
inductive PreviewPc where
  /-- Not polled yet. -/
  | check
  | acquire
  | arm
  /-- Inside `select!`. -/
  | selecting
  /-- `select!` has its output and is about to drop its futures. -/
  | selected (r : Preview)
  | disarm (r : Preview)
  /-- The permit is about to be dropped; without an answer when the client has gone. -/
  | release (r : Option Preview)
  | done (r : Option Preview)

/-- A `/materialize` request. The channel is there once `arm_cancel` has made it; its value is the
`/cancel` request that sent the signal. -/
structure Generation (κ : Type*) where
  context : Str
  pc : PreviewPc := .check
  channel : Option (Oneshot κ) := none

/-- The generation with a new channel. -/
def Generation.modify {κ : Type*} (g : Generation κ) (f : Oneshot κ → Oneshot κ) : Generation κ :=
  { g with channel := g.channel.map f }

/-- The point a `/cancel` request has reached. -/
inductive CancelPc (ι : Type*) where
  | start
  /-- It has taken the sender of a generation. -/
  | send (g : ι)
  | done (answer : Bool)

/-- The shared state and the requests. -/
structure AppState (ι κ : Type*) where
  /-- Permits left in `slots`. -/
  slots : ℕ := 1
  /-- The generation whose sender is stored. -/
  cancelSlot : Option ι := none
  generations : ι → Generation κ
  cancels : κ → CancelPc ι

/-- What happens next. -/
inductive Action (ι κ : Type*) where
  /-- A `/materialize` request goes on. -/
  | preview (i : ι)
  /-- `generate` has a result, and `select!` takes it. -/
  | complete (i : ι) (r : Preview)
  /-- `select!` takes the branch of the receiver. -/
  | observe (i : ι)
  /-- The client disconnects and the handler is dropped. -/
  | disconnect (i : ι)
  /-- A `/cancel` request goes on. -/
  | cancel (j : κ)

/-- The requests before any of them has arrived. -/
def AppState.init {ι κ : Type*} (context : ι → Str) : AppState ι κ where
  generations i := { context := context i }
  cancels _ := .start

namespace AppState

variable {ι κ : Type*} [DecidableEq ι] [DecidableEq κ] (s : AppState ι κ)

/-- The state with a new value for one generation. -/
def setGeneration (i : ι) (g : Generation κ) : AppState ι κ :=
  { s with generations := Function.update s.generations i g }

/-- The state with a new value for one `/cancel` request. -/
def setCancel (j : κ) (pc : CancelPc ι) : AppState ι κ :=
  { s with cancels := Function.update s.cancels j pc }

/-- The generation `i` at a new point. -/
def goto (i : ι) (pc : PreviewPc) : AppState ι κ :=
  s.setGeneration i { s.generations i with pc }

/-- The state with a new channel for one generation. -/
def modifyChannel (i : ι) (f : Oneshot κ → Oneshot κ) : AppState ι κ :=
  s.setGeneration i ((s.generations i).modify f)

/-- Put a new value into the slot and drop the sender that was there. -/
def replaceSlot (slot : Option ι) : AppState ι κ :=
  match s.cancelSlot with
  | none => { s with cancelSlot := slot }
  | some g => { s.modifyChannel g Oneshot.dropSender with cancelSlot := slot }

/-- `arm_cancel`: a new channel, whose sender goes into the slot. -/
def armCancel (i : ι) : AppState ι κ :=
  (s.replaceSlot (some i)).setGeneration i
    { s.generations i with channel := some {}, pc := .selecting }

/-- `disarm_cancel`. -/
def disarmCancel : AppState ι κ := s.replaceSlot none

/-- One step of a `/materialize` request outside `select!`. -/
def preview (i : ι) : Option (AppState ι κ) :=
  let g := s.generations i
  match g.pc with
  | .check =>
    if g.context.all isWhiteSpace || 16000 < g.context.length then
      some (s.goto i (.done (some (.error badContext))))
    else some (s.goto i .acquire)
  | .acquire =>
    if 0 < s.slots then some { s.goto i .arm with slots := s.slots - 1 }
    else some (s.goto i (.done (some (.error alreadyRunning))))
  | .arm => some (s.armCancel i)
  | .selected r => some ((s.modifyChannel i Oneshot.dropReceiver).goto i (.disarm r))
  | .disarm r => some (s.disarmCancel.goto i (.release (some r)))
  | .release r => some { s.goto i (.done r) with slots := s.slots + 1 }
  | .selecting | .done _ => none

/-- One step of a `/cancel` request: it takes the sender under the lock and sends after it. -/
def cancelGeneration (j : κ) : Option (AppState ι κ) :=
  match s.cancels j with
  | .start =>
    match s.cancelSlot with
    | none => some (s.setCancel j (.done false))
    | some g => some { s.setCancel j (.send g) with cancelSlot := none }
  | .send g =>
    match (s.generations g).channel with
    | none => none
    | some ch =>
      some ((s.modifyChannel g fun ch => (ch.send j).2).setCancel j (.done (ch.send j).1))
  | .done _ => none

/-- One step of the system; `none` when the action is not possible. -/
def step : Action ι κ → Option (AppState ι κ)
  | .preview i => s.preview i
  | .complete i r =>
    match (s.generations i).pc with
    | .selecting => some (s.goto i (.selected r))
    | _ => none
  | .observe i =>
    match (s.generations i).pc with
    | .selecting =>
      if (s.generations i).channel.any Oneshot.isReady then
        some (s.goto i (.selected (.error cancelled)))
      else none
    | _ => none
  | .disconnect i =>
    match (s.generations i).pc with
    | .check => some (s.goto i (.done none))
    | .selecting => some ((s.modifyChannel i Oneshot.dropReceiver).goto i (.release none))
    | _ => none
  | .cancel j => s.cancelGeneration j

/-! ### The state after an update -/

variable {i k : ι} {pc : PreviewPc} {f : Oneshot κ → Oneshot κ} {slot : Option ι}

omit [DecidableEq κ]

@[simp] lemma setGeneration_slots (g : Generation κ) : (s.setGeneration i g).slots = s.slots := rfl

@[simp] lemma setGeneration_cancelSlot (g : Generation κ) :
    (s.setGeneration i g).cancelSlot = s.cancelSlot := rfl

@[simp] lemma setGeneration_cancels (g : Generation κ) :
    (s.setGeneration i g).cancels = s.cancels := rfl

@[simp] lemma setGeneration_self (g : Generation κ) : (s.setGeneration i g).generations i = g :=
  Function.update_self ..

@[simp] lemma setGeneration_ne (g : Generation κ) (h : k ≠ i) :
    (s.setGeneration i g).generations k = s.generations k :=
  Function.update_of_ne h ..

@[simp] lemma goto_slots : (s.goto i pc).slots = s.slots := rfl

@[simp] lemma goto_cancelSlot : (s.goto i pc).cancelSlot = s.cancelSlot := rfl

@[simp] lemma goto_cancels : (s.goto i pc).cancels = s.cancels := rfl

@[simp] lemma goto_self : (s.goto i pc).generations i = { s.generations i with pc } :=
  setGeneration_self ..

@[simp] lemma goto_ne (h : k ≠ i) : (s.goto i pc).generations k = s.generations k :=
  setGeneration_ne _ _ h

@[simp] lemma modifyChannel_slots : (s.modifyChannel i f).slots = s.slots := rfl

@[simp] lemma modifyChannel_cancelSlot : (s.modifyChannel i f).cancelSlot = s.cancelSlot := rfl

@[simp] lemma modifyChannel_cancels : (s.modifyChannel i f).cancels = s.cancels := rfl

@[simp] lemma modifyChannel_self :
    (s.modifyChannel i f).generations i = (s.generations i).modify f :=
  setGeneration_self ..

@[simp] lemma modifyChannel_ne (h : k ≠ i) :
    (s.modifyChannel i f).generations k = s.generations k :=
  setGeneration_ne _ _ h

@[simp] lemma replaceSlot_slots : (s.replaceSlot slot).slots = s.slots := by
  unfold replaceSlot
  split <;> rfl

@[simp] lemma replaceSlot_cancelSlot : (s.replaceSlot slot).cancelSlot = slot := by
  unfold replaceSlot
  split <;> rfl

@[simp] lemma replaceSlot_cancels : (s.replaceSlot slot).cancels = s.cancels := by
  unfold replaceSlot
  split <;> rfl

/-- The sender that was in the slot is dropped; no other generation notices. -/
lemma replaceSlot_generations (slot : Option ι) (k : ι) : (s.replaceSlot slot).generations k = s.generations k ∨
    (s.replaceSlot slot).generations k = (s.generations k).modify Oneshot.dropSender := by
  unfold replaceSlot
  split
  · exact .inl rfl
  · rename_i g _
    by_cases hk : k = g
    · subst hk
      exact .inr (modifyChannel_self s)
    · exact .inl (modifyChannel_ne s hk)

end AppState

end AxiomGrid.Runtime
