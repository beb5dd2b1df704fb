import AxiomGrid.Lib.PyStr
import AxiomGrid.Lib.Transition

/-!
# The preview session of the editor extension

`extensions/vscode-lite/state.js`: a session admits one request at a time, and an admitted `run`
suspends at three awaits. The event loop runs everything between two awaits without interruption, so
one resumption is one step; `isCurrent` is asked inside of it, and its answers are part of the step.
The values of the client are a parameter, as are the errors it throws.
-/

namespace AxiomGrid.Extensions

structure Snapshot where
  uri : Str
  version : ℤ
  line : ℕ
  character : ℕ
  deriving DecidableEq, Repr

def sameSnapshot : Option Snapshot → Option Snapshot → Bool
  | some a, some b =>
    a.uri = b.uri && a.version = b.version && a.line = b.line && a.character = b.character
  | _, _ => false

/-- The characters that `trim` removes. -/
def isTrimmed (c : Char) : Bool :=
  let n := c.toNat
  (9 ≤ n && n ≤ 13) || n = 32 || n = 160 || n = 5760 || (8192 ≤ n && n ≤ 8202) || n = 8232 ||
    n = 8233 || n = 8239 || n = 8287 || n = 12288 || n = 65279

/-- A text that `run` returns. -/
def isCandidate (text : Str) : Bool := !text.all isTrimmed && text.length ≤ 4096

variable {ν ε : Type*}

/-- What a `run` throws. -/
inductive Failure (ε : Type*) where
  | busy
  | invalidCandidate
  | thrown (e : ε)

/-- The arguments of a `run`. `transform` may throw, and may return something other than a string. -/
structure Request (ν ε : Type*) where
  snapshot : Snapshot
  prompt : Str
  transform : ν → Except ε (Option Str)

/-- The await that an admitted `run` has reached. -/
inductive RunPc (ν ε : Type*) where
  | loadToken
  | readiness (token : ν)
  | generate (token : ν)
  | done (result : Except (Failure ε) (Option Str))

def RunPc.isDone : RunPc ν ε → Bool
  | .done _ => true
  | _ => false

/-- An admitted `run`, with its own `epoch` and whether its controller is aborted. -/
structure Run (ν ε : Type*) where
  request : Request ν ε
  epoch : ℕ
  aborted : Bool := false
  pc : RunPc ν ε := .loadToken

structure Candidate where
  snapshot : Snapshot
  text : Str
  deriving DecidableEq, Repr

/-- The fields of the object; the controller is that of a run. -/
structure PreviewSession where
  pending : Bool := false
  epoch : ℕ := 0
  candidate : Option Candidate := none
  controller : Option ℕ := none

namespace PreviewSession

variable (session : PreviewSession)

def peek (snapshot : Snapshot) : Option Str :=
  match session.candidate with
  | some c => if sameSnapshot (some c.snapshot) (some snapshot) then some c.text else none
  | none => none

/-- The answer of a `run` that is not admitted. -/
def refusal (current : Bool) : Option (Except (Failure ε) (Option Str)) :=
  if session.pending then some (.error .busy) else if !current then some (.ok none) else none

/-- The test behind each await. -/
def stale (r : Run ν ε) (current : Bool) : Bool := r.epoch ≠ session.epoch || !current

/-- The `catch` block. -/
def caught (r : Run ν ε) (again : Bool) (e : Failure ε) : RunPc ν ε :=
  .done (if session.stale r again then .ok none else .error e)

/-- What becomes of the text of the model. -/
def render (r : Run ν ε) (again : Bool) (value : ν) : RunPc ν ε :=
  match r.request.transform value with
  | .error e => session.caught r again (.thrown e)
  | .ok none => session.caught r again .invalidCandidate
  | .ok (some rendered) =>
    if isCandidate rendered then .done (.ok (some rendered))
    else session.caught r again .invalidCandidate

/-- The next await of a run whose promise is settled, or its end. -/
def resume (r : Run ν ε) (outcome : Except ε ν) (current again : Bool) : RunPc ν ε :=
  match outcome with
  | .error e => session.caught r again (.thrown e)
  | .ok value =>
    if session.stale r current then .done (.ok none)
    else match r.pc with
      | .loadToken => .readiness value
      | .readiness token => .generate token
      | .generate _ => session.render r again value
      | .done result => .done result

/-- The `finally` block, after a candidate has been kept. -/
def settle (r : Run ν ε) : RunPc ν ε → PreviewSession
  | .done result =>
    { session with
      pending := false
      controller := none
      candidate :=
        match result with
        | .ok (some text) => some ⟨r.request.snapshot, text⟩
        | _ => session.candidate }
  | _ => session

end PreviewSession

/-- A session and its admitted runs, in the order of admission. -/
structure State (ν ε : Type*) where
  session : PreviewSession := {}
  runs : List (Run ν ε) := []

inductive Event (ν ε : Type*) where
  | run (request : Request ν ε) (current : Bool)
  /-- The promise that a run awaits is settled; `isCurrent` is asked at most twice. -/
  | resume (i : ℕ) (outcome : Except ε ν) (current again : Bool)
  | invalidate

namespace State

variable (s : State ν ε)

def admitRun (request : Request ν ε) : State ν ε where
  session :=
    { pending := true
      epoch := s.session.epoch + 1
      candidate := none
      controller := some s.runs.length }
  runs := s.runs ++ [{ request, epoch := s.session.epoch + 1 }]

def invalidate : State ν ε where
  session := { s.session with epoch := s.session.epoch + 1, candidate := none }
  runs :=
    match s.session.controller with
    | some i => s.runs.modify i fun r => { r with aborted := true }
    | none => s.runs

def resume (i : ℕ) (r : Run ν ε) (outcome : Except ε ν) (current again : Bool) : State ν ε :=
  let pc := s.session.resume r outcome current again
  { session := s.session.settle r pc, runs := s.runs.set i { r with pc } }

/-- A run can be resumed while it awaits something. -/
def step : Event ν ε → Option (State ν ε)
  | .run request current =>
    match (s.session.refusal current : Option (Except (Failure ε) (Option Str))) with
    | some _ => some s
    | none => some (s.admitRun request)
  | .resume i outcome current again =>
    match s.runs[i]? with
    | some r => if r.pc.isDone then none else some (s.resume i r outcome current again)
    | none => none
  | .invalidate => some s.invalidate

end State

/-! ## One step -/

namespace PreviewSession

variable {session : PreviewSession} {r : Run ν ε}

/-- A run of an older epoch ends with `null` when it is resumed. -/
lemma resume_of_epoch_ne (h : r.epoch ≠ session.epoch) (outcome : Except ε ν)
    (current again : Bool) : session.resume r outcome current again = .done (.ok none) := by
  have hstale : ∀ current, session.stale r current = true := by simp [stale, h]
  cases outcome <;> simp [resume, caught, hstale]

/-- A text comes out of a run of the current epoch only. -/
lemma epoch_eq_of_resume {outcome : Except ε ν} {current again : Bool} {text : Str}
    (h : session.resume r outcome current again = .done (.ok (some text))) :
    r.epoch = session.epoch := by
  by_contra hne
  rw [resume_of_epoch_ne hne] at h
  cases h

@[simp] lemma settle_epoch (pc : RunPc ν ε) : (session.settle r pc).epoch = session.epoch := by
  cases pc <;> rfl

lemma settle_pending {pc : RunPc ν ε} (h : session.pending = true) :
    (session.settle r pc).pending = !pc.isDone := by
  cases pc with
  | done result => rfl
  | loadToken | readiness | generate => exact h

lemma settle_candidate {pc : RunPc ν ε} {c : Candidate}
    (h : (session.settle r pc).candidate = some c) :
    session.candidate = some c ∨
      (pc = .done (.ok (some c.text)) ∧ r.request.snapshot = c.snapshot) := by
  cases pc with
  | loadToken | readiness | generate => exact .inl h
  | done result =>
    match result with
    | .ok (some text) =>
      obtain rfl : ⟨r.request.snapshot, text⟩ = c := Option.some.inj h
      exact .inr ⟨rfl, rfl⟩
    | .ok none | .error e => exact .inl h

end PreviewSession

namespace State

variable {s s' : State ν ε}

/-- What an event can do. -/
lemma step_cases {event : Event ν ε} (h : s.step event = some s') :
    (∃ request current, event = .run request current ∧
      (s.session.pending = true ∨ current = false) ∧ s' = s) ∨
    (∃ request, event = .run request true ∧ s.session.pending = false ∧ s' = s.admitRun request) ∨
    (∃ i r outcome current again, event = .resume i outcome current again ∧ s.runs[i]? = some r ∧
      r.pc.isDone = false ∧ s' = s.resume i r outcome current again) ∨
    (event = .invalidate ∧ s' = s.invalidate) := by
  cases event with
  | run request current =>
    cases hpending : s.session.pending <;> cases current <;>
      simp_all [step, PreviewSession.refusal]
  | resume i outcome current again =>
    simp only [step] at h
    cases hrun : s.runs[i]? with
    | none => simp [hrun] at h
    | some r =>
      simp only [hrun] at h
      split_ifs at h with hdone
      refine .inr (.inr (.inl ⟨i, r, outcome, current, again, rfl, hrun, ?_, ?_⟩))
      · simpa using hdone
      · exact (Option.some.inj h).symm
  | invalidate => exact .inr (.inr (.inr ⟨rfl, (Option.some.inj h).symm⟩))

@[simp] lemma invalidate_epoch : s.invalidate.session.epoch = s.session.epoch + 1 := rfl

@[simp] lemma invalidate_pending : s.invalidate.session.pending = s.session.pending := rfl

@[simp] lemma invalidate_controller :
    s.invalidate.session.controller = s.session.controller := rfl

@[simp] lemma invalidate_candidate : s.invalidate.session.candidate = none := rfl

/-! ## The invariant -/

/-- At most the last run is unfinished, the fields of the session say whether it is, and a candidate
is the text of the last run. -/
structure Inv (s : State ν ε) : Prop where
  epochs : ∀ r ∈ s.runs, r.epoch ≤ s.session.epoch
  older : ∀ r ∈ s.runs.dropLast, r.pc.isDone = true
  pending : s.session.pending = true ↔ ∃ r, s.runs.getLast? = some r ∧ r.pc.isDone = false
  controller : s.session.controller = if s.session.pending then some (s.runs.length - 1) else none
  candidate : ∀ c, s.session.candidate = some c → ∃ r, s.runs.getLast? = some r ∧
    r.epoch = s.session.epoch ∧ r.pc = .done (.ok (some c.text)) ∧ r.request.snapshot = c.snapshot

lemma Inv.init : ({} : State ν ε).Inv where
  epochs := by simp
  older := by simp
  pending := by simp
  controller := rfl
  candidate := by simp

/-- A run that is not finished is the last one. -/
lemma Inv.eq_concat (hs : s.Inv) {i : ℕ} {r : Run ν ε} (hrun : s.runs[i]? = some r)
    (hr : r.pc.isDone = false) : ∃ older, s.runs = older ++ [r] ∧ i = older.length := by
  obtain ⟨older, last, hruns⟩ : ∃ older last, s.runs = older ++ [last] := by
    rcases List.eq_nil_or_concat' s.runs with hnil | h
    · simp [hnil] at hrun
    · exact h
  have holder := hs.older
  rw [hruns, List.dropLast_concat] at holder
  rw [hruns] at hrun
  by_cases hi : i < older.length
  · rw [List.getElem?_append_left hi] at hrun
    simp [holder r (List.mem_of_getElem? hrun)] at hr
  · rw [List.getElem?_append_right (Nat.le_of_not_lt hi)] at hrun
    obtain ⟨hlt, hlast⟩ := List.getElem?_eq_some_iff.mp hrun
    have hzero : i - older.length = 0 := by simpa using hlt
    simp only [hzero, List.getElem_cons_zero] at hlast
    exact ⟨older, hlast ▸ hruns, by omega⟩

lemma Inv.isDone_of_mem (hs : s.Inv) (hpending : s.session.pending = false) {r : Run ν ε}
    (hr : r ∈ s.runs) : r.pc.isDone = true := by
  by_contra hdone
  obtain ⟨i, hi⟩ := List.mem_iff_getElem?.mp hr
  obtain ⟨older, hruns, -⟩ := hs.eq_concat hi (by simpa using hdone)
  have := hs.pending.mpr ⟨r, by simp [hruns], by simpa using hdone⟩
  simp [hpending] at this

lemma Inv.admitRun (hs : s.Inv) (hpending : s.session.pending = false) (request : Request ν ε) :
    (s.admitRun request).Inv where
  epochs := by
    intro r hr
    obtain hr | rfl := List.mem_append.mp hr |>.imp id List.mem_singleton.mp
    · exact (hs.epochs r hr).trans (Nat.le_succ _)
    · exact le_rfl
  older := by
    intro r hr
    rw [State.admitRun, List.dropLast_concat] at hr
    exact hs.isDone_of_mem hpending hr
  pending := by simp [State.admitRun, RunPc.isDone]
  controller := by simp [State.admitRun]
  candidate := by simp [State.admitRun]

/-- An `invalidate` changes no run but for the signal of its controller. -/
lemma Inv.invalidate_runs (hs : s.Inv) :
    s.invalidate.runs = s.runs ∨ ∃ older r, s.runs = older ++ [r] ∧
      s.invalidate.runs = older ++ [{ r with aborted := true }] := by
  have hcontroller := hs.controller
  split_ifs at hcontroller with hpending
  · obtain ⟨r, hlast, -⟩ := hs.pending.mp hpending
    obtain ⟨older, hruns⟩ := List.getLast?_eq_some_iff.mp hlast
    refine .inr ⟨older, r, hruns, ?_⟩
    simp [State.invalidate, hcontroller, hruns, List.modify_eq_take_cons_drop]
  · exact .inl (by simp [State.invalidate, hcontroller])

lemma Inv.invalidate (hs : s.Inv) : s.invalidate.Inv := by
  obtain hruns | ⟨older, r, hruns, hruns'⟩ := hs.invalidate_runs
  · refine ⟨fun r hr => ?_, ?_, ?_, ?_, by simp⟩
    · exact (hs.epochs r (hruns ▸ hr)).trans (Nat.le_succ _)
    · rw [hruns]
      exact hs.older
    · rw [hruns]
      exact hs.pending
    · rw [hruns]
      exact hs.controller
  · have hepochs := hs.epochs
    have holder := hs.older
    have hpending := hs.pending
    have hcontroller := hs.controller
    rw [hruns] at hepochs holder hpending hcontroller
    refine ⟨?_, ?_, ?_, ?_, by simp⟩
    · intro r' hr'
      rw [hruns', List.mem_append, List.mem_singleton] at hr'
      obtain hr' | rfl := hr'
      · exact (hepochs r' (by simp [hr'])).trans (Nat.le_succ _)
      · exact (hepochs r (by simp)).trans (Nat.le_succ _)
    · rw [List.dropLast_concat] at holder
      rwa [hruns', List.dropLast_concat]
    · rw [hruns']
      simpa using hpending
    · rw [hruns']
      simpa using hcontroller

lemma Inv.resume (hs : s.Inv) {i : ℕ} {r : Run ν ε} (hrun : s.runs[i]? = some r)
    (hr : r.pc.isDone = false) (outcome : Except ε ν) (current again : Bool) :
    (s.resume i r outcome current again).Inv := by
  obtain ⟨older, hruns, rfl⟩ := hs.eq_concat hrun hr
  have hbusy : s.session.pending = true := hs.pending.mpr ⟨r, by simp [hruns], hr⟩
  have hepochs := hs.epochs
  have holder := hs.older
  have hcontroller := hs.controller
  rw [hruns] at hepochs holder hcontroller
  rw [List.dropLast_concat] at holder
  simp only [hbusy, if_true, List.length_append, List.length_singleton] at hcontroller
  simp only [State.resume, hruns, List.set_append_right _ _ le_rfl, Nat.sub_self,
    List.set_cons_zero]
  refine ⟨?_, ?_, ?_, ?_, ?_⟩
  · intro r' hr'
    rw [List.mem_append, List.mem_singleton] at hr'
    rw [PreviewSession.settle_epoch]
    obtain hr' | rfl := hr'
    · exact hepochs r' (by simp [hr'])
    · exact hepochs r (by simp)
  · rwa [List.dropLast_concat]
  · simp [PreviewSession.settle_pending hbusy]
  · rw [PreviewSession.settle_pending hbusy]
    cases hpc : s.session.resume r outcome current again with
    | done result => rfl
    | loadToken | readiness | generate => simpa [PreviewSession.settle, RunPc.isDone] using hcontroller
  · intro c hc
    obtain hc | ⟨hpc, hsnapshot⟩ := PreviewSession.settle_candidate hc
    · -- the last run is not finished, so it has no candidate yet
      obtain ⟨last, hlast, -, hpc, -⟩ := hs.candidate c hc
      simp only [hruns, List.getLast?_concat, Option.some.injEq] at hlast
      rw [← hlast] at hpc
      simp [hpc, RunPc.isDone] at hr
    · refine ⟨_, List.getLast?_concat, ?_, hpc, hsnapshot⟩
      simpa using PreviewSession.epoch_eq_of_resume hpc

lemma Inv.step (hs : s.Inv) {event : Event ν ε} (h : s.step event = some s') : s'.Inv := by
  rcases step_cases h with ⟨request, current, -, -, rfl⟩ | ⟨request, -, hpending, rfl⟩ |
    ⟨i, r, outcome, current, again, -, hrun, hr, rfl⟩ | ⟨-, rfl⟩
  · exact hs
  · exact hs.admitRun hpending request
  · exact hs.resume hrun hr outcome current again
  · exact hs.invalidate

/-! ## An interrupted run -/

lemma epoch_le_step {event : Event ν ε} (h : s.step event = some s') :
    s.session.epoch ≤ s'.session.epoch := by
  rcases step_cases h with ⟨request, current, -, -, rfl⟩ | ⟨request, -, -, rfl⟩ |
    ⟨i, r, outcome, current, again, -, -, -, rfl⟩ | ⟨-, rfl⟩
  · exact le_rfl
  · exact Nat.le_succ _
  · simp [State.resume]
  · exact Nat.le_succ _

/-- A run keeps its epoch, and moves only when it is resumed. -/
lemma getElem?_step {event : Event ν ε} (h : s.step event = some s') {i : ℕ} {r : Run ν ε}
    (hrun : s.runs[i]? = some r) :
    ∃ r', s'.runs[i]? = some r' ∧ r'.epoch = r.epoch ∧ (r'.pc = r.pc ∨ ∃ outcome current again,
      event = .resume i outcome current again ∧
        r'.pc = s.session.resume r outcome current again) := by
  rcases step_cases h with ⟨request, current, -, -, rfl⟩ | ⟨request, -, -, rfl⟩ |
    ⟨j, r₀, outcome, current, again, rfl, hj, hr₀, rfl⟩ | ⟨-, rfl⟩
  · exact ⟨r, hrun, rfl, .inl rfl⟩
  · have hlt : i < s.runs.length := (List.getElem?_eq_some_iff.mp hrun).1
    exact ⟨r, by simp [admitRun, List.getElem?_append_left hlt, hrun], rfl, .inl rfl⟩
  · by_cases hij : j = i
    · subst hij
      obtain rfl : r₀ = r := Option.some.inj (hj.symm.trans hrun)
      have hlt : j < s.runs.length := (List.getElem?_eq_some_iff.mp hrun).1
      refine ⟨{ r₀ with pc := s.session.resume r₀ outcome current again }, ?_, rfl, ?_⟩
      · simp [State.resume, hlt]
      · exact .inr ⟨outcome, current, again, rfl, rfl⟩
    · exact ⟨r, by simp [State.resume, List.getElem?_set_ne hij, hrun], rfl, .inl rfl⟩
  · simp only [State.invalidate]
    cases s.session.controller with
    | none => exact ⟨r, hrun, rfl, .inl rfl⟩
    | some k =>
      simp only [List.getElem?_modify, hrun, Option.map_eq_map, Option.map_some]
      exact ⟨_, rfl, by split_ifs <;> rfl, .inl (by split_ifs <;> rfl)⟩

/-- The run `i` belongs to an older epoch, and has not moved from `pc` except to end with `null`. -/
def Interrupted (i : ℕ) (pc : RunPc ν ε) (s : State ν ε) : Prop :=
  ∃ r, s.runs[i]? = some r ∧ r.epoch < s.session.epoch ∧ (r.pc = pc ∨ r.pc = .done (.ok none))

lemma Interrupted.step {i : ℕ} {pc : RunPc ν ε} (hs : s.Interrupted i pc) {event : Event ν ε}
    (h : s.step event = some s') : s'.Interrupted i pc := by
  obtain ⟨r, hrun, hepoch, hpc⟩ := hs
  obtain ⟨r', hrun', hepoch', hmove⟩ := getElem?_step h hrun
  refine ⟨r', hrun', hepoch' ▸ hepoch.trans_le (epoch_le_step h), ?_⟩
  rcases hmove with hmove | ⟨outcome, current, again, -, hmove⟩
  · rw [hmove]
    exact hpc
  · rw [hmove, PreviewSession.resume_of_epoch_ne hepoch.ne]
    exact .inr rfl

/-- Resuming an interrupted run ends it and leaves the candidate alone. -/
lemma Interrupted.resume {i : ℕ} {pc : RunPc ν ε} (hs : s.Interrupted i pc)
    {outcome : Except ε ν} {current again : Bool}
    (h : s.step (.resume i outcome current again) = some s') :
    s'.session.candidate = s.session.candidate ∧
      ∃ r, s'.runs[i]? = some r ∧ r.pc = .done (.ok none) := by
  obtain ⟨r, hrun, hepoch, -⟩ := hs
  have hlt : i < s.runs.length := (List.getElem?_eq_some_iff.mp hrun).1
  simp only [State.step, hrun] at h
  split_ifs at h with hdone
  obtain rfl := Option.some.inj h
  have hpc := PreviewSession.resume_of_epoch_ne hepoch.ne outcome current again
  refine ⟨?_, { r with pc := .done (.ok none) }, ?_, rfl⟩
  · simp only [State.resume, hpc]
    rfl
  · simp [State.resume, hpc, hlt]

lemma interrupted_invalidate (hs : s.Inv) {i : ℕ} {r : Run ν ε} (hrun : s.runs[i]? = some r) :
    s.invalidate.Interrupted i r.pc := by
  have hstep : s.step .invalidate = some s.invalidate := rfl
  obtain ⟨r', hrun', hepoch, hpc⟩ := getElem?_step hstep hrun
  refine ⟨r', hrun', ?_, ?_⟩
  · rw [hepoch, invalidate_epoch]
    exact Nat.lt_succ_of_le (hs.epochs r (List.mem_of_getElem? hrun))
  · obtain hpc | ⟨outcome, current, again, hevent, -⟩ := hpc
    · exact .inl hpc
    · cases hevent

end State

/-! ## Runs -/

section Runs

variable {events : List (Event ν ε)} {s : State ν ε}

/-- The state after some events on a new session. -/
def runEvents (events : List (Event ν ε)) : Option (State ν ε) := Transition.run State.step {} events

lemma inv_runEvents (h : runEvents events = some s) : s.Inv :=
  Transition.run_invariant State.step (fun _ _ _ hs h => hs.step h) .init h

/-- The last of the admitted runs was admitted for `request`, and nothing has invalidated it. -/
def AdmittedLast (events : List (Event ν ε)) (s : State ν ε) (request : Request ν ε) : Prop :=
  ∃ before later t, events = before ++ .run request true :: later ∧ runEvents before = some t ∧
    t.session.pending = false ∧ s.runs.length = t.runs.length + 1 ∧ .invalidate ∉ later

lemma AdmittedLast.concat {request : Request ν ε} (h : AdmittedLast events s request)
    {s' : State ν ε} {event : Event ν ε} (hevent : event ≠ .invalidate)
    (hlength : s'.runs.length = s.runs.length) :
    AdmittedLast (events ++ [event]) s' request := by
  obtain ⟨before, later, t, rfl, hbefore, hpending, hruns, hlater⟩ := h
  refine ⟨before, later ++ [event], t, by simp, hbefore, hpending, hlength.trans hruns, ?_⟩
  simp [hlater, Ne.symm hevent]

/-- The epoch of the last run is current as long as nothing invalidates it. -/
lemma admittedLast_of_epoch (h : runEvents events = some s) :
    ∀ r, s.runs.getLast? = some r → r.epoch = s.session.epoch → AdmittedLast events s r.request := by
  refine Transition.run_induction State.step (P := fun events s => ∀ r, s.runs.getLast? = some r →
    r.epoch = s.session.epoch → AdmittedLast events s r.request) ?_ ?_ h
  · simp
  · intro events t event t' ht ih hstep r hlast hepoch
    rcases State.step_cases hstep with ⟨request, current, rfl, -, rfl⟩ |
      ⟨request, rfl, hpending, rfl⟩ | ⟨i, r₀, outcome, current, again, rfl, hrun, hr₀, rfl⟩ | ⟨rfl, rfl⟩
    · exact (ih r hlast hepoch).concat (by simp) rfl
    · obtain rfl : _ = r := by simpa [State.admitRun] using hlast
      exact ⟨events, [], t, rfl, ht, hpending, by simp [State.admitRun], by simp⟩
    · obtain ⟨older, hruns, rfl⟩ := (inv_runEvents ht).eq_concat hrun hr₀
      simp only [State.resume, hruns, List.set_append_right _ _ le_rfl, Nat.sub_self,
        List.set_cons_zero, List.getLast?_concat, Option.some.injEq] at hlast
      subst hlast
      refine (ih r₀ (by simp [hruns]) ?_).concat (by simp) (by simp [State.resume])
      simpa [State.resume] using hepoch
    · have hle : r.epoch ≤ t.session.epoch := by
        obtain hruns | ⟨older, r₀, hruns, hruns'⟩ := (inv_runEvents ht).invalidate_runs
        · exact (inv_runEvents ht).epochs r (hruns ▸ List.mem_of_getLast? hlast)
        · rw [hruns', List.getLast?_concat, Option.some.injEq] at hlast
          rw [← hlast]
          exact (inv_runEvents ht).epochs r₀ (by simp [hruns])
      rw [hepoch, State.invalidate_epoch] at hle
      omega

lemma interrupted_runEvents (h : runEvents events = some s) {before later : List (Event ν ε)}
    {t : State ν ε} {i : ℕ} {r : Run ν ε} (hevents : events = before ++ .invalidate :: later)
    (hbefore : runEvents before = some t) (hrun : t.runs[i]? = some r) : s.Interrupted i r.pc := by
  rw [hevents, runEvents, Transition.run_append, ← runEvents, hbefore, Option.bind_some,
    Transition.run_cons] at h
  have hlater : Transition.run State.step t.invalidate later = some s := h
  exact Transition.run_invariant State.step (fun _ _ _ hs hstep => hs.step hstep)
    (State.interrupted_invalidate (inv_runEvents hbefore) hrun) hlater

end Runs

/-! ## What holds after every run -/

/-- The session after some events: one run at a time, nothing from an interrupted run, and a text
only from the last run. -/
structure Consistent (events : List (Event ν ε)) (s : State ν ε) : Prop where
  /-- At most one admitted run is unfinished. -/
  unique : ∀ (i j : ℕ) (r r' : Run ν ε), s.runs[i]? = some r → r.pc.isDone = false →
    s.runs[j]? = some r' → r'.pc.isDone = false → i = j
  pending : s.session.pending = true ↔ ∃ r ∈ s.runs, r.pc.isDone = false
  /-- A run that an `invalidate` found unfinished is where it was, or has ended with `null`. -/
  interrupted : ∀ before later (t : State ν ε) (i : ℕ) (r : Run ν ε),
    events = before ++ .invalidate :: later → runEvents before = some t → t.runs[i]? = some r → r.pc.isDone = false →
      ∃ r', s.runs[i]? = some r' ∧ (r'.pc = r.pc ∨ r'.pc = .done (.ok none))
  /-- Going on with it calls nothing and leaves the candidate alone. -/
  discarded : ∀ before later (t : State ν ε) (i : ℕ) (r : Run ν ε),
    events = before ++ .invalidate :: later → runEvents before = some t → t.runs[i]? = some r → r.pc.isDone = false →
      ∀ outcome current again s', s.step (.resume i outcome current again) = some s' →
        s'.session.candidate = s.session.candidate ∧
          ∃ r', s'.runs[i]? = some r' ∧ r'.pc = .done (.ok none)
  /-- What `peek` shows was rendered by the last admitted run, for an equal snapshot. -/
  peek : ∀ snapshot text, s.session.peek snapshot = some text →
    ∃ r, s.runs.getLast? = some r ∧ r.pc = .done (.ok (some text)) ∧
      sameSnapshot (some r.request.snapshot) (some snapshot) = true ∧
      AdmittedLast events s r.request

theorem runEvents_consistent {events : List (Event ν ε)} {s : State ν ε}
    (h : runEvents events = some s) : Consistent events s := by
  have hs := inv_runEvents h
  refine ⟨?_, ?_, ?_, ?_, ?_⟩
  · intro i j r r' hi hr hj hr'
    obtain ⟨older, hruns, rfl⟩ := hs.eq_concat hi hr
    obtain ⟨older', hruns', rfl⟩ := hs.eq_concat hj hr'
    have hlength := congrArg List.length (hruns.symm.trans hruns')
    simpa using hlength
  · constructor
    · intro hpending
      obtain ⟨r, hlast, hr⟩ := hs.pending.mp hpending
      exact ⟨r, List.mem_of_getLast? hlast, hr⟩
    · rintro ⟨r, hr, hdone⟩
      obtain ⟨i, hi⟩ := List.mem_iff_getElem?.mp hr
      obtain ⟨older, hruns, -⟩ := hs.eq_concat hi hdone
      exact hs.pending.mpr ⟨r, by simp [hruns], hdone⟩
  · intro before later t i r hevents hbefore hrun _
    obtain ⟨r', hrun', -, hpc⟩ := interrupted_runEvents h hevents hbefore hrun
    exact ⟨r', hrun', hpc⟩
  · intro before later t i r hevents hbefore hrun _ outcome current again s' hstep
    exact (interrupted_runEvents h hevents hbefore hrun).resume hstep
  · intro snapshot text hpeek
    rw [PreviewSession.peek] at hpeek
    split at hpeek
    · rename_i c hc
      split_ifs at hpeek with hsame
      obtain rfl := Option.some.inj hpeek
      obtain ⟨r, hlast, hepoch, hpc, hsnapshot⟩ := hs.candidate c hc
      exact ⟨r, hlast, hpc, hsnapshot ▸ hsame, admittedLast_of_epoch h r hlast hepoch⟩
    · cases hpeek

namespace Sample

/-- A request at the end of the first line of a file. -/
def request : Request Str Unit where
  snapshot := ⟨"file:///a.js".toList, 1, 0, 4⟩
  prompt := "let ".toList
  transform value := .ok (some value)

/-- Token, readiness and text arrive while the request is current. -/
def previewRun : List (Event Str Unit) :=
  [.run request true, .resume 0 (.ok "token".toList) true true, .resume 0 (.ok []) true true,
    .resume 0 (.ok "x = 1".toList) true true]

def previewed : State Str Unit where
  session := { epoch := 1, candidate := some ⟨request.snapshot, "x = 1".toList⟩ }
  runs := [{ request, epoch := 1, pc := .done (.ok (some "x = 1".toList)) }]

theorem runEvents_consistent_previewRun :
    runEvents previewRun = some previewed ∧ Consistent previewRun previewed :=
  ⟨rfl, runEvents_consistent rfl⟩

end Sample

end AxiomGrid.Extensions
