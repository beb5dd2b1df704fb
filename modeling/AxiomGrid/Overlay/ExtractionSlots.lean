import AxiomGrid.Lib.Transition

/-!
# The permits of document extraction

`extract_document` of `overlay/server.py` takes a permit of a `BoundedSemaphore`, hands the work to
a thread pool and leaves the release to a callback of the future. A step is a stretch of a handler,
of a worker or of the shutdown that another thread can observe: in particular the work may be done
before the callback is attached. A future runs its callbacks once, when it is completed or
cancelled, and a callback that is attached later runs at once.

When the deadline passes or the client goes away, the awaiting future is cancelled at once and the
cancellation reaches the work in a later turn of the event loop; it takes effect only on work that
has not started.
-/

namespace AxiomGrid.Overlay

/-- How the function of an extraction ends. -/
inductive WorkResult where
  | value
  | httpException (status : ℕ)
  | timeoutError
  | otherError
  deriving DecidableEq, Repr

/-- A `concurrent.futures.Future`. -/
inductive FutureState where
  | pending
  | running
  | cancelled
  | finished (result : WorkResult)
  deriving DecidableEq, Repr

def FutureState.isDone : FutureState → Bool
  | .pending | .running => false
  | .cancelled | .finished _ => true

/-- What a call of `/api/extract-document` answers. -/
inductive ExtractAnswer where
  /-- 503: there is no permit. -/
  | saturated
  /-- The pool refuses the work, and the error is raised again. -/
  | refused
  /-- 504: the deadline of the request has passed. -/
  | deadline
  /-- The awaiting task is cancelled. -/
  | cancelled
  | httpError (status : ℕ)
  | response
  deriving DecidableEq, Repr

/-- The `except` clauses behind the await. -/
def ExtractAnswer.ofResult : WorkResult → ExtractAnswer
  | .value => .response
  | .httpException status => .httpError status
  | .timeoutError => .deadline
  | .otherError => .httpError 500

/-- The point a call has reached. -/
inductive ExtractPc where
  | start
  /-- It has a permit and is about to submit its work. -/
  | submit
  /-- The work is submitted and the callback not yet attached. -/
  | attach
  | await
  | returned (answer : ExtractAnswer)
  deriving DecidableEq, Repr

/-- A call and its work. The work goes on when the call has returned. -/
structure ExtractCall where
  pc : ExtractPc := .start
  work : Option FutureState := none
  /-- Its callback is attached. -/
  attached : Bool := false
  /-- The awaiting future is cancelled, and the work not yet told. -/
  cancelling : Bool := false
  /-- How often the permit has been released. -/
  releases : ℕ := 0
  deriving DecidableEq, Repr

/-- The semaphore, the pool and the calls. -/
structure ExtractState where
  /-- The value of the semaphore. -/
  free : ℕ
  /-- A release has raised `ValueError`. -/
  overReleased : Bool := false
  shutdown : Bool := false
  calls : List ExtractCall := []

inductive ExtractEvent where
  | arrive
  | acquire (i : ℕ)
  | submit (i : ℕ) (accepted : Bool)
  | attach (i : ℕ)
  /-- A worker takes the work from the queue. -/
  | start (i : ℕ)
  | complete (i : ℕ) (result : WorkResult)
  /-- The await returns. -/
  | answer (i : ℕ)
  | timeout (i : ℕ)
  | disconnect (i : ℕ)
  /-- The cancellation of the awaiting future reaches the work. -/
  | cancelWork (i : ℕ)
  | shutdown
  /-- The shutdown cancels a future from the queue. -/
  | cancelQueued (i : ℕ)
  /-- The application starts again with a new pool. -/
  | reopen

/-- The call an event is about. -/
def ExtractEvent.call? : ExtractEvent → Option ℕ
  | .acquire i | .submit i _ | .attach i | .start i | .complete i _ | .answer i | .timeout i
  | .disconnect i | .cancelWork i | .cancelQueued i => some i
  | .arrive | .shutdown | .reopen => none

namespace ExtractState

variable (capacity : ℕ) (s : ExtractState)

def setCall (i : ℕ) (c : ExtractCall) : ExtractState := { s with calls := s.calls.set i c }

/-- `BoundedSemaphore.release` on behalf of a call. -/
def release (i : ℕ) (c : ExtractCall) : ExtractState :=
  let c := { c with releases := c.releases + 1 }
  if s.free < capacity then { s.setCall i c with free := s.free + 1 }
  else { s.setCall i c with overReleased := true }

/-- The work has a new state; when it is done, an attached callback runs. -/
def setWork (i : ℕ) (c : ExtractCall) (w : FutureState) : ExtractState :=
  let c := { c with work := some w }
  if w.isDone && c.attached then s.release capacity i c else s.setCall i c

/-- `Future.cancel`. -/
def cancelFuture (i : ℕ) (c : ExtractCall) : ExtractState :=
  if c.work = some .pending then s.setWork capacity i c .cancelled else s.setCall i c

/-- The next stretch of a call, where it is enabled. -/
def stepCall (i : ℕ) (c : ExtractCall) : ExtractEvent → Option ExtractState
  | .acquire _ =>
    if c.pc = .start then
      if s.free = 0 then some (s.setCall i { c with pc := .returned .saturated })
      else some { s.setCall i { c with pc := .submit } with free := s.free - 1 }
    else none
  | .submit _ accepted =>
    if c.pc = .submit then
      if accepted then
        -- a pool that is shut down refuses all work
        if s.shutdown then none
        else some (s.setCall i { c with pc := .attach, work := some .pending })
      else some (s.release capacity i { c with pc := .returned .refused })
    else none
  | .attach _ =>
    if c.pc = .attach then
      let c := { c with pc := .await, attached := true }
      if c.work.any FutureState.isDone then some (s.release capacity i c) else some (s.setCall i c)
    else none
  | .start _ => if c.work = some .pending then some (s.setWork capacity i c .running) else none
  | .complete _ result =>
    if c.work = some .running then some (s.setWork capacity i c (.finished result)) else none
  | .answer _ =>
    if c.pc = .await then
      match c.work with
      | some (.finished result) => some (s.setCall i { c with pc := .returned (.ofResult result) })
      | some .cancelled => some (s.setCall i { c with pc := .returned .cancelled })
      | _ => none
    else none
  | .timeout _ =>
    if c.pc = .await then
      some (s.setCall i { c with pc := .returned .deadline, cancelling := true })
    else none
  | .disconnect _ =>
    if c.pc = .await then
      some (s.setCall i { c with pc := .returned .cancelled, cancelling := true })
    else none
  | .cancelWork _ =>
    if c.cancelling then some (s.cancelFuture capacity i { c with cancelling := false }) else none
  | .cancelQueued _ => if s.shutdown then some (s.cancelFuture capacity i c) else none
  | _ => none

def step (event : ExtractEvent) : Option ExtractState :=
  match event.call? with
  | some i => s.calls[i]?.bind fun c => s.stepCall capacity i c event
  | none =>
    match event with
    | .arrive => some { s with calls := s.calls ++ [{}] }
    | .shutdown => some { s with shutdown := true }
    | .reopen => some { s with shutdown := false }
    | _ => none

end ExtractState

/-! ## Permits that are out -/

namespace ExtractCall

/-- The call has taken a permit. -/
def acquired (c : ExtractCall) : Bool := c.pc ≠ .start && c.pc ≠ .returned .saturated

/-- Its permit is out: its work is not submitted yet, or has no callback yet, or is not done. -/
def holds (c : ExtractCall) : Bool :=
  c.pc = .submit || c.pc = .attach || (c.attached && !c.work.any FutureState.isDone)

/-- The permit has been released once if it is no longer out, and a callback is only there behind
the submission. -/
structure Sound (c : ExtractCall) : Prop where
  releases : c.releases = if c.acquired && !c.holds then 1 else 0
  attached : c.attached = true →
    c.pc ≠ .start ∧ c.pc ≠ .submit ∧ c.pc ≠ .attach ∧ c.pc ≠ .returned .saturated

lemma sound_new : Sound {} := ⟨rfl, by simp⟩

end ExtractCall

namespace ExtractState

variable {capacity : ℕ} {s s' : ExtractState} {i : ℕ} {c : ExtractCall}

/-- A step of one call: the call stays sound, and the permit it takes or gives back is the one the
semaphore loses or gains. -/
structure Moves (s : ExtractState) (i : ℕ) (c : ExtractCall) (s' : ExtractState) : Prop where
  call : ∃ c', c'.Sound ∧ s'.calls = s.calls.set i c' ∧
    s'.free + c'.holds.toNat = s.free + c.holds.toNat
  overReleased : s'.overReleased = s.overReleased

/-- A step that leaves the semaphore alone. -/
lemma moves_setCall {c' : ExtractCall} (hsound : c'.Sound) (hholds : c'.holds = c.holds) :
    Moves s i c (s.setCall i c') where
  call := ⟨c', hsound, rfl, by rw [hholds]; rfl⟩
  overReleased := rfl

/-- A step that gives the permit back. -/
lemma moves_release (hfree : c.holds = true → s.free < capacity) (hholds : c.holds = true)
    (hc : c.Sound) {c' : ExtractCall} (hreleases : c'.releases = c.releases)
    (hacquired : c'.acquired = true) (hout : c'.holds = false)
    (hattached : c'.attached = true →
      c'.pc ≠ .start ∧ c'.pc ≠ .submit ∧ c'.pc ≠ .attach ∧ c'.pc ≠ .returned .saturated) :
    Moves s i c (s.release capacity i c') := by
  have hzero : c.releases = 0 := by simp [hc.releases, hholds]
  have hout' : ({ c' with releases := c'.releases + 1 } : ExtractCall).holds = false := hout
  have hacquired' : ({ c' with releases := c'.releases + 1 } : ExtractCall).acquired = true :=
    hacquired
  simp only [release, hfree hholds, if_true]
  refine ⟨⟨{ c' with releases := c'.releases + 1 }, ⟨?_, hattached⟩, rfl, ?_⟩, rfl⟩
  · simp only [hout', hacquired', Bool.not_false, Bool.and_self, if_true]
    rw [hreleases, hzero]
  · simp [hout', hholds]

lemma moves_setWork (hfree : c.holds = true → s.free < capacity) (hc : c.Sound)
    (hwork : c.work = some .pending ∨ c.work = some .running) (w : FutureState) :
    Moves s i c (s.setWork capacity i c w) := by
  have hnot : c.work.any FutureState.isDone = false := by
    rcases hwork with hwork | hwork <;> simp [hwork, FutureState.isDone]
  simp only [setWork]
  split_ifs with hdone
  · simp only [Bool.and_eq_true] at hdone
    obtain ⟨hstart, hsubmit, hattach, hsaturated⟩ := hc.attached hdone.2
    refine moves_release hfree ?_ hc rfl ?_ ?_ hc.attached
    · simp [ExtractCall.holds, hdone.2, hnot]
    · simp [ExtractCall.acquired, hstart, hsaturated]
    · simp [ExtractCall.holds, hsubmit, hattach, hdone.1]
  · have hholds : ({ c with work := some w } : ExtractCall).holds = c.holds := by
      cases hattached : c.attached with
      | false => simp [ExtractCall.holds, hattached]
      | true =>
        have hw : w.isDone = false := by simpa [hattached] using hdone
        simp [ExtractCall.holds, hattached, hnot, hw]
    refine moves_setCall ⟨?_, hc.attached⟩ hholds
    rw [hholds]
    exact hc.releases

lemma moves_cancelFuture (hfree : c.holds = true → s.free < capacity) (hc : c.Sound) :
    Moves s i c (s.cancelFuture capacity i c) := by
  simp only [cancelFuture]
  split_ifs with hwork
  · exact moves_setWork hfree hc (.inl hwork) .cancelled
  · exact moves_setCall hc rfl

/-- A call that stops waiting keeps its permit out. -/
lemma moves_return (hc : c.Sound) (hpc : c.pc = .await) {answer : ExtractAnswer}
    (hanswer : answer ≠ .saturated) (cancelling : Bool) :
    Moves s i c (s.setCall i { c with pc := .returned answer, cancelling }) := by
  refine moves_setCall ⟨?_, ?_⟩ (by simp [ExtractCall.holds, hpc])
  · have hreleases := hc.releases
    simpa [ExtractCall.holds, ExtractCall.acquired, hpc, hanswer] using hreleases
  · simp [hanswer]

lemma moves_acquire (hc : c.Sound) (hpc : c.pc = .start) (hpositive : s.free ≠ 0) :
    Moves s i c { s.setCall i { c with pc := .submit } with free := s.free - 1 } := by
  have hattached : c.attached = false := by
    cases hattached : c.attached with
    | false => rfl
    | true => exact absurd hpc (hc.attached hattached).1
  have hreleases : c.releases = 0 := by simp [hc.releases, ExtractCall.acquired, hpc]
  refine ⟨⟨{ c with pc := .submit }, ⟨?_, ?_⟩, rfl, ?_⟩, rfl⟩
  · simpa [ExtractCall.holds] using hreleases
  · simp [hattached]
  · simp only [ExtractCall.holds, hpc, hattached]
    simp
    omega

lemma moves_stepCall (hfree : c.holds = true → s.free < capacity) (hc : c.Sound)
    {event : ExtractEvent} (h : s.stepCall capacity i c event = some s') : Moves s i c s' := by
  cases event with
  | acquire =>
    simp only [stepCall] at h
    split_ifs at h with hpc hempty
    · cases h
      refine moves_setCall ⟨?_, ?_⟩ (by simp [ExtractCall.holds, hpc])
      · simp [hc.releases, ExtractCall.acquired, hpc]
      · intro hattached
        exact absurd hpc (hc.attached hattached).1
    · cases h
      exact moves_acquire hc hpc hempty
  | submit _ accepted =>
    simp only [stepCall] at h
    split_ifs at h with hpc haccepted hshutdown
    · cases h
      have hreleases := hc.releases
      refine moves_setCall ⟨?_, ?_⟩ (by simp [ExtractCall.holds, hpc])
      · simpa [ExtractCall.holds, hpc] using hreleases
      · intro hattached
        exact absurd hpc (hc.attached hattached).2.1
    · cases h
      have hattached : c.attached = false := by
        cases hattached : c.attached with
        | false => rfl
        | true => exact absurd hpc (hc.attached hattached).2.1
      refine moves_release hfree ?_ hc rfl ?_ ?_ ?_
      · simp [ExtractCall.holds, hpc]
      · simp [ExtractCall.acquired]
      · simp [ExtractCall.holds, hattached]
      · simp [hattached]
  | attach =>
    simp only [stepCall] at h
    split_ifs at h with hpc hdone
    · cases h
      refine moves_release hfree ?_ hc rfl ?_ ?_ ?_
      · simp [ExtractCall.holds, hpc]
      · simp [ExtractCall.acquired]
      · simp [ExtractCall.holds, hdone]
      · simp
    · cases h
      have hreleases := hc.releases
      refine moves_setCall ⟨?_, by simp⟩ (by simp [ExtractCall.holds, hpc, hdone])
      simpa [ExtractCall.holds, hpc, hdone] using hreleases
  | start =>
    simp only [stepCall] at h
    split_ifs at h with hwork
    cases h
    exact moves_setWork hfree hc (.inl hwork) .running
  | complete _ result =>
    simp only [stepCall] at h
    split_ifs at h with hwork
    cases h
    exact moves_setWork hfree hc (.inr hwork) (.finished result)
  | answer =>
    simp only [stepCall] at h
    split_ifs at h with hpc
    split at h
    · cases h
      rename_i result _
      apply moves_return hc hpc
      cases result <;> simp [ExtractAnswer.ofResult]
    · cases h
      apply moves_return hc hpc
      simp
    · cases h
  | timeout | disconnect =>
    simp only [stepCall] at h
    split_ifs at h with hpc
    cases h
    apply moves_return hc hpc
    simp
  | cancelWork =>
    simp only [stepCall] at h
    split_ifs at h
    cases h
    have hsound : ({ c with cancelling := false } : ExtractCall).Sound :=
      ⟨hc.releases, hc.attached⟩
    have hmoves : Moves s i { c with cancelling := false } _ := moves_cancelFuture hfree hsound
    exact ⟨hmoves.call, hmoves.overReleased⟩
  | cancelQueued =>
    simp only [stepCall] at h
    split_ifs at h
    cases h
    exact moves_cancelFuture hfree hc
  | arrive | shutdown | reopen => cases h

/-! ## Every interleaving -/

structure Accounted (capacity : ℕ) (s : ExtractState) : Prop where
  sound : ∀ c ∈ s.calls, c.Sound
  permits : s.free + s.calls.countP ExtractCall.holds = capacity
  overReleased : s.overReleased = false

lemma Accounted.lt_of_holds (hs : s.Accounted capacity) (hc : c ∈ s.calls) (hholds : c.holds = true) :
    s.free < capacity := by
  have hpositive : 0 < s.calls.countP ExtractCall.holds := List.countP_pos_iff.mpr ⟨c, hc, hholds⟩
  have := hs.permits
  omega

lemma Accounted.moves (hs : s.Accounted capacity) (hc : s.calls[i]? = some c)
    (h : Moves s i c s') : s'.Accounted capacity := by
  obtain ⟨c', hsound, hcalls, hfree⟩ := h.call
  refine ⟨?_, ?_, h.overReleased.trans hs.overReleased⟩
  · intro d hd
    rw [hcalls] at hd
    obtain hd | rfl := List.mem_or_eq_of_mem_set hd
    · exact hs.sound d hd
    · exact hsound
  · have hcount := List.countP_set_add ExtractCall.holds hc c'
    have hpermits := hs.permits
    rw [hcalls]
    omega

lemma Accounted.step (hs : s.Accounted capacity) {event : ExtractEvent}
    (h : s.step capacity event = some s') : s'.Accounted capacity := by
  simp only [ExtractState.step] at h
  split at h
  · obtain ⟨c, hc, hstep⟩ := Option.bind_eq_some_iff.mp h
    have hmem := List.mem_of_getElem? hc
    exact hs.moves hc (moves_stepCall (hs.lt_of_holds hmem) (hs.sound c hmem) hstep)
  · split at h
    · cases h
      refine ⟨?_, ?_, hs.overReleased⟩
      · intro d hd
        obtain hd | rfl := List.mem_append.mp hd |>.imp id List.mem_singleton.mp
        · exact hs.sound d hd
        · exact ExtractCall.sound_new
      · simpa [ExtractCall.holds] using hs.permits
    · cases h
      exact ⟨hs.sound, hs.permits, hs.overReleased⟩
    · cases h
      exact ⟨hs.sound, hs.permits, hs.overReleased⟩
    · cases h

/-- The server after some events. -/
def runEvents (capacity : ℕ) (events : List ExtractEvent) : Option ExtractState :=
  Transition.run (ExtractState.step capacity) { free := capacity } events

/-- In every interleaving the permits that are not free are out for a call whose work is not
submitted, has no callback yet or is not done; each acquired permit is released once, when that
ends; and the semaphore is never released above its capacity. -/
theorem permits_accounted {capacity : ℕ} {events : List ExtractEvent} {s : ExtractState}
    (h : runEvents capacity events = some s) :
    s.free + s.calls.countP ExtractCall.holds = capacity ∧
      (∀ c ∈ s.calls, c.releases = if c.acquired && !c.holds then 1 else 0) ∧
      s.overReleased = false := by
  have hs : s.Accounted capacity :=
    Transition.run_invariant _ (fun _ _ _ hs h => hs.step h) ⟨by simp, by simp, rfl⟩ h
  exact ⟨hs.permits, fun c hc => (hs.sound c hc).releases, hs.overReleased⟩

end ExtractState

namespace Sample

/-- The work is done before its callback is attached. -/
def earlyRun : List ExtractEvent :=
  [.arrive, .acquire 0, .submit 0 true, .start 0, .complete 0 .value]

def earlyState : ExtractState where
  free := 0
  calls := [{ pc := .attach, work := some (.finished .value) }]

lemma run_earlyRun : ExtractState.runEvents 1 earlyRun = some earlyState := rfl

theorem permits_accounted_earlyRun :
    ExtractState.runEvents 1 earlyRun = some earlyState ∧
      earlyState.free + earlyState.calls.countP ExtractCall.holds = 1 ∧
      (∀ c ∈ earlyState.calls, c.releases = if c.acquired && !c.holds then 1 else 0) ∧
      earlyState.overReleased = false :=
  ⟨run_earlyRun, ExtractState.permits_accounted run_earlyRun⟩

/-- The work of a call is not done, or about to be submitted. -/
def unfinished (c : ExtractCall) : Bool :=
  c.pc = .submit || c.work.any fun w => !w.isDone

/-- The only work is done, and its permit is still out. -/
theorem permits_not_of_unfinished :
    ¬ ∀ capacity events s, ExtractState.runEvents capacity events = some s →
      s.free + s.calls.countP unfinished = capacity ∧
        (∀ c ∈ s.calls, c.releases = if c.acquired && !c.holds then 1 else 0) ∧
        s.overReleased = false := by
  intro h
  have hcount : earlyState.free + earlyState.calls.countP unfinished = 1 :=
    (h 1 earlyRun earlyState run_earlyRun).1
  exact absurd hcount (by decide)

end Sample

end AxiomGrid.Overlay
