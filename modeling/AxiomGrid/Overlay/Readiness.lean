import AxiomGrid.Lib.Dict
import AxiomGrid.Lib.Since
import Mathlib.Data.Rat.Defs
import Mathlib.Algebra.Order.Ring.Rat
import Mathlib.Tactic.Linarith

/-!
# The readiness probe

`/readyz` of `overlay/server.py`: `_readyz_cached` reads the cached verdict, its time and the event
`_readyz_probe_ok` without the lock, `_run_readyz_probe` reads them again under the lock, runs the
probe and publishes the verdict. A step is a stretch of one call that another thread can observe:
each read and each write of the shared state is one. The clock moves on and operators clear the event
between any two of them.

The log keeps what has happened; nothing in the code reads it.
-/

namespace AxiomGrid.Overlay

/-- What `_readyz_dependency_checks` meets: the errors of the two imports and of the temporary file,
and the value of the semaphore. -/
structure ReadyzSurroundings where
  pdfplumber : Option String := none
  docx : Option String := none
  stateDir : Option String := none
  slots : ℕ

/-- `_readyz_dependency_checks`. -/
def ReadyzSurroundings.dependencyChecks (w : ReadyzSurroundings) : Dict String String :=
  [("pdf_parser", w.pdfplumber.elim "ok" ("missing:" ++ ·)),
   ("docx_parser", w.docx.elim "ok" ("missing:" ++ ·)),
   ("state_dir_writable", w.stateDir.elim "ok" ("failed:" ++ ·)),
   ("extraction_capacity", if 0 < w.slots then "ok" else "saturated")]

/-- The dict of a verdict, by its `status`. -/
inductive ReadyzVerdict where
  | ready (pipeline docType : String) (fieldsExtracted : ℕ) (checks : Dict String String)
      (ttlSeconds : ℚ)
  | notReady (error : String) (checks : Dict String String)
  deriving DecidableEq

def ReadyzVerdict.isReady : ReadyzVerdict → Bool
  | .ready .. => true
  | .notReady .. => false

/-- What `/readyz` answers. -/
inductive ReadyzAnswer where
  | verdict (v : ReadyzVerdict) (cached : Bool)
  /-- The exception of the probe, by the name of its type. -/
  | error (error : String)
  deriving DecidableEq

/-- What a probe returns or raises behind its verdict. -/
def ReadyzVerdict.answer (v : ReadyzVerdict) : ReadyzAnswer :=
  match v with
  | .ready .. => .verdict v false
  | .notReady error _ => .error error

/-- The status code and the headers. -/
def ReadyzAnswer.response : ReadyzAnswer → ℕ × List (String × String)
  | .verdict (.ready ..) _ => (200, [])
  | .verdict (.notReady ..) _ => (503, [])
  | .error _ => (503, [("Retry-After", "1")])

structure ReadyzConfig where
  /-- `READYZ_TTL_SECONDS`. -/
  ttlSeconds : ℚ := 30
  /-- `READYZ_NEGATIVE_TTL_SECONDS`. -/
  negativeTtlSeconds : ℚ := 0

namespace ReadyzConfig

variable (cfg : ReadyzConfig)

def ttl (v : ReadyzVerdict) : ℚ := if v.isReady then cfg.ttlSeconds else cfg.negativeTtlSeconds

/-- The verdict of a probe; `pipeline` is the document type and the number of fields, or the type of
the exception. -/
def verdictOf (checks : Dict String String) (pipeline : Except String (String × ℕ)) :
    ReadyzVerdict :=
  if checks.any fun c => c.2 != "ok" && c.1 != "extraction_capacity" then
    .notReady "RuntimeError" checks
  else
    match pipeline with
    | .error error => .notReady error checks
    | .ok (docType, fields) =>
      if fields = 0 then .notReady "RuntimeError" checks
      else .ready "ok" docType fields checks cfg.ttlSeconds

end ReadyzConfig

/-- The point a call has reached; `locked` tells the call of `_readyz_cached` under the lock from the
one before it. -/
inductive ReadyzPc where
  | check (locked : Bool)
  | sawVerdict (locked : Bool) (verdict : Option ReadyzVerdict)
  | sawTime (locked : Bool) (verdict : ReadyzVerdict) (checkedAt : ℚ)
  | sawFlag (locked : Bool) (verdict : ReadyzVerdict) (checkedAt : ℚ)
  | waiting
  | probing
  /-- The event is set or cleared. -/
  | settled (verdict : ReadyzVerdict)
  /-- The verdict is stored, and its time not yet. -/
  | stored (verdict : ReadyzVerdict)
  /-- The lock is still held. -/
  | leaving (answer : ReadyzAnswer)
  | returned (answer : ReadyzAnswer)
  deriving DecidableEq

def ReadyzPc.inLock : ReadyzPc → Bool
  | .check locked | .sawVerdict locked _ | .sawTime locked _ _ | .sawFlag locked _ _ => locked
  | .probing | .settled _ | .stored _ | .leaving _ => true
  | .waiting | .returned _ => false

inductive ReadyzEntry where
  | arrived (i : ℕ)
  /-- A probe has set or cleared the event. -/
  | settled (i : ℕ) (ready : Bool) (time : ℚ)
  | published (i : ℕ) (ready : Bool) (time : ℚ)
  | invalidated
  /-- The answer of a call is decided. -/
  | answered (i : ℕ) (answer : ReadyzAnswer) (time : ℚ)
  deriving DecidableEq

namespace ReadyzEntry

/-- A probe has failed, or the verdict has been invalidated. -/
def Refutes : ReadyzEntry → Prop
  | .settled _ false _ | .invalidated => True
  | _ => False

/-- A probe has passed. -/
def Passes : ReadyzEntry → Prop
  | .settled _ true _ => True
  | _ => False

/-- A probe that passed has come so far at this time or later. -/
def PassedSince (time : ℚ) : ReadyzEntry → Prop
  | .settled _ true t | .published _ true t => time ≤ t
  | _ => False

/-- A probe that passed was published at this time. -/
def PublishedAt (time : ℚ) (e : ReadyzEntry) : Prop := ∃ i, e = .published i true time

lemma PassedSince.mono {c d : ℚ} {e : ReadyzEntry} (h : e.PassedSince d) (hle : c ≤ d) :
    e.PassedSince c := by
  unfold PassedSince at h ⊢
  split at h
  · exact hle.trans h
  · exact hle.trans h
  · exact h.elim

end ReadyzEntry

structure ReadyzState where
  /-- `_readyz_state`. -/
  verdict : Option ReadyzVerdict := none
  checkedAt : ℚ := 0
  /-- `_readyz_probe_ok`. -/
  probeOk : Bool := false
  /-- The holder of `_readyz_probe_lock`. -/
  lock : Option ℕ := none
  /-- `OPS_METRICS["readyz_failures_total"]`. -/
  failures : ℕ := 0
  /-- `time.monotonic()`. -/
  now : ℚ := 0
  calls : List ReadyzPc := []
  log : List ReadyzEntry := []
  deriving DecidableEq

inductive ReadyzEvent where
  | arrive
  /-- The next stretch of a call. -/
  | advance (i : ℕ)
  /-- The checks and the pipeline of a probe come to an end. -/
  | probe (i : ℕ) (surroundings : ReadyzSurroundings) (pipeline : Except String (String × ℕ))
  | tick (now : ℚ)
  /-- Tests and operators clear the event. -/
  | invalidate

namespace ReadyzState

variable (cfg : ReadyzConfig) (s : ReadyzState)

def setPc (i : ℕ) (pc : ReadyzPc) : ReadyzState := { s with calls := s.calls.set i pc }

def note (e : ReadyzEntry) : ReadyzState := { s with log := s.log ++ [e] }

/-- The cache does not serve. -/
def miss (i : ℕ) (locked : Bool) : ReadyzState := s.setPc i (if locked then .probing else .waiting)

/-- The cache serves; under the lock a verdict that is not ready is raised. -/
def hit (i : ℕ) (locked : Bool) (v : ReadyzVerdict) : ReadyzState :=
  let answer := if locked && !v.isReady then .error "RuntimeError" else .verdict v true
  (s.note (.answered i answer s.now)).setPc i (if locked then .leaving answer else .returned answer)

/-- The event is set or cleared. -/
def settle (i : ℕ) (v : ReadyzVerdict) : ReadyzState :=
  { (s.note (.settled i v.isReady s.now)).setPc i (.settled v) with
    probeOk := v.isReady, failures := if v.isReady then s.failures else s.failures + 1 }

/-- The time of the verdict is stored. -/
def publish (i : ℕ) (v : ReadyzVerdict) : ReadyzState :=
  { ((s.note (.published i v.isReady s.now)).note (.answered i v.answer s.now)).setPc i
      (.leaving v.answer) with checkedAt := s.now }

/-- The next stretch of a call, where it is enabled. -/
def advance (i : ℕ) : ReadyzPc → Option ReadyzState
  | .check locked => some (s.setPc i (.sawVerdict locked s.verdict))
  | .sawVerdict locked none => some (s.miss i locked)
  | .sawVerdict locked (some v) => some (s.setPc i (.sawTime locked v s.checkedAt))
  | .sawTime locked v c =>
    if v.isReady && !s.probeOk then some (s.miss i locked) else some (s.setPc i (.sawFlag locked v c))
  | .sawFlag locked v c =>
    if s.now - c < cfg.ttl v then some (s.hit i locked v) else some (s.miss i locked)
  | .waiting =>
    if s.lock = none then some { s.setPc i (.check true) with lock := some i } else none
  | .settled v => some { s.setPc i (.stored v) with verdict := some v }
  | .stored v => some (s.publish i v)
  | .leaving answer => some { s.setPc i (.returned answer) with lock := none }
  | .probing | .returned _ => none

def step : ReadyzEvent → Option ReadyzState
  | .arrive => some { s.note (.arrived s.calls.length) with calls := s.calls ++ [.check false] }
  | .advance i => s.calls[i]?.bind fun pc => s.advance cfg i pc
  | .probe i surroundings pipeline =>
    if s.calls[i]? = some .probing then
      some (s.settle i (cfg.verdictOf surroundings.dependencyChecks pipeline))
    else none
  | .tick now => if s.now ≤ now then some { s with now } else none
  | .invalidate => some { s.note .invalidated with probeOk := false }

end ReadyzState

/-- The probe after some events. -/
def readyzRun (cfg : ReadyzConfig) (events : List ReadyzEvent) : Option ReadyzState :=
  Transition.run (ReadyzState.step cfg) {} events

/-! ## What a call may rely on -/

open List (Since)

namespace ReadyzState

variable (cfg : ReadyzConfig) (s : ReadyzState) {s' : ReadyzState} {i j : ℕ} {pc pc' : ReadyzPc}
  {v : ReadyzVerdict}

/-- A verdict that is ready has found fields, both parsers and a writable state directory. -/
def Sound (v : ReadyzVerdict) : Prop :=
  v.isReady = true → ∃ w : ReadyzSurroundings, ∃ docType fields,
    w.pdfplumber = none ∧ w.docx = none ∧ w.stateDir = none ∧ 0 < fields ∧
      v = .ready "ok" docType fields w.dependencyChecks cfg.ttlSeconds

/-- Since the call arrived, the last thing known of the service has once been a probe that passed. -/
def Passed (log : List ReadyzEntry) (i : ℕ) : Prop :=
  ∃ log' rest, log = log' ++ rest ∧ .arrived i ∈ log' ∧
    Since ReadyzEntry.Refutes ReadyzEntry.Passes log'

/-- A probe that passed was published at this time, and none has failed since. -/
abbrev Published (log : List ReadyzEntry) (time : ℚ) : Prop :=
  Since ReadyzEntry.Refutes (ReadyzEntry.PublishedAt time) log

/-- What holds for a call at each of its points. -/
def Local (i : ℕ) : ReadyzPc → Prop
  | .check _ | .waiting | .leaving _ | .returned _ => True
  | .sawVerdict locked v => (∀ w ∈ v, Sound cfg w) ∧ (locked = true → v = s.verdict)
  | .sawTime locked v c =>
    Sound cfg v ∧ c ≤ s.checkedAt ∧ (locked = true → s.verdict = some v ∧ c = s.checkedAt)
  | .sawFlag locked v c =>
    Sound cfg v ∧ (v.isReady = true → Passed s.log i ∧ ∃ e ∈ s.log, e.PassedSince c) ∧
      (locked = true → s.verdict = some v ∧ c = s.checkedAt)
  | .probing => ∀ t, s.probeOk = true → Published s.log t → t + cfg.ttlSeconds ≤ s.now
  | .settled v =>
    Sound cfg v ∧ (v.isReady = true → Passed s.log i) ∧
      (v.isReady = false → s.probeOk = false ∧ ∀ t, ¬ Published s.log t)
  | .stored v =>
    Sound cfg v ∧ (v.isReady = true → Passed s.log i) ∧
      (v.isReady = false → s.probeOk = false ∧ ∀ t, ¬ Published s.log t) ∧ s.verdict = some v

structure Holds (i : ℕ) (pc : ReadyzPc) : Prop where
  arrived : .arrived i ∈ s.log
  lock : pc.inLock = true ↔ s.lock = some i
  here : s.Local cfg i pc

/-- What the answer of a call rests on. -/
structure Supported (log : List ReadyzEntry) (i : ℕ) (v : ReadyzVerdict) (cached : Bool)
    (time : ℚ) : Prop where
  sound : Sound cfg v
  passed : Passed log i
  recent : cached = true → ∃ c, time - c < cfg.ttlSeconds ∧ ∃ e ∈ log, e.PassedSince c

/-- What holds of the shared state and of the log. -/
structure Shared : Prop where
  verdict : ∀ v ∈ s.verdict, Sound cfg v
  checkedAt : s.checkedAt ≤ s.now
  probeOk : s.probeOk = true ↔ Since ReadyzEntry.Refutes ReadyzEntry.Passes s.log
  passedSince : s.probeOk = true → ∃ e ∈ s.log, e.PassedSince s.checkedAt
  published : ∀ t, Published s.log t → (∃ v ∈ s.verdict, v.isReady = true) ∧ t ≤ s.checkedAt
  answers : ∀ log i v cached t log', s.log = log ++ .answered i (.verdict v cached) t :: log' →
    v.isReady = true → Supported cfg log i v cached t
  paced : ∀ log i ready t log', s.log = log ++ .settled i ready t :: log' → ∀ t',
    Since ReadyzEntry.Refutes ReadyzEntry.Passes log → Published log t' → t' + cfg.ttlSeconds ≤ t

structure Inv : Prop where
  shared : s.Shared cfg
  holder : ∀ i, s.lock = some i → i < s.calls.length
  calls : ∀ i pc, s.calls[i]? = some pc → s.Holds cfg i pc

/-- What a step of anyone else leaves to a call: under the lock nobody writes the state or sets the
event. -/
structure Frame (i : ℕ) (s s' : ReadyzState) : Prop where
  log : ∃ more, s'.log = s.log ++ more
  checkedAt : s.checkedAt ≤ s'.checkedAt
  now : s.now ≤ s'.now
  lock : s'.lock = some i ↔ s.lock = some i
  verdict : s.lock = some i → s'.verdict = s.verdict
  checkedAt_eq : s.lock = some i → s'.checkedAt = s.checkedAt
  probeOk : s.lock = some i → s'.probeOk = true → s.probeOk = true
  published : s.lock = some i → ∀ t, Published s'.log t → Published s.log t

variable {cfg s}

lemma Passed.append {log : List ReadyzEntry} (h : Passed log i) (more : List ReadyzEntry) :
    Passed (log ++ more) i := by
  obtain ⟨log', rest, rfl, hi, hpasses⟩ := h
  exact ⟨log', rest ++ more, by simp, hi, hpasses⟩

lemma Holds.frame (h : s.Holds cfg i pc) (hf : Frame i s s') : s'.Holds cfg i pc := by
  obtain ⟨more, hlog⟩ := hf.log
  have hpassed : Passed s.log i → Passed s'.log i := fun h => hlog ▸ h.append more
  refine ⟨by simp [hlog, h.arrived], h.lock.trans hf.lock.symm, ?_⟩
  have hlock := h.lock
  have hhere := h.here
  cases pc with
  | check | waiting | leaving | returned => trivial
  | sawVerdict locked v =>
    refine ⟨hhere.1, fun hl => ?_⟩
    rw [hf.verdict (hlock.mp hl)]
    exact hhere.2 hl
  | sawTime locked v c =>
    refine ⟨hhere.1, hhere.2.1.trans hf.checkedAt, fun hl => ?_⟩
    rw [hf.verdict (hlock.mp hl), hf.checkedAt_eq (hlock.mp hl)]
    exact hhere.2.2 hl
  | sawFlag locked v c =>
    refine ⟨hhere.1, fun hready => ?_, fun hl => ?_⟩
    · obtain ⟨hp, e, he, hsince⟩ := hhere.2.1 hready
      exact ⟨hpassed hp, e, by simp [hlog, he], hsince⟩
    · rw [hf.verdict (hlock.mp hl), hf.checkedAt_eq (hlock.mp hl)]
      exact hhere.2.2 hl
  | probing =>
    have hl : s.lock = some i := hlock.mp rfl
    exact fun t hok hpublished =>
      (hhere t (hf.probeOk hl hok) (hf.published hl t hpublished)).trans hf.now
  | settled v =>
    have hl : s.lock = some i := hlock.mp rfl
    refine ⟨hhere.1, fun hready => hpassed (hhere.2.1 hready), fun hnot => ?_⟩
    obtain ⟨hok, hpublished⟩ := hhere.2.2 hnot
    exact ⟨Bool.eq_false_iff.mpr fun h => by simp [hf.probeOk hl h] at hok,
      fun t ht => hpublished t (hf.published hl t ht)⟩
  | stored v =>
    have hl : s.lock = some i := hlock.mp rfl
    refine ⟨hhere.1, fun hready => hpassed (hhere.2.1 hready), fun hnot => ?_, ?_⟩
    · obtain ⟨hok, hpublished⟩ := hhere.2.2.1 hnot
      exact ⟨Bool.eq_false_iff.mpr fun h => by simp [hf.probeOk hl h] at hok,
        fun t ht => hpublished t (hf.published hl t ht)⟩
    · rw [hf.verdict hl]
      exact hhere.2.2.2

/-- A step of call `i` that leads to a state in which everything holds again. -/
structure Moves (cfg : ReadyzConfig) (s : ReadyzState) (i : ℕ) (s' : ReadyzState) : Prop where
  shared : s'.Shared cfg
  here : ∃ pc', s'.calls = s.calls.set i pc' ∧ s'.Holds cfg i pc'
  others : ∀ j, j ≠ i → Frame j s s'

lemma Inv.moves (h : s.Inv cfg) (hi : s.calls[i]? = some pc) (hm : Moves cfg s i s') :
    s'.Inv cfg := by
  obtain ⟨pc', hcalls, hholds⟩ := hm.here
  refine ⟨hm.shared, fun j hj => ?_, fun j pc hj => ?_⟩
  · rw [hcalls, List.length_set]
    by_cases hji : j = i
    · subst hji
      exact (List.getElem?_eq_some_iff.mp hi).1
    · exact h.holder j ((hm.others j hji).lock.mp hj)
  · rw [hcalls, List.getElem?_set] at hj
    split_ifs at hj with hij
    · subst hij
      cases hj
      exact hholds
    · exact (h.calls j pc hj).frame (hm.others j (Ne.symm hij))

/-- The calls and the lock are no part of the shared state. -/
lemma Shared.same (h : s.Shared cfg) (hverdict : s'.verdict = s.verdict)
    (hchecked : s'.checkedAt = s.checkedAt) (hok : s'.probeOk = s.probeOk) (hnow : s'.now = s.now)
    (hlog : s'.log = s.log) : s'.Shared cfg := by
  obtain ⟨h₁, h₂, h₃, h₄, h₅, h₆, h₇⟩ := h
  refine ⟨?_, ?_, ?_, ?_, ?_, ?_, ?_⟩ <;>
    simp only [hverdict, hchecked, hok, hnow, hlog] <;> assumption

/-- A step that only moves the call on. -/
lemma Inv.moves_setPc (h : s.Inv cfg) (hpc : s.Holds cfg i pc) (hlock : pc'.inLock = pc.inLock)
    (hhere : s.Local cfg i pc') : Moves cfg s i (s.setPc i pc') where
  shared := h.shared.same rfl rfl rfl rfl rfl
  here := by
    have hhere' : (s.setPc i pc').Local cfg i pc' := by cases pc' <;> exact hhere
    exact ⟨pc', rfl, hpc.arrived, hlock ▸ hpc.lock, hhere'⟩
  others _ _ := ⟨⟨[], by simp [setPc]⟩, le_rfl, le_rfl, Iff.rfl, fun _ => rfl, fun _ => rfl,
    fun _ h => h, fun _ _ h => h⟩

/-! ### The log grows -/

section Log

variable {log : List ReadyzEntry} {e : ReadyzEntry}

lemma Published.of_concat {t : ℚ} (h : Published (log ++ [e]) t) (he : ¬ e.PublishedAt t) :
    ¬ e.Refutes ∧ Published log t := by
  obtain h | h := List.since_concat.mp h
  · exact absurd h he
  · exact h

lemma passes_concat_iff (hrefutes : ¬ e.Refutes) (hpasses : ¬ e.Passes) :
    Since ReadyzEntry.Refutes ReadyzEntry.Passes (log ++ [e]) ↔
      Since ReadyzEntry.Refutes ReadyzEntry.Passes log := by
  rw [List.since_concat]
  simp [hrefutes, hpasses]

/-- An entry that is neither an answer nor the end of a probe leaves those of the log as they are. -/
lemma Shared.paced_concat (h : s.Shared cfg) (he : ∀ i ready t, e ≠ .settled i ready t)
    {log before : List ReadyzEntry} {ready : Bool} {t : ℚ}
    (hlog : s.log ++ [e] = before ++ .settled i ready t :: log) (t' : ℚ)
    (hpasses : Since ReadyzEntry.Refutes ReadyzEntry.Passes before)
    (hpublished : Published before t') : t' + cfg.ttlSeconds ≤ t := by
  obtain ⟨-, heq⟩ | ⟨log', -, heq⟩ := List.concat_eq_append_cons hlog
  · exact absurd heq (he i ready t)
  · exact h.paced before i ready t log' heq t' hpasses hpublished

lemma Shared.answers_concat (h : s.Shared cfg) (he : ∀ i answer t, e ≠ .answered i answer t)
    {log before : List ReadyzEntry} {cached : Bool} {t : ℚ}
    (hlog : s.log ++ [e] = before ++ .answered i (.verdict v cached) t :: log)
    (hready : v.isReady = true) : Supported cfg before i v cached t := by
  obtain ⟨-, heq⟩ | ⟨log', -, heq⟩ := List.concat_eq_append_cons hlog
  · exact absurd heq (he i _ t)
  · exact h.answers before i v cached t log' heq hready

end Log

/-- An answer is noted. -/
lemma Shared.note_answered (h : s.Shared cfg) {answer : ReadyzAnswer}
    (hanswer : ∀ v cached, answer = .verdict v cached → v.isReady = true →
      Supported cfg s.log i v cached s.now) :
    (s.note (.answered i answer s.now)).Shared cfg where
  verdict := h.verdict
  checkedAt := h.checkedAt
  probeOk := h.probeOk.trans (passes_concat_iff id id).symm
  passedSince hok := by
    obtain ⟨e, he, hsince⟩ := h.passedSince hok
    exact ⟨e, by simp [note, he], hsince⟩
  published t ht := h.published t (ht.of_concat (by simp [ReadyzEntry.PublishedAt])).2
  answers log j v cached t log' hlog hready := by
    obtain ⟨rfl, heq⟩ | ⟨log', -, hlog⟩ := List.concat_eq_append_cons hlog
    · cases heq
      exact hanswer v cached rfl hready
    · exact h.answers log j v cached t log' hlog hready
  paced _ _ _ _ _ hlog := h.paced_concat (by simp) hlog

/-! ### One step of a call -/

lemma Inv.moves_hit (h : s.Inv cfg) {locked : Bool} {c : ℚ}
    (hpc : s.Holds cfg i (.sawFlag locked v c)) (hlt : s.now - c < cfg.ttl v) :
    Moves cfg s i (s.hit i locked v) := by
  obtain ⟨hsound, hready, -⟩ := hpc.here
  have hshared : (s.note (.answered i
      (if locked && !v.isReady then .error "RuntimeError" else .verdict v true) s.now)).Shared cfg := by
    refine h.shared.note_answered fun w cached heq hw => ?_
    split_ifs at heq with hraise
    cases heq
    obtain ⟨hpassed, hsince⟩ := hready hw
    refine ⟨hsound, hpassed, fun _ => ⟨c, ?_, hsince⟩⟩
    simpa [ReadyzConfig.ttl, hw] using hlt
  refine ⟨hshared.same rfl rfl rfl rfl rfl, ⟨_, rfl, ?_, ?_, ?_⟩, fun j _ => ?_⟩
  · simp [hit, note, setPc, hpc.arrived]
  · have hlock := hpc.lock
    cases locked <;> exact hlock
  · cases locked <;> trivial
  · exact ⟨⟨_, rfl⟩, le_rfl, le_rfl, Iff.rfl, fun _ => rfl, fun _ => rfl, fun _ h => h,
      fun _ t ht => (ht.of_concat (by simp [ReadyzEntry.PublishedAt])).2⟩

lemma Inv.moves_store (h : s.Inv cfg) (hpc : s.Holds cfg i (.settled v)) :
    Moves cfg s i { s.setPc i (.stored v) with verdict := some v } := by
  obtain ⟨hsound, hready, hnot⟩ := hpc.here
  refine ⟨⟨?_, h.shared.checkedAt, h.shared.probeOk, h.shared.passedSince, fun t ht => ?_,
    h.shared.answers, h.shared.paced⟩, ⟨_, rfl, hpc.arrived, hpc.lock, ?_⟩, fun j hj => ?_⟩
  · rintro w ⟨⟩
    exact hsound
  · cases hv : v.isReady with
    | true => exact ⟨⟨v, rfl, hv⟩, (h.shared.published t ht).2⟩
    | false => exact absurd ht ((hnot hv).2 t)
  · exact ⟨hsound, hready, hnot, rfl⟩
  · have hother : s.lock ≠ some j := by
      rw [hpc.lock.mp rfl]
      simpa using Ne.symm hj
    exact ⟨⟨[], by simp [setPc]⟩, le_rfl, le_rfl, Iff.rfl, fun hl => absurd hl hother,
      fun hl => absurd hl hother, fun _ h => h, fun _ _ h => h⟩

/-- A check that is `"ok"` has met no error. -/
lemma elim_eq_ok {error : Option String} {kind : String} (hkind : 2 < kind.length)
    (h : error.elim "ok" (kind ++ ·) = "ok") : error = none := by
  cases error with
  | none => rfl
  | some error =>
    have hlength := congrArg String.length h
    simp only [Option.elim, String.length_append] at hlength
    have hok : "ok".length = 2 := rfl
    omega

lemma sound_verdictOf (w : ReadyzSurroundings) (pipeline : Except String (String × ℕ)) :
    Sound cfg (cfg.verdictOf w.dependencyChecks pipeline) := by
  intro hready
  cases hfailed : w.dependencyChecks.any fun c => c.2 != "ok" && c.1 != "extraction_capacity" with
  | true => simp [ReadyzConfig.verdictOf, hfailed, ReadyzVerdict.isReady] at hready
  | false =>
    have hok : ∀ c ∈ w.dependencyChecks, c.1 ≠ "extraction_capacity" → c.2 = "ok" := by
      intro c hc hname
      have hc := List.any_eq_false.mp hfailed c hc
      simpa [hname] using hc
    cases pipeline with
    | error => simp [ReadyzConfig.verdictOf, hfailed, ReadyzVerdict.isReady] at hready
    | ok found =>
      obtain ⟨docType, fields⟩ := found
      have hpositive : fields ≠ 0 := by
        rintro rfl
        simp [ReadyzConfig.verdictOf, hfailed, ReadyzVerdict.isReady] at hready
      have hpdf : w.pdfplumber.elim "ok" ("missing:" ++ ·) = "ok" :=
        hok ("pdf_parser", _) (by simp [ReadyzSurroundings.dependencyChecks]; rfl) (by simp)
      have hdocx : w.docx.elim "ok" ("missing:" ++ ·) = "ok" :=
        hok ("docx_parser", _) (by simp [ReadyzSurroundings.dependencyChecks]; rfl) (by simp)
      have hstate : w.stateDir.elim "ok" ("failed:" ++ ·) = "ok" :=
        hok ("state_dir_writable", _) (by simp [ReadyzSurroundings.dependencyChecks]; rfl) (by simp)
      refine ⟨w, docType, fields, elim_eq_ok (by decide) hpdf, elim_eq_ok (by decide) hdocx,
        elim_eq_ok (by decide) hstate, Nat.pos_of_ne_zero hpositive, ?_⟩
      simp [ReadyzConfig.verdictOf, hfailed, hpositive]

lemma Inv.moves_settle (h : s.Inv cfg) (hpc : s.Holds cfg i .probing) (hsound : Sound cfg v) :
    Moves cfg s i (s.settle i v) := by
  have hok : (s.settle i v).probeOk = true ↔
      Since ReadyzEntry.Refutes ReadyzEntry.Passes (s.settle i v).log := by
    simp only [settle, note, setPc, List.since_concat]
    cases v.isReady <;> simp [ReadyzEntry.Refutes, ReadyzEntry.Passes]
  refine ⟨⟨h.shared.verdict, h.shared.checkedAt, hok, fun hready => ?_, fun t ht => ?_, ?_, ?_⟩,
    ⟨_, rfl, by simp [settle, note, setPc, hpc.arrived], hpc.lock, ?_⟩, fun j hj => ?_⟩
  · refine ⟨.settled i v.isReady s.now, by simp [settle, note, setPc], ?_⟩
    have hv : v.isReady = true := hready
    rw [hv]
    exact h.shared.checkedAt
  · exact h.shared.published t (ht.of_concat (by simp [ReadyzEntry.PublishedAt])).2
  · exact fun log j w cached t log' hlog => h.shared.answers_concat (by simp) hlog
  · intro log j ready t log' hlog t' hpasses hpublished
    obtain ⟨rfl, heq⟩ | ⟨log', -, hlog⟩ := List.concat_eq_append_cons hlog
    · cases heq
      exact hpc.here t' (h.shared.probeOk.mpr hpasses) hpublished
    · exact h.shared.paced log j ready t log' hlog t' hpasses hpublished
  · refine ⟨hsound, fun hready => ?_, fun hnot => ⟨hnot, fun t ht => ?_⟩⟩
    · exact ⟨_, [], by simp, by simp [settle, note, setPc, hpc.arrived], hok.mp hready⟩
    · refine (ht.of_concat (by simp [ReadyzEntry.PublishedAt])).1 ?_
      rw [hnot]
      trivial
  · have hother : s.lock ≠ some j := by
      rw [hpc.lock.mp rfl]
      simpa using Ne.symm hj
    exact ⟨⟨_, rfl⟩, le_rfl, le_rfl, Iff.rfl, fun _ => rfl, fun _ => rfl,
      fun hl => absurd hl hother, fun hl => absurd hl hother⟩

/-- The time of a verdict is stored. -/
lemma Inv.shared_published (h : s.Inv cfg) (hpc : s.Holds cfg i (.stored v)) :
    ({ s.note (.published i v.isReady s.now) with checkedAt := s.now } : ReadyzState).Shared cfg := by
  obtain ⟨hsound, hready, hnot, hverdict⟩ := hpc.here
  refine ⟨h.shared.verdict, le_rfl, h.shared.probeOk.trans (passes_concat_iff id id).symm,
    fun hok => ?_, fun t ht => ?_, ?_, ?_⟩
  · have hv : v.isReady = true := by
      cases hv : v.isReady with
      | true => rfl
      | false => exact absurd hok (by simp [note, (hnot hv).1])
    refine ⟨.published i v.isReady s.now, by simp [note], ?_⟩
    rw [hv]
    exact le_rfl
  · obtain ⟨j, heq⟩ | ⟨-, ht⟩ := List.since_concat.mp ht
    · obtain ⟨-, hv, rfl⟩ : i = j ∧ v.isReady = true ∧ s.now = t := by simpa using heq
      exact ⟨⟨v, hverdict, hv⟩, le_rfl⟩
    · obtain ⟨hv, hle⟩ := h.shared.published t ht
      exact ⟨hv, hle.trans h.shared.checkedAt⟩
  · exact fun log j w cached t log' hlog => h.shared.answers_concat (by simp) hlog
  · exact fun log j ready t log' hlog => h.shared.paced_concat (by simp) hlog

lemma Inv.moves_publish (h : s.Inv cfg) (hpc : s.Holds cfg i (.stored v)) :
    Moves cfg s i (s.publish i v) := by
  obtain ⟨hsound, hready, hnot, hverdict⟩ := hpc.here
  have hanswer : ∀ w cached, v.answer = .verdict w cached → w.isReady = true →
      Supported cfg (s.log ++ [.published i v.isReady s.now]) i w cached s.now := by
    intro w cached heq hw
    cases v with
    | ready =>
      cases heq
      exact ⟨hsound, (hready rfl).append _, by simp⟩
    | notReady => cases heq
  have hshared := (h.shared_published hpc).note_answered hanswer
  refine ⟨hshared.same rfl rfl rfl rfl rfl, ⟨_, rfl, ?_, hpc.lock, trivial⟩, fun j hj => ?_⟩
  · simp [publish, note, setPc, hpc.arrived]
  · have hother : s.lock ≠ some j := by
      rw [hpc.lock.mp rfl]
      simpa using Ne.symm hj
    exact ⟨⟨[.published i v.isReady s.now, .answered i v.answer s.now], by simp [publish, note, setPc]⟩,
      h.shared.checkedAt, le_rfl, Iff.rfl, fun _ => rfl, fun hl => absurd hl hother, fun _ h => h,
      fun hl => absurd hl hother⟩

lemma Inv.moves_acquire (h : s.Inv cfg) (hpc : s.Holds cfg i .waiting) (hfree : s.lock = none) :
    Moves cfg s i { s.setPc i (.check true) with lock := some i } where
  shared := h.shared.same rfl rfl rfl rfl rfl
  here := ⟨_, rfl, hpc.arrived, by simp [ReadyzPc.inLock], trivial⟩
  others j hj := ⟨⟨[], by simp [setPc]⟩, le_rfl, le_rfl, by simp [hfree, Ne.symm hj], fun _ => rfl,
    fun _ => rfl, fun _ h => h, fun _ _ h => h⟩

lemma Inv.moves_release (h : s.Inv cfg) {answer : ReadyzAnswer}
    (hpc : s.Holds cfg i (.leaving answer)) :
    Moves cfg s i { s.setPc i (.returned answer) with lock := none } where
  shared := h.shared.same rfl rfl rfl rfl rfl
  here := ⟨_, rfl, hpc.arrived, by simp [ReadyzPc.inLock], trivial⟩
  others j hj := ⟨⟨[], by simp [setPc]⟩, le_rfl, le_rfl, by simp [hpc.lock.mp rfl, Ne.symm hj],
    fun _ => rfl, fun _ => rfl, fun _ h => h, fun _ _ h => h⟩

lemma Inv.moves_advance (h : s.Inv cfg) (hpc : s.Holds cfg i pc)
    (hstep : s.advance cfg i pc = some s') : Moves cfg s i s' := by
  cases pc with
  | check locked =>
    cases hstep
    exact h.moves_setPc hpc rfl ⟨h.shared.verdict, fun _ => rfl⟩
  | sawVerdict locked verdict =>
    obtain ⟨hsound, hverdict⟩ := hpc.here
    cases verdict with
    | none =>
      cases hstep
      refine h.moves_setPc hpc (by cases locked <;> rfl) ?_
      cases locked with
      | false => trivial
      | true =>
        -- nothing has been published: there would be a verdict
        intro t _ ht
        obtain ⟨⟨w, hw, -⟩, -⟩ := h.shared.published t ht
        rw [← hverdict rfl] at hw
        cases hw
    | some v =>
      cases hstep
      exact h.moves_setPc hpc rfl ⟨hsound v rfl, le_rfl, fun hl => ⟨(hverdict hl).symm, rfl⟩⟩
  | sawTime locked v c =>
    obtain ⟨hsound, hle, hlocked⟩ := hpc.here
    simp only [advance] at hstep
    split_ifs at hstep with hcleared
    · cases hstep
      refine h.moves_setPc hpc (by cases locked <;> rfl) ?_
      cases locked with
      | false => trivial
      | true =>
        intro t hok
        simp [hok] at hcleared
    · cases hstep
      refine h.moves_setPc hpc rfl ⟨hsound, fun hready => ?_, hlocked⟩
      have hok : s.probeOk = true := by simpa [hready] using hcleared
      obtain ⟨e, he, hsince⟩ := h.shared.passedSince hok
      exact ⟨⟨s.log, [], by simp, hpc.arrived, h.shared.probeOk.mp hok⟩, e, he, hsince.mono hle⟩
  | sawFlag locked v c =>
    simp only [advance] at hstep
    split_ifs at hstep with hfresh
    · cases hstep
      exact h.moves_hit hpc hfresh
    · cases hstep
      refine h.moves_setPc hpc (by cases locked <;> rfl) ?_
      cases locked with
      | false => trivial
      | true =>
        intro t _ ht
        obtain ⟨hverdict, rfl⟩ := hpc.here.2.2 rfl
        obtain ⟨⟨w, hw, hready⟩, hle⟩ := h.shared.published t ht
        obtain rfl : v = w := by simpa [hverdict] using hw
        have hold : cfg.ttlSeconds ≤ s.now - s.checkedAt := by
          simpa [ReadyzConfig.ttl, hready] using hfresh
        linarith
  | waiting =>
    simp only [advance] at hstep
    split_ifs at hstep with hfree
    cases hstep
    exact h.moves_acquire hpc hfree
  | settled v =>
    cases hstep
    exact h.moves_store hpc
  | stored v =>
    cases hstep
    exact h.moves_publish hpc
  | leaving answer =>
    cases hstep
    exact h.moves_release hpc
  | probing | returned => cases hstep

/-! ### Every interleaving -/

/-- A step of the surroundings. -/
lemma Inv.env (h : s.Inv cfg) (hshared : s'.Shared cfg) (hcalls : s'.calls = s.calls)
    (hframe : ∀ i, Frame i s s') : s'.Inv cfg := by
  refine ⟨hshared, fun i hi => ?_, fun i pc hi => ?_⟩
  · rw [hcalls]
    exact h.holder i ((hframe i).lock.mp hi)
  · rw [hcalls] at hi
    exact (h.calls i pc hi).frame (hframe i)

lemma Inv.arrive (h : s.Inv cfg) :
    ({ s.note (.arrived s.calls.length) with calls := s.calls ++ [.check false] } :
      ReadyzState).Inv cfg := by
  have hframe : ∀ i, Frame i s
      { s.note (.arrived s.calls.length) with calls := s.calls ++ [.check false] } := fun i =>
    ⟨⟨_, rfl⟩, le_rfl, le_rfl, Iff.rfl, fun _ => rfl, fun _ => rfl, fun _ h => h,
      fun _ t ht => (ht.of_concat (by simp [ReadyzEntry.PublishedAt])).2⟩
  refine ⟨⟨h.shared.verdict, h.shared.checkedAt,
    h.shared.probeOk.trans (passes_concat_iff id id).symm, fun hok => ?_, fun t ht => ?_, ?_, ?_⟩,
    fun i hi => ?_, fun i pc hi => ?_⟩
  · obtain ⟨e, he, hsince⟩ := h.shared.passedSince hok
    exact ⟨e, by simp [note, he], hsince⟩
  · exact h.shared.published t (ht.of_concat (by simp [ReadyzEntry.PublishedAt])).2
  · exact fun log j w cached t log' hlog => h.shared.answers_concat (by simp) hlog
  · exact fun log j ready t log' hlog => h.shared.paced_concat (by simp) hlog
  · have hlt := h.holder i hi
    simp only [List.length_append, List.length_singleton]
    omega
  · rw [List.getElem?_append] at hi
    split_ifs at hi with hlt
    · exact (h.calls i pc hi).frame (hframe i)
    · obtain ⟨hzero, rfl⟩ : i - s.calls.length = 0 ∧ ReadyzPc.check false = pc := by
        rw [List.getElem?_singleton] at hi
        split_ifs at hi with hzero
        exact ⟨hzero, by simpa using hi⟩
      obtain rfl : i = s.calls.length := by omega
      refine ⟨by simp [note], ?_, trivial⟩
      simp only [ReadyzPc.inLock, Bool.false_eq_true, false_iff]
      exact fun hlock => lt_irrefl _ (h.holder _ hlock)

lemma Inv.tick (h : s.Inv cfg) {now : ℚ} (hle : s.now ≤ now) :
    ({ s with now } : ReadyzState).Inv cfg := by
  refine h.env ⟨h.shared.verdict, h.shared.checkedAt.trans hle, h.shared.probeOk,
    h.shared.passedSince, h.shared.published, h.shared.answers, h.shared.paced⟩ rfl fun i => ?_
  exact ⟨⟨[], by simp⟩, le_rfl, hle, Iff.rfl, fun _ => rfl, fun _ => rfl, fun _ h => h,
    fun _ _ h => h⟩

lemma Inv.invalidate (h : s.Inv cfg) :
    ({ s.note .invalidated with probeOk := false } : ReadyzState).Inv cfg := by
  have hpublished : ∀ t, ¬ Published (s.log ++ [.invalidated]) t := fun t ht =>
    (ht.of_concat (by simp [ReadyzEntry.PublishedAt])).1 trivial
  refine h.env ⟨h.shared.verdict, h.shared.checkedAt, ?_, by simp, fun t ht => ?_, ?_, ?_⟩ rfl
    fun i => ?_
  · simp [note, List.since_concat, ReadyzEntry.Refutes, ReadyzEntry.Passes]
  · exact absurd ht (hpublished t)
  · exact fun log j w cached t log' hlog => h.shared.answers_concat (by simp) hlog
  · exact fun log j ready t log' hlog => h.shared.paced_concat (by simp) hlog
  · exact ⟨⟨_, rfl⟩, le_rfl, le_rfl, Iff.rfl, fun _ => rfl, fun _ => rfl, by simp,
      fun _ t ht => absurd ht (hpublished t)⟩

lemma Inv.step (h : s.Inv cfg) {event : ReadyzEvent} (hstep : s.step cfg event = some s') :
    s'.Inv cfg := by
  cases event with
  | arrive =>
    cases hstep
    exact h.arrive
  | advance i =>
    obtain ⟨pc, hi, hstep⟩ := Option.bind_eq_some_iff.mp hstep
    exact h.moves hi (h.moves_advance (h.calls i pc hi) hstep)
  | probe i w pipeline =>
    simp only [ReadyzState.step] at hstep
    split_ifs at hstep with hi
    cases hstep
    exact h.moves hi (h.moves_settle (h.calls i _ hi) (sound_verdictOf w pipeline))
  | tick now =>
    simp only [ReadyzState.step] at hstep
    split_ifs at hstep with hle
    cases hstep
    exact h.tick hle
  | invalidate =>
    cases hstep
    exact h.invalidate

lemma inv_readyzRun {events : List ReadyzEvent} (h : readyzRun cfg events = some s) : s.Inv cfg := by
  have hinit : Inv cfg {} := by
    refine ⟨⟨by simp, le_rfl, by simp, by simp, fun t ht => ?_, by simp, by simp⟩, by simp, by simp⟩
    exact absurd ht List.since_nil
  exact Transition.run_invariant _ (fun _ _ _ hs hstep => hs.step hstep) hinit h

end ReadyzState

open ReadyzState

/-- A verdict that is ready is only ever answered with fields found, both parsers and a writable
state directory. Behind a probe that fails, or an invalidation, a call that arrives later is answered
so only when a probe has passed in between; and a cached one is answered only within the TTL of the
end of a probe that passed. -/
theorem readyz_supported {cfg : ReadyzConfig} {events : List ReadyzEvent} {s : ReadyzState}
    (h : readyzRun cfg events = some s) {log log' : List ReadyzEntry} {i : ℕ} {v : ReadyzVerdict}
    {cached : Bool} {time : ℚ} (hlog : s.log = log ++ .answered i (.verdict v cached) time :: log')
    (hready : v.isReady = true) :
    (∃ w : ReadyzSurroundings, ∃ docType fields, w.pdfplumber = none ∧ w.docx = none ∧
      w.stateDir = none ∧ 0 < fields ∧
      v = .ready "ok" docType fields w.dependencyChecks cfg.ttlSeconds) ∧
    (∀ earlier e between, log = earlier ++ e :: between →
      (e = .invalidated ∨ ∃ j t, e = .settled j false t) → .arrived i ∉ earlier →
      ∃ j t, .settled j true t ∈ between) ∧
    (cached = true → ∃ j t, (.settled j true t ∈ log ∨ .published j true t ∈ log) ∧
      time - t < cfg.ttlSeconds) := by
  obtain ⟨hsound, ⟨seen, rest, hseen, harrived, hpasses⟩, hrecent⟩ :=
    (inv_readyzRun h).shared.answers log i v cached time log' hlog hready
  refine ⟨hsound hready, fun earlier e between hsplit he hnew => ?_, fun hcached => ?_⟩
  · have hrefutes : e.Refutes ∧ ¬ e.Passes ∧ e ≠ .arrived i := by
      obtain rfl | ⟨j, t, rfl⟩ := he <;> simp [ReadyzEntry.Refutes, ReadyzEntry.Passes]
    -- the call has arrived behind the failure, so the failure is in what was seen
    obtain ⟨between', hcut, hrest⟩ : ∃ between', seen = earlier ++ e :: between' ∧
        between = between' ++ rest := by
      obtain ⟨more, hmore, htail⟩ | ⟨more, hmore, htail⟩ :=
        List.append_eq_append_iff.mp (hseen.symm.trans hsplit)
      · exact absurd (by simp [hmore, harrived]) hnew
      · cases more with
        | nil => exact absurd (by simpa [hmore] using harrived) hnew
        | cons x more =>
          obtain ⟨rfl, rfl⟩ : e = x ∧ between = more ++ rest := by simpa using htail
          exact ⟨more, hmore, rfl⟩
    obtain ⟨x, hx, hpass⟩ := (hcut ▸ hpasses).exists_of_bad hrefutes.1 hrefutes.2.1
    unfold ReadyzEntry.Passes at hpass
    split at hpass
    · rename_i j t
      exact ⟨j, t, by simp [hrest, hx]⟩
    · exact hpass.elim
  · obtain ⟨c, hlt, e, he, hsince⟩ := hrecent hcached
    unfold ReadyzEntry.PassedSince at hsince
    split at hsince
    · rename_i j t
      exact ⟨j, t, .inl he, by linarith⟩
    · rename_i j t
      exact ⟨j, t, .inr he, by linarith⟩
    · exact hsince.elim

/-- While what a probe found stands, neither failed since nor invalidated, no call probes again
within the TTL of its publication. -/
theorem readyz_paced {cfg : ReadyzConfig} {events : List ReadyzEvent} {s : ReadyzState}
    (h : readyzRun cfg events = some s) {log between log' : List ReadyzEntry} {i j : ℕ}
    {ready : Bool} {t t' time : ℚ}
    (hlog : s.log = log ++ .settled j true t :: between ++ .settled i ready time :: log')
    (hstands : ∀ e ∈ between, e ≠ .invalidated ∧ ∀ k t, e ≠ .settled k false t)
    (hpublished : .published j true t' ∈ between) : t' + cfg.ttlSeconds ≤ time := by
  have hgood : ∀ e ∈ between, ¬ e.Refutes := by
    intro e he hrefutes
    unfold ReadyzEntry.Refutes at hrefutes
    split at hrefutes
    · exact (hstands _ he).2 _ _ rfl
    · exact (hstands _ he).1 rfl
    · exact hrefutes
  obtain ⟨before, behind, rfl⟩ := List.append_of_mem hpublished
  refine (inv_readyzRun h).shared.paced _ i ready time log' hlog t' ?_ ?_
  · exact ⟨log, _, _, rfl, trivial, hgood⟩
  · exact ⟨log ++ .settled j true t :: before, _, behind, by simp, ⟨j, rfl⟩,
      fun e he => hgood e (by simp [he])⟩

namespace Sample

def memoVerdict : ReadyzVerdict :=
  .ready "ok" "memo" 3 (ReadyzSurroundings.dependencyChecks { slots := 4 }) 30

/-- A call that reads the cache and then waits for the lock and probes. -/
def probingCall (i : ℕ) : List ReadyzEvent :=
  .arrive :: List.replicate 5 (.advance i) ++ .probe i { slots := 4 } (.ok ("memo", 3)) ::
    List.replicate 3 (.advance i)

/-- A probe, a call that the cache serves ten seconds later, and a new probe behind the TTL. The last
call needs two more reads, of a verdict that is there. -/
def readyzEvents : List ReadyzEvent :=
  probingCall 0 ++ .tick 10 :: .arrive :: List.replicate 4 (.advance 1) ++
    .tick 40 :: .arrive :: List.replicate 9 (.advance 2) ++
    [.probe 2 { slots := 4 } (.ok ("memo", 3))]

def servedLog : List ReadyzEntry :=
  [.arrived 0, .settled 0 true 0, .published 0 true 0, .answered 0 (.verdict memoVerdict false) 0,
    .arrived 1]

def readyzSample : ReadyzState where
  verdict := some memoVerdict
  probeOk := true
  lock := some 2
  now := 40
  calls := [.returned (.verdict memoVerdict false), .returned (.verdict memoVerdict true),
    .settled memoVerdict]
  log := servedLog ++ [.answered 1 (.verdict memoVerdict true) 10, .arrived 2, .settled 2 true 40]

lemma run_readyzEvents : readyzRun {} readyzEvents = some readyzSample := by
  decide +kernel

theorem readyz_supported_readyzEvents :
    ∃ j t, (.settled j true t ∈ servedLog ∨ .published j true t ∈ servedLog) ∧ (10 : ℚ) - t < 30 :=
  (readyz_supported run_readyzEvents rfl rfl).2.2 rfl

theorem readyz_paced_readyzEvents : (0 : ℚ) + 30 ≤ 40 := by
  have hlog : readyzSample.log = [.arrived 0] ++ .settled 0 true 0 ::
      [.published 0 true 0, .answered 0 (.verdict memoVerdict false) 0, .arrived 1,
        .answered 1 (.verdict memoVerdict true) 10, .arrived 2] ++ .settled 2 true 40 :: [] := rfl
  exact readyz_paced run_readyzEvents hlog (by simp) (by simp)

end Sample

end AxiomGrid.Overlay
