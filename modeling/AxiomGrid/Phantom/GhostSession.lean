import AxiomGrid.Runtime.Server
import Mathlib.Data.List.DropRight

/-!
# The ghost session

`phantom-core/src/ghost_session.rs` and `ghost_buffer.rs`: a session streams two alternatives into
a buffer, the user reviews the preview and accepts it once.

`stream_with_natural_delay` sleeps between two characters, so a call of it is a text that is taken
apart one turn at a time, and turns of several calls alternate with every other method. The two
checks of the token in one turn are one here: nothing happens between the second check and the
push.
-/

namespace AxiomGrid.Phantom

open AxiomGrid.Runtime (isWhiteSpace)

inductive SessionState where
  | streaming
  | review
  | accepted
  | cancelled
  | correcting
  deriving DecidableEq, Repr

inductive ConfidenceBand where
  | high
  | medium
  | low
  deriving DecidableEq, Repr

def ConfidenceBand.acceptsEnabled : ConfidenceBand → Bool
  | low => false
  | _ => true

/-- `str::len`: the number of bytes in UTF-8. -/
def utf8Len (text : Str) : ℕ := (text.map Char.utf8Size).sum

/-- `str::is_char_boundary`. -/
def isCharBoundary : Str → ℕ → Bool
  | _, 0 => true
  | [], _ + 1 => false
  | c :: cs, n + 1 => c.utf8Size ≤ n + 1 && isCharBoundary cs (n + 1 - c.utf8Size)

/-- The last character boundary up to an offset. -/
def floorBoundary (text : Str) : ℕ → ℕ
  | 0 => 0
  | n + 1 => if isCharBoundary text (n + 1) then n + 1 else floorBoundary text n

/-- The text before and after a byte offset that is a character boundary. -/
def splitBytes : Str → ℕ → Str × Str
  | cs, 0 => ([], cs)
  | [], _ + 1 => ([], [])
  | c :: cs, n + 1 => ((splitBytes cs (n + 1 - c.utf8Size)).map (c :: ·) id)

structure GhostBuffer where
  textA : Str := []
  textB : Str := []
  usingB : Bool := false
  acceptedChars : ℕ := 0
  deriving DecidableEq, Repr

namespace GhostBuffer

variable (buf : GhostBuffer)

/-- One of the two alternatives. -/
def textOf (b : Bool) : Str := if b then buf.textB else buf.textA

def activeText : Str := buf.textOf buf.usingB

def boundary : ℕ := floorBoundary buf.activeText (min buf.acceptedChars (utf8Len buf.activeText))

def acceptedText : Str := (splitBytes buf.activeText buf.boundary).1

/-- The loop of `accept_next_word`: the offset behind the first blank that follows a word. -/
def wordEnd (found : Bool) (i : ℕ) : Str → ℕ
  | [] => i
  | c :: cs =>
    if isWhiteSpace c && found then i + c.utf8Size
    else wordEnd (found || !isWhiteSpace c) (i + c.utf8Size) cs

def acceptNextWord : GhostBuffer :=
  let start := buf.boundary
  let remaining := (splitBytes buf.activeText start).2
  { buf with acceptedChars := min (start + wordEnd false 0 remaining) (utf8Len buf.activeText) }

/-- The accepted text without the blanks at its end, and then without its last word. -/
def undoLastWord : GhostBuffer :=
  let accepted := buf.acceptedText.rdropWhile isWhiteSpace
  { buf with acceptedChars := utf8Len (accepted.rdropWhile fun c => !isWhiteSpace c) }

def toggleAlternative : GhostBuffer := { buf with usingB := !buf.usingB, acceptedChars := 0 }

end GhostBuffer

/-- A session; `cancelToken` says whether the token is cancelled. -/
structure GhostSession where
  cancelToken : Bool := false
  buffer : GhostBuffer := {}
  state : SessionState := .streaming
  confidence : ConfidenceBand
  deriving DecidableEq, Repr

namespace GhostSession

variable (s : GhostSession)

def finishStream : GhostSession :=
  if !s.cancelToken && (s.state = .streaming || s.state = .correcting) then
    { s with state := .review }
  else s

def cancel : GhostSession := { s with cancelToken := true, state := .cancelled }

def acceptAll : Except String Str × GhostSession :=
  if s.cancelToken || s.state ≠ .review then
    (.error "Only a completed preview can be accepted", s)
  else if !s.confidence.acceptsEnabled then (.error "Review required: low confidence", s)
  else if s.buffer.activeText.isEmpty then (.error "Empty preview", s)
  else (.ok s.buffer.activeText, { s with cancelToken := true, state := .accepted })

def acceptNextWord : GhostSession := { s with buffer := s.buffer.acceptNextWord }

def undoLastWord : GhostSession := { s with buffer := s.buffer.undoLastWord }

def toggleAlternative : GhostSession := { s with buffer := s.buffer.toggleAlternative }

def pushTokenA (token : Str) : GhostSession :=
  if s.cancelToken then s else { s with buffer.textA := s.buffer.textA ++ token }

def pushTokenB (token : Str) : GhostSession :=
  if s.cancelToken then s else { s with buffer.textB := s.buffer.textB ++ token }

/-- One turn of the loop of `stream_with_natural_delay`, and the characters it has left. -/
def streamTurn : Str → Str × GhostSession
  | [] => ([], s)
  | c :: rest => if s.cancelToken then ([], s) else (rest, s.pushTokenA [c])

end GhostSession

/-- A session and the calls of `stream_with_natural_delay` that have not returned. -/
structure Running where
  session : GhostSession
  streams : List Str := []

inductive Event where
  | finishStream
  | pushTokenA (token : Str)
  | pushTokenB (token : Str)
  /-- `stream_with_natural_delay` is called. -/
  | stream (token : Str)
  /-- A call of `stream_with_natural_delay` goes on. -/
  | streamTurn (i : ℕ)
  | toggleAlternative
  | acceptNextWord
  | undoLastWord
  | cancel
  | acceptAll
  deriving DecidableEq, Repr

namespace Running

variable (r : Running)

def step : Event → Running
  | .finishStream => { r with session := r.session.finishStream }
  | .pushTokenA token => { r with session := r.session.pushTokenA token }
  | .pushTokenB token => { r with session := r.session.pushTokenB token }
  | .stream token => { r with streams := r.streams ++ [token] }
  | .streamTurn i =>
    let turn := r.session.streamTurn (r.streams.getD i [])
    { session := turn.2, streams := r.streams.set i turn.1 }
  | .toggleAlternative => { r with session := r.session.toggleAlternative }
  | .acceptNextWord => { r with session := r.session.acceptNextWord }
  | .undoLastWord => { r with session := r.session.undoLastWord }
  | .cancel => { r with session := r.session.cancel }
  | .acceptAll => { r with session := r.session.acceptAll.2 }

/-- What an event has for an alternative, whether or not the token is cancelled. -/
def token (b : Bool) : Event → Str
  | .pushTokenA token => if b then [] else token
  | .pushTokenB token => if b then token else []
  | .streamTurn i => if b then [] else (r.streams.getD i []).take 1
  | _ => []

end Running

/-- The state after some events on a new session. -/
def run (confidence : ConfidenceBand) (events : List Event) : Running :=
  events.foldl Running.step { session := { confidence } }

lemma run_append (confidence : ConfidenceBand) (events later : List Event) :
    run confidence (events ++ later) = later.foldl Running.step (run confidence events) :=
  List.foldl_append

/-! ## One event -/

namespace GhostSession

variable {s : GhostSession}

/-- What `accept_all` checks. -/
structure Acceptable (s : GhostSession) : Prop where
  cancelToken : s.cancelToken = false
  state : s.state = .review
  confidence : s.confidence.acceptsEnabled = true
  activeText : s.buffer.activeText ≠ []

lemma acceptAll_of_acceptable (h : s.Acceptable) :
    s.acceptAll = (.ok s.buffer.activeText, { s with cancelToken := true, state := .accepted }) := by
  simp [acceptAll, h.cancelToken, h.state, h.confidence, h.activeText]

lemma acceptAll_of_not_acceptable (h : ¬ s.Acceptable) :
    (∃ message, s.acceptAll.1 = .error message) ∧ s.acceptAll.2 = s := by
  simp only [acceptAll]
  split_ifs with hstate hconfidence hempty
  · exact ⟨⟨_, rfl⟩, rfl⟩
  · exact ⟨⟨_, rfl⟩, rfl⟩
  · exact ⟨⟨_, rfl⟩, rfl⟩
  · refine absurd ⟨?_, ?_, ?_, ?_⟩ h <;> simp_all

lemma acceptAll_eq_ok_iff {text : Str} :
    s.acceptAll.1 = .ok text ↔ s.Acceptable ∧ text = s.buffer.activeText := by
  by_cases h : s.Acceptable
  · simp [acceptAll_of_acceptable h, h, eq_comm]
  · obtain ⟨⟨message, herror⟩, -⟩ := acceptAll_of_not_acceptable h
    simp [herror, h]

lemma streamTurn_eq (text : Str) : (s.streamTurn text).2 = s.pushTokenA (text.take 1) := by
  cases text with
  | nil => simp [streamTurn, pushTokenA]
  | cons c rest =>
    simp only [streamTurn, pushTokenA]
    split_ifs <;> simp

end GhostSession

namespace Running

variable (r : Running)

/-- What an event does to the texts. -/
lemma textOf_step (event : Event) (b : Bool) :
    (r.step event).session.buffer.textOf b =
      r.session.buffer.textOf b ++ if r.session.cancelToken then [] else r.token b event := by
  cases event with
  | finishStream =>
    simp only [step, GhostSession.finishStream, token]
    split_ifs <;> simp
  | pushTokenA token | pushTokenB token =>
    cases b <;> cases hcancel : r.session.cancelToken <;>
      simp [step, GhostSession.pushTokenA, GhostSession.pushTokenB, GhostBuffer.textOf,
        Running.token, hcancel]
  | streamTurn i =>
    rw [step, GhostSession.streamTurn_eq]
    cases b <;> cases hcancel : r.session.cancelToken <;>
      simp [GhostSession.pushTokenA, GhostBuffer.textOf, token, hcancel]
  | acceptAll =>
    simp only [step, GhostSession.acceptAll, token]
    split_ifs <;> simp
  | stream | toggleAlternative | acceptNextWord | undoLastWord | cancel =>
    simp [step, token, GhostSession.toggleAlternative, GhostBuffer.toggleAlternative,
      GhostSession.acceptNextWord, GhostBuffer.acceptNextWord, GhostSession.undoLastWord,
      GhostBuffer.undoLastWord, GhostSession.cancel, GhostBuffer.textOf]

/-- The events that move the session to another state. -/
lemma step_cases (event : Event) :
    (event = .finishStream ∧ r.session.cancelToken = false ∧
      (r.session.state = .streaming ∨ r.session.state = .correcting) ∧
      (r.step event).session.state = .review ∧ (r.step event).session.cancelToken = false) ∨
    (event = .cancel ∧ (r.step event).session.cancelToken = true ∧
      (r.step event).session.state = .cancelled) ∨
    (event = .acceptAll ∧ r.session.Acceptable ∧ (r.step event).session.cancelToken = true ∧
      (r.step event).session.state = .accepted) ∨
    (event ≠ .cancel ∧ (event = .acceptAll → ¬ r.session.Acceptable) ∧
      (r.step event).session.cancelToken = r.session.cancelToken ∧
      (r.step event).session.state = r.session.state) := by
  cases event with
  | finishStream =>
    simp only [step, GhostSession.finishStream]
    split_ifs with h
    · simp only [Bool.and_eq_true, Bool.not_eq_true', Bool.or_eq_true, decide_eq_true_eq] at h
      exact .inl ⟨trivial, h.1, h.2, rfl, h.1⟩
    · simp
  | pushTokenA token | pushTokenB token =>
    simp only [step, GhostSession.pushTokenA, GhostSession.pushTokenB]
    split_ifs <;> simp
  | streamTurn i =>
    rw [step, GhostSession.streamTurn_eq, GhostSession.pushTokenA]
    split_ifs <;> simp
  | cancel => exact .inr (.inl ⟨rfl, rfl, rfl⟩)
  | acceptAll =>
    by_cases h : r.session.Acceptable
    · simp [step, GhostSession.acceptAll_of_acceptable h, h]
    · simp [step, (GhostSession.acceptAll_of_not_acceptable h).2, h]
  | stream | toggleAlternative | acceptNextWord | undoLastWord =>
    simp [step, GhostSession.toggleAlternative, GhostSession.acceptNextWord, GhostSession.undoLastWord]

variable {r}

lemma cancelToken_step (h : r.session.cancelToken = true) (event : Event) :
    (r.step event).session.cancelToken = true := by
  rcases r.step_cases event with ⟨-, hc, -⟩ | ⟨-, hc, -⟩ | ⟨-, -, hc, -⟩ | ⟨-, -, hc, -⟩
  · simp [h] at hc
  · exact hc
  · exact hc
  · exact hc.trans h

/-- In review the token is live. -/
def Live (r : Running) : Prop := r.session.state = .review → r.session.cancelToken = false

lemma Live.step (h : r.Live) (event : Event) : (r.step event).Live := by
  intro hreview
  rcases r.step_cases event with ⟨-, -, -, -, hc⟩ | ⟨-, -, hs⟩ | ⟨-, -, -, hs⟩ | ⟨-, -, hc, hs⟩
  · exact hc
  · simp [hreview] at hs
  · simp [hreview] at hs
  · exact hc.trans (h (hs ▸ hreview))

/-- The only way out of review cancels the token. -/
lemma review_step (h : r.session.state = .review) (event : Event) :
    (r.step event).session.state = .review ∨ (r.step event).session.cancelToken = true := by
  rcases r.step_cases event with ⟨-, -, -, hs, -⟩ | ⟨-, hc, -⟩ | ⟨-, -, hc, -⟩ | ⟨-, -, -, hs⟩
  · exact .inl hs
  · exact .inr hc
  · exact .inr hc
  · exact .inl (hs.trans h)

end Running

/-! ## Runs -/

section Runs

variable {confidence : ConfidenceBand} {events later : List Event}

lemma run_concat (event : Event) :
    run confidence (events ++ [event]) = (run confidence events).step event := by
  rw [run_append]
  rfl

lemma cancelToken_run_append (h : (run confidence events).session.cancelToken = true) :
    (run confidence (events ++ later)).session.cancelToken = true := by
  induction later using List.reverseRecOn with
  | nil => simpa using h
  | append_singleton later event ih =>
    rw [← List.append_assoc, run_concat]
    exact Running.cancelToken_step ih event

lemma cancelToken_run_of_mem (h : .cancel ∈ events) :
    (run confidence events).session.cancelToken = true := by
  obtain ⟨start, later, rfl⟩ := List.append_of_mem h
  rw [List.append_cons]
  apply cancelToken_run_append
  rw [run_concat]
  rfl

lemma live_run : (run confidence events).Live := by
  induction events using List.reverseRecOn with
  | nil => simp [Running.Live, run]
  | append_singleton events event ih =>
    rw [run_concat]
    exact ih.step event

/-- A session that has left review never comes back. -/
lemma review_of_review_later (h : (run confidence events).session.state = .review)
    {last : List Event}
    (hlast : (run confidence (events ++ later ++ last)).session.state = .review) :
    (run confidence (events ++ later)).session.state = .review := by
  have hleft : (run confidence (events ++ later)).session.state = .review ∨
      (run confidence (events ++ later)).session.cancelToken = true := by
    clear hlast
    induction later using List.reverseRecOn with
    | nil => exact .inl (by simpa using h)
    | append_singleton later event ih =>
      rw [← List.append_assoc, run_concat]
      obtain hreview | hcancel := ih
      · exact Running.review_step hreview event
      · exact .inr (Running.cancelToken_step hcancel event)
  refine hleft.resolve_right fun hcancel => ?_
  have hcancelled : (run confidence (events ++ later ++ last)).session.cancelToken = true :=
    cancelToken_run_append hcancel
  rw [live_run hlast] at hcancelled
  cases hcancelled

lemma textOf_run_le (confidence : ConfidenceBand) (events later : List Event) (b : Bool) :
    ((run confidence events).session.buffer.textOf b).length ≤
      ((run confidence (events ++ later)).session.buffer.textOf b).length := by
  induction later using List.reverseRecOn with
  | nil => simp
  | append_singleton later event ih =>
    rw [← List.append_assoc, run_concat, Running.textOf_step, List.length_append]
    omega

/-- A session in review came there by a `finish_stream`. -/
lemma exists_finishStream (h : (run confidence events).session.state = .review) :
    ∃ start later, events = start ++ .finishStream :: later ∧
      (run confidence start).session.state ≠ .review ∧
      (run confidence (start ++ [.finishStream])).session.state = .review := by
  induction events using List.reverseRecOn with
  | nil => simp [run] at h
  | append_singleton events event ih =>
    by_cases hbefore : (run confidence events).session.state = .review
    · obtain ⟨start, later, rfl, hmoved⟩ := ih hbefore
      exact ⟨start, later ++ [event], by simp, hmoved⟩
    · rw [run_concat] at h
      rcases (run confidence events).step_cases event with
        ⟨rfl, -, -, hs, -⟩ | ⟨-, -, hs⟩ | ⟨-, -, -, hs⟩ | ⟨-, -, -, hs⟩
      · exact ⟨events, [], rfl, hbefore, by rw [run_concat, hs]⟩
      · simp [h] at hs
      · simp [h] at hs
      · exact absurd (hs ▸ h) hbefore

end Runs

/-! ## What is accepted -/

section Accepted

variable (confidence : ConfidenceBand)

/-- `accept_all` returns a text when it is called after some events. -/
def Accepts (events : List Event) (text : Str) : Prop :=
  (run confidence events).session.acceptAll.1 = .ok text

/-- A `finish_stream` after some events moves the session to review. -/
def MovesToReview (events : List Event) : Prop :=
  (run confidence events).session.state ≠ .review ∧
    (run confidence (events ++ [.finishStream])).session.state = .review

/-- A run accepts at most once, not after a cancel, and only what stood in the active alternative
when the session moved to review. -/
structure AcceptsFrozen (events : List Event) : Prop where
  once : ∀ before between text later,
    before ++ .acceptAll :: between ++ [.acceptAll] <+: events →
      Accepts confidence before text →
        ¬ Accepts confidence (before ++ .acceptAll :: between) later
  notCancelled : ∀ before text, before ++ [.acceptAll] <+: events →
    Accepts confidence before text → .cancel ∉ before
  frozen : ∀ before text, before ++ [.acceptAll] <+: events → Accepts confidence before text →
    ∃ start later, before = start ++ .finishStream :: later ∧ MovesToReview confidence start ∧
      text = (run confidence start).session.buffer.textOf
        (run confidence before).session.buffer.usingB

/-- Before each acceptance, no event in review had a character for the alternative that is
accepted. -/
def NoLateToken (events : List Event) : Prop :=
  ∀ before, before ++ [.acceptAll] <+: events → (run confidence before).session.Acceptable →
    ∀ start event later, before = start ++ event :: later →
      (run confidence start).session.state = .review →
        (run confidence start).token (run confidence before).session.buffer.usingB event = []

variable {confidence} {events before : List Event}

lemma not_acceptable_of_cancelToken (h : (run confidence events).session.cancelToken = true) :
    ¬ (run confidence events).session.Acceptable := by
  intro hacceptable
  rw [hacceptable.cancelToken] at h
  cases h

lemma cancelToken_acceptAll (h : (run confidence events).session.Acceptable) :
    (run confidence (events ++ [.acceptAll])).session.cancelToken = true := by
  rw [run_concat, Running.step, GhostSession.acceptAll_of_acceptable h]

/-- The text does not move between two points of the review when no event has a character for it. -/
lemma textOf_eq_of_no_token {b : Bool} {start later : List Event}
    (h : ∀ first event rest, later = first ++ event :: rest →
      (run confidence (start ++ first)).token b event = []) :
    (run confidence (start ++ later)).session.buffer.textOf b =
      (run confidence start).session.buffer.textOf b := by
  induction later using List.reverseRecOn with
  | nil => simp
  | append_singleton later event ih =>
    have hlast := h later event [] rfl
    have hfirst := ih fun first event' rest hsplit =>
      h first event' (rest ++ [event]) (by simp [hsplit])
    rw [← List.append_assoc, run_concat, Running.textOf_step, hlast, ite_self, List.append_nil,
      hfirst]

lemma token_eq_nil_of_frozen {start later first rest : List Event} {event : Event} {b : Bool}
    (hmoves : MovesToReview confidence start) (hbefore : before = start ++ .finishStream :: later)
    (hsplit : before = first ++ event :: rest)
    (hfirst : (run confidence first).session.state = .review)
    (hlast : (run confidence before).session.state = .review)
    (htext : (run confidence before).session.buffer.textOf b =
      (run confidence start).session.buffer.textOf b) :
    (run confidence first).token b event = [] := by
  -- the session is in review after `first`, so `first` reaches beyond `start`
  obtain ⟨tail, rfl⟩ | ⟨tail, rfl⟩ := List.prefix_or_prefix_of_prefix
    (⟨_, hbefore.symm⟩ : start <+: before) (⟨_, hsplit.symm⟩ : first <+: before)
  · have hgrow := textOf_run_le confidence start tail b
    have hgrow' := textOf_run_le confidence (start ++ tail ++ [event]) rest b
    rw [run_concat, Running.textOf_step, live_run hfirst, List.length_append] at hgrow'
    rw [← List.append_cons, ← hsplit, htext] at hgrow'
    apply List.eq_nil_of_length_eq_zero
    simp only [Bool.false_eq_true, if_false] at hgrow'
    omega
  · rw [hbefore] at hlast
    exact absurd (review_of_review_later hfirst hlast) hmoves.1

lemma textOf_eq_of_noLateToken {start later : List Event} {b : Bool}
    (h : ∀ first event rest, before = first ++ event :: rest →
      (run confidence first).session.state = .review → (run confidence first).token b event = [])
    (hreview : (run confidence (start ++ [.finishStream])).session.state = .review)
    (hlast : (run confidence before).session.state = .review)
    (hbefore : before = start ++ [.finishStream] ++ later) :
    (run confidence before).session.buffer.textOf b =
      (run confidence start).session.buffer.textOf b := by
  subst hbefore
  have htoken : (run confidence start).token b .finishStream = [] := rfl
  rw [textOf_eq_of_no_token, run_concat, Running.textOf_step, htoken, ite_self, List.append_nil]
  intro first event rest hsplit
  subst hsplit
  apply h _ event rest (by simp)
  rw [← List.append_assoc] at hlast
  exact review_of_review_later hreview hlast

/-- A run accepts once, before any cancel, and the frozen text, exactly when no event in review
has a character for the alternative that is accepted. -/
theorem acceptsFrozen_iff (confidence : ConfidenceBand) (events : List Event) :
    AcceptsFrozen confidence events ↔ NoLateToken confidence events := by
  constructor
  · intro h before hbefore hacceptable start event later hsplit hreview
    obtain ⟨first, rest, hfinish, hmoves, htext⟩ := h.frozen before _ hbefore
      (GhostSession.acceptAll_eq_ok_iff.mpr ⟨hacceptable, rfl⟩)
    exact token_eq_nil_of_frozen hmoves hfinish hsplit hreview hacceptable.state htext
  · intro h
    refine ⟨?_, ?_, ?_⟩
    · intro before between text later _ hfirst hsecond
      obtain ⟨hacceptable, -⟩ := GhostSession.acceptAll_eq_ok_iff.mp hfirst
      refine not_acceptable_of_cancelToken ?_ (GhostSession.acceptAll_eq_ok_iff.mp hsecond).1
      rw [List.append_cons]
      exact cancelToken_run_append (cancelToken_acceptAll hacceptable)
    · intro before text _ haccepts hcancel
      exact not_acceptable_of_cancelToken (cancelToken_run_of_mem hcancel)
        (GhostSession.acceptAll_eq_ok_iff.mp haccepts).1
    · intro before text hbefore haccepts
      obtain ⟨hacceptable, rfl⟩ := GhostSession.acceptAll_eq_ok_iff.mp haccepts
      obtain ⟨start, later, hfinish, hmoves⟩ := exists_finishStream hacceptable.state
      refine ⟨start, later, hfinish, hmoves, ?_⟩
      exact textOf_eq_of_noLateToken (h before hbefore hacceptable) hmoves.2 hacceptable.state
        (by rw [hfinish, List.append_cons])

end Accepted

namespace Sample

/-- A token comes late, after the preview is complete. -/
def lateRun : List Event :=
  [.pushTokenA "Hello".toList, .finishStream, .pushTokenA " late".toList, .acceptAll]

theorem not_acceptsFrozen_lateRun : ¬ AcceptsFrozen .high lateRun := by
  intro h
  obtain ⟨start, later, hsplit, hmoves, htext⟩ :=
    h.frozen (lateRun.take 3) "Hello late".toList (by decide) rfl
  have htoken : (run .high (lateRun.take 2)).token false (.pushTokenA " late".toList) = [] :=
    token_eq_nil_of_frozen hmoves hsplit rfl rfl rfl htext
  cases htoken

end Sample

end AxiomGrid.Phantom
