import AxiomGrid.Lib.DecimalOrder

/-!
# Bounded request bodies

`BodyLimitMiddleware` of `overlay/body_limit.py`: a request is buffered before the inner application
sees it. A declared length is compared with the limit as a text, and the bytes that arrive are counted
whatever was declared. What `receive` yields is the list of the messages that arrive; the middleware
waits when they are exhausted.
-/

namespace AxiomGrid.Overlay.BodyLimit

/-- A message of `receive`; the body and the mark may be missing. -/
structure Message where
  type : String
  body : Option Bytes := none
  moreBody : Option Bool := none
  deriving DecidableEq

namespace Message

def IsDisconnect (m : Message) : Prop := m.type = "http.disconnect"

/-- More of the body is to come. -/
def Continues (m : Message) : Prop := ¬ m.IsDisconnect ∧ m.moreBody.getD false = true

/-- The end of the body. -/
def Ends (m : Message) : Prop := ¬ m.IsDisconnect ∧ m.moreBody.getD false = false

instance (m : Message) : Decidable m.IsDisconnect := by unfold IsDisconnect; infer_instance
instance (m : Message) : Decidable m.Continues := by unfold Continues; infer_instance
instance (m : Message) : Decidable m.Ends := by unfold Ends; infer_instance

def chunk (m : Message) : Bytes := m.body.getD []

end Message

/-- The bytes of some messages. -/
def bodyOf (messages : List Message) : Bytes := messages.flatMap Message.chunk

/-! ### The inner application's `receive` -/

/-- The state of `replay`. -/
structure Replay where
  delivered : Bool := false
  body : Bytes
  /-- What `receive` still yields. -/
  rest : List Message

/-- `replay`; `none` waits for a message. -/
def Replay.next (replay : Replay) : Option (Message × Replay) :=
  if ¬ replay.delivered then
    some (⟨"http.request", some replay.body, some false⟩, { replay with delivered := true })
  else
    match replay.rest with
    | [] => none
    | m :: ms => some (m, { replay with rest := ms })

/-- What the application gets when it calls `receive` so many times. -/
def Replay.received : ℕ → Replay → List Message
  | 0, _ => []
  | n + 1, replay =>
    match replay.next with
    | none => []
    | some (m, replay) => m :: replay.received n

lemma received_delivered (n : ℕ) {replay : Replay} (h : replay.delivered = true) :
    replay.received n = replay.rest.take n := by
  induction n generalizing replay with
  | zero => rfl
  | succ n ih =>
    cases hrest : replay.rest with
    | nil => simp [Replay.received, Replay.next, h, hrest]
    | cons m ms =>
      have hnext : replay.next = some (m, { replay with rest := ms }) := by
        simp [Replay.next, h, hrest]
      rw [Replay.received, hnext, List.take_succ_cons]
      exact congrArg (m :: ·) (@ih { replay with rest := ms } h)

/-- The buffered body comes first, and then what `receive` yields. -/
lemma received_succ (n : ℕ) (body : Bytes) (rest : List Message) :
    Replay.received (n + 1) { body := body, rest := rest } =
      ⟨"http.request", some body, some false⟩ :: rest.take n := by
  have htail := @received_delivered n { delivered := true, body := body, rest := rest } rfl
  exact congrArg (List.cons _) htail

/-! ### The middleware -/

inductive Outcome where
  /-- The application is called with the channels of the request themselves. -/
  | passed
  /-- The application is called with the buffered request. -/
  | invoked (replay : Replay)
  /-- A `JSONResponse` is sent. -/
  | responded (status : ℕ) (detail : String)
  /-- The client has gone. -/
  | returned
  /-- No message is left, and the body is not complete. -/
  | waiting

/-- The responses that the middleware itself sends. -/
def Outcome.responses : Outcome → List (ℕ × String)
  | .responded status detail => [(status, detail)]
  | _ => []

/-- `k.lower()`. -/
def lowerBytes (bs : Bytes) : Bytes :=
  bs.map fun b => if 65 ≤ b.toNat ∧ b.toNat ≤ 90 then b + 32 else b

/-- The values of the `Content-Length` headers. -/
def contentLengths (headers : List (Bytes × Bytes)) : List Bytes :=
  (headers.filter fun header => lowerBytes header.1 = utf8 "content-length").map Prod.snd

def invalidLength : Outcome := .responded 400 "Invalid Content-Length"

def tooLarge : Outcome := .responded 413 "Payload too large"

/-- The loop over `receive`. -/
def buffer (limit : ℕ) (body : Bytes) : List Message → Outcome
  | [] => .waiting
  | m :: ms =>
    if m.IsDisconnect then .returned
    else if limit < body.length + m.chunk.length then tooLarge
    else if m.moreBody.getD false then buffer limit (body ++ m.chunk) ms
    else .invoked { body := body ++ m.chunk, rest := ms }

/-- `BodyLimitMiddleware.__call__`. -/
def call (limit : ℕ) (scopeType : String) (headers : List (Bytes × Bytes))
    (messages : List Message) : Outcome :=
  if scopeType ≠ "http" then .passed
  else
    match contentLengths headers with
    | [] => buffer limit [] messages
    | length :: more =>
      if more ≠ [] ∨ length.isDigit = false then invalidLength
      else
        let normalized := stripZeros length
        let ceiling := decimal limit
        if ceiling.length < normalized.length ∨
            normalized.length = ceiling.length ∧ ceiling < normalized then tooLarge
        else buffer limit [] messages

/-! ### What is required of a request -/

/-- No length is declared, or one, in digits, of at most the limit. -/
def LengthOk (limit : ℕ) (headers : List (Bytes × Bytes)) : Prop :=
  contentLengths headers = [] ∨
    ∃ length, contentLengths headers = [length] ∧ length.isDigit = true ∧
      decimalValue length ≤ limit

/-- The messages up to the first one without `more_body`, and the ones after it. -/
structure Complete (messages before : List Message) (last : Message) (rest : List Message) : Prop where
  split : messages = before ++ last :: rest
  continues : ∀ m ∈ before, m.Continues
  ends : last.Ends

/-- The client disconnects before the end of the body. -/
def Disconnects (messages : List Message) : Prop :=
  ∃ before m rest, messages = before ++ m :: rest ∧ (∀ m ∈ before, m.Continues) ∧ m.IsDisconnect

variable {limit : ℕ}

/-- The messages after the first one, if the body goes on after it. -/
lemma Complete.of_cons {m : Message} {ms before : List Message} {last : Message} {rest : List Message}
    (hm : m.Continues) (h : Complete (m :: ms) before last rest) :
    ∃ before', before = m :: before' ∧ Complete ms before' last rest := by
  cases before with
  | nil =>
    obtain ⟨rfl, -⟩ := List.cons.inj h.split
    exact absurd (hm.2.symm.trans h.ends.2) nofun
  | cons m' before' =>
    obtain ⟨rfl, hsplit⟩ := List.cons.inj h.split
    exact ⟨before', rfl, hsplit, fun m hm => h.continues m (List.mem_cons_of_mem _ hm), h.ends⟩

/-- A complete body within the limit is handed on. -/
lemma buffer_of_complete {body : Bytes} {messages before : List Message} {last : Message}
    {rest : List Message} (h : Complete messages before last rest)
    (hlimit : body.length + (bodyOf (before ++ [last])).length ≤ limit) :
    buffer limit body messages =
      .invoked { body := body ++ bodyOf (before ++ [last]), rest := rest } := by
  obtain ⟨rfl, hcontinues, hends⟩ := h
  induction before generalizing body with
  | nil =>
    simp only [List.nil_append, bodyOf, List.flatMap_cons, List.flatMap_nil, List.append_nil]
      at hlimit ⊢
    rw [buffer, if_neg hends.1, if_neg (by omega), if_neg (by rw [hends.2]; exact nofun)]
  | cons m before ih =>
    have hm := hcontinues m List.mem_cons_self
    simp only [List.cons_append, bodyOf, List.flatMap_cons, List.length_append] at hlimit ⊢
    rw [buffer, if_neg hm.1, if_neg (by omega), if_pos hm.2, ← List.append_assoc]
    refine ih ?_ fun m' hm' => hcontinues m' (List.mem_cons_of_mem m hm')
    rw [List.length_append, bodyOf]
    omega

/-- Every way out of the loop. -/
lemma buffer_cases {body : Bytes} (hbody : body.length ≤ limit) (messages : List Message) :
    (∃ before last rest, Complete messages before last rest ∧
      body.length + (bodyOf (before ++ [last])).length ≤ limit) ∨
    buffer limit body messages = tooLarge ∧ (∀ before last rest, Complete messages before last rest →
      limit < body.length + (bodyOf (before ++ [last])).length) ∨
    buffer limit body messages = .returned ∧ Disconnects messages ∨
    buffer limit body messages = .waiting ∧ (∀ m ∈ messages, m.Continues) ∧
      body.length + (bodyOf messages).length ≤ limit := by
  induction messages generalizing body with
  | nil => exact .inr (.inr (.inr ⟨rfl, nofun, hbody⟩))
  | cons m ms ih =>
    rw [buffer]
    split_ifs with hgone hlarge hmore
    · exact .inr (.inr (.inl ⟨rfl, [], m, ms, rfl, nofun, hgone⟩))
    · refine .inr (.inl ⟨rfl, ?_⟩)
      rintro before last rest ⟨hsplit, -, -⟩
      have hfirst : ∃ tail, before ++ [last] = m :: tail := by
        cases before with
        | nil => exact ⟨[], by rw [(List.cons.inj hsplit).1]; rfl⟩
        | cons m' before => exact ⟨before ++ [last], by rw [(List.cons.inj hsplit).1]; rfl⟩
      obtain ⟨tail, htail⟩ := hfirst
      rw [htail, bodyOf, List.flatMap_cons, List.length_append]
      omega
    · have hm : m.Continues := ⟨hgone, hmore⟩
      have hcons : ∀ {before}, (∀ m ∈ before, m.Continues) → ∀ m' ∈ m :: before, m'.Continues :=
        fun h => List.forall_mem_cons.mpr ⟨hm, h⟩
      have hlength : ∀ before (last : Message),
          (body ++ m.chunk).length + (bodyOf (before ++ [last])).length =
            body.length + (bodyOf (m :: before ++ [last])).length := by
        intro before last
        simp only [List.cons_append, bodyOf, List.flatMap_cons, List.length_append]
        omega
      have hbody' : (body ++ m.chunk).length ≤ limit := by
        rw [List.length_append]
        omega
      rcases ih hbody' with ⟨before, last, rest, h, hle⟩ | ⟨heq, hlarge⟩ |
        ⟨heq, before, gone, rest, rfl, hbefore, hgone'⟩ | ⟨heq, hall, hle⟩
      · refine .inl ⟨m :: before, last, rest, ⟨?_, hcons h.continues, h.ends⟩, hlength .. ▸ hle⟩
        rw [h.split, List.cons_append]
      · refine .inr (.inl ⟨heq, ?_⟩)
        intro before last rest h
        obtain ⟨before', rfl, h'⟩ := h.of_cons hm
        exact hlength .. ▸ hlarge before' last rest h'
      · exact .inr (.inr (.inl ⟨heq, m :: before, gone, rest, rfl, hcons hbefore, hgone'⟩))
      · refine .inr (.inr (.inr ⟨heq, hcons hall, ?_⟩))
        rw [bodyOf, List.flatMap_cons, List.length_append]
        rw [List.length_append, bodyOf] at hle
        omega
    · refine .inl ⟨[], m, ms, ⟨rfl, nofun, hgone, ?_⟩, ?_⟩
      · simpa using hmore
      · simp only [List.nil_append, bodyOf, List.flatMap_cons, List.flatMap_nil, List.append_nil]
        omega

/-! ### The declared length -/

/-- The comparison of texts is that of numbers, so a declared length in digits is refused exactly if it
exceeds the limit. -/
lemma exceeds_iff {length : Bytes} (h : length.isDigit = true) :
    (decimal limit).length < (stripZeros length).length ∨
        (stripZeros length).length = (decimal limit).length ∧ decimal limit < stripZeros length ↔
      limit < decimalValue length := by
  have hdigits : ∀ b ∈ length, isDigitByte b = true :=
    List.all_eq_true.mp (of_decide_eq_true h).2
  rw [longer_or_greater_iff (isDigitByte_of_mem_stripZeros hdigits) (stripZeros_noLeadingZero _),
    decimalValue_stripZeros]

lemma call_of_lengthOk {headers : List (Bytes × Bytes)} (h : LengthOk limit headers)
    (messages : List Message) : call limit "http" headers messages = buffer limit [] messages := by
  rw [call, if_neg (not_not.mpr rfl)]
  rcases h with hnone | ⟨length, hone, hdigit, hle⟩
  · rw [hnone]
  · have hsmall := mt (@exceeds_iff limit length hdigit).mp (by omega)
    simp only [hone]
    rw [if_neg (by simp [hdigit]), if_neg hsmall]

lemma call_of_not_lengthOk {headers : List (Bytes × Bytes)} (h : ¬ LengthOk limit headers)
    (messages : List Message) : call limit "http" headers messages = invalidLength ∨
      call limit "http" headers messages = tooLarge := by
  rw [LengthOk, not_or] at h
  obtain ⟨hsome, hbad⟩ := h
  rw [call, if_neg (not_not.mpr rfl)]
  cases hlengths : contentLengths headers with
  | nil => exact absurd hlengths hsome
  | cons length more =>
    simp only
    split_ifs with hmalformed hlarge
    · exact .inl rfl
    · exact .inr rfl
    · simp only [not_or, not_not, Bool.not_eq_false] at hmalformed
      obtain ⟨rfl, hdigit⟩ := hmalformed
      refine absurd ⟨length, hlengths, hdigit, ?_⟩ hbad
      exact not_lt.mp (mt (exceeds_iff hdigit).mpr hlarge)

/-- The loop hands on a body only if it is complete and within the limit. -/
lemma exists_complete_of_buffer {messages : List Message} {replay : Replay}
    (h : buffer limit [] messages = .invoked replay) :
    ∃ before last rest, Complete messages before last rest ∧
      (bodyOf (before ++ [last])).length ≤ limit := by
  have hempty : ([] : Bytes).length ≤ limit := Nat.zero_le limit
  rcases buffer_cases hempty messages with ⟨before, last, rest, hcomplete, hle⟩ | ⟨heq, -⟩ |
    ⟨heq, -⟩ | ⟨heq, -⟩
  · exact ⟨before, last, rest, hcomplete, by simpa using hle⟩
  · exact nomatch heq.symm.trans h
  · exact nomatch heq.symm.trans h
  · exact nomatch heq.symm.trans h

/-- The inner application is called for the requests with an acceptable length and a complete body
within the limit, and it receives that body and then what follows. Every other request is answered
once, is given up after a disconnect, or is still waited for. -/
theorem call_spec (limit : ℕ) (headers : List (Bytes × Bytes)) (messages : List Message) :
    ((∃ replay, call limit "http" headers messages = .invoked replay) ↔
      LengthOk limit headers ∧ ∃ before last rest, Complete messages before last rest ∧
        (bodyOf (before ++ [last])).length ≤ limit) ∧
    (∀ before last rest, LengthOk limit headers → Complete messages before last rest →
      (bodyOf (before ++ [last])).length ≤ limit →
      ∃ replay, call limit "http" headers messages = .invoked replay ∧
        ∀ n, replay.received (n + 1) =
          ⟨"http.request", some (bodyOf (before ++ [last])), some false⟩ :: rest.take n) ∧
    ((∀ replay, call limit "http" headers messages ≠ .invoked replay) →
      (∃ status detail, (call limit "http" headers messages).responses = [(status, detail)] ∧
        (status = 400 ∨ status = 413)) ∨
      (call limit "http" headers messages).responses = [] ∧
        (Disconnects messages ∨
          (∀ m ∈ messages, m.Continues) ∧ (bodyOf messages).length ≤ limit)) := by
  have hinvoked : ∀ before last rest, LengthOk limit headers → Complete messages before last rest →
      (bodyOf (before ++ [last])).length ≤ limit → call limit "http" headers messages =
        .invoked { body := bodyOf (before ++ [last]), rest := rest } := by
    intro before last rest hok hcomplete hle
    rw [call_of_lengthOk hok]
    exact buffer_of_complete hcomplete (by simpa using hle)
  refine ⟨⟨?_, ?_⟩, ?_, ?_⟩
  · rintro ⟨replay, h⟩
    by_cases hok : LengthOk limit headers
    · exact ⟨hok, exists_complete_of_buffer (call_of_lengthOk hok messages ▸ h)⟩
    · rcases call_of_not_lengthOk hok messages with heq | heq
      · exact nomatch heq.symm.trans h
      · exact nomatch heq.symm.trans h
  · rintro ⟨hok, before, last, rest, hcomplete, hle⟩
    exact ⟨_, hinvoked before last rest hok hcomplete hle⟩
  · intro before last rest hok hcomplete hle
    exact ⟨_, hinvoked before last rest hok hcomplete hle, fun n => received_succ n _ _⟩
  · intro hnot
    by_cases hok : LengthOk limit headers
    · rw [call_of_lengthOk hok] at hnot ⊢
      have hempty : ([] : Bytes).length ≤ limit := Nat.zero_le limit
      rcases buffer_cases hempty messages with ⟨before, last, rest, hcomplete, hle⟩ | ⟨heq, -⟩ |
        ⟨heq, hgone⟩ | ⟨heq, hall, hle⟩
      · exact absurd (buffer_of_complete hcomplete hle) (hnot _)
      · exact .inl ⟨413, _, by rw [heq]; rfl, .inr rfl⟩
      · exact .inr ⟨by rw [heq]; rfl, .inl hgone⟩
      · exact .inr ⟨by rw [heq]; rfl, .inr ⟨hall, by simpa using hle⟩⟩
    · rcases call_of_not_lengthOk hok messages with heq | heq
      · exact .inl ⟨400, _, by rw [heq]; rfl, .inl rfl⟩
      · exact .inl ⟨413, _, by rw [heq]; rfl, .inr rfl⟩

/-- A client that announces more of the body and sends nothing else gets no response. -/
theorem waits_for_more :
    let messages : List Message := [⟨"http.request", some [], some true⟩]
    (∀ replay, call 4 "http" [] messages ≠ .invoked replay) ∧
      (call 4 "http" [] messages).responses = [] ∧ ¬ Disconnects messages := by
  refine ⟨fun _ => nofun, rfl, ?_⟩
  rintro ⟨before, m, rest, hsplit, -, hgone⟩
  cases before with
  | nil =>
    obtain ⟨rfl, -⟩ := List.cons.inj hsplit
    exact absurd hgone (by decide)
  | cons m' before => exact absurd (List.cons.inj hsplit).2.symm (by simp)

end AxiomGrid.Overlay.BodyLimit
