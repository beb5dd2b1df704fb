import AxiomGrid.Lib.Hex
import AxiomGrid.Lib.Loop
import AxiomGrid.Lib.Words
import AxiomGrid.Runtime.Cancel

/-!
# Asking the local model

`generate` of `axiom-runtime/src/lib.rs` and what it rests on, over the handlers of `Runtime.Server`. The
local model is whatever listens on its port: it answers what it likes, in the middle of other requests. The
context of a request leaves the runtime once at most, after an inventory that names the configured model
(`run_prompts`), and what is answered is the text that came back for it or one of a few fixed errors
(`run_answers`).
-/

namespace AxiomGrid.Runtime

/-! ### The local model -/

structure OllamaModel where
  name : Str
  size : ℕ
  digest : Str
  deriving DecidableEq

structure OllamaResponse where
  model : Str
  response : Str
  done : Bool
  deriving DecidableEq

/-- A response as it comes in: its body may break off. -/
structure Response where
  status : ℕ
  contentLength : Option ℕ
  chunks : List Bytes
  interrupted : Bool

/-- What sending a request leads to; `none` if nothing answers. -/
abbrev Reply := Option Response

/-- `serde_json::from_slice`. -/
structure Serde where
  tags : Bytes → Option (List OllamaModel)
  response : Bytes → Option OllamaResponse

def isAsciiHexDigit (c : Char) : Bool :=
  c.isDigit || ('a' ≤ c && c ≤ 'f') || ('A' ≤ c && c ≤ 'F')

/-- The digest in lower case, without `sha256:`. -/
def normalizeDigest (value : Str) : Option Str :=
  let normalized := value.map Char.toLower
  let hex := (List.dropPrefix? normalized "sha256:".toList).getD normalized
  if hex.length = 64 ∧ hex.all isAsciiHexDigit then some hex else none

/-- The configuration of `AppState::local`. -/
structure Config where
  model : Str
  expectedDigest : Str
  named : model ≠ [] ∧ model.length ≤ 256 ∧ ∀ c ∈ model, '!' ≤ c ∧ c ≤ '~'
  digest : normalizeDigest expectedDigest = some expectedDigest

/-- `inventory_matches`: one model has the configured name, and it reports the expected digest. -/
def inventoryMatches (config : Config) (tags : List OllamaModel) : Bool :=
  match tags.filter fun model => model.name = config.model with
  | [model] => 0 < model.size && normalizeDigest model.digest = some config.expectedDigest
  | _ => false

/-! ### Reading what comes in -/

def serviceUnavailable : ApiError := ⟨503, "Local model service unavailable; start Ollama"⟩

def inventoryUnavailable : ApiError := ⟨502, "Local model inventory unavailable"⟩

def inventoryOversized : ApiError := ⟨502, "Local model inventory exceeds safety limit"⟩

def invalidInventory : ApiError := ⟨502, "Invalid local model inventory"⟩

def identityMismatch : ApiError :=
  ⟨503, "Reported model identity does not match configured expectation"⟩

def modelUnavailable : ApiError :=
  ⟨502, "Local model unavailable or timed out; start Ollama and install the configured model"⟩

def generationRejected : ApiError :=
  ⟨502, "Local model rejected generation; verify the installed model"⟩

def outputOversized : ApiError := ⟨502, "Local model output exceeds safety limit"⟩

def invalidResponse : ApiError := ⟨502, "Invalid local model response"⟩

def responseMismatch : ApiError := ⟨502, "Local model response identity does not match"⟩

def emptyPreview : ApiError := ⟨502, "Local model returned an incomplete or empty preview"⟩

def bodyInterrupted : ApiError := ⟨502, "Local model response interrupted"⟩

/-- `LIMIT` of `bounded_body`. -/
def bodyLimit : ℕ := 256 * 1024

/-- The chunks of a body, behind the bytes that were read. -/
def readChunks (oversized : ApiError) (interrupted : Bool) (bytes : Bytes) :
    List Bytes → Except ApiError Bytes
  | [] => if interrupted then .error bodyInterrupted else .ok bytes
  | chunk :: chunks =>
    if bodyLimit - bytes.length < chunk.length then .error oversized
    else readChunks oversized interrupted (bytes ++ chunk) chunks

/-- `bounded_body`. -/
def boundedBody (oversized : ApiError) (response : Response) : Except ApiError Bytes :=
  if response.contentLength.any (bodyLimit < ·) then .error oversized
  else readChunks oversized response.interrupted [] response.chunks

/-- A response that was sent with success; the text of every other one is not read. -/
def successful (unanswered rejected : ApiError) : Reply → Except ApiError Response
  | none => .error unanswered
  | some response =>
    if 200 ≤ response.status ∧ response.status < 300 then .ok response else .error rejected

def parsed {α : Type*} (invalid : ApiError) (value : Option α) : Except ApiError α :=
  value.elim (.error invalid) .ok

variable (serde : Serde) (config : Config)

/-- `fetch_inventory`. -/
def fetchInventory (reply : Reply) : Except ApiError (List OllamaModel) := do
  let response ← successful serviceUnavailable inventoryUnavailable reply
  let bytes ← boundedBody inventoryOversized response
  parsed invalidInventory (serde.tags bytes)

def checkInventory (tags : List OllamaModel) : Except ApiError Unit :=
  if inventoryMatches config tags then .ok () else .error identityMismatch

/-- `generate` until the context is sent. -/
def preflight (reply : Reply) : Except ApiError Unit := do
  let tags ← fetchInventory serde reply
  checkInventory config tags

/-- The body that is sent to `/api/generate`. -/
structure GenerateRequest where
  model : Str
  prompt : Str
  system : String := "Provide the requested writing assistance. Return only the suggested text."
  stream : Bool := false
  numPredict : ℕ := 2048
  deriving DecidableEq

def Config.request (context : Str) : GenerateRequest := { model := config.model, prompt := context }

def checkOutput (output : OllamaResponse) : Except ApiError PreviewResponse :=
  if output.model ≠ config.model then .error responseMismatch
  else if !output.done || output.response.all isWhiteSpace then .error emptyPreview
  else
    .ok
      { suggestion := output.response
        wordCount := (Words.words isWhiteSpace output.response).length
        charCount := output.response.length }

/-- `generate` after the context was sent. -/
def finish (reply : Reply) : Preview := do
  let response ← successful modelUnavailable generationRejected reply
  let bytes ← boundedBody outputOversized response
  let output ← parsed invalidResponse (serde.response bytes)
  checkOutput config output

structure ModelInfo where
  name : Str
  size : ℕ
  digest : Str

structure ReadinessResponse where
  ready : Bool
  configuredModel : Str
  expectedDigest : Str
  identityCheckScope : String := "reported-only"
  installedModels : List ModelInfo

/-- `/readiness`. -/
def readiness (reply : Reply) : Except ApiError ReadinessResponse := do
  let tags ← fetchInventory serde reply
  return {
    ready := inventoryMatches config tags
    configuredModel := config.model
    expectedDigest := config.expectedDigest
    installedModels := tags.map fun model =>
      { name := model.name, size := model.size,
        digest := (normalizeDigest model.digest).getD model.digest } }

/-! ### What is read -/

section

variable {serde : Serde} {config : Config} {reply : Reply} {response : Response} {bytes bytes' : Bytes}
  {oversized : ApiError}

lemma length_readChunks {interrupted : Bool} {chunks : List Bytes} (hle : bytes.length ≤ bodyLimit)
    (h : readChunks oversized interrupted bytes chunks = .ok bytes') : bytes'.length ≤ bodyLimit := by
  induction chunks generalizing bytes with
  | nil =>
    simp only [readChunks] at h
    split_ifs at h
    cases h
    exact hle
  | cons chunk chunks ih =>
    simp only [readChunks] at h
    split_ifs at h with hlong
    apply ih _ h
    simp only [List.length_append]
    omega

lemma length_boundedBody (h : boundedBody oversized response = .ok bytes) : bytes.length ≤ bodyLimit := by
  rw [boundedBody] at h
  split_ifs at h
  exact length_readChunks (Nat.zero_le _) h

/-- The errors of reading. -/
lemma readChunks_error {interrupted : Bool} {chunks : List Bytes} {e : ApiError}
    (h : readChunks oversized interrupted bytes chunks = .error e) : e = oversized ∨ e = bodyInterrupted := by
  induction chunks generalizing bytes with
  | nil =>
    simp only [readChunks] at h
    split_ifs at h
    cases h
    exact .inr rfl
  | cons chunk chunks ih =>
    simp only [readChunks] at h
    split_ifs at h
    · cases h
      exact .inl rfl
    · exact ih h

lemma boundedBody_error {e : ApiError} (h : boundedBody oversized response = .error e) :
    e = oversized ∨ e = bodyInterrupted := by
  rw [boundedBody] at h
  split_ifs at h
  · cases h
    exact .inl rfl
  · exact readChunks_error h

lemma successful_error {unanswered rejected e : ApiError}
    (h : successful unanswered rejected reply = .error e) : e = unanswered ∨ e = rejected := by
  cases reply with
  | none =>
    cases h
    exact .inl rfl
  | some response =>
    simp only [successful] at h
    split_ifs at h
    cases h
    exact .inr rfl

/-- The errors of a `/materialize` request, none of which repeats anything that came in. -/
def previewErrors : List ApiError :=
  [badContext, alreadyRunning, cancelled, serviceUnavailable, inventoryUnavailable, inventoryOversized,
    invalidInventory, identityMismatch, modelUnavailable, generationRejected, outputOversized,
    invalidResponse, responseMismatch, emptyPreview, bodyInterrupted]

lemma preflight_error {e : ApiError} (h : preflight serde config reply = .error e) : e ∈ previewErrors := by
  obtain hfetch | ⟨tags, -, hcheck⟩ := Except.of_bind_eq_error h
  · obtain hsend | ⟨response, -, hread⟩ := Except.of_bind_eq_error hfetch
    · obtain rfl | rfl := successful_error hsend <;> simp [previewErrors]
    · obtain hbody | ⟨bytes, -, hparse⟩ := Except.of_bind_eq_error hread
      · obtain rfl | rfl := boundedBody_error hbody <;> simp [previewErrors]
      · cases htags : serde.tags bytes <;> simp only [parsed, htags] at hparse <;> cases hparse
        simp [previewErrors]
  · rw [checkInventory] at hcheck
    split_ifs at hcheck
    cases hcheck
    simp [previewErrors]

lemma finish_error {e : ApiError} (h : finish serde config reply = .error e) : e ∈ previewErrors := by
  obtain hsend | ⟨response, -, hread⟩ := Except.of_bind_eq_error h
  · obtain rfl | rfl := successful_error hsend <;> simp [previewErrors]
  · obtain hbody | ⟨bytes, -, hrest⟩ := Except.of_bind_eq_error hread
    · obtain rfl | rfl := boundedBody_error hbody <;> simp [previewErrors]
    · obtain hparse | ⟨output, -, hcheck⟩ := Except.of_bind_eq_error hrest
      · cases houtput : serde.response bytes <;> simp only [parsed, houtput] at hparse <;> cases hparse
        simp [previewErrors]
      · rw [checkOutput] at hcheck
        split_ifs at hcheck <;> cases hcheck <;> simp [previewErrors]

/-- The local model returned the text: it names itself as configured, and is done. -/
structure Returned (serde : Serde) (config : Config) (reply : Reply) (preview : PreviewResponse) : Prop where
  body : ∃ response bytes, reply = some response ∧ boundedBody outputOversized response = .ok bytes ∧
    bytes.length ≤ bodyLimit ∧
    serde.response bytes = some { model := config.model, response := preview.suggestion, done := true }
  text : preview.suggestion.all isWhiteSpace = false
  words : preview.wordCount = (Words.words isWhiteSpace preview.suggestion).length
  chars : preview.charCount = preview.suggestion.length

lemma returned_of_finish {preview : PreviewResponse} (h : finish serde config reply = .ok preview) :
    Returned serde config reply preview := by
  obtain ⟨response, hsend, hread⟩ := Except.of_bind_eq_ok h
  obtain ⟨bytes, hbody, hrest⟩ := Except.of_bind_eq_ok hread
  obtain ⟨output, hparse, hcheck⟩ := Except.of_bind_eq_ok hrest
  have hreply : reply = some response := by
    cases reply with
    | none => cases hsend
    | some response' =>
      simp only [successful] at hsend
      split_ifs at hsend
      cases hsend
      rfl
  have houtput : serde.response bytes = some output := by
    cases hresponse : serde.response bytes <;> simp only [parsed, hresponse] at hparse <;> cases hparse
    rfl
  rw [checkOutput] at hcheck
  split_ifs at hcheck with hmodel hdone
  cases hcheck
  simp only [ne_eq, not_not] at hmodel
  simp only [Bool.or_eq_true, Bool.not_eq_true', not_or, Bool.not_eq_false, Bool.not_eq_true] at hdone
  refine ⟨⟨response, bytes, hreply, hbody, length_boundedBody hbody, ?_⟩, hdone.2, rfl, rfl⟩
  simp [houtput, ← hmodel, ← hdone.1]

/-- One model of the inventory has the configured name, and it reports the expected digest. -/
def Installed (config : Config) (tags : List OllamaModel) : Prop :=
  ∃ model, tags.filter (fun model => model.name = config.model) = [model] ∧ 0 < model.size ∧
    normalizeDigest model.digest = some config.expectedDigest

lemma inventoryMatches_iff {tags : List OllamaModel} :
    inventoryMatches config tags = true ↔ Installed config tags := by
  rw [inventoryMatches]
  split
  · next model htags => simp [Installed, htags]
  · next hother =>
    refine ⟨fun h => (Bool.false_ne_true h).elim, ?_⟩
    rintro ⟨model, htags, -⟩
    exact absurd htags (hother model)

lemma preflight_ok_iff : preflight serde config reply = .ok () ↔
    ∃ tags, fetchInventory serde reply = .ok tags ∧ Installed config tags := by
  have hcheck : ∀ tags, checkInventory config tags = .ok () ↔ Installed config tags := fun tags => by
    rw [← inventoryMatches_iff, checkInventory]
    split_ifs with h <;> simp [h]
  constructor
  · intro h
    obtain ⟨tags, htags, hok⟩ := Except.of_bind_eq_ok h
    exact ⟨tags, htags, (hcheck tags).mp hok⟩
  · rintro ⟨tags, htags, hinstalled⟩
    rw [preflight, htags]
    exact (hcheck tags).mpr hinstalled

/-- `/readiness` says ready for the inventories that a preview goes on with. -/
lemma readiness_ready_iff : (∃ answer, readiness serde config reply = .ok answer ∧ answer.ready = true) ↔
    preflight serde config reply = .ok () := by
  rw [preflight_ok_iff]
  constructor
  · rintro ⟨answer, h, hready⟩
    obtain ⟨tags, htags, hanswer⟩ := Except.of_bind_eq_ok h
    cases hanswer
    exact ⟨tags, htags, inventoryMatches_iff.mp hready⟩
  · rintro ⟨tags, htags, hinstalled⟩
    rw [readiness, htags]
    exact ⟨_, rfl, inventoryMatches_iff.mpr hinstalled⟩

end

/-! ### Any number of requests -/

/-- The handlers, and what was sent to `/api/generate` by which of them. -/
structure World (ι κ : Type*) where
  runtime : AppState ι κ
  sent : List (ι × GenerateRequest) := []

inductive Event (ι κ : Type*) where
  /-- A step of a handler. -/
  | handler (a : Action ι κ)
  /-- The inventory comes in. -/
  | inventory (i : ι) (reply : Reply)
  /-- The generated text comes in. -/
  | generated (i : ι) (reply : Reply)

namespace World

variable {ι κ : Type*} [DecidableEq ι] [DecidableEq κ] (w : World ι κ)

/-- The request has sent its context. -/
def Prompted (i : ι) : Prop := ∃ request, (i, request) ∈ w.sent

instance (i : ι) : Decidable (w.Prompted i) :=
  decidable_of_iff (i ∈ w.sent.map Prod.fst) (by simp [Prompted])

/-- A step of the handlers. -/
def handle (a : Action ι κ) : Option (World ι κ) :=
  (w.runtime.step a).map fun runtime => { w with runtime }

/-- The context is sent, if the request is still there. -/
def prompt (i : ι) : Option (World ι κ) :=
  match (w.runtime.generations i).pc with
  | .selecting => some { w with sent := w.sent ++ [(i, config.request (w.runtime.generations i).context)] }
  | _ => none

/-- What an event does. The result of `generate` is what came in, never a step of its own. -/
def step : Event ι κ → Option (World ι κ)
  | .handler (.complete _ _) => none
  | .handler a => w.handle a
  | .inventory i reply =>
    if w.Prompted i then none
    else
      match preflight serde config reply with
      | .error e => w.handle (.complete i (.error e))
      | .ok () => w.prompt config i
  | .generated i reply =>
    if w.Prompted i then w.handle (.complete i (finish serde config reply)) else none

def run (context : ι → Str) (events : List (Event ι κ)) : Option (World ι κ) :=
  Transition.run (step serde config) { runtime := .init context } events

end World

/-! ### The points that a request passes -/

/-- The context has passed its check, and there is no answer yet. -/
def PreviewPc.underway : PreviewPc → Bool
  | .acquire | .arm | .selecting => true
  | _ => false

/-- The answer that a request has come to. -/
def PreviewPc.answer : PreviewPc → Option Preview
  | .selected r | .disarm r => some r
  | .release r | .done r => r
  | _ => none

/-- A context that a request goes on with. -/
def ValidContext (context : Str) : Prop := context.all isWhiteSpace = false ∧ context.length ≤ 16000

/-- A step of a request by itself. -/
inductive Moved (context : Str) : PreviewPc → PreviewPc → Prop where
  | refuse : Moved context .check (.done (some (.error badContext)))
  | pass (h : ValidContext context) : Moved context .check .acquire
  | busy : Moved context .acquire (.done (some (.error alreadyRunning)))
  | acquire : Moved context .acquire .arm
  | arm : Moved context .arm .selecting
  | observe : Moved context .selecting (.selected (.error cancelled))
  | select (r : Preview) : Moved context (.selected r) (.disarm r)
  | disarm (r : Preview) : Moved context (.disarm r) (.release (some r))
  | release (r : Option Preview) : Moved context (.release r) (.done r)
  | gone : Moved context .check (.done none)
  | drop : Moved context .selecting (.release none)

section

variable {context : Str} {pc pc' : PreviewPc}

lemma Moved.valid (h : Moved context pc pc') (hpc : pc'.underway = true) :
    pc.underway = true ∨ ValidContext context := by
  cases h with
  | pass h => exact .inr h
  | acquire => exact .inl rfl
  | arm => exact .inl rfl
  | _ => cases hpc

lemma Moved.answer (h : Moved context pc pc') {r : Preview} (hr : pc'.answer = some r) :
    pc.answer = some r ∨ ∃ e ∈ previewErrors, r = .error e := by
  cases h with
  | refuse =>
    cases hr
    exact .inr ⟨_, by simp [previewErrors], rfl⟩
  | busy =>
    cases hr
    exact .inr ⟨_, by simp [previewErrors], rfl⟩
  | observe =>
    cases hr
    exact .inr ⟨_, by simp [previewErrors], rfl⟩
  | select r' => exact .inl hr
  | disarm r' => exact .inl hr
  | release r' => exact .inl hr
  | _ => cases hr

end

namespace AppState

variable {ι κ : Type*} [DecidableEq ι] {s s' : AppState ι κ} {i k : ι}

@[simp] lemma goto_context (k : ι) (pc : PreviewPc) (i : ι) :
    ((s.goto k pc).generations i).context = (s.generations i).context := by
  by_cases hi : i = k
  · subst hi
    simp
  · simp [hi]

@[simp] lemma modifyChannel_context (k : ι) (f : Oneshot κ → Oneshot κ) (i : ι) :
    ((s.modifyChannel k f).generations i).context = (s.generations i).context := by
  by_cases hi : i = k
  · subst hi
    simp [Generation.modify]
  · simp [hi]

@[simp] lemma replaceSlot_context (slot : Option ι) (i : ι) :
    ((s.replaceSlot slot).generations i).context = (s.generations i).context := by
  obtain hi | hi := replaceSlot_generations s slot i <;> simp [hi, Generation.modify]

@[simp] lemma armCancel_context (k i : ι) :
    ((s.armCancel k).generations i).context = (s.generations i).context := by
  rw [armCancel]
  by_cases hi : i = k
  · subst hi
    simp
  · simp [hi]

lemma preview_context (hs : s.preview k = some s') (i : ι) :
    (s'.generations i).context = (s.generations i).context := by
  cases hpc : (s.generations k).pc with
  | check | acquire =>
    simp only [AppState.preview, hpc] at hs
    split at hs <;> cases hs <;> simp
  | arm | selected r | disarm r | release r =>
    simp only [AppState.preview, hpc] at hs
    cases hs
    simp [disarmCancel]
  | selecting | done r => simp [AppState.preview, hpc] at hs

lemma preview_moved (hs : s.preview i = some s') :
    Moved (s.generations i).context (s.generations i).pc (s'.generations i).pc := by
  cases hpc : (s.generations i).pc with
  | check =>
    simp only [AppState.preview, hpc] at hs
    split at hs <;> cases hs
    · simp [Moved.refuse]
    · next hvalid =>
      simp only [goto_self]
      apply Moved.pass
      simpa [ValidContext] using hvalid
  | acquire =>
    simp only [AppState.preview, hpc] at hs
    split at hs <;> cases hs
    · simp [Moved.acquire]
    · simp [Moved.busy]
  | arm =>
    simp only [AppState.preview, hpc] at hs
    cases hs
    simp [armCancel, Moved.arm]
  | selected r =>
    simp only [AppState.preview, hpc] at hs
    cases hs
    simp [Moved.select]
  | disarm r =>
    simp only [AppState.preview, hpc] at hs
    cases hs
    simp [Moved.disarm]
  | release r =>
    simp only [AppState.preview, hpc] at hs
    cases hs
    simp [Moved.release]
  | selecting | done r => simp [AppState.preview, hpc] at hs

lemma step_complete [DecidableEq κ] {r : Preview} (hs : s.step (.complete i r) = some s') :
    (s.generations i).pc = .selecting ∧ s' = s.goto i (.selected r) := by
  simp only [AppState.step] at hs
  split at hs <;> cases hs
  exact ⟨‹_›, rfl⟩

/-- No step changes a context. -/
lemma step_context [DecidableEq κ] {a : Action ι κ} (hs : s.step a = some s') (i : ι) :
    (s'.generations i).context = (s.generations i).context := by
  cases a with
  | preview k => exact preview_context hs i
  | complete k r =>
    rw [(step_complete hs).2]
    simp
  | observe k =>
    simp only [AppState.step] at hs
    split at hs
    · split at hs <;> cases hs
      simp
    · cases hs
  | disconnect k =>
    simp only [AppState.step] at hs
    split at hs <;> cases hs <;> simp
  | cancel j =>
    simp only [AppState.step, AppState.cancelGeneration] at hs
    split at hs
    · split at hs <;> cases hs <;> rfl
    · split at hs <;> cases hs
      simp [setCancel]
    · cases hs

/-- A request stays where it is or moves by itself, unless `generate` has a result for it. -/
lemma step_moved [DecidableEq κ] {a : Action ι κ} (hs : s.step a = some s') (ha : ∀ r, a ≠ .complete i r) :
    (s'.generations i).pc = (s.generations i).pc ∨
      Moved (s.generations i).context (s.generations i).pc (s'.generations i).pc := by
  obtain hsame | rfl | ⟨r, rfl⟩ | rfl | rfl := step_pc (i := i) hs
  · exact .inl hsame
  · exact .inr (preview_moved hs)
  · exact absurd rfl (ha r)
  · right
    simp only [AppState.step] at hs
    split at hs
    · next hpc =>
      split at hs <;> cases hs
      simp [hpc, Moved.observe]
    · cases hs
  · right
    simp only [AppState.step] at hs
    split at hs <;> cases hs
    · next hpc => simp [hpc, Moved.gone]
    · next hpc => simp [hpc, Moved.drop]

end AppState

/-! ### What is sent and what is answered -/

namespace World

variable {ι κ : Type*} {serde : Serde} {config : Config} {context : ι → Str} {events : List (Event ι κ)}
  {e : Event ι κ} {w w' : World ι κ} {i k : ι} {r : Preview}

/-- The request may be sent: an inventory has come in that names the model. -/
def Approved (serde : Serde) (config : Config) (context : ι → Str) (events : List (Event ι κ)) (i : ι)
    (request : GenerateRequest) : Prop :=
  request = config.request (context i) ∧ ValidContext (context i) ∧
    ∃ reply tags, .inventory i reply ∈ events ∧ fetchInventory serde reply = .ok tags ∧ Installed config tags

/-- What may be answered: a fixed error, or the text that came in for the context that was sent. -/
def Answered (serde : Serde) (config : Config) (events : List (Event ι κ)) (w : World ι κ) (i : ι)
    (r : Preview) : Prop :=
  (∀ e, r = .error e → e ∈ previewErrors) ∧ ∀ preview, r = .ok preview → w.Prompted i ∧
    ∃ reply, .generated i reply ∈ events ∧ Returned serde config reply preview

structure Inv (serde : Serde) (config : Config) (context : ι → Str) (events : List (Event ι κ))
    (w : World ι κ) : Prop where
  runtime : w.runtime.Inv
  kept : ∀ i, (w.runtime.generations i).context = context i
  valid : ∀ i, (w.runtime.generations i).pc.underway = true → ValidContext (context i)
  once : (w.sent.map Prod.fst).Nodup
  sent : ∀ i request, (i, request) ∈ w.sent → Approved serde config context events i request
  answers : ∀ i r, (w.runtime.generations i).pc.answer = some r → Answered serde config events w i r

lemma Approved.concat {request : GenerateRequest} (h : Approved serde config context events i request)
    (e : Event ι κ) : Approved serde config context (events ++ [e]) i request := by
  obtain ⟨hrequest, hvalid, reply, tags, hreply, hrest⟩ := h
  exact ⟨hrequest, hvalid, reply, tags, List.mem_append_left _ hreply, hrest⟩

lemma Answered.concat (h : Answered serde config events w i r) (e : Event ι κ)
    (hsent : w.sent ⊆ w'.sent) : Answered serde config (events ++ [e]) w' i r := by
  refine ⟨h.1, fun preview hpreview => ?_⟩
  obtain ⟨⟨request, hrequest⟩, reply, hreply, hreturned⟩ := h.2 preview hpreview
  exact ⟨⟨request, hsent hrequest⟩, reply, List.mem_append_left _ hreply, hreturned⟩

lemma answered_error {e : ApiError} (h : e ∈ previewErrors) :
    Answered serde config events w i (.error e) := by
  refine ⟨fun e' heq => ?_, fun preview heq => by cases heq⟩
  cases heq
  exact h

/-- The context is sent after the inventory. -/
lemma Inv.prompt (h : Inv serde config context events w) {reply : Reply} (hnot : ¬w.Prompted i)
    (hok : preflight serde config reply = .ok ()) (hs : w.prompt config i = some w') :
    Inv serde config context (events ++ [.inventory i reply]) w' := by
  rw [World.prompt] at hs
  split at hs <;> cases hs
  next hpc =>
  obtain ⟨tags, htags, hinstalled⟩ := preflight_ok_iff.mp hok
  have happroved : Approved serde config context (events ++ [.inventory i reply]) i
      (config.request (context i)) :=
    ⟨rfl, h.valid i (by rw [hpc]; rfl), reply, tags, by simp, htags, hinstalled⟩
  refine ⟨h.runtime, h.kept, h.valid, ?_, fun k request hrequest => ?_, fun k r hr => ?_⟩
  · rw [List.map_append, List.nodup_append]
    refine ⟨h.once, List.nodup_singleton _, ?_⟩
    rintro k hk _ hi rfl
    have hki : k = i := by simpa using hi
    obtain ⟨⟨k', request⟩, hrequest, hk'⟩ := List.mem_map.mp hk
    apply hnot
    rw [← hki, ← hk']
    exact ⟨request, hrequest⟩
  · obtain hold | hnew := List.mem_append.mp hrequest
    · exact (h.sent k request hold).concat _
    · simp only [List.mem_singleton, Prod.mk.injEq] at hnew
      obtain ⟨rfl, rfl⟩ := hnew
      rwa [h.kept k]
  · exact (h.answers k r hr).concat _ (List.subset_append_left _ _)

variable [DecidableEq ι] [DecidableEq κ]

/-- A step of the handlers. -/
lemma Inv.handle (h : Inv serde config context events w) {a : Action ι κ} (hs : w.handle a = some w')
    (ha : ∀ i r, a = .complete i r → Answered serde config (events ++ [e]) w i r) :
    Inv serde config context (events ++ [e]) w' := by
  obtain ⟨runtime, hstep, rfl⟩ := Option.map_eq_some_iff.mp hs
  have hmoved : ∀ i, (∃ r, a = .complete i r ∧ (runtime.generations i).pc = .selected r) ∨
      (runtime.generations i).pc = (w.runtime.generations i).pc ∨
      Moved (context i) (w.runtime.generations i).pc (runtime.generations i).pc := by
    intro i
    by_cases hcomplete : ∃ r, a = .complete i r
    · obtain ⟨r, rfl⟩ := hcomplete
      refine .inl ⟨r, rfl, ?_⟩
      rw [(AppState.step_complete hstep).2]
      simp
    · rw [← h.kept i]
      exact .inr (AppState.step_moved hstep fun r hr => hcomplete ⟨r, hr⟩)
  refine ⟨h.runtime.step hstep, fun i => ?_, fun i hpc => ?_, h.once, fun i request hrequest => ?_,
    fun i r hr => ?_⟩
  · rw [AppState.step_context hstep i]
    exact h.kept i
  · obtain ⟨r, -, hselected⟩ | hsame | hmoved := hmoved i
    · rw [hselected] at hpc
      cases hpc
    · exact h.valid i (hsame ▸ hpc)
    · exact (hmoved.valid hpc).elim (h.valid i) fun hvalid => hvalid
  · exact (h.sent i request hrequest).concat e
  · obtain ⟨r', rfl, hselected⟩ | hsame | hmoved := hmoved i
    · rw [hselected] at hr
      cases hr
      exact ha i r rfl
    · exact (h.answers i r (hsame ▸ hr)).concat e (List.Subset.refl _)
    · obtain hold | ⟨error, herror, rfl⟩ := hmoved.answer hr
      · exact (h.answers i r hold).concat e (List.Subset.refl _)
      · exact answered_error herror

lemma Inv.step (h : Inv serde config context events w) (hs : w.step serde config e = some w') :
    Inv serde config context (events ++ [e]) w' := by
  cases e with
  | handler a =>
    cases a with
    | complete i r => cases hs
    | preview i => exact h.handle hs fun _ _ heq => by cases heq
    | observe i => exact h.handle hs fun _ _ heq => by cases heq
    | disconnect i => exact h.handle hs fun _ _ heq => by cases heq
    | cancel j => exact h.handle hs fun _ _ heq => by cases heq
  | inventory i reply =>
    simp only [World.step] at hs
    split_ifs at hs with hprompted
    split at hs
    · next e herror =>
      refine h.handle hs fun k r heq => ?_
      cases heq
      exact answered_error (preflight_error herror)
    · next hok => exact h.prompt hprompted hok hs
  | generated i reply =>
    simp only [World.step] at hs
    split_ifs at hs with hprompted
    refine h.handle hs fun k r heq => ?_
    cases heq
    refine ⟨fun e he => finish_error he, fun preview hpreview => ⟨hprompted, reply, by simp, ?_⟩⟩
    exact returned_of_finish hpreview

lemma inv_run (h : run serde config context events = some w) : Inv serde config context events w := by
  refine Transition.run_induction (World.step serde config) (P := Inv serde config context) ?_
    (fun _ _ _ _ _ hinv hs => hinv.step hs) h
  refine ⟨.init context, fun _ => rfl, fun _ hpc => ?_, List.nodup_nil, fun _ _ hrequest => ?_, fun _ _ hr => ?_⟩
  · cases hpc
  · simp at hrequest
  · cases hr

/-- The context was sent, and the request waits for its text. -/
def Waiting (w : World ι κ) (i : ι) : Prop :=
  w.Prompted i ∧ (w.runtime.generations i).pc = .selecting

/-- In every interleaving a request sends its own context, once at most, after an inventory of its own in
which one model has the configured name and reports the expected digest, and no two requests wait for a
text at once. -/
theorem run_prompts (h : run serde config context events = some w) :
    (w.sent.map Prod.fst).Nodup ∧
    (∀ i request, (i, request) ∈ w.sent → request = config.request (context i) ∧
      ValidContext (context i) ∧ ∃ reply tags, Event.inventory i reply ∈ events ∧
        fetchInventory serde reply = .ok tags ∧ Installed config tags) ∧
    ∀ i k, w.Waiting i → w.Waiting k → i = k := by
  have hinv := inv_run h
  refine ⟨hinv.once, hinv.sent, fun i k hi hk => hinv.runtime.holder_unique ?_ ?_⟩
  · rw [hi.2]
    rfl
  · rw [hk.2]
    rfl

namespace Sample

def oneModel : Config where
  model := ['m']
  expectedDigest := List.replicate 64 'a'
  named := by
    refine ⟨by simp, by simp, fun c hc => ?_⟩
    rw [List.mem_singleton.mp hc]
    decide
  digest := by decide +kernel

def inventoryBody : Bytes :=
  utf8 ("\x7b\"models\":[\x7b\"name\":\"m\",\"size\":1,\"digest\":" ++
    "\"aaaaaaaaaaaaaaaaaaaaaaaaaaaaaaaaaaaaaaaaaaaaaaaaaaaaaaaaaaaaaaaa\"\x7d]\x7d")

def textBody : Bytes := utf8 "\x7b\"model\":\"m\",\"response\":\"ok\",\"done\":true\x7d"

/-- What these two bodies are read as. -/
def twoBodies : Serde where
  tags bytes := if bytes = inventoryBody then some [⟨['m'], 1, List.replicate 64 'a'⟩] else none
  response bytes := if bytes = textBody then some ⟨['m'], ['o', 'k'], true⟩ else none

def answered (body : Bytes) : Reply := some ⟨200, none, [body], false⟩

/-- A request that is answered with a text. -/
def oneRequest : List (Event Unit Unit) :=
  [.handler (.preview ()), .handler (.preview ()), .handler (.preview ()),
    .inventory () (answered inventoryBody), .generated () (answered textBody)]

lemma exists_run : ∃ w, run twoBodies oneModel (fun _ => ['h', 'i']) oneRequest = some w ∧
    w.sent = [((), oneModel.request ['h', 'i'])] ∧
    (w.runtime.generations ()).pc.answer = some (.ok ⟨['o', 'k'], 1, 2⟩) := by
  have h : (run twoBodies oneModel (fun _ => ['h', 'i']) oneRequest).map
      (fun w => (w.sent, (w.runtime.generations ()).pc.answer)) =
      some ([((), oneModel.request ['h', 'i'])], some (.ok ⟨['o', 'k'], 1, 2⟩)) := by
    decide +kernel
  obtain ⟨w, hw, heq⟩ := Option.map_eq_some_iff.mp h
  exact ⟨w, hw, congrArg Prod.fst heq, congrArg Prod.snd heq⟩

end Sample

/-- The context is sent after the inventory that names the model. -/
theorem run_prompts_oneRequest : ∃ reply tags, Event.inventory () reply ∈ Sample.oneRequest ∧
    fetchInventory Sample.twoBodies reply = .ok tags ∧ Installed Sample.oneModel tags := by
  obtain ⟨w, hw, hsent, -⟩ := Sample.exists_run
  obtain ⟨-, -, happroved⟩ := (run_prompts hw).2.1 () _ (hsent ▸ List.mem_singleton_self _)
  exact happroved

/-- In every interleaving, whatever the local model sends, a request is answered by a fixed error or by a
text that came in after its context was sent, of a model that names itself as configured. -/
theorem run_answers (h : run serde config context events = some w)
    (hr : (w.runtime.generations i).pc.answer = some r) :
    (∀ e, r = .error e → e ∈ previewErrors) ∧
    ∀ preview, r = .ok preview → (i, config.request (context i)) ∈ w.sent ∧
      ∃ reply, Event.generated i reply ∈ events ∧ Returned serde config reply preview := by
  have hinv := inv_run h
  obtain ⟨herror, hok⟩ := hinv.answers i r hr
  refine ⟨herror, fun preview hpreview => ?_⟩
  obtain ⟨⟨request, hrequest⟩, hreply⟩ := hok preview hpreview
  rw [← (hinv.sent i request hrequest).1]
  exact ⟨hrequest, hreply⟩

/-- The text that came in is answered. -/
theorem run_answers_oneRequest : ∃ reply, Event.generated () reply ∈ Sample.oneRequest ∧
    Returned Sample.twoBodies Sample.oneModel reply ⟨['o', 'k'], 1, 2⟩ := by
  obtain ⟨w, hw, -, hanswer⟩ := Sample.exists_run
  exact ((run_answers hw hanswer).2 _ rfl).2

end World

end AxiomGrid.Runtime
