import AxiomGrid.Lib.Counter
import AxiomGrid.Lib.JsonText
import AxiomGrid.Lib.Latin1
import AxiomGrid.Lib.PyFloat
import AxiomGrid.Lib.Transition
import AxiomGrid.Overlay.BodyLimit
import AxiomGrid.Overlay.ClientKey

/-!
# The gates of the overlay server

What a request passes before the application sees it, and what its response passes on the way back. From
the outside to the inside these are `BodyLimitMiddleware`, `RateLimitMiddleware`, `ApiKeyAuthMiddleware`,
`RequestGovernorMiddleware`, `SecurityHeadersMiddleware`, `RequestIdMiddleware` and
`OriginGateMiddleware`, as `overlay/server.py` adds them; the application is whatever is inside.

From the end of the body to the call of the application nothing is awaited, so a request passes the gates
in one step. The applications of several requests run at the same time, and each response that one of
them starts is an event of its own.
-/

namespace AxiomGrid.Overlay

/-! ### Requests and responses -/

/-- `uuid.uuid4().hex`. -/
structure UuidHex where
  hex : Str
  length : hex.length = 32
  digits : ∀ c ∈ hex, c ∈ "0123456789abcdef".toList

/-- An HTTP request, with the time at which its body is complete. -/
structure HttpRequest where
  path : Str := []
  headers : List (Bytes × Bytes) := []
  client : Option Str := none
  messages : List BodyLimit.Message := []
  now : ℚ := 0

namespace HttpRequest

variable (r : HttpRequest)

/-- The bytes of `request.headers.get(name)`. -/
def header (name : String) : Option Bytes :=
  (r.headers.find? fun entry => entry.1 = utf8 name).map Prod.snd

/-- `request.headers.get(name)`. -/
def headerText (name : String) : Option Str := (r.header name).map Latin1.decode

def toRequest : Request where
  path := r.path
  authorization := r.headerText "authorization"
  xApiKey := r.headerText "x-api-key"
  forwardedFor := r.headerText "x-forwarded-for"
  client := r.client
  now := r.now

end HttpRequest

/-- The headers of a response, with their names in lower case. -/
abbrev ResponseHeaders := List (Str × Str)

/-- `http.response.start`. -/
structure ResponseStart where
  status : ℕ
  headers : ResponseHeaders
  deriving DecidableEq

/-- `MutableHeaders(scope=message)[name] = value`: the first header of this name is replaced, and the
others go. -/
def setHeader (name value : Str) : ResponseHeaders → ResponseHeaders
  | [] => [(name, value)]
  | entry :: headers =>
    if entry.1 = name then (name, value) :: headers.filter (·.1 ≠ name)
    else entry :: setHeader name value headers

/-- The values of the headers of a name. -/
def valuesOf (name : Str) (headers : ResponseHeaders) : List Str :=
  (headers.filter fun entry => entry.1 = name).map Prod.snd

/-- The start of `JSONResponse(content={"detail": detail})`. -/
def jsonStart (status : ℕ) (detail : String) (extra : ResponseHeaders) : ResponseStart where
  status := status
  headers := extra ++
    [("content-length".toList,
        (toString (utf8 (Json.dumpsWith .compactUnicode (.obj [("detail", .str detail)]))).length).toList),
      ("content-type".toList, "application/json".toList)]

/-! ### What is stamped on a response -/

/-- The characters that are kept of a request id. -/
def isIdChar (c : Char) : Bool := c.isAlphanum || c ∈ ['-', '_', '.']

/-- `_REQUEST_ID_MAX_LEN`. -/
def requestIdMaxLen : ℕ := 64

/-- The id of `RequestIdMiddleware`. A UUID has only characters that are kept, so that one is enough. -/
def requestId (uuid : UuidHex) (r : HttpRequest) : Str :=
  let rid := Str.strip ((r.headerText "x-request-id").getD [])
  let rid := if rid = [] ∨ requestIdMaxLen < rid.length then uuid.hex else rid
  let rid := rid.filter isIdChar
  if rid = [] then uuid.hex else rid

def isPage (path : Str) : Bool := path = "/".toList || ".html".toList.isSuffixOf path

/-- The headers of `SecurityHeadersMiddleware`. -/
def securityHeaders (path : Str) : ResponseHeaders :=
  [("x-content-type-options".toList, "nosniff".toList),
    ("x-frame-options".toList, "DENY".toList),
    ("referrer-policy".toList, "no-referrer".toList),
    ("permissions-policy".toList, "camera=(), microphone=(), geolocation=()".toList)] ++
  if isPage path then
    [("content-security-policy".toList,
      ("default-src 'self'; script-src 'self' 'unsafe-inline'; " ++
        "style-src 'self' 'unsafe-inline'; img-src 'self' data:; " ++
        "connect-src 'self'; frame-ancestors 'none'; base-uri 'self'").toList)]
  else []

/-- The response behind `RequestIdMiddleware` and `SecurityHeadersMiddleware`. -/
def stamp (path rid : Str) (start : ResponseStart) : ResponseStart where
  status := start.status
  headers := (securityHeaders path).foldl (fun headers entry => setHeader entry.1 entry.2 headers)
    (setHeader "x-request-id".toList rid start.headers)

/-! ### Metrics -/

/-- The part of `OPS_METRICS` that the gates write. -/
structure OpsMetrics where
  requestsTotal : ℕ := 0
  errorsTotal : ℕ := 0
  authRejectionsTotal : ℕ := 0
  statusCounts : Dict Str ℕ := []
  latencyMsMax : ℚ := 0
  latencyMsTotal : ℚ := 0
  latencySamples : List ℚ := []

/-- `deque(maxlen=10000)`. -/
def maxSamples : ℕ := 10000

/-- `_record_completion`, less the log line. -/
def OpsMetrics.recordCompletion (m : OpsMetrics) (status : ℕ) (dtMs : ℚ) : OpsMetrics :=
  let code := (toString status).toList
  { m with
    requestsTotal := m.requestsTotal + 1
    latencyMsTotal := m.latencyMsTotal + dtMs
    latencySamples := (m.latencySamples ++ [dtMs]).drop (m.latencySamples.length + 1 - maxSamples)
    latencyMsMax := max m.latencyMsMax (PyFloat.roundHalfEven (dtMs * 100) / 100)
    statusCounts := m.statusCounts.set code (m.statusCounts.count code + 1)
    errorsTotal := if 500 ≤ status then m.errorsTotal + 1 else m.errorsTotal }

/-- A refusal of `_api_key_auth_response` is counted. -/
def OpsMetrics.recordAuthRejection (m : OpsMetrics) : OpsMetrics :=
  { m with authRejectionsTotal := m.authRejectionsTotal + 1 }

/-! ### The gates -/

/-- The settings of the gates. `originAllowed` is `_origin_allowed`. -/
structure Stack extends Gates where
  requireAuth : Bool
  maxUploadBytes : ℕ
  originAllowed : Str → Bool

/-- `_AUTH_EXEMPT_PATHS`. -/
def authExemptPaths : List Str :=
  ["/", "/healthz", "/api/health", "/livez", "/readyz", "/metrics", "/dashboard", "/docs",
    "/openapi.json", "/redoc"].map String.toList

/-- `int` refuses more digits. -/
def intMaxStrDigits : ℕ := 4300

/-- The refusals of `RequestGovernorMiddleware`. -/
def governorResponse (limit : ℕ) (r : HttpRequest) : Option ResponseStart :=
  match r.header "content-length" with
  | none => none
  | some length =>
    if length.isDigit = false ∨ intMaxStrDigits < length.length then
      some (jsonStart 400 "Invalid Content-Length" [])
    else if limit < decimalValue length then some (jsonStart 413 "Payload too large" [])
    else none

inductive Gate where
  | bodyLimit
  | rateLimit
  | auth
  | governor
  deriving DecidableEq

/-- What has become of a request. -/
inductive Passage where
  /-- The body never ends, or the client has gone before its end. -/
  | silent
  /-- A gate has raised. -/
  | crashed
  | refused (gate : Gate) (start : ResponseStart)
  /-- Past the governor, at the time `t0`; `entered` if the application was called, with `replay` for
  its `receive`. -/
  | opened (rid : Str) (t0 : ℚ) (replay : BodyLimit.Replay) (entered : Bool) (sent : List ResponseStart)

def Passage.isOpened : Passage → Bool
  | .opened .. => true
  | _ => false

def Passage.isAuthRefusal : Passage → Bool
  | .refused .auth _ => true
  | _ => false

structure Flight where
  request : HttpRequest
  passage : Passage

structure StackState where
  buckets : Buckets := []
  metrics : OpsMetrics := {}
  flights : List Flight := []

inductive StackEvent where
  /-- A request passes the gates; `t0` and `t1` are the clock at the governor, before and behind. -/
  | arrive (r : HttpRequest) (uuid : UuidHex) (t0 t1 : ℚ)
  /-- The application of the request `i` starts a response. -/
  | respond (i : ℕ) (start : ResponseStart) (t1 : ℚ)

/-- A response reaches the governor, which records the first one of each request. -/
def Flight.send (m : OpsMetrics) (f : Flight) (start : ResponseStart) (t1 : ℚ) : OpsMetrics × Flight :=
  match f.passage with
  | .opened rid t0 replay entered sent =>
    (if sent = [] then m.recordCompletion start.status ((t1 - t0) * 1000) else m,
      { f with passage := .opened rid t0 replay entered (sent ++ [stamp f.request.path rid start]) })
  | _ => (m, f)

namespace Stack

variable (stack : Stack) (u : UnicodeData)

def authEnabled : Bool := stack.digests ≠ [] || stack.requireAuth

/-- `_api_key_auth_response`. -/
def authResponse (req : Request) : Option ResponseStart :=
  if stack.authEnabled = false ∨ req.path ∈ authExemptPaths then none
  else if stack.digests = [] then
    some (jsonStart 503 "Service misconfigured: AXIOM_REQUIRE_AUTH set but no AXIOM_API_KEYS" [])
  else
    match stack.tenant u req with
    | none =>
      some (jsonStart 401 "Unauthorized: missing or invalid API key"
        [("www-authenticate".toList, "Bearer realm=\"axiom-grid\"".toList)])
    | some _ => none

/-- `OriginGateMiddleware` lets the request through. -/
def originOk (r : HttpRequest) : Bool := ((r.headerText "origin").map stack.originAllowed).getD true

/-- Behind the governor: the application is called, or the origin is refused. -/
def opened (s : StackState) (r : HttpRequest) (replay : BodyLimit.Replay) (uuid : UuidHex)
    (t0 t1 : ℚ) : StackState :=
  let f : Flight := ⟨r, .opened (requestId uuid r) t0 replay (stack.originOk r) []⟩
  if stack.originOk r then { s with flights := s.flights ++ [f] }
  else
    let (metrics, f) := f.send s.metrics (jsonStart 403 "Forbidden: invalid origin" []) t1
    { s with metrics := metrics, flights := s.flights ++ [f] }

/-- Behind the rate limit. -/
def limited (s : StackState) (r : HttpRequest) (replay : BodyLimit.Replay) (uuid : UuidHex)
    (t0 t1 : ℚ) : StackState :=
  match stack.authResponse u r.toRequest with
  | some start =>
    { s with
      metrics := s.metrics.recordAuthRejection
      flights := s.flights ++ [⟨r, .refused .auth start⟩] }
  | none =>
    match governorResponse stack.maxUploadBytes r with
    | some start => { s with flights := s.flights ++ [⟨r, .refused .governor start⟩] }
    | none => stack.opened s r replay uuid t0 t1

/-- Behind the body limit. -/
def buffered (s : StackState) (r : HttpRequest) (replay : BodyLimit.Replay) (uuid : UuidHex)
    (t0 t1 : ℚ) : StackState :=
  let response := stack.cfg.rateLimitResponse s.buckets (stack.rateRequest u r.toRequest)
  let s := { s with buckets := response.2.1 }
  match response.1 with
  | .tooMany retryAfter =>
    { s with flights := s.flights ++ [⟨r, .refused .rateLimit
        (jsonStart 429 "Too many requests" [("retry-after".toList, (toString retryAfter).toList)])⟩] }
  | .indexError => { s with flights := s.flights ++ [⟨r, .crashed⟩] }
  | _ => stack.limited u s r replay uuid t0 t1

/-- A request arrives. -/
def arrive (s : StackState) (r : HttpRequest) (uuid : UuidHex) (t0 t1 : ℚ) : StackState :=
  match BodyLimit.call stack.maxUploadBytes "http" r.headers r.messages with
  | .responded status detail =>
    { s with flights := s.flights ++ [⟨r, .refused .bodyLimit (jsonStart status detail [])⟩] }
  | .invoked replay => stack.buffered u s r replay uuid t0 t1
  | _ => { s with flights := s.flights ++ [⟨r, .silent⟩] }

def step (s : StackState) : StackEvent → Option StackState
  | .arrive r uuid t0 t1 => some (stack.arrive u s r uuid t0 t1)
  | .respond i start t1 =>
    match s.flights[i]? with
    | some ⟨r, .opened rid t0 replay true sent⟩ =>
      let (metrics, f) := Flight.send s.metrics ⟨r, .opened rid t0 replay true sent⟩ start t1
      some { s with metrics := metrics, flights := s.flights.set i f }
    | _ => none

/-- The state after the events, if each of them can happen. -/
def run (events : List StackEvent) : Option StackState := Transition.run (stack.step u) {} events

end Stack

/-! ### Stamped headers -/

@[simp] lemma valuesOf_setHeader (name value : Str) (headers : ResponseHeaders) :
    valuesOf name (setHeader name value headers) = [value] := by
  induction headers with
  | nil => simp [setHeader, valuesOf]
  | cons entry headers ih =>
    rw [setHeader]
    split_ifs with hname
    · simp [valuesOf, List.filter_filter]
    · rw [valuesOf, List.filter_cons, if_neg (by simpa using hname)]
      exact ih

lemma valuesOf_setHeader_of_ne {name other : Str} (h : other ≠ name) (value : Str)
    (headers : ResponseHeaders) :
    valuesOf other (setHeader name value headers) = valuesOf other headers := by
  induction headers with
  | nil => simp [setHeader, valuesOf, Ne.symm h]
  | cons entry headers ih =>
    rw [setHeader]
    split_ifs with hname
    · have hother : entry.1 ≠ other := fun heq => h (heq.symm.trans hname)
      have hrest : ∀ entry' ∈ headers,
          (decide (entry'.1 = other) && decide (entry'.1 ≠ name)) = decide (entry'.1 = other) := by
        intro entry' _
        by_cases heq : entry'.1 = other
        · simp [heq, h]
        · simp [heq]
      simp only [valuesOf, List.filter_cons, decide_eq_true_eq, Ne.symm h, hother, if_false,
        List.filter_filter]
      rw [List.filter_congr hrest]
    · simp only [valuesOf, List.filter_cons] at ih ⊢
      split_ifs
      · rw [List.map_cons, List.map_cons, ih]
      · exact ih

lemma valuesOf_foldl_setHeader_of_notMem {name : Str} {entries : ResponseHeaders}
    (h : name ∉ entries.map Prod.fst) (headers : ResponseHeaders) :
    valuesOf name (entries.foldl (fun headers entry => setHeader entry.1 entry.2 headers) headers) =
      valuesOf name headers := by
  induction entries generalizing headers with
  | nil => rfl
  | cons entry entries ih =>
    rw [List.map_cons, List.mem_cons, not_or] at h
    rw [List.foldl_cons, ih h.2, valuesOf_setHeader_of_ne h.1]

lemma valuesOf_foldl_setHeader_of_mem {entries : ResponseHeaders} (hnodup : (entries.map Prod.fst).Nodup)
    {entry : Str × Str} (h : entry ∈ entries) (headers : ResponseHeaders) :
    valuesOf entry.1 (entries.foldl (fun headers entry => setHeader entry.1 entry.2 headers) headers) =
      [entry.2] := by
  induction entries generalizing headers with
  | nil => cases h
  | cons entry' entries ih =>
    rw [List.map_cons, List.nodup_cons] at hnodup
    rw [List.foldl_cons]
    obtain rfl | h := List.mem_cons.mp h
    · rw [valuesOf_foldl_setHeader_of_notMem hnodup.1, valuesOf_setHeader]
    · exact ih hnodup.2 h _

/-- The names that the stamps set. -/
def stampedNames (path : Str) : List Str :=
  "x-request-id".toList :: (securityHeaders path).map Prod.fst

lemma nodup_stampedNames (path : Str) : (stampedNames path).Nodup := by
  rw [stampedNames, securityHeaders]
  split_ifs <;> decide

/-- The response `sent` is the response `start` with the request id and the security headers, each of
them once. -/
structure Carries (path rid : Str) (start sent : ResponseStart) : Prop where
  status : sent.status = start.status
  id : valuesOf "x-request-id".toList sent.headers = [rid]
  security : ∀ entry ∈ securityHeaders path, valuesOf entry.1 sent.headers = [entry.2]
  rest : ∀ name ∉ stampedNames path, valuesOf name sent.headers = valuesOf name start.headers

lemma carries_stamp (path rid : Str) (start : ResponseStart) :
    Carries path rid start (stamp path rid start) := by
  have hnodup := List.nodup_cons.mp (nodup_stampedNames path)
  refine ⟨rfl, ?_, fun entry hentry => ?_, fun name hname => ?_⟩
  · rw [stamp, valuesOf_foldl_setHeader_of_notMem hnodup.1, valuesOf_setHeader]
  · simp only [stamp]
    exact valuesOf_foldl_setHeader_of_mem hnodup.2 hentry _
  · rw [stampedNames, List.mem_cons, not_or] at hname
    rw [stamp, valuesOf_foldl_setHeader_of_notMem hname.2, valuesOf_setHeader_of_ne hname.1]

/-! ### Request ids -/

/-- An id that can stand in a log line: short, not empty, and of plain characters. -/
structure PlainId (rid : Str) : Prop where
  ne_nil : rid ≠ []
  length : rid.length ≤ requestIdMaxLen
  chars : ∀ c ∈ rid, isIdChar c = true

lemma UuidHex.plain (uuid : UuidHex) : PlainId uuid.hex := by
  obtain ⟨hex, hlength, hdigits⟩ := uuid
  refine ⟨?_, ?_, ?_⟩
  · rintro rfl
    cases hlength
  · rw [hlength]
    decide
  · have hall : "0123456789abcdef".toList.all isIdChar = true := by decide
    exact fun c hc => List.all_eq_true.mp hall c (hdigits c hc)

lemma plain_requestId (uuid : UuidHex) (r : HttpRequest) : PlainId (requestId uuid r) := by
  have hkept : ∀ rid : Str, rid.length ≤ requestIdMaxLen →
      PlainId (if rid.filter isIdChar = [] then uuid.hex else rid.filter isIdChar) := by
    intro rid hlength
    split_ifs with hnone
    · exact uuid.plain
    · exact ⟨hnone, (List.length_filter_le _ _).trans hlength, fun c hc => (List.mem_filter.mp hc).2⟩
  apply hkept
  split_ifs with hbad
  · exact uuid.plain.length
  · exact not_lt.mp (not_or.mp hbad).2

/-- An id that the client gives is kept if it is plain. -/
lemma requestId_of_plain {uuid : UuidHex} {r : HttpRequest} {rid : Str} (h : PlainId rid)
    (hgiven : (r.headerText "x-request-id").map Str.strip = some rid) : requestId uuid r = rid := by
  obtain ⟨given, hheader, rfl⟩ := Option.map_eq_some_iff.mp hgiven
  have hkeep : ¬(Str.strip given = [] ∨ requestIdMaxLen < (Str.strip given).length) :=
    not_or.mpr ⟨h.ne_nil, not_lt.mpr h.length⟩
  simp only [requestId, hheader, Option.getD_some, if_neg hkeep, List.filter_eq_self.mpr h.chars,
    if_neg h.ne_nil]

/-! ### What the gates let through -/

lemma status_of_responded {limit : ℕ} {headers : List (Bytes × Bytes)} {messages : List BodyLimit.Message}
    {status : ℕ} {detail : String}
    (h : BodyLimit.call limit "http" headers messages = .responded status detail) :
    status = 400 ∨ status = 413 := by
  by_cases hok : BodyLimit.LengthOk limit headers
  · rw [BodyLimit.call_of_lengthOk hok] at h
    have hempty : ([] : Bytes).length ≤ limit := Nat.zero_le limit
    rcases BodyLimit.buffer_cases hempty messages with
      ⟨before, last, rest, hcomplete, hle⟩ | ⟨heq, -⟩ | ⟨heq, -⟩ | ⟨heq, -⟩
    · exact nomatch (BodyLimit.buffer_of_complete hcomplete hle).symm.trans h
    · exact .inr (BodyLimit.Outcome.responded.inj (heq.symm.trans h)).1.symm
    · exact nomatch heq.symm.trans h
    · exact nomatch heq.symm.trans h
  · rcases BodyLimit.call_of_not_lengthOk hok messages with heq | heq
    · exact .inl (BodyLimit.Outcome.responded.inj (heq.symm.trans h)).1.symm
    · exact .inr (BodyLimit.Outcome.responded.inj (heq.symm.trans h)).1.symm

/-- The application reads the bytes that the client has sent, at most so many, in one message. -/
def ReadsBody (limit : ℕ) (messages : List BodyLimit.Message) (replay : BodyLimit.Replay) : Prop :=
  ∃ before last rest, BodyLimit.Complete messages before last rest ∧
    (BodyLimit.bodyOf (before ++ [last])).length ≤ limit ∧
    ∀ n, replay.received (n + 1) =
      ⟨"http.request", some (BodyLimit.bodyOf (before ++ [last])), some false⟩ :: rest.take n

lemma of_invoked {limit : ℕ} {headers : List (Bytes × Bytes)} {messages : List BodyLimit.Message}
    {replay : BodyLimit.Replay} (h : BodyLimit.call limit "http" headers messages = .invoked replay) :
    BodyLimit.LengthOk limit headers ∧ ReadsBody limit messages replay := by
  by_cases hok : BodyLimit.LengthOk limit headers
  · refine ⟨hok, ?_⟩
    rw [BodyLimit.call_of_lengthOk hok] at h
    obtain ⟨before, last, rest, hcomplete, hle⟩ := BodyLimit.exists_complete_of_buffer h
    have hbuffer : BodyLimit.buffer limit [] messages =
        .invoked { body := BodyLimit.bodyOf (before ++ [last]), rest := rest } :=
      BodyLimit.buffer_of_complete hcomplete (by simpa using hle)
    obtain rfl := BodyLimit.Outcome.invoked.inj (hbuffer.symm.trans h)
    exact ⟨before, last, rest, hcomplete, hle, fun n => BodyLimit.received_succ n _ rest⟩
  · rcases BodyLimit.call_of_not_lengthOk hok messages with heq | heq
    · exact nomatch heq.symm.trans h
    · exact nomatch heq.symm.trans h

/-- Behind the body limit the governor refuses only a length of too many digits. -/
lemma governorResponse_of_lengthOk {limit : ℕ} {r : HttpRequest} {start : ResponseStart}
    (hok : BodyLimit.LengthOk limit r.headers) (h : governorResponse limit r = some start) :
    start = jsonStart 400 "Invalid Content-Length" [] ∧
      ∃ length, r.header "content-length" = some length ∧ intMaxStrDigits < length.length := by
  cases hheader : r.header "content-length" with
  | none => simp [governorResponse, hheader] at h
  | some length =>
    obtain ⟨entry, hfind, rfl⟩ := Option.map_eq_some_iff.mp hheader
    have hname : entry.1 = utf8 "content-length" := by simpa using List.find?_some hfind
    have hmem : entry.2 ∈ BodyLimit.contentLengths r.headers := by
      refine List.mem_map_of_mem (List.mem_filter.mpr ⟨List.mem_of_find?_eq_some hfind, ?_⟩)
      rw [hname]
      decide
    rcases hok with hnone | ⟨length, hone, hdigit, hle⟩
    · simp [hnone] at hmem
    · obtain rfl : entry.2 = length := by simpa [hone] using hmem
      simp only [governorResponse, hheader] at h
      split_ifs at h with hbad
      · refine ⟨(Option.some.inj h).symm, entry.2, rfl, ?_⟩
        exact hbad.resolve_left (by simp [hdigit])
      · omega

/-- Every digest is that of a configured key of at least 16 characters. -/
lemma exists_configured {raw : Str} {entry : Str × Str} (h : entry ∈ loadApiKeyDigests raw) :
    ∃ key ∈ raw.splitOn ',', 16 ≤ (Str.strip key).length ∧ entry.1 = hexdigest (Str.strip key) := by
  have hfold : ∀ keys : List Str, (∀ key ∈ keys, key ∈ raw.splitOn ',') →
      ∀ entry ∈ keys.foldl addKey [], ∃ key ∈ raw.splitOn ',', 16 ≤ (Str.strip key).length ∧
        entry.1 = hexdigest (Str.strip key) := by
    intro keys hkeys
    induction keys using List.reverseRecOn with
    | nil => exact fun _ hentry => nomatch hentry
    | append_singleton keys key ih =>
      have hbefore := ih fun key hkey => hkeys key (List.mem_append_left _ hkey)
      rw [List.foldl_concat, addKey]
      split_ifs with hlong
      · intro entry hentry
        obtain rfl | hold := Dict.mem_set hentry
        · exact ⟨key, hkeys key (by simp), hlong, rfl⟩
        · exact hbefore entry hold
      · exact hbefore
  exact hfold _ (fun _ hkey => hkey) entry h

lemma exists_of_authenticate {u : UnicodeData} {digests : Dict Str Str} {req : Request} {t : Str}
    (h : authenticate u digests req = some t) :
    ∃ key, presentedKey u req = some key ∧ ∃ entry ∈ digests, hexdigest key = entry.1 := by
  rw [authenticate] at h
  cases hkey : presentedKey u req with
  | none => simp [hkey] at h
  | some key =>
    refine ⟨key, rfl, ?_⟩
    simp only [hkey] at h
    by_contra hnone
    push Not at hnone
    have hfold : digests.foldl
        (fun found entry => if hexdigest key = entry.1 then some entry.2 else found) none = none :=
      List.foldlRecOn (motive := fun found => found = none) digests _ rfl
        fun found hfound entry hentry => by rw [if_neg (hnone entry hentry), hfound]
    rw [hfold] at h
    cases h

namespace Stack

variable {stack : Stack} {u : UnicodeData}

variable (stack u) in
/-- A key has been presented whose digest is that of a configured key. -/
def Keyed (r : HttpRequest) : Prop :=
  ∃ presented, presentedKey u r.toRequest = some presented ∧
    ∃ key ∈ stack.apiKeys.splitOn ',', 16 ≤ (Str.strip key).length ∧
      hexdigest presented = hexdigest (Str.strip key)

lemma keyed_of_authResponse {r : HttpRequest} (h : stack.authResponse u r.toRequest = none)
    (henabled : stack.authEnabled = true) (hpath : r.path ∉ authExemptPaths) : stack.Keyed u r := by
  have hgated : ¬(stack.authEnabled = false ∨ r.toRequest.path ∈ authExemptPaths) :=
    not_or.mpr ⟨by simp [henabled], hpath⟩
  rw [authResponse, if_neg hgated] at h
  split_ifs at h with hnone
  cases htenant : stack.tenant u r.toRequest with
  | none => simp [htenant] at h
  | some t =>
    obtain ⟨presented, hpresented, entry, hentry, hdigest⟩ := exists_of_authenticate htenant
    obtain ⟨key, hkey, hlong, heq⟩ := exists_configured hentry
    exact ⟨presented, hpresented, key, hkey, hlong, hdigest.trans heq⟩

/-! ### One step -/

/-- The request as the rate limit sees it, if its body gets that far. -/
def rateRequest? (stack : Stack) (u : UnicodeData) (r : HttpRequest) : Option RateRequest :=
  match BodyLimit.call stack.maxUploadBytes "http" r.headers r.messages with
  | .invoked _ => some (stack.rateRequest u r.toRequest)
  | _ => none

/-- The buckets behind a request. -/
def bucketsBehind (stack : Stack) (u : UnicodeData) (buckets : Buckets) (r : HttpRequest) : Buckets :=
  match stack.rateRequest? u r with
  | some req => (stack.cfg.rateLimitResponse buckets req).2.1
  | none => buckets

/-- A request passes the gates up to the governor. -/
structure Passes (stack : Stack) (u : UnicodeData) (buckets : Buckets) (r : HttpRequest)
    (replay : BodyLimit.Replay) : Prop where
  body : BodyLimit.call stack.maxUploadBytes "http" r.headers r.messages = .invoked replay
  rate : (stack.cfg.rateLimitResponse buckets (stack.rateRequest u r.toRequest)).1 = .exempt ∨
    (stack.cfg.rateLimitResponse buckets (stack.rateRequest u r.toRequest)).1 = .admitted
  auth : stack.authResponse u r.toRequest = none
  governor : governorResponse stack.maxUploadBytes r = none

/-- The refusals of the gates. The governor finds nothing but lengths that `int` does not read. -/
inductive Refuses (r : HttpRequest) : Gate → ResponseStart → Prop
  | body (status : ℕ) (detail : String) (h : status = 400 ∨ status = 413) :
      Refuses r .bodyLimit (jsonStart status detail [])
  | rate (retryAfter : ℤ) :
      Refuses r .rateLimit
        (jsonStart 429 "Too many requests" [("retry-after".toList, (toString retryAfter).toList)])
  | noKeys :
      Refuses r .auth
        (jsonStart 503 "Service misconfigured: AXIOM_REQUIRE_AUTH set but no AXIOM_API_KEYS" [])
  | key :
      Refuses r .auth (jsonStart 401 "Unauthorized: missing or invalid API key"
        [("www-authenticate".toList, "Bearer realm=\"axiom-grid\"".toList)])
  | length (length : Bytes) (hheader : r.header "content-length" = some length)
      (hlong : intMaxStrDigits < length.length) :
      Refuses r .governor (jsonStart 400 "Invalid Content-Length" [])

/-- The request is stopped before the governor lets it through. -/
inductive Stops (r : HttpRequest) : Passage → Prop
  | silent : Stops r .silent
  | crashed : Stops r .crashed
  | refused {gate : Gate} {start : ResponseStart} (h : Refuses r gate start) : Stops r (.refused gate start)

def forbidden : ResponseStart := jsonStart 403 "Forbidden: invalid origin" []

/-- What the arrival of a request does. -/
inductive Arrives (stack : Stack) (u : UnicodeData) (s : StackState) (r : HttpRequest) (uuid : UuidHex)
    (t0 t1 : ℚ) : StackState → Prop
  | stopped (passage : Passage) (h : Stops r passage) :
      Arrives stack u s r uuid t0 t1
        { buckets := stack.bucketsBehind u s.buckets r
          metrics := if passage.isAuthRefusal then s.metrics.recordAuthRejection else s.metrics
          flights := s.flights ++ [⟨r, passage⟩] }
  | entered (replay : BodyLimit.Replay) (h : stack.Passes u s.buckets r replay)
      (horigin : stack.originOk r = true) :
      Arrives stack u s r uuid t0 t1
        { s with
          buckets := stack.bucketsBehind u s.buckets r
          flights := s.flights ++ [⟨r, .opened (requestId uuid r) t0 replay true []⟩] }
  | forbidden (replay : BodyLimit.Replay) (h : stack.Passes u s.buckets r replay)
      (horigin : stack.originOk r = false) :
      Arrives stack u s r uuid t0 t1
        { buckets := stack.bucketsBehind u s.buckets r
          metrics := s.metrics.recordCompletion 403 ((t1 - t0) * 1000)
          flights := s.flights ++ [⟨r, .opened (requestId uuid r) t0 replay false
            [stamp r.path (requestId uuid r) forbidden]⟩] }

lemma refuses_of_authResponse {r : HttpRequest} {start : ResponseStart}
    (h : stack.authResponse u r.toRequest = some start) : Refuses r .auth start := by
  rw [authResponse] at h
  split_ifs at h with hopen hnone
  · obtain rfl := Option.some.inj h
    exact .noKeys
  · cases htenant : stack.tenant u r.toRequest with
    | none =>
      simp only [htenant, Option.some.injEq] at h
      exact h ▸ .key
    | some t => simp [htenant] at h

lemma buffered_eq {s : StackState} {r : HttpRequest} (replay : BodyLimit.Replay) (uuid : UuidHex) (t0 t1 : ℚ)
    (h : (stack.cfg.rateLimitResponse s.buckets (stack.rateRequest u r.toRequest)).1 = .exempt ∨
      (stack.cfg.rateLimitResponse s.buckets (stack.rateRequest u r.toRequest)).1 = .admitted) :
    stack.buffered u s r replay uuid t0 t1 = stack.limited u
      { s with buckets :=
          (stack.cfg.rateLimitResponse s.buckets (stack.rateRequest u r.toRequest)).2.1 }
      r replay uuid t0 t1 := by
  rcases h with h | h <;> simp only [buffered, h]

lemma arrives_arrive (s : StackState) (r : HttpRequest) (uuid : UuidHex) (t0 t1 : ℚ) :
    stack.Arrives u s r uuid t0 t1 (stack.arrive u s r uuid t0 t1) := by
  have stopped : ∀ passage, Stops r passage → stack.arrive u s r uuid t0 t1 =
      { buckets := stack.bucketsBehind u s.buckets r
        metrics := if passage.isAuthRefusal then s.metrics.recordAuthRejection else s.metrics
        flights := s.flights ++ [⟨r, passage⟩] } →
      stack.Arrives u s r uuid t0 t1 (stack.arrive u s r uuid t0 t1) :=
    fun passage h heq => heq ▸ .stopped passage h
  cases hbody : BodyLimit.call stack.maxUploadBytes "http" r.headers r.messages with
  | passed => exact stopped _ .silent (by simp [arrive, bucketsBehind, rateRequest?, hbody, Passage.isAuthRefusal])
  | returned => exact stopped _ .silent (by simp [arrive, bucketsBehind, rateRequest?, hbody, Passage.isAuthRefusal])
  | waiting => exact stopped _ .silent (by simp [arrive, bucketsBehind, rateRequest?, hbody, Passage.isAuthRefusal])
  | responded status detail =>
    have hrefuses := Refuses.body (r := r) status detail (status_of_responded hbody)
    exact stopped _ (.refused hrefuses)
      (by simp [arrive, bucketsBehind, rateRequest?, hbody, Passage.isAuthRefusal])
  | invoked replay =>
    have harrive : stack.arrive u s r uuid t0 t1 = stack.buffered u s r replay uuid t0 t1 := by
      simp only [arrive, hbody]
    have hbuckets : stack.bucketsBehind u s.buckets r =
        (stack.cfg.rateLimitResponse s.buckets (stack.rateRequest u r.toRequest)).2.1 := by
      simp only [bucketsBehind, rateRequest?, hbody]
    have hlimited : (stack.cfg.rateLimitResponse s.buckets (stack.rateRequest u r.toRequest)).1 = .exempt ∨
          (stack.cfg.rateLimitResponse s.buckets (stack.rateRequest u r.toRequest)).1 = .admitted →
        stack.Arrives u s r uuid t0 t1 (stack.arrive u s r uuid t0 t1) := by
      intro hrate
      rw [buffered_eq replay uuid t0 t1 hrate, ← hbuckets, limited] at harrive
      cases hauth : stack.authResponse u r.toRequest with
      | some start =>
        have hrefuses := refuses_of_authResponse hauth
        exact stopped _ (.refused hrefuses) (by simp [harrive, hauth, Passage.isAuthRefusal])
      | none =>
        cases hgovernor : governorResponse stack.maxUploadBytes r with
        | some start =>
          obtain ⟨rfl, length, hheader, hlong⟩ := governorResponse_of_lengthOk (of_invoked hbody).1 hgovernor
          exact stopped _ (.refused (.length length hheader hlong))
            (by simp [harrive, hauth, hgovernor, Passage.isAuthRefusal])
        | none =>
          have hpasses : stack.Passes u s.buckets r replay := ⟨hbody, hrate, hauth, hgovernor⟩
          simp only [hauth, hgovernor, opened] at harrive
          cases horigin : stack.originOk r with
          | true =>
            rw [harrive, if_pos horigin, horigin]
            exact .entered replay hpasses horigin
          | false =>
            rw [harrive, if_neg (by simp [horigin]), horigin]
            exact .forbidden replay hpasses horigin
    cases hrate : (stack.cfg.rateLimitResponse s.buckets (stack.rateRequest u r.toRequest)).1 with
    | exempt => exact hlimited (.inl hrate)
    | admitted => exact hlimited (.inr hrate)
    | tooMany retryAfter =>
      exact stopped _ (.refused (.rate retryAfter))
        (by simp [harrive, buffered, hrate, hbuckets, Passage.isAuthRefusal])
    | indexError =>
      exact stopped _ .crashed (by simp [harrive, buffered, hrate, hbuckets, Passage.isAuthRefusal])

lemma step_respond {s s' : StackState} {i : ℕ} {start : ResponseStart} {t1 : ℚ}
    (h : stack.step u s (.respond i start t1) = some s') :
    ∃ r rid t0 replay sent, s.flights[i]? = some ⟨r, .opened rid t0 replay true sent⟩ ∧
      s' = { s with
        metrics :=
          if sent = [] then s.metrics.recordCompletion start.status ((t1 - t0) * 1000) else s.metrics
        flights := s.flights.set i ⟨r, .opened rid t0 replay true (sent ++ [stamp r.path rid start])⟩ } := by
  simp only [step] at h
  split at h
  · rename_i r rid t0 replay sent hflight
    exact ⟨r, rid, t0, replay, sent, hflight, (Option.some.inj h).symm⟩
  · cases h

/-! ### Every flight -/

/-- The responses that the application of the request `i` starts. -/
def startedBy (events : List StackEvent) (i : ℕ) : List ResponseStart :=
  events.filterMap fun
    | .respond j start _ => if j = i then some start else none
    | _ => none

@[simp] lemma startedBy_concat_arrive (events : List StackEvent) (r : HttpRequest) (uuid : UuidHex)
    (t0 t1 : ℚ) (i : ℕ) : startedBy (events ++ [.arrive r uuid t0 t1]) i = startedBy events i := by
  simp [startedBy]

lemma startedBy_concat_respond (events : List StackEvent) (i : ℕ) (start : ResponseStart) (t1 : ℚ)
    (j : ℕ) : startedBy (events ++ [.respond i start t1]) j =
      startedBy events j ++ if i = j then [start] else [] := by
  split_ifs with h <;> simp [startedBy, h]

/-- What is known of a request that has been let through or stopped. -/
def Sound (stack : Stack) (u : UnicodeData) (events : List StackEvent) (i : ℕ) (f : Flight) : Prop :=
  match f.passage with
  | .opened rid _ replay entered sent =>
    (BodyLimit.call stack.maxUploadBytes "http" f.request.headers f.request.messages = .invoked replay ∧
      stack.authResponse u f.request.toRequest = none ∧ entered = stack.originOk f.request) ∧
    (∃ uuid, rid = requestId uuid f.request) ∧
    sent = (if entered then startedBy events i else [forbidden]).map (stamp f.request.path rid)
  | passage => Stops f.request passage ∧ startedBy events i = []

lemma Sound.congr {events events' : List StackEvent} {i : ℕ} {f : Flight} (h : stack.Sound u events i f)
    (heq : startedBy events' i = startedBy events i) : stack.Sound u events' i f := by
  unfold Sound at h ⊢
  rw [heq]
  exact h

lemma sound_of_stops {events : List StackEvent} {i : ℕ} {r : HttpRequest} {passage : Passage}
    (h : Stops r passage) (hnone : startedBy events i = []) : stack.Sound u events i ⟨r, passage⟩ := by
  cases h with
  | silent => exact ⟨.silent, hnone⟩
  | crashed => exact ⟨.crashed, hnone⟩
  | refused h => exact ⟨.refused h, hnone⟩

/-- Every flight is sound, and what has not arrived has started nothing. -/
structure Tracked (stack : Stack) (u : UnicodeData) (events : List StackEvent) (s : StackState) : Prop where
  sound : ∀ i f, s.flights[i]? = some f → stack.Sound u events i f
  fresh : ∀ i, s.flights.length ≤ i → startedBy events i = []

lemma Tracked.append {events : List StackEvent} {s : StackState} (h : stack.Tracked u events s)
    {r : HttpRequest} {uuid : UuidHex} {t0 t1 : ℚ} {buckets : Buckets} {m : OpsMetrics} {f : Flight}
    (hf : stack.Sound u events s.flights.length f) :
    stack.Tracked u (events ++ [.arrive r uuid t0 t1]) ⟨buckets, m, s.flights ++ [f]⟩ := by
  refine ⟨fun i f' hi => ?_, fun i hi => ?_⟩
  · obtain hlt | rfl | hgt := lt_trichotomy i s.flights.length
    · rw [List.getElem?_append_left hlt] at hi
      exact (h.sound i f' hi).congr (by simp)
    · rw [List.getElem?_concat_length] at hi
      obtain rfl := Option.some.inj hi
      exact hf.congr (by simp)
    · rw [List.getElem?_eq_none (by simp; omega)] at hi
      cases hi
  · rw [startedBy_concat_arrive]
    exact h.fresh i (by simp at hi; omega)

lemma Tracked.arrives {events : List StackEvent} {s s' : StackState} (h : stack.Tracked u events s)
    {r : HttpRequest} {uuid : UuidHex} {t0 t1 : ℚ} (harrives : stack.Arrives u s r uuid t0 t1 s') :
    stack.Tracked u (events ++ [.arrive r uuid t0 t1]) s' := by
  have hnone := h.fresh s.flights.length le_rfl
  cases harrives with
  | stopped passage hstops => exact h.append (sound_of_stops hstops hnone)
  | entered replay hpasses horigin =>
    exact h.append ⟨⟨hpasses.body, hpasses.auth, horigin.symm⟩, ⟨uuid, rfl⟩, by simp [hnone]⟩
  | forbidden replay hpasses horigin =>
    exact h.append ⟨⟨hpasses.body, hpasses.auth, horigin.symm⟩, ⟨uuid, rfl⟩, by simp⟩

lemma Tracked.responds {events : List StackEvent} {s s' : StackState} (h : stack.Tracked u events s)
    {i : ℕ} {start : ResponseStart} {t1 : ℚ} (hstep : stack.step u s (.respond i start t1) = some s') :
    stack.Tracked u (events ++ [.respond i start t1]) s' := by
  obtain ⟨r, rid, t0, replay, sent, hflight, rfl⟩ := step_respond hstep
  have hlt : i < s.flights.length := (List.getElem?_eq_some_iff.mp hflight).1
  refine ⟨fun j f hj => ?_, fun j hj => ?_⟩
  · by_cases hij : i = j
    · subst hij
      rw [List.getElem?_set_self hlt] at hj
      obtain rfl := Option.some.inj hj
      obtain ⟨hgates, hid, hsent⟩ := h.sound i _ hflight
      refine ⟨hgates, hid, ?_⟩
      rw [startedBy_concat_respond, if_pos rfl, if_pos rfl, List.map_append, hsent]
      simp
    · rw [List.getElem?_set_ne hij] at hj
      exact (h.sound j f hj).congr (by simp [startedBy_concat_respond, hij])
  · rw [List.length_set] at hj
    rw [startedBy_concat_respond, h.fresh j hj, if_neg (by omega)]
    rfl

lemma tracked_run {events : List StackEvent} {s : StackState} (h : stack.run u events = some s) :
    stack.Tracked u events s := by
  refine Transition.run_induction _ (P := stack.Tracked u) ⟨by simp, fun _ _ => rfl⟩ ?_ h
  intro events s event s' _ htracked hstep
  cases event with
  | arrive r uuid t0 t1 => exact htracked.arrives (Option.some.inj hstep ▸ arrives_arrive s r uuid t0 t1)
  | respond i start t1 => exact htracked.responds hstep

end Stack

/-! ### How many are let through -/

namespace RateConfig

variable {cfg : RateConfig}

lemma outcome_ne_exempt {buckets : Buckets} {req : RateRequest} (hpos : 0 < cfg.perMin)
    (hpath : req.path ∉ exemptPaths) : (cfg.rateLimitResponse buckets req).1 ≠ .exempt := by
  have hgated : ¬(req.path ∈ exemptPaths ∨ cfg.perMin ≤ 0) := not_or.mpr ⟨hpath, not_le.mpr hpos⟩
  simp only [rateLimitResponse, if_neg hgated, count]
  split_ifs
  · split <;> simp
  · simp

/-- The buckets are those of clients that have asked. -/
lemma keys_run (requests : List RateRequest) :
    ∀ key ∈ (cfg.run requests).1.map Prod.fst, key ∈ requests.map cfg.clientKey := by
  induction requests using List.reverseRecOn with
  | nil => simp [run]
  | append_singleton requests req ih =>
    rw [run_concat]
    intro key hkey
    rw [List.map_append, List.mem_append]
    simp only [rateLimitResponse] at hkey
    split_ifs at hkey with hexempt
    · exact .inl (ih key hkey)
    · obtain ⟨bucket, hbucket, rfl⟩ := List.mem_map.mp hkey
      obtain rfl | hbucket := Dict.mem_set hbucket
      · exact .inr (by simp)
      · have hmem := (prune_sublist cfg _ _).subset ((evict_sublist cfg _ _).subset hbucket)
        exact .inl (ih _ (List.mem_map_of_mem hmem))

lemma exists_last {requests : List RateRequest} (hsorted : requests.Pairwise fun a b => a.now ≤ b.now) :
    ∃ now, ∀ req ∈ requests, req.now ≤ now := by
  rcases List.eq_nil_or_concat' requests with rfl | ⟨front, last, rfl⟩
  · exact ⟨0, by simp⟩
  · refine ⟨last.now, fun req hreq => ?_⟩
    obtain hreq | rfl := List.mem_append.mp hreq |>.imp id List.mem_singleton.mp
    · exact (List.pairwise_append.mp hsorted).2.2 req hreq last (by simp)
    · exact le_rfl

/-- Where there is a bucket for every client that has asked, none is evicted. -/
lemma evicted_run (hcfg : cfg.Valid) {requests : List RateRequest}
    (hsorted : requests.Pairwise fun a b => a.now ≤ b.now)
    (hfew : ((requests.map cfg.clientKey).toFinset.card : ℤ) ≤ cfg.hardCap) :
    ∀ r ∈ (cfg.run requests).2, r.evicted = [] := by
  induction requests using List.reverseRecOn with
  | nil => simp [run]
  | append_singleton requests req ih =>
    rw [List.pairwise_append] at hsorted
    rw [run_concat]
    intro r hr
    obtain hr | rfl := List.mem_append.mp hr |>.imp id List.mem_singleton.mp
    · refine ih hsorted.1 (le_trans (Int.ofNat_le.mpr (Finset.card_le_card ?_)) hfew) r hr
      intro key hkey
      simp only [List.map_append, List.toFinset_append, Finset.mem_union]
      exact .inl hkey
    · have hkept := (bounded_run hcfg hsorted.1 [] 0 fun earlier hearlier =>
        hsorted.2.2 earlier hearlier req (by simp)).kept
      simp only [record, rateLimitResponse]
      split_ifs with hexempt
      · rfl
      simp only [evicted]
      split_ifs with hfull
      · set pruned := cfg.prune (req.now - rateWindow) (cfg.run requests).1 with hpruned
        have hsub : pruned.Sublist (cfg.run requests).1 := prune_sublist cfg _ _
        have hnodup : (cfg.clientKey req :: pruned.map Prod.fst).Nodup :=
          List.nodup_cons.mpr ⟨hfull.2, hkept.nodup.sublist (hsub.map _)⟩
        have hkeys : (cfg.clientKey req :: pruned.map Prod.fst).toFinset ⊆
            ((requests ++ [req]).map cfg.clientKey).toFinset := by
          intro key hkey
          rw [List.mem_toFinset, List.map_append, List.mem_append]
          obtain rfl | hkey := List.mem_cons.mp (List.mem_toFinset.mp hkey)
          · exact .inr (by simp)
          · exact .inl (keys_run requests key ((hsub.map _).subset hkey))
        have hcard := Finset.card_le_card hkeys
        rw [List.toFinset_card_of_nodup hnodup, List.length_cons, List.length_map] at hcard
        have := hfull.1
        omega
      · rfl

end RateConfig

namespace Stack

variable {stack : Stack} {u : UnicodeData}

/-- The requests that the rate limit has seen. -/
def rateRequests (stack : Stack) (u : UnicodeData) (flights : List Flight) : List RateRequest :=
  (flights.map Flight.request).filterMap (stack.rateRequest? u)

/-- A request of a client that has passed the governor in a window, on a path that the limit is for. -/
def openedIn (stack : Stack) (u : UnicodeData) (k : Str) (t : ℚ) (f : Flight) : Bool :=
  f.passage.isOpened && f.request.path ∉ exemptPaths && stack.clientKey u f.request.toRequest = k &&
    (t ≤ f.request.now && f.request.now ≤ t + rateWindow)

/-- The buckets are those of the limiter alone, which admits what is let through. -/
structure Counted (stack : Stack) (u : UnicodeData) (s : StackState) : Prop where
  buckets : s.buckets = (stack.cfg.run (stack.rateRequests u s.flights)).1
  admitted : 0 < stack.cfg.perMin → ∀ k t, s.flights.countP (stack.openedIn u k t) ≤
    RateRecord.admittedIn k t (stack.cfg.run (stack.rateRequests u s.flights)).2

lemma admittedIn_of_passes {buckets : Buckets} {r : HttpRequest} {replay : BodyLimit.Replay}
    (h : stack.Passes u buckets r replay) (hpos : 0 < stack.cfg.perMin) (k : Str) (t : ℚ)
    (passage : Passage) : (stack.openedIn u k t ⟨r, passage⟩).toNat ≤
      RateRecord.admittedIn k t [stack.cfg.record buckets (stack.rateRequest u r.toRequest)] := by
  rw [RateRecord.admittedIn, List.countP_singleton]
  by_cases hopened : stack.openedIn u k t ⟨r, passage⟩ = true
  · have hadmitted := h.rate
    simp only [openedIn, Bool.and_eq_true, decide_eq_true_eq] at hopened
    obtain ⟨⟨⟨-, hpath⟩, hkey⟩, hwindow⟩ := hopened
    have hnot : (stack.cfg.rateLimitResponse buckets (stack.rateRequest u r.toRequest)).1 ≠ .exempt :=
      RateConfig.outcome_ne_exempt hpos hpath
    have hkey' : stack.cfg.clientKey (stack.rateRequest u r.toRequest) = k := hkey
    have hnow : t ≤ (stack.rateRequest u r.toRequest).now ∧
        (stack.rateRequest u r.toRequest).now ≤ t + rateWindow := hwindow
    simp [RateConfig.record, RateRecord.inWindow, hadmitted.resolve_left hnot, hkey', hnow, Bool.toNat_le]
  · rw [Bool.not_eq_true] at hopened
    rw [hopened]
    exact Nat.zero_le _

lemma Counted.append {s : StackState} (h : stack.Counted u s) {r : HttpRequest} {passage : Passage}
    (m : OpsMetrics)
    (hopened : passage.isOpened = true → ∃ replay, stack.Passes u s.buckets r replay) :
    stack.Counted u ⟨stack.bucketsBehind u s.buckets r, m, s.flights ++ [⟨r, passage⟩]⟩ := by
  have hcountP : ∀ k t, (s.flights ++ [(⟨r, passage⟩ : Flight)]).countP (stack.openedIn u k t) =
      s.flights.countP (stack.openedIn u k t) + (stack.openedIn u k t ⟨r, passage⟩).toNat := by
    intro k t
    rw [List.countP_append, List.countP_singleton]
    cases stack.openedIn u k t ⟨r, passage⟩ <;> rfl
  cases hseen : stack.rateRequest? u r with
  | none =>
    have hrequests : stack.rateRequests u (s.flights ++ [⟨r, passage⟩]) = stack.rateRequests u s.flights := by
      simp [rateRequests, hseen]
    refine ⟨by rw [hrequests, bucketsBehind, hseen, h.buckets], fun hpos k t => ?_⟩
    have hclosed : passage.isOpened = false := by
      by_contra hopen
      obtain ⟨replay, hpasses⟩ := hopened (by simpa using hopen)
      simp [rateRequest?, hpasses.body] at hseen
    rw [hrequests, hcountP, openedIn, hclosed]
    exact h.admitted hpos k t
  | some req =>
    have hrequests : stack.rateRequests u (s.flights ++ [⟨r, passage⟩]) =
        stack.rateRequests u s.flights ++ [req] := by
      simp [rateRequests, hseen]
    refine ⟨?_, fun hpos k t => ?_⟩
    · rw [hrequests, RateConfig.run_concat, bucketsBehind, hseen, ← h.buckets]
    · rw [hrequests, RateConfig.run_concat, hcountP, RateConfig.admittedIn_concat, ← h.buckets]
      refine Nat.add_le_add (h.admitted hpos k t) ?_
      by_cases hopen : passage.isOpened = true
      · obtain ⟨replay, hpasses⟩ := hopened hopen
        obtain rfl : stack.rateRequest u r.toRequest = req := by
          simpa [rateRequest?, hpasses.body] using hseen
        exact admittedIn_of_passes hpasses hpos k t passage
      · simp [openedIn, hopen]

lemma Counted.set {s : StackState} (h : stack.Counted u s) {i : ℕ} {f f' : Flight} (m : OpsMetrics)
    (hflight : s.flights[i]? = some f) (hrequest : f'.request = f.request)
    (hopened : f'.passage.isOpened = f.passage.isOpened) :
    stack.Counted u ⟨s.buckets, m, s.flights.set i f'⟩ := by
  have hrequests : stack.rateRequests u (s.flights.set i f') = stack.rateRequests u s.flights := by
    obtain ⟨hlt, rfl⟩ := List.getElem?_eq_some_iff.mp hflight
    have hsame : (s.flights.map Flight.request).set i f'.request = s.flights.map Flight.request := by
      rw [hrequest, ← List.getElem_map Flight.request (h := by simpa using hlt), List.set_getElem_self]
    rw [rateRequests, List.map_set, hsame, rateRequests]
  have hcountP : ∀ k t, (s.flights.set i f').countP (stack.openedIn u k t) =
      s.flights.countP (stack.openedIn u k t) := by
    intro k t
    have hsame : stack.openedIn u k t f' = stack.openedIn u k t f := by
      rw [openedIn, openedIn, hrequest, hopened]
    have hset := List.countP_set_add (stack.openedIn u k t) hflight f'
    rw [hsame] at hset
    exact Nat.add_right_cancel hset
  refine ⟨hrequests ▸ h.buckets, fun hpos k t => ?_⟩
  rw [hrequests, hcountP]
  exact h.admitted hpos k t

lemma counted_run {events : List StackEvent} {s : StackState} (h : stack.run u events = some s) :
    stack.Counted u s := by
  refine Transition.run_invariant _ (P := stack.Counted u) ?_ ?_ h
  · intro s event s' hcounted hstep
    cases event with
    | arrive r uuid t0 t1 =>
      have harrives : stack.Arrives u s r uuid t0 t1 s' :=
        Option.some.inj hstep ▸ arrives_arrive s r uuid t0 t1
      cases harrives with
      | stopped passage hstops =>
        refine hcounted.append _ fun hopen => ?_
        cases hstops <;> cases hopen
      | entered replay hpasses _ => exact hcounted.append _ fun _ => ⟨replay, hpasses⟩
      | forbidden replay hpasses _ => exact hcounted.append _ fun _ => ⟨replay, hpasses⟩
    | respond i start t1 =>
      obtain ⟨r, rid, t0, replay, sent, hflight, rfl⟩ := step_respond hstep
      exact hcounted.set _ hflight rfl rfl
  · exact ⟨rfl, fun _ _ _ => Nat.le_refl 0⟩

/-! ### The metrics -/

end Stack

/-- The status of the first response of a request behind the governor. -/
def Flight.firstStatus? (f : Flight) : Option ℕ :=
  match f.passage with
  | .opened _ _ _ _ sent => sent.head?.map ResponseStart.status
  | _ => none

/-- The requests whose first response has such a status. -/
def countStatus (p : ℕ → Bool) (flights : List Flight) : ℕ := flights.countP fun f => f.firstStatus?.any p

lemma countStatus_concat (p : ℕ → Bool) (flights : List Flight) (f : Flight) :
    countStatus p (flights ++ [f]) = countStatus p flights + (f.firstStatus?.any p).toNat := by
  rw [countStatus, List.countP_append, List.countP_singleton, countStatus]
  cases f.firstStatus?.any p <;> rfl

/-- The metrics agree with what has become of the requests. -/
structure Accounts (m : OpsMetrics) (flights : List Flight) : Prop where
  requests : m.requestsTotal = countStatus (fun _ => true) flights
  errors : m.errorsTotal = countStatus (fun status => 500 ≤ status) flights
  codes : ∀ status : ℕ,
    m.statusCounts.count (toString status).toList = countStatus (fun s => s = status) flights
  total : m.statusCounts.total = m.requestsTotal
  samples : m.latencySamples.length = min m.requestsTotal maxSamples
  rejections : m.authRejectionsTotal = flights.countP fun f => f.passage.isAuthRefusal

namespace Accounts

variable {m : OpsMetrics} {flights flights' : List Flight}

lemma toString_inj {n n' : ℕ} (h : (toString n).toList = (toString n').toList) : n = n' :=
  decimal_injective (congrArg utf8 (String.toList_inj.mp h))

/-- Nothing is recorded, and no first response comes or goes. -/
lemma same (h : Accounts m flights) (hcount : ∀ p, countStatus p flights' = countStatus p flights)
    (hauth : flights'.countP (fun f => f.passage.isAuthRefusal) =
      flights.countP fun f => f.passage.isAuthRefusal) : Accounts m flights' where
  requests := by rw [hcount, h.requests]
  errors := by rw [hcount, h.errors]
  codes status := by rw [hcount, h.codes]
  total := h.total
  samples := h.samples
  rejections := by rw [hauth, h.rejections]

lemma recordAuthRejection (h : Accounts m flights)
    (hcount : ∀ p, countStatus p flights' = countStatus p flights)
    (hauth : flights'.countP (fun f => f.passage.isAuthRefusal) =
      flights.countP (fun f => f.passage.isAuthRefusal) + 1) :
    Accounts m.recordAuthRejection flights' where
  requests := (h.requests.trans (hcount _).symm :)
  errors := (h.errors.trans (hcount _).symm :)
  codes status := ((h.codes status).trans (hcount _).symm :)
  total := h.total
  samples := h.samples
  rejections := by rw [hauth, ← h.rejections]; rfl

/-- The first response of a request is recorded. -/
lemma recordCompletion (h : Accounts m flights) {status : ℕ} (dtMs : ℚ)
    (hcount : ∀ p, countStatus p flights' = countStatus p flights + (p status).toNat)
    (hauth : flights'.countP (fun f => f.passage.isAuthRefusal) =
      flights.countP fun f => f.passage.isAuthRefusal) :
    Accounts (m.recordCompletion status dtMs) flights' where
  requests := by
    rw [hcount, ← h.requests]
    rfl
  errors := by
    rw [hcount, ← h.errors]
    simp only [OpsMetrics.recordCompletion]
    split_ifs with herror <;> simp [herror]
  codes status' := by
    rw [hcount, ← h.codes, OpsMetrics.recordCompletion, Dict.count_set]
    by_cases heq : status = status'
    · simp [heq]
    · have hcode : (toString status).toList ≠ (toString status').toList := mt toString_inj heq
      rw [if_neg hcode]
      simp [heq]
  total := by
    have htotal := Dict.total_set m.statusCounts (toString status).toList
      (m.statusCounts.count (toString status).toList + 1)
    have hbefore := h.total
    simp only [OpsMetrics.recordCompletion]
    omega
  samples := by
    have hbefore := h.samples
    simp only [OpsMetrics.recordCompletion, List.length_drop, List.length_append, List.length_singleton]
    omega
  rejections := by
    rw [hauth, ← h.rejections]
    rfl

end Accounts

namespace Stack

variable {stack : Stack} {u : UnicodeData}

lemma accounts_arrives {s s' : StackState} {r : HttpRequest} {uuid : UuidHex} {t0 t1 : ℚ}
    (h : Accounts s.metrics s.flights) (harrives : stack.Arrives u s r uuid t0 t1 s') :
    Accounts s'.metrics s'.flights := by
  cases harrives with
  | stopped passage hstops =>
    have hcount : ∀ p, countStatus p (s.flights ++ [⟨r, passage⟩]) = countStatus p s.flights := by
      intro p
      rw [countStatus_concat]
      cases hstops <;> rfl
    cases hrejection : passage.isAuthRefusal with
    | true => exact h.recordAuthRejection hcount (by simp [hrejection])
    | false => exact h.same hcount (by simp [hrejection])
  | entered replay _ _ =>
    exact h.same (fun p => countStatus_concat p _ _) (by simp [Passage.isAuthRefusal])
  | forbidden replay _ _ =>
    exact h.recordCompletion _ (fun p => countStatus_concat p _ _) (by simp [Passage.isAuthRefusal])

lemma accounts_responds {s s' : StackState} {i : ℕ} {start : ResponseStart} {t1 : ℚ}
    (h : Accounts s.metrics s.flights) (hstep : stack.step u s (.respond i start t1) = some s') :
    Accounts s'.metrics s'.flights := by
  obtain ⟨r, rid, t0, replay, sent, hflight, rfl⟩ := step_respond hstep
  set f : Flight := ⟨r, .opened rid t0 replay true sent⟩ with hf
  set f' : Flight := ⟨r, .opened rid t0 replay true (sent ++ [stamp r.path rid start])⟩ with hf'
  have hset : ∀ p, countStatus p (s.flights.set i f') + (f.firstStatus?.any p).toNat =
      countStatus p s.flights + (f'.firstStatus?.any p).toNat :=
    fun p => List.countP_set_add _ hflight f'
  have hauth : (s.flights.set i f').countP (fun f => f.passage.isAuthRefusal) =
      s.flights.countP fun f => f.passage.isAuthRefusal :=
    Nat.add_right_cancel (List.countP_set_add _ hflight f')
  cases sent with
  | nil => exact h.recordCompletion _ (fun p => hset p) hauth
  | cons first sent => exact h.same (fun p => Nat.add_right_cancel (hset p)) hauth

/-! ### Whole runs -/

lemma eq_rateRequest {r : HttpRequest} {req : RateRequest} (h : stack.rateRequest? u r = some req) :
    req = stack.rateRequest u r.toRequest := by
  rw [rateRequest?] at h
  split at h
  · exact (Option.some.inj h).symm
  · cases h

/-- The application is only called for a request whose body is complete and within the limit, reads just
the bytes that have been sent, and has no other origin than an allowed one and, unless its path is
exempt, a configured key where keys are asked for. On the paths that are limited no more requests of a
client get through in any window than its limit, as long as there is a bucket for every client. -/
theorem run_admits {events : List StackEvent} {s : StackState} (h : stack.run u events = some s) :
    (∀ f ∈ s.flights, ∀ rid t0 replay sent, f.passage = .opened rid t0 replay true sent →
      ReadsBody stack.maxUploadBytes f.request.messages replay ∧
      (stack.authEnabled = true → f.request.path ∉ authExemptPaths → stack.Keyed u f.request) ∧
      ∀ origin, f.request.headerText "origin" = some origin → stack.originAllowed origin = true) ∧
    (stack.cfg.Valid → s.flights.Pairwise (fun f f' => f.request.now ≤ f'.request.now) →
      ((s.flights.map fun f => stack.clientKey u f.request.toRequest).toFinset.card : ℤ) ≤
        stack.cfg.hardCap →
      ∀ k t, (s.flights.countP (stack.openedIn u k t) : ℤ) ≤ stack.cfg.limit k) := by
  constructor
  · intro f hf rid t0 replay sent hopened
    obtain ⟨i, hi⟩ := List.mem_iff_getElem?.mp hf
    have hsound := (tracked_run h).sound i f hi
    simp only [Sound, hopened] at hsound
    obtain ⟨⟨hbody, hauth, horigin⟩, -⟩ := hsound
    refine ⟨(of_invoked hbody).2, keyed_of_authResponse hauth, fun origin hgiven => ?_⟩
    simpa [originOk, hgiven] using horigin.symm
  · intro hcfg hsorted hfew k t
    have hcounted := (counted_run h).admitted hcfg.perMin k t
    set requests := stack.rateRequests u s.flights with hrequests
    have htimes : requests.Pairwise fun a b => a.now ≤ b.now := by
      rw [hrequests, rateRequests, List.pairwise_filterMap, List.pairwise_map]
      refine hsorted.imp fun hle req hreq req' hreq' => ?_
      rwa [eq_rateRequest hreq, eq_rateRequest hreq']
    have hkeys : (requests.map stack.cfg.clientKey).toFinset ⊆
        (s.flights.map fun f => stack.clientKey u f.request.toRequest).toFinset := by
      intro key hkey
      obtain ⟨req, hreq, rfl⟩ := List.mem_map.mp (List.mem_toFinset.mp hkey)
      obtain ⟨r, hr, hseen⟩ := List.mem_filterMap.mp hreq
      obtain ⟨f, hf, rfl⟩ := List.mem_map.mp hr
      rw [eq_rateRequest hseen]
      exact List.mem_toFinset.mpr (List.mem_map_of_mem hf)
    have hnone := RateConfig.evicted_run hcfg htimes
      ((Int.ofNat_le.mpr (Finset.card_le_card hkeys)).trans hfew)
    have hevictions : RateRecord.evictionsIn k t (stack.cfg.run requests).2 = 0 := by
      rw [RateRecord.evictionsIn, List.countP_eq_zero]
      intro r hr
      simp [hnone r hr]
    obtain ⟨now, hnow⟩ : ∃ now, ∀ req ∈ requests, req.now ≤ now := RateConfig.exists_last htimes
    have htotal := (RateConfig.bounded_run hcfg htimes k t hnow).total
    rw [hevictions] at htotal
    calc (s.flights.countP (stack.openedIn u k t) : ℤ)
        ≤ RateRecord.admittedIn k t (stack.cfg.run requests).2 := Int.ofNat_le.mpr hcounted
      _ ≤ stack.cfg.limit k := by simpa using htotal

lemma valuesOf_eq_nil {name : Str} {headers : ResponseHeaders} (h : name ∉ headers.map Prod.fst) :
    valuesOf name headers = [] := by
  rw [valuesOf, List.map_eq_nil_iff, List.filter_eq_nil_iff]
  intro entry hentry
  rw [decide_eq_true_eq]
  rintro rfl
  exact h (List.mem_map_of_mem hentry)

/-- A refusal carries neither an id nor a security header. -/
lemma Refuses.unstamped {r : HttpRequest} {gate : Gate} {start : ResponseStart}
    (h : Refuses r gate start) {path name : Str} (hname : name ∈ stampedNames path) :
    valuesOf name start.headers = [] := by
  apply valuesOf_eq_nil
  have hnames : ∀ name ∈ start.headers.map Prod.fst, name ∈
      ["retry-after", "www-authenticate", "content-length", "content-type"].map String.toList := by
    cases h <;> simp [jsonStart]
  intro hmem
  have hdisjoint : ∀ name ∈ stampedNames path, name ∉
      ["retry-after", "www-authenticate", "content-length", "content-type"].map String.toList := by
    rw [stampedNames, securityHeaders]
    split_ifs <;> decide
  exact hdisjoint name hname (hnames name hmem)

/-- What the application of a request starts goes out in order, each response once, with the id of the
request and the security headers, and so does the refusal of an origin. The id is fit for a log, and it
is the client's own if that is. Where another gate refuses the request, the application starts nothing,
and the refusal carries none of these headers. -/
theorem run_responds {events : List StackEvent} {s : StackState} (h : stack.run u events = some s)
    {i : ℕ} {f : Flight} (hf : s.flights[i]? = some f) :
    (∀ rid t0 replay entered sent, f.passage = .opened rid t0 replay entered sent →
      List.Forall₂ (Carries f.request.path rid)
        (if entered then startedBy events i else [forbidden]) sent ∧
      PlainId rid ∧
      ∀ given, (f.request.headerText "x-request-id").map Str.strip = some given → PlainId given →
        rid = given) ∧
    ∀ gate start, f.passage = .refused gate start → startedBy events i = [] ∧
      Refuses f.request gate start ∧
      ∀ name ∈ stampedNames f.request.path, valuesOf name start.headers = [] := by
  have hsound := (tracked_run h).sound i f hf
  constructor
  · intro rid t0 replay entered sent hopened
    simp only [Sound, hopened] at hsound
    obtain ⟨-, ⟨uuid, rfl⟩, rfl⟩ := hsound
    refine ⟨?_, plain_requestId uuid _, fun given hgiven hplain => requestId_of_plain hplain hgiven⟩
    rw [List.forall₂_map_right_iff, List.forall₂_same]
    exact fun start _ => carries_stamp _ _ start
  · intro gate start hrefused
    simp only [Sound, hrefused] at hsound
    obtain ⟨hstops, hnone⟩ := hsound
    cases hstops with
    | refused hrefuses => exact ⟨hnone, hrefuses, fun name hname => hrefuses.unstamped hname⟩

/-- In whatever order requests arrive and applications respond, the counters are exact: the requests, the
errors and the counts of the status codes are those of the first responses behind the governor, each
request once, and the rejections those of the key gate. -/
theorem run_accounts {events : List StackEvent} {s : StackState} (h : stack.run u events = some s) :
    Accounts s.metrics s.flights := by
  refine Transition.run_invariant _ (P := fun s => Accounts s.metrics s.flights) ?_ ?_ h
  · intro s event s' haccounts hstep
    cases event with
    | arrive r uuid t0 t1 =>
      exact accounts_arrives haccounts (Option.some.inj hstep ▸ arrives_arrive s r uuid t0 t1)
    | respond i start t1 => exact accounts_responds haccounts hstep
  · exact ⟨rfl, rfl, fun _ => rfl, rfl, rfl, rfl⟩

namespace Sample

/-- A server with one key, for two applications of at most 16 bytes. -/
def keyedStack : Stack where
  cfg := { perMin := 300, perMinAuth := 3000, highWater := 500, hardCapSetting := 5000,
           trustProxy := false }
  apiKeys := "0123456789abcdef".toList
  requireAuth := true
  maxUploadBytes := 16
  originAllowed := fun origin => origin = "http://localhost".toList

lemma mem_hexDigits : 'a' ∈ "0123456789abcdef".toList := by
  have helem : "0123456789abcdef".toList.elem 'a' = true := by decide
  exact List.elem_iff.mp helem

def uuid : UuidHex :=
  ⟨List.replicate 32 'a', rfl, fun c hc => by rw [List.eq_of_mem_replicate hc]; exact mem_hexDigits⟩

/-- A request with a key and a body of two messages. -/
def keyedRequest : HttpRequest where
  path := "/demo".toList
  headers := [(utf8 "x-api-key", utf8 "0123456789abcdef"), (utf8 "x-request-id", utf8 "run-1")]
  client := some "10.0.0.1".toList
  messages := [⟨"http.request", some [1, 2], some true⟩, ⟨"http.request", some [3], none⟩]

/-- A request without a key. -/
def unkeyedRequest : HttpRequest where
  path := "/demo".toList
  client := some "10.0.0.2".toList
  messages := [⟨"http.request", none, none⟩]
  now := 1

def stackEvents : List StackEvent :=
  [.arrive keyedRequest uuid 0 0, .arrive unkeyedRequest uuid 1 1,
    .respond 0 ⟨200, [("x-request-id".toList, "other".toList)]⟩ 2]

/-- The id of an opened request, and whether its application was called. -/
def entry? (f : Flight) : Option (Str × Bool) :=
  match f.passage with
  | .opened rid _ _ entered _ => some (rid, entered)
  | _ => none

lemma exists_of_entry? {f : Flight} {rid : Str} {entered : Bool} (h : entry? f = some (rid, entered)) :
    ∃ t0 replay sent, f.passage = .opened rid t0 replay entered sent := by
  unfold entry? at h
  split at h
  · rename_i rid' t0 replay entered' sent hpassage
    simp only [Option.some.injEq, Prod.mk.injEq] at h
    obtain ⟨rfl, rfl⟩ := h
    exact ⟨t0, replay, sent, hpassage⟩
  · cases h

/-- What the events lead to, each value of it computed. -/
lemma run_stackEvents : ∃ s, keyedStack.run asciiData stackEvents = some s ∧
    (s.flights.map fun f => (f.passage.isOpened, f.request.now)) = [(true, 0), (false, 1)] ∧
    s.flights[0]?.bind entry? = some ("run-1".toList, true) ∧
    s.metrics.requestsTotal = 1 ∧ s.metrics.authRejectionsTotal = 1 := by
  have h : (keyedStack.run asciiData stackEvents).map (fun s =>
      (s.flights.map fun f => (f.passage.isOpened, f.request.now), s.flights[0]?.bind entry?,
        s.metrics.requestsTotal, s.metrics.authRejectionsTotal)) =
      some ([(true, 0), (false, 1)], some ("run-1".toList, true), 1, 1) := by
    decide +kernel
  obtain ⟨s, hs, heq⟩ := Option.map_eq_some_iff.mp h
  simp only [Prod.mk.injEq] at heq
  exact ⟨s, hs, heq⟩

theorem run_admits_stackEvents : ∃ s, keyedStack.run asciiData stackEvents = some s ∧
    (∀ f ∈ s.flights, ∀ rid t0 replay sent, f.passage = .opened rid t0 replay true sent →
      ReadsBody 16 f.request.messages replay ∧
        (f.request.path ∉ authExemptPaths → keyedStack.Keyed asciiData f.request)) ∧
    ∀ t, (s.flights.countP (keyedStack.openedIn asciiData "tenant:9f9f5111f7b2".toList t) : ℤ) ≤ 3000 := by
  obtain ⟨s, hs, hflights, -⟩ := run_stackEvents
  have hlength : s.flights.length = 2 := by simpa using congrArg List.length hflights
  have hsorted : s.flights.Pairwise fun f f' => f.request.now ≤ f'.request.now := by
    have hnow : (s.flights.map fun f => (f.passage.isOpened, f.request.now)).Pairwise
        fun a b => a.2 ≤ b.2 := by
      rw [hflights]
      decide +kernel
    rwa [List.pairwise_map] at hnow
  have hfew : ((s.flights.map fun f => keyedStack.clientKey asciiData f.request.toRequest).toFinset.card : ℤ)
      ≤ keyedStack.cfg.hardCap := by
    have hcard := List.toFinset_card_le
      (s.flights.map fun f => keyedStack.clientKey asciiData f.request.toRequest)
    rw [List.length_map, hlength] at hcard
    exact (Int.ofNat_le.mpr hcard).trans (by decide)
  have hlimit : keyedStack.cfg.limit "tenant:9f9f5111f7b2".toList = 3000 := by decide +kernel
  obtain ⟨hopened, hrate⟩ := run_admits hs
  refine ⟨s, hs, fun f hf rid t0 replay sent hpassage => ?_, fun t => ?_⟩
  · obtain ⟨hbody, hkeyed, -⟩ := hopened f hf rid t0 replay sent hpassage
    exact ⟨hbody, hkeyed (by decide)⟩
  · rw [← hlimit]
    exact hrate ⟨by decide, by decide, by decide⟩ hsorted hfew _ t

/-- The application's own id gives way to that of the request. -/
theorem run_responds_stackEvents : ∃ s f t0 replay sent, keyedStack.run asciiData stackEvents = some s ∧
    s.flights[0]? = some f ∧ f.passage = .opened "run-1".toList t0 replay true sent ∧
    List.Forall₂ (Carries f.request.path "run-1".toList)
      [⟨200, [("x-request-id".toList, "other".toList)]⟩] sent := by
  obtain ⟨s, hs, -, hentries, -⟩ := run_stackEvents
  obtain ⟨f, hf, hentry⟩ := Option.bind_eq_some_iff.mp hentries
  obtain ⟨t0, replay, sent, hpassage⟩ := exists_of_entry? hentry
  exact ⟨s, f, t0, replay, sent, hs, hf, hpassage, ((run_responds hs hf).1 _ _ _ _ _ hpassage).1⟩

theorem run_accounts_stackEvents : ∃ s, keyedStack.run asciiData stackEvents = some s ∧
    s.metrics.requestsTotal = 1 ∧ s.metrics.authRejectionsTotal = 1 ∧ Accounts s.metrics s.flights := by
  obtain ⟨s, hs, -, -, hrequests, hrejections⟩ := run_stackEvents
  exact ⟨s, hs, hrequests, hrejections, run_accounts hs⟩

end Sample

end Stack

end AxiomGrid.Overlay
