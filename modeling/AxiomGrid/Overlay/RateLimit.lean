import AxiomGrid.Lib.Dict
import AxiomGrid.Lib.PyStr
import Mathlib.Data.List.Sort
import Mathlib.Data.Rat.Floor

/-!
# The rate limit of the overlay server

`_client_key` and `_rate_limit_response` of `overlay/server.py`: a sliding window of 60 seconds for
each client, kept in buckets whose number is bounded by a hard cap. The critical section of the lock
is one step. Times are exact, and `int(cap * 0.9)` is nine tenths of the cap, rounded down.
-/

namespace AxiomGrid.Overlay

/-- The settings the limiter reads from the environment. -/
structure RateConfig where
  perMin : ℤ
  perMinAuth : ℤ
  highWater : ℤ
  hardCapSetting : ℤ
  trustProxy : Bool

/-- What the limiter reads of a request; `tenant` is the answer of `_authenticate`. -/
structure RateRequest where
  path : Str
  tenant : Option Str
  forwardedFor : Option Str
  client : Option Str
  now : ℚ

/-- The buckets, by client key. -/
abbrev Buckets := Dict Str (List ℚ)

inductive RateOutcome where
  | exempt
  | admitted
  /-- 429, with the value of `Retry-After`. -/
  | tooMany (retryAfter : ℤ)
  /-- `bucket[0]` of an empty bucket. -/
  | indexError
  deriving DecidableEq

def exemptPaths : List Str :=
  ["/healthz", "/api/health", "/livez", "/readyz", "/metrics"].map String.toList

def tenantMark : Str := "tenant:".toList

/-- The window, in seconds. -/
def rateWindow : ℚ := 60

namespace RateConfig

variable (cfg : RateConfig)

def hardCap : ℤ := max cfg.highWater cfg.hardCapSetting

/-- `x-forwarded-for` names a client when the proxy is trusted. -/
def forwardedKey (req : RateRequest) : Option Str :=
  if cfg.trustProxy then
    req.forwardedFor.bind fun fwd =>
      let first := Str.strip (fwd.takeWhile (· ≠ ','))
      if first ≠ [] ∧ first.length ≤ 64 then some first else none
  else none

def clientKey (req : RateRequest) : Str :=
  match req.tenant with
  | some (c :: tenant) => tenantMark ++ c :: tenant
  | _ => (cfg.forwardedKey req).getD (req.client.getD "unknown".toList)

def limit (key : Str) : ℤ := if tenantMark.isPrefixOf key then cfg.perMinAuth else cfg.perMin

/-- A bucket without a time in the window. -/
def isStale (cutoff : ℚ) (values : List ℚ) : Bool :=
  match values.getLast? with
  | none => true
  | some last => last < cutoff

/-- Above the high water mark, stale buckets go. -/
def prune (cutoff : ℚ) (buckets : Buckets) : Buckets :=
  if cfg.highWater < buckets.length then
    buckets.filter fun bucket => !isStale cutoff bucket.2
  else buckets

/-- The sort key of a bucket: its last time. -/
def lastSeen (bucket : Str × List ℚ) : ℚ := bucket.2.getLast?.getD 0

/-- The buckets that go to make room: those least recently used, down to nine tenths of the cap. -/
def victims (buckets : Buckets) : Buckets :=
  (buckets.insertionSort fun a b => lastSeen a ≤ lastSeen b).take
    (buckets.length - cfg.hardCap * 9 / 10).toNat

/-- The keys whose buckets the hard cap evicts when `key` asks. -/
def evicted (key : Str) (buckets : Buckets) : List Str :=
  if cfg.hardCap ≤ buckets.length ∧ key ∉ buckets.map Prod.fst then
    (cfg.victims buckets).map Prod.fst
  else []

def evict (key : Str) (buckets : Buckets) : Buckets :=
  buckets.filter fun bucket => bucket.1 ∉ cfg.evicted key buckets

/-- `int`, towards zero. -/
def truncate (x : ℚ) : ℤ := if 0 ≤ x then ⌊x⌋ else ⌈x⌉

/-- The own bucket of a client: old times expire, and the request is counted or refused. -/
def count (key : Str) (now : ℚ) (bucket : List ℚ) : RateOutcome × List ℚ :=
  let bucket := bucket.dropWhile (· < now - rateWindow)
  if cfg.limit key ≤ bucket.length then
    match bucket with
    | [] => (.indexError, bucket)
    | first :: _ => (.tooMany (max 1 (truncate (rateWindow - (now - first)))), bucket)
  else (.admitted, bucket ++ [now])

/-- The answer, the new buckets, and the keys that have been evicted. -/
def rateLimitResponse (buckets : Buckets) (req : RateRequest) :
    RateOutcome × Buckets × List Str :=
  if req.path ∈ exemptPaths ∨ cfg.perMin ≤ 0 then (.exempt, buckets, [])
  else
    let key := cfg.clientKey req
    let pruned := cfg.prune (req.now - rateWindow) buckets
    let kept := cfg.evict key pruned
    let counted := cfg.count key req.now ((kept.get? key).getD [])
    (counted.1, kept.set key counted.2, cfg.evicted key pruned)

end RateConfig

/-- What has become of a request. -/
structure RateRecord where
  key : Str
  now : ℚ
  outcome : RateOutcome
  evicted : List Str

namespace RateConfig

variable (cfg : RateConfig)

def serve (s : Buckets × List RateRecord) (req : RateRequest) : Buckets × List RateRecord :=
  let response := cfg.rateLimitResponse s.1 req
  (response.2.1, s.2 ++ [⟨cfg.clientKey req, req.now, response.1, response.2.2⟩])

/-- The buckets and the records after some requests. -/
def run (requests : List RateRequest) : Buckets × List RateRecord :=
  requests.foldl cfg.serve ([], [])

end RateConfig

namespace RateRecord

/-- The closed window that begins at `t`. -/
def inWindow (t : ℚ) (r : RateRecord) : Bool := t ≤ r.now && r.now ≤ t + rateWindow

/-- The requests of a key admitted in a window. -/
def admittedIn (key : Str) (t : ℚ) (records : List RateRecord) : ℕ :=
  records.countP fun r => r.inWindow t && r.key = key && r.outcome = .admitted

/-- The evictions of the bucket of a key in a window. -/
def evictionsIn (key : Str) (t : ℚ) (records : List RateRecord) : ℕ :=
  records.countP fun r => r.inWindow t && key ∈ r.evicted

end RateRecord

/-! ## One bucket -/

namespace RateConfig

variable {cfg : RateConfig}

/-- The times of a bucket from `t` on. -/
def since (t : ℚ) (values : List ℚ) : ℕ := values.countP fun v => decide (t ≤ v)

lemma since_le (t : ℚ) (values : List ℚ) : since t values ≤ values.length := List.countP_le_length

lemma since_eq_zero {t : ℚ} {values : List ℚ} (h : ∀ v ∈ values, v < t) : since t values = 0 := by
  rw [since, List.countP_eq_zero]
  intro v hv
  simpa using h v hv

/-- Times before the window may expire. -/
lemma since_dropWhile {t cutoff : ℚ} (h : cutoff ≤ t) (values : List ℚ) :
    since t (values.dropWhile (· < cutoff)) = since t values := by
  have hsplit : values.takeWhile (· < cutoff) ++ values.dropWhile (· < cutoff) = values :=
    List.takeWhile_append_dropWhile
  have hzero : since t (values.takeWhile (· < cutoff)) = 0 := by
    apply since_eq_zero
    intro v hv
    have hlt := List.mem_takeWhile_imp hv
    exact (of_decide_eq_true hlt).trans_le h
  calc since t (values.dropWhile (· < cutoff))
      = since t (values.takeWhile (· < cutoff)) + since t (values.dropWhile (· < cutoff)) := by
        rw [hzero, Nat.zero_add]
    _ = since t values := by
        rw [since, since, since, ← List.countP_append, hsplit]

/-- A bucket is in order, holds no more than the limit, and nothing later than `now`. -/
structure Fits (cfg : RateConfig) (now : ℚ) (key : Str) (values : List ℚ) : Prop where
  sorted : values.Pairwise (· ≤ ·)
  length : (values.length : ℤ) ≤ cfg.limit key
  le : ∀ v ∈ values, v ≤ now

lemma Fits.mono {now now' : ℚ} {key : Str} {values : List ℚ} (h : cfg.Fits now key values)
    (hle : now ≤ now') : cfg.Fits now' key values where
  sorted := h.sorted
  length := h.length
  le v hv := (h.le v hv).trans hle

lemma Fits.lt_of_isStale {now cutoff : ℚ} {key : Str} {values : List ℚ}
    (h : cfg.Fits now key values) (hstale : isStale cutoff values = true) :
    ∀ v ∈ values, v < cutoff := by
  rcases List.eq_nil_or_concat' values with rfl | ⟨front, last, rfl⟩
  · simp
  · have hlast : last < cutoff := by simpa [isStale] using hstale
    intro v hv
    obtain hv | rfl := List.mem_append.mp hv |>.imp id List.mem_singleton.mp
    · exact ((List.pairwise_append.mp h.sorted).2.2 v hv last (by simp)).trans_lt hlast
    · exact hlast

/-- A client with a full bucket waits. -/
lemma count_cases (cfg : RateConfig) (key : Str) (now : ℚ) (bucket : List ℚ) :
    ((cfg.count key now bucket).1 ≠ .admitted ∧
      (cfg.count key now bucket).2 = bucket.dropWhile (· < now - rateWindow)) ∨
    ((cfg.count key now bucket).1 = .admitted ∧
      ((bucket.dropWhile (· < now - rateWindow)).length : ℤ) < cfg.limit key ∧
      (cfg.count key now bucket).2 = bucket.dropWhile (· < now - rateWindow) ++ [now]) := by
  simp only [count]
  split_ifs with hfull
  · left
    split
    · exact ⟨by simp, rfl⟩
    · exact ⟨by simp, rfl⟩
  · exact .inr ⟨rfl, not_le.mp hfull, rfl⟩

lemma Fits.count {now : ℚ} {key : Str} {bucket : List ℚ} (h : cfg.Fits now key bucket) :
    cfg.Fits now key (cfg.count key now bucket).2 := by
  have hsub : (bucket.dropWhile (· < now - rateWindow)).Sublist bucket :=
    List.dropWhile_sublist _
  rcases count_cases cfg key now bucket with ⟨-, hcount⟩ | ⟨-, hlt, hcount⟩
  · rw [hcount]
    refine ⟨h.sorted.sublist hsub, ?_, fun v hv => h.le v (hsub.subset hv)⟩
    have hlength := h.length
    have := hsub.length_le
    omega
  · rw [hcount]
    refine ⟨?_, ?_, ?_⟩
    · rw [List.pairwise_append]
      refine ⟨h.sorted.sublist hsub, List.pairwise_singleton _ _, ?_⟩
      intro v hv w hw
      rw [List.mem_singleton.mp hw]
      exact h.le v (hsub.subset hv)
    · simp only [List.length_append, List.length_singleton, Nat.cast_add, Nat.cast_one]
      omega
    · intro v hv
      obtain hv | rfl := List.mem_append.mp hv |>.imp id List.mem_singleton.mp
      · exact h.le v (hsub.subset hv)
      · exact le_rfl

/-- In a window that is not over, a bucket grows by what is admitted. -/
lemma since_count {now t : ℚ} (h : now ≤ t + rateWindow) (key : Str) (bucket : List ℚ) :
    since t (cfg.count key now bucket).2 = since t bucket +
      (decide (t ≤ now) && decide ((cfg.count key now bucket).1 = .admitted)).toNat := by
  have hcutoff : now - rateWindow ≤ t := by linarith
  rcases count_cases cfg key now bucket with ⟨hrefused, hcount⟩ | ⟨hadmitted, -, hcount⟩
  · rw [hcount, since_dropWhile hcutoff]
    simp [hrefused]
  · have happend : ∀ values, since t (values ++ [now]) = since t values + (decide (t ≤ now)).toNat := by
      intro values
      rw [since, List.countP_append, ← since, List.countP_singleton]
      by_cases ht : t ≤ now <;> simp [ht]
    rw [hcount, happend, since_dropWhile hcutoff, hadmitted]
    simp

/-! ## The map of buckets -/

/-- The bucket of a client, empty when there is none. -/
def bucketOf (buckets : Buckets) (key : Str) : List ℚ := (buckets.get? key).getD []

/-- The buckets at a time: one for each key, each in order and not too long, and not too many. -/
structure Kept (cfg : RateConfig) (now : ℚ) (buckets : Buckets) : Prop where
  nodup : (buckets.map Prod.fst).Nodup
  fits : ∀ bucket ∈ buckets, cfg.Fits now bucket.1 bucket.2
  cap : (buckets.length : ℤ) ≤ cfg.hardCap

section Buckets

variable {now : ℚ} {buckets : Buckets} {key : Str}

lemma Kept.mono (h : cfg.Kept now buckets) {now' : ℚ} (hle : now ≤ now') : cfg.Kept now' buckets where
  nodup := h.nodup
  fits bucket hbucket := (h.fits bucket hbucket).mono hle
  cap := h.cap

lemma Kept.sublist (h : cfg.Kept now buckets) {fewer : Buckets} (hsub : fewer.Sublist buckets) :
    cfg.Kept now fewer where
  nodup := h.nodup.sublist (hsub.map _)
  fits bucket hbucket := h.fits bucket (hsub.subset hbucket)
  cap := (Int.ofNat_le.mpr hsub.length_le).trans h.cap

lemma Kept.fits_bucketOf (h : cfg.Kept now buckets) (hlimit : 0 ≤ cfg.limit key) :
    cfg.Fits now key (bucketOf buckets key) := by
  rw [bucketOf]
  cases hget : buckets.get? key with
  | none => exact ⟨List.Pairwise.nil, hlimit, by simp⟩
  | some values => exact h.fits _ (Dict.mem_of_get? hget)

lemma prune_sublist (cfg : RateConfig) (cutoff : ℚ) (buckets : Buckets) :
    (cfg.prune cutoff buckets).Sublist buckets := by
  rw [prune]
  split_ifs
  · exact List.filter_sublist
  · exact List.Sublist.refl buckets

/-- Pruning loses no time of a window that is not over. -/
lemma Kept.since_prune (h : cfg.Kept now buckets) {t cutoff : ℚ} (hcutoff : cutoff ≤ t) (key : Str) :
    since t (bucketOf (cfg.prune cutoff buckets) key) = since t (bucketOf buckets key) := by
  rw [prune]
  split_ifs
  · rw [bucketOf, bucketOf, Dict.get?_filter h.nodup]
    cases hget : buckets.get? key with
    | none => rfl
    | some values =>
      have hfits := h.fits _ (Dict.mem_of_get? hget)
      cases hstale : isStale cutoff values with
      | false => simp [Option.filter_some, hstale]
      | true =>
        have hzero : since t values = 0 := since_eq_zero fun v hv =>
          (hfits.lt_of_isStale hstale v hv).trans_le hcutoff
        have hnil : since t [] = 0 := rfl
        simp [Option.filter_some, hstale, hzero, hnil]
  · rfl

lemma evict_sublist (cfg : RateConfig) (key : Str) (buckets : Buckets) :
    (cfg.evict key buckets).Sublist buckets :=
  List.filter_sublist

lemma Kept.bucketOf_evict (h : cfg.Kept now buckets) (key k : Str) :
    bucketOf (cfg.evict key buckets) k =
      if k ∈ cfg.evicted key buckets then [] else bucketOf buckets k := by
  rw [bucketOf, bucketOf, evict, Dict.get?_filter h.nodup]
  cases buckets.get? k with
  | none => simp
  | some values => by_cases hk : k ∈ cfg.evicted key buckets <;> simp [Option.filter_some, hk]

/-- An eviction leaves nine tenths of the cap. -/
lemma length_evict (hcap : 0 ≤ cfg.hardCap) (hfull : cfg.hardCap ≤ buckets.length)
    (hkey : key ∉ buckets.map Prod.fst) :
    ((cfg.evict key buckets).length : ℤ) ≤ cfg.hardCap * 9 / 10 := by
  have hperm : (buckets.insertionSort fun a b => lastSeen a ≤ lastSeen b).Perm buckets :=
    List.perm_insertionSort _ _
  have hvictims : ∀ bucket ∈ cfg.victims buckets, bucket.1 ∈ cfg.evicted key buckets := by
    intro bucket hbucket
    rw [evicted, if_pos ⟨hfull, hkey⟩]
    exact List.mem_map_of_mem hbucket
  have hnone : (cfg.victims buckets).filter (fun b => decide (b.1 ∉ cfg.evicted key buckets)) = [] := by
    rw [List.filter_eq_nil_iff]
    intro bucket hbucket
    simpa using hvictims bucket hbucket
  have hrest : (cfg.evict key buckets).length ≤
      buckets.length - (buckets.length - cfg.hardCap * 9 / 10).toNat := by
    rw [evict, ← (hperm.filter _).length_eq,
      ← List.take_append_drop (buckets.length - cfg.hardCap * 9 / 10).toNat
        (buckets.insertionSort fun a b => lastSeen a ≤ lastSeen b),
      List.filter_append, ← victims, hnone, List.nil_append]
    refine (List.length_filter_le _ _).trans ?_
    rw [List.length_drop, List.length_insertionSort]
  omega

end Buckets

/-! ## One request -/

/-- What the claims about the limiter assume of the settings. -/
structure Valid (cfg : RateConfig) : Prop where
  perMin : 0 < cfg.perMin
  perMinAuth : 0 < cfg.perMinAuth
  hardCap : 1 ≤ cfg.hardCap

lemma Valid.limit_pos (hcfg : cfg.Valid) (key : Str) : 0 < cfg.limit key := by
  rw [limit]
  split_ifs
  · exact hcfg.perMinAuth
  · exact hcfg.perMin

section Request

variable {now : ℚ} {buckets : Buckets} {req : RateRequest}

lemma Kept.set (h : cfg.Kept now buckets) {key : Str} {values : List ℚ}
    (hfits : cfg.Fits now key values)
    (hroom : key ∈ buckets.map Prod.fst ∨ (buckets.length : ℤ) < cfg.hardCap) :
    cfg.Kept now (buckets.set key values) where
  nodup := Dict.nodup_set h.nodup key values
  fits := by
    intro bucket hbucket
    obtain rfl | hbucket := Dict.mem_set hbucket
    · exact hfits
    · exact h.fits bucket hbucket
  cap := by
    have hlength : (buckets.set key values).length =
        ((buckets.set key values).map Prod.fst).length := by simp
    have hcap := h.cap
    by_cases hkey : key ∈ buckets.map Prod.fst
    · rw [hlength, Dict.map_fst_set_of_mem hkey, List.length_map]
      exact hcap
    · rw [hlength, Dict.map_fst_set_of_not_mem hkey]
      have hlt := hroom.resolve_left hkey
      simp only [List.length_append, List.length_map, List.length_singleton, Nat.cast_add,
        Nat.cast_one]
      omega

/-- There is room for a new bucket behind an eviction. -/
lemma Kept.room (h : cfg.Kept now buckets) (hcap : 1 ≤ cfg.hardCap) (key : Str) :
    key ∈ (cfg.evict key buckets).map Prod.fst ∨
      ((cfg.evict key buckets).length : ℤ) < cfg.hardCap := by
  by_cases hevicts : cfg.hardCap ≤ buckets.length ∧ key ∉ buckets.map Prod.fst
  · have hlength := length_evict (by omega) hevicts.1 hevicts.2
    omega
  · have hnone : cfg.evicted key buckets = [] := if_neg hevicts
    have hall : cfg.evict key buckets = buckets := by simp [evict, hnone]
    rw [hall]
    by_cases hkey : key ∈ buckets.map Prod.fst
    · exact .inl hkey
    · have := h.cap
      right
      by_contra hfull
      exact hevicts ⟨by omega, hkey⟩

lemma Kept.rateLimitResponse (hcfg : cfg.Valid) (h : cfg.Kept now buckets) (hle : now ≤ req.now) :
    cfg.Kept req.now (cfg.rateLimitResponse buckets req).2.1 := by
  rw [RateConfig.rateLimitResponse]
  split_ifs
  · exact h.mono hle
  · have hpruned := (h.mono hle).sublist (prune_sublist cfg (req.now - rateWindow) buckets)
    have hkept := hpruned.sublist (evict_sublist cfg (cfg.clientKey req) _)
    exact hkept.set (hkept.fits_bucketOf (hcfg.limit_pos _).le).count
      (hpruned.room hcfg.hardCap _)

lemma evicted_subset {key k : Str} (hk : k ∈ cfg.evicted key buckets) :
    k ≠ key ∧ k ∈ buckets.map Prod.fst := by
  rw [evicted] at hk
  split_ifs at hk with hevicts
  · obtain ⟨bucket, hbucket, rfl⟩ := List.mem_map.mp hk
    have hmem : bucket.1 ∈ buckets.map Prod.fst :=
      List.mem_map_of_mem ((List.mem_insertionSort _).mp (List.mem_of_mem_take hbucket))
    exact ⟨fun heq => hevicts.2 (heq ▸ hmem), hmem⟩
  · cases hk

/-- The record of a request. -/
def record (cfg : RateConfig) (buckets : Buckets) (req : RateRequest) : RateRecord where
  key := cfg.clientKey req
  now := req.now
  outcome := (cfg.rateLimitResponse buckets req).1
  evicted := (cfg.rateLimitResponse buckets req).2.2

/-- Before the window begins its count is empty, and later it is within the limit. -/
lemma Kept.since_le_limit (h : cfg.Kept now buckets) (hcfg : cfg.Valid) (t : ℚ) (k : Str) :
    (since t (bucketOf buckets k) : ℤ) ≤ if t ≤ now then cfg.limit k else 0 := by
  have hfits := h.fits_bucketOf (hcfg.limit_pos k).le
  split_ifs with ht
  · exact (Int.ofNat_le.mpr (since_le t _)).trans hfits.length
  · rw [since_eq_zero fun v hv => (hfits.le v hv).trans_lt (not_le.mp ht)]
    exact le_rfl

lemma Kept.since_set_count (h : cfg.Kept now buckets) {key k : Str}
    (hk : k ∉ cfg.evicted key buckets) {t : ℚ} (ht : now ≤ t + rateWindow) :
    since t (bucketOf ((cfg.evict key buckets).set key
        (cfg.count key now (((cfg.evict key buckets).get? key).getD [])).2) k) =
      since t (bucketOf buckets k) + (decide (t ≤ now) && decide (key = k) &&
        decide ((cfg.count key now (((cfg.evict key buckets).get? key).getD [])).1 =
          .admitted)).toNat := by
  have hsame : bucketOf (cfg.evict key buckets) k = bucketOf buckets k := by
    rw [h.bucketOf_evict, if_neg hk]
  rw [bucketOf, Dict.get?_set]
  split_ifs with hkey
  · subst hkey
    rw [Option.getD_some, since_count ht, ← bucketOf, hsame]
    simp
  · rw [← bucketOf, hsame]
    simp [hkey]

/-- In a window that is not over, what a client has admitted is in its bucket, unless the bucket is
evicted, which takes away no more than the limit. -/
lemma Kept.window_step (hcfg : cfg.Valid) (h : cfg.Kept now buckets) (hle : now ≤ req.now)
    {t : ℚ} (ht : req.now ≤ t + rateWindow) (k : Str) :
    (since t (bucketOf buckets k) : ℤ) + RateRecord.admittedIn k t [cfg.record buckets req] ≤
      cfg.limit k * RateRecord.evictionsIn k t [cfg.record buckets req] +
        since t (bucketOf (cfg.rateLimitResponse buckets req).2.1 k) := by
  simp only [RateRecord.admittedIn, RateRecord.evictionsIn, List.countP_singleton, record,
    RateRecord.inWindow, ht, decide_true, Bool.and_true]
  by_cases hexempt : req.path ∈ exemptPaths ∨ cfg.perMin ≤ 0
  · simp [RateConfig.rateLimitResponse, hexempt]
  · simp only [RateConfig.rateLimitResponse, hexempt, if_false]
    have hbuckets := h.mono hle
    have hpruned := hbuckets.sublist (prune_sublist cfg (req.now - rateWindow) buckets)
    rw [← hbuckets.since_prune (by linarith : req.now - rateWindow ≤ t) k]
    by_cases hevicted : k ∈ cfg.evicted (cfg.clientKey req) (cfg.prune (req.now - rateWindow) buckets)
    · have hne : cfg.clientKey req ≠ k := (evicted_subset hevicted).1.symm
      have hle := hpruned.since_le_limit hcfg t k
      simp only [hne, hevicted, decide_false, decide_true, Bool.and_false, Bool.false_and,
        Bool.and_true, decide_eq_true_eq, Bool.false_eq_true, if_false, Nat.cast_zero, add_zero]
      by_cases hbegun : t ≤ req.now
      · rw [if_pos hbegun] at hle
        rw [if_pos hbegun, Nat.cast_one, mul_one]
        omega
      · rw [if_neg hbegun] at hle
        rw [if_neg hbegun, Nat.cast_zero, mul_zero]
        omega
    · have hgrow := hpruned.since_set_count hevicted ht
      simp only [hevicted, decide_false, Bool.and_false]
      rw [hgrow]
      simp [Bool.toNat, Bool.cond_eq_ite]

end Request

/-! ## Every sequence of requests -/

section Run

variable (cfg) in
lemma run_concat (requests : List RateRequest) (req : RateRequest) :
    cfg.run (requests ++ [req]) =
      ((cfg.rateLimitResponse (cfg.run requests).1 req).2.1,
        (cfg.run requests).2 ++ [cfg.record (cfg.run requests).1 req]) := by
  rw [run, List.foldl_append]
  rfl

lemma admittedIn_concat (k : Str) (t : ℚ) (records : List RateRecord) (r : RateRecord) :
    RateRecord.admittedIn k t (records ++ [r]) =
      RateRecord.admittedIn k t records + RateRecord.admittedIn k t [r] :=
  List.countP_append

lemma evictionsIn_concat (k : Str) (t : ℚ) (records : List RateRecord) (r : RateRecord) :
    RateRecord.evictionsIn k t (records ++ [r]) =
      RateRecord.evictionsIn k t records + RateRecord.evictionsIn k t [r] :=
  List.countP_append

/-- The state after some requests, at a time that none of them is after. -/
structure Bounded (cfg : RateConfig) (k : Str) (t now : ℚ) (s : Buckets × List RateRecord) :
    Prop where
  kept : cfg.Kept now s.1
  /-- In a window that is not over, the bucket holds what the evictions have not taken away. -/
  live : now ≤ t + rateWindow → (RateRecord.admittedIn k t s.2 : ℤ) ≤
    cfg.limit k * RateRecord.evictionsIn k t s.2 + since t (bucketOf s.1 k)
  total : (RateRecord.admittedIn k t s.2 : ℤ) ≤
    cfg.limit k * (RateRecord.evictionsIn k t s.2 + 1)

lemma not_in_window {k : Str} {t : ℚ} {r : RateRecord} (h : ¬ r.now ≤ t + rateWindow) :
    RateRecord.admittedIn k t [r] = 0 ∧ RateRecord.evictionsIn k t [r] = 0 := by
  simp [RateRecord.admittedIn, RateRecord.evictionsIn, RateRecord.inWindow, h]

lemma Bounded.rateLimitResponse (hcfg : cfg.Valid) {k : Str} {t now : ℚ} {req : RateRequest}
    {s : Buckets × List RateRecord} (hs : cfg.Bounded k t req.now s) (hle : req.now ≤ now) :
    cfg.Bounded k t now ((cfg.rateLimitResponse s.1 req).2.1, s.2 ++ [cfg.record s.1 req]) := by
  have hkept := hs.kept.rateLimitResponse hcfg le_rfl
  have hlive : req.now ≤ t + rateWindow →
      (RateRecord.admittedIn k t (s.2 ++ [cfg.record s.1 req]) : ℤ) ≤
        cfg.limit k * RateRecord.evictionsIn k t (s.2 ++ [cfg.record s.1 req]) +
          since t (bucketOf (cfg.rateLimitResponse s.1 req).2.1 k) := by
    intro ht
    have hbefore := hs.live ht
    have hstep := hs.kept.window_step hcfg le_rfl ht k
    rw [admittedIn_concat, evictionsIn_concat]
    push_cast
    linarith
  refine ⟨hkept.mono hle, fun ht => hlive (hle.trans ht), ?_⟩
  by_cases ht : req.now ≤ t + rateWindow
  · have hfits := hkept.fits_bucketOf (hcfg.limit_pos k).le
    have hsince := (Int.ofNat_le.mpr (since_le t _)).trans hfits.length
    have := hlive ht
    rw [mul_add, mul_one]
    linarith
  · obtain ⟨hadmitted, hevictions⟩ := not_in_window (k := k) (r := cfg.record s.1 req) ht
    rw [admittedIn_concat, evictionsIn_concat, hadmitted, hevictions]
    exact hs.total

lemma bounded_run (hcfg : cfg.Valid) {requests : List RateRequest}
    (hsorted : requests.Pairwise fun a b => a.now ≤ b.now) (k : Str) (t : ℚ) {now : ℚ}
    (hnow : ∀ req ∈ requests, req.now ≤ now) : cfg.Bounded k t now (cfg.run requests) := by
  induction requests using List.reverseRecOn generalizing now with
  | nil =>
    have hcap : (0 : ℤ) ≤ cfg.hardCap := by linarith [hcfg.hardCap]
    refine ⟨⟨List.nodup_nil, by simp [run], hcap⟩, fun _ => ?_, ?_⟩
    · simp [run, RateRecord.admittedIn, RateRecord.evictionsIn]
    · simpa [run, RateRecord.admittedIn, RateRecord.evictionsIn] using (hcfg.limit_pos k).le
  | append_singleton requests req ih =>
    rw [List.pairwise_append] at hsorted
    rw [run_concat]
    apply Bounded.rateLimitResponse hcfg _ (hnow req (by simp))
    exact ih hsorted.1 fun earlier hearlier => hsorted.2.2 earlier hearlier req (by simp)

/-- On any requests in the order of time, the buckets never exceed the hard cap, and in any closed
window a client has no more than its limit admitted for each time its bucket is evicted there, and
once more. -/
theorem rate_limit_respected (hcfg : cfg.Valid) {requests : List RateRequest}
    (hsorted : requests.Pairwise fun a b => a.now ≤ b.now) :
    ((cfg.run requests).1.length : ℤ) ≤ cfg.hardCap ∧
      ∀ (k : Str) (t : ℚ), (RateRecord.admittedIn k t (cfg.run requests).2 : ℤ) ≤
        cfg.limit k * (RateRecord.evictionsIn k t (cfg.run requests).2 + 1) := by
  obtain ⟨now, hnow⟩ : ∃ now, ∀ req ∈ requests, req.now ≤ now := by
    rcases List.eq_nil_or_concat' requests with rfl | ⟨front, last, rfl⟩
    · exact ⟨0, by simp⟩
    · refine ⟨last.now, fun req hreq => ?_⟩
      obtain hreq | rfl := List.mem_append.mp hreq |>.imp id List.mem_singleton.mp
      · exact (List.pairwise_append.mp hsorted).2.2 req hreq last (by simp)
      · exact le_rfl
  exact ⟨(bounded_run hcfg hsorted [] 0 hnow).kept.cap,
    fun k t => (bounded_run hcfg hsorted k t hnow).total⟩

end Run

end RateConfig

namespace Sample

/-- One request a minute and room for one bucket. -/
def smallCap : RateConfig where
  perMin := 1
  perMinAuth := 1
  highWater := 1
  hardCapSetting := 1
  trustProxy := false

lemma smallCap_valid : smallCap.Valid := by
  constructor <;> decide

def request (client : String) (now : ℚ) : RateRequest where
  path := "/api/traces".toList
  tenant := none
  forwardedFor := none
  client := some client.toList
  now := now

/-- A second client evicts the bucket of the first, which asks again. -/
def rotation : List RateRequest := [request "a" 0, request "b" 1, request "a" 2]

lemma rotation_sorted : rotation.Pairwise fun a b => a.now ≤ b.now := by
  decide +kernel

theorem rate_limit_respected_rotation :
    smallCap.Valid ∧ (rotation.Pairwise fun a b => a.now ≤ b.now) ∧
      ((smallCap.run rotation).1.length : ℤ) ≤ smallCap.hardCap ∧
      ∀ (k : Str) (t : ℚ), (RateRecord.admittedIn k t (smallCap.run rotation).2 : ℤ) ≤
        smallCap.limit k * (RateRecord.evictionsIn k t (smallCap.run rotation).2 + 1) :=
  ⟨smallCap_valid, rotation_sorted,
    RateConfig.rate_limit_respected smallCap_valid rotation_sorted⟩

/-- Both requests of the first client are admitted within two seconds. -/
theorem rate_limit_exceeded_rotation :
    ¬ ∀ (cfg : RateConfig), cfg.Valid → ∀ requests : List RateRequest,
      (requests.Pairwise fun a b => a.now ≤ b.now) →
        ((cfg.run requests).1.length : ℤ) ≤ cfg.hardCap ∧ ∀ (k : Str) (t : ℚ),
          (RateRecord.admittedIn k t (cfg.run requests).2 : ℤ) ≤ cfg.limit k := by
  intro h
  have hlimit := (h smallCap smallCap_valid rotation rotation_sorted).2 "a".toList 0
  have hadmitted : RateRecord.admittedIn "a".toList 0 (smallCap.run rotation).2 = 2 := by
    decide +kernel
  rw [hadmitted] at hlimit
  exact absurd hlimit (by decide)

end Sample

end AxiomGrid.Overlay
