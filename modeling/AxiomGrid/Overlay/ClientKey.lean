import AxiomGrid.Lib.Hex
import AxiomGrid.Overlay.RateLimit

/-!
# API keys and client keys

`_authenticate` and `_client_key` of `overlay/server.py`. The key of a client is one text: the tenant of
a valid API key behind the mark `tenant:`, and otherwise the address of the client as it stands. An
address that begins with the mark is taken for a tenant.
-/

namespace AxiomGrid.Overlay

/-- What the gates read of a request. -/
structure Request where
  path : Str := []
  authorization : Option Str := none
  xApiKey : Option Str := none
  forwardedFor : Option Str := none
  client : Option Str := none
  now : ℚ := 0

/-! ### API keys -/

/-- `hashlib.sha256(key.encode("utf-8")).hexdigest()`. -/
def hexdigest (key : Str) : Str := (sha256 (utf8 (String.ofList key))).hex.toList

/-- One entry of `AXIOM_API_KEYS`; short keys are refused. -/
def addKey (digests : Dict Str Str) (key : Str) : Dict Str Str :=
  let key := Str.strip key
  if 16 ≤ key.length then digests.set (hexdigest key) ((hexdigest key).take 12) else digests

/-- `_load_api_key_digests`: the tenants by the digests of their keys. -/
def loadApiKeyDigests (raw : Str) : Dict Str Str := (raw.splitOn ',').foldl addKey []

variable (u : UnicodeData)

/-- The token of an `Authorization` header of the scheme `Bearer`. -/
def bearerToken (auth : Str) : Option Str :=
  let scheme := auth.takeWhile (· ≠ ' ')
  let token := Str.strip (auth.drop (scheme.length + 1))
  if Str.lower u scheme = "bearer".toList ∧ token ≠ [] then some token else none

/-- `_presented_key`. -/
def presentedKey (req : Request) : Option Str :=
  match req.authorization.bind (bearerToken u) with
  | some token => some token
  | none => req.xApiKey.bind fun xk => if Str.strip xk ≠ [] then some (Str.strip xk) else none

/-- `_authenticate`: every digest is compared, and the last match counts. -/
def authenticate (digests : Dict Str Str) (req : Request) : Option Str :=
  match presentedKey u req with
  | none => none
  | some key =>
    digests.foldl (fun found entry => if hexdigest key = entry.1 then some entry.2 else found) none

/-! ### Client keys -/

/-- The gates of the server: the rate limit and the API keys of its environment. -/
structure Gates where
  cfg : RateConfig
  apiKeys : Str

namespace Gates

variable (self : Gates)

def digests : Dict Str Str := loadApiKeyDigests self.apiKeys

/-- The tenant of a request. -/
def tenant (req : Request) : Option Str := authenticate u self.digests req

/-- What the limiter sees of a request. -/
def rateRequest (req : Request) : RateRequest where
  path := req.path
  tenant := self.tenant u req
  forwardedFor := req.forwardedFor
  client := req.client
  now := req.now

/-- `_client_key`. -/
def clientKey (req : Request) : Str := self.cfg.clientKey (self.rateRequest u req)

/-- The address of a client: the first one that a trusted proxy reports, or its own. -/
def address (req : Request) : Str :=
  (self.cfg.forwardedKey (self.rateRequest u req)).getD (req.client.getD "unknown".toList)

variable {u} {self}

/-! ### The key of a tenant -/

lemma length_hexdigest (key : Str) : (hexdigest key).length = 64 := by
  have hbytes : ∀ bs : Bytes, bs.hex.toList.length = 2 * bs.length := by
    intro bs
    rw [Bytes.hex, String.toList_ofList]
    induction bs with
    | nil => rfl
    | cons b bs ih =>
      rw [List.flatMap_cons, List.length_append, ih, List.length_cons]
      simp only [hexByte, List.length_cons, List.length_nil]
      omega
  rw [hexdigest, hbytes, sha256_length]

/-- A tenant is a digest cut to twelve digits. -/
lemma length_of_mem_loadApiKeyDigests {raw : Str} {entry : Str × Str}
    (h : entry ∈ loadApiKeyDigests raw) : entry.2.length = 12 := by
  have hadd : ∀ (digests : Dict Str Str) (key : Str), (∀ entry ∈ digests, entry.2.length = 12) →
      ∀ entry ∈ addKey digests key, entry.2.length = 12 := by
    intro digests key hdigests entry hentry
    simp only [addKey] at hentry
    split_ifs at hentry with hlong
    · rcases Dict.mem_set hentry with rfl | hold
      · rw [List.length_take, length_hexdigest]
        rfl
      · exact hdigests entry hold
    · exact hdigests entry hentry
  have hfold : ∀ (keys : List Str) (digests : Dict Str Str), (∀ entry ∈ digests, entry.2.length = 12) →
      ∀ entry ∈ keys.foldl addKey digests, entry.2.length = 12 := by
    intro keys
    induction keys with
    | nil => exact fun _ hdigests => hdigests
    | cons key keys ih => exact fun digests hdigests => ih _ (hadd digests key hdigests)
  exact hfold _ [] nofun entry h

lemma exists_of_tenant {req : Request} {t : Str} (h : self.tenant u req = some t) :
    ∃ digest, (digest, t) ∈ self.digests := by
  have hfold : ∀ (key : Str) (digests : Dict Str Str) (found : Option Str),
      digests.foldl (fun found entry => if hexdigest key = entry.1 then some entry.2 else found)
        found = some t → found = some t ∨ ∃ digest, (digest, t) ∈ digests := by
    intro key digests
    induction digests with
    | nil => exact fun found h => .inl h
    | cons entry digests ih =>
      intro found h
      rcases ih _ h with hfound | ⟨digest, hmem⟩
      · beta_reduce at hfound
        split_ifs at hfound with hentry
        · obtain rfl := Option.some.inj hfound
          exact .inr ⟨entry.1, List.mem_cons_self⟩
        · exact .inl hfound
      · exact .inr ⟨digest, List.mem_cons_of_mem _ hmem⟩
  rw [tenant, authenticate] at h
  cases hkey : presentedKey u req with
  | none => rw [hkey] at h; cases h
  | some key =>
    rw [hkey] at h
    rcases hfold key self.digests none h with hnone | hmem
    · cases hnone
    · exact hmem

lemma tenant_ne_nil {req : Request} {t : Str} (h : self.tenant u req = some t) : t ≠ [] := by
  obtain ⟨digest, hmem⟩ := exists_of_tenant h
  rintro rfl
  cases length_of_mem_loadApiKeyDigests hmem

lemma clientKey_of_tenant {req : Request} {t : Str} (h : self.tenant u req = some t) :
    self.clientKey u req = tenantMark ++ t := by
  obtain ⟨c, t, rfl⟩ := List.exists_cons_of_ne_nil (tenant_ne_nil h)
  simp only [clientKey, RateConfig.clientKey, rateRequest, h]

lemma clientKey_of_no_tenant {req : Request} (h : self.tenant u req = none) :
    self.clientKey u req = self.address u req := by
  simp only [clientKey, RateConfig.clientKey, address, rateRequest, h]

/-! ### Two kinds of keys -/

variable (u self) in
/-- A request without a valid key whose address reads as the key of the tenant of another request. -/
def Impersonates (req other : Request) : Prop :=
  ∃ t, self.tenant u other = some t ∧ self.tenant u req = none ∧ self.address u req = tenantMark ++ t

/-- A request is in the bucket of a tenant, under the limit of tenants, only as that tenant, unless it
has no valid key and its address begins with the mark. -/
lemma tenant_of_clientKey_iff (req : Request) :
    (∀ t, self.clientKey u req = tenantMark ++ t → self.tenant u req = some t) ↔
      (self.tenant u req = none → ¬ tenantMark <+: self.address u req) := by
  cases htenant : self.tenant u req with
  | none =>
    rw [clientKey_of_no_tenant htenant]
    constructor
    · rintro h - ⟨t, ht⟩
      cases h t ht.symm
    · intro h t ht
      exact absurd ⟨t, ht.symm⟩ (h rfl)
  | some t =>
    rw [clientKey_of_tenant htenant]
    refine iff_of_true ?_ nofun
    intro t' ht'
    rw [List.append_cancel_left ht']

/-- Two requests with one key have one tenant, or none, unless one of them has no valid key and an
address that reads as the key of the other's tenant. -/
lemma tenant_eq_iff (req req' : Request) :
    (self.clientKey u req = self.clientKey u req' → self.tenant u req = self.tenant u req') ↔
      ¬ self.Impersonates u req req' ∧ ¬ self.Impersonates u req' req := by
  cases htenant : self.tenant u req with
  | none =>
    cases htenant' : self.tenant u req' with
    | none => simp [Impersonates, htenant, htenant']
    | some t =>
      rw [clientKey_of_no_tenant htenant, clientKey_of_tenant htenant']
      simp [Impersonates, htenant, htenant']
  | some t =>
    cases htenant' : self.tenant u req' with
    | none =>
      rw [clientKey_of_tenant htenant, clientKey_of_no_tenant htenant', eq_comm]
      simp [Impersonates, htenant, htenant']
    | some t' =>
      rw [clientKey_of_tenant htenant, clientKey_of_tenant htenant', List.append_cancel_left_eq]
      simp [Impersonates, htenant, htenant']

/-- The buckets and the limit of tenants are kept apart from those of addresses exactly for the
requests whose address, when they have no valid key, does not begin with the mark of a tenant. -/
theorem reserved_iff (req req' : Request) :
    ((∀ t, self.clientKey u req = tenantMark ++ t → self.tenant u req = some t) ↔
      (self.tenant u req = none → ¬ tenantMark <+: self.address u req)) ∧
    ((self.clientKey u req = self.clientKey u req' → self.tenant u req = self.tenant u req') ↔
      ¬ self.Impersonates u req req' ∧ ¬ self.Impersonates u req' req) :=
  ⟨tenant_of_clientKey_iff req, tenant_eq_iff req req'⟩

namespace Sample

/-- A server behind a trusted proxy, with one API key. -/
def server : Gates where
  cfg := { perMin := 300, perMinAuth := 3000, highWater := 500, hardCapSetting := 5000,
           trustProxy := true }
  apiKeys := "0123456789abcdef".toList

/-- A request with the API key. -/
def keyed : Request where
  xApiKey := some "0123456789abcdef".toList

/-- A request without a key. -/
def unkeyed : Request where
  forwardedFor := some "tenant:9f9f5111f7b2".toList

end Sample

/-- A forwarded address takes a request without a key into the bucket of a tenant. -/
theorem forwarded_tenant :
    Sample.server.tenant asciiData Sample.keyed = some "9f9f5111f7b2".toList ∧
      Sample.server.tenant asciiData Sample.unkeyed = none ∧
      Sample.server.clientKey asciiData Sample.unkeyed =
        Sample.server.clientKey asciiData Sample.keyed ∧
      Sample.server.cfg.limit (Sample.server.clientKey asciiData Sample.unkeyed) = 3000 := by
  decide +kernel

end Gates

end AxiomGrid.Overlay
