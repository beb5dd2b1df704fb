import AxiomGrid.Lib.Base64
import AxiomGrid.Lib.Ed25519
import AxiomGrid.Lib.JsonText
import AxiomGrid.Lib.Loop

/-!
# Canonical objects and signatures

`canonical`, `sha`, `sign` and `verify_sig` of `kairo/legal_v3/transaction.py`. Keys are dictionaries
with the four texts that `generate_keypair` puts there.
-/

namespace AxiomGrid.Legal

open Json (sortKeys mem_sortKeys)

/-- The members of a JSON object. -/
abbrev Record := List (String × Json)

/-- `record.get(k)`. -/
def Record.get (record : Record) (k : String) : Json := (record.lookup k).getD .null

/-- `record[k]`. -/
def Record.item (record : Record) (k : String) : Except String Json :=
  match record.lookup k with
  | some v => .ok v
  | none => .error ("KeyError: " ++ k)

/-- `{k: v for k, v in record.items() if k not in excluded}`. -/
def Record.without (record : Record) (excluded : List String) : Record :=
  record.filter fun p => p.1 ∉ excluded

/-! ### The canonical text -/

/-- The largest integer that every JSON reader keeps. -/
def maxSafeInteger : ℤ := 9007199254740991

/-- The members, if the walk succeeds on each value. -/
def sequenceMembers : List (String × Except String Json) → Except String Record
  | [] => .ok []
  | (k, v) :: kvs => do
    let v ← v
    let kvs ← sequenceMembers kvs
    return (k, v) :: kvs

mutual

/-- The function `walk` inside `canonical`: members by their keys, no float, no unsafe integer. -/
def walk : Json → Except String Json
  | .float _ => .error "floats forbidden in signed objects"
  | .obj kvs => (sequenceMembers (sortKeys (walkMembers kvs))).map .obj
  | .arr xs => (walkItems xs).map .arr
  | .int n => if maxSafeInteger < n.natAbs then .error "unsafe integer" else .ok (.int n)
  | v => .ok v

def walkItems : List Json → Except String (List Json)
  | [] => .ok []
  | x :: xs => do
    let x ← walk x
    let xs ← walkItems xs
    return x :: xs

def walkMembers : List (String × Json) → List (String × Except String Json)
  | [] => []
  | (k, v) :: kvs => (k, walk v) :: walkMembers kvs

end

/-- `canonical`. -/
def canonical (value : Record) : Except String Bytes :=
  (walk (.obj value)).map fun v => utf8 v.dumps

/-- `sha`. -/
def sha (data : Bytes) : String := (sha256 data).hex

/-- `sha(canonical(record))`. -/
def digest (record : Record) : Except String String := (canonical record).map sha

/-! ### Values that have a canonical text -/

/-- Neither a float nor an unsafe integer occurs in the value. -/
def Signable (v : Json) : Prop := ∃ w, walk v = .ok w

@[simp] lemma signable_str (s : String) : Signable (.str s) := ⟨.str s, rfl⟩

@[simp] lemma signable_null : Signable .null := ⟨.null, rfl⟩

lemma signable_int {n : ℤ} (h : n.natAbs ≤ maxSafeInteger) : Signable (.int n) := by
  refine ⟨.int n, ?_⟩
  rw [walk, if_neg (not_lt.mpr h)]

lemma signable_arr {xs : List Json} (h : ∀ x ∈ xs, Signable x) : Signable (.arr xs) := by
  have hitems : ∃ ys, walkItems xs = .ok ys := by
    induction xs with
    | nil => exact ⟨[], rfl⟩
    | cons x xs ih =>
      obtain ⟨y, hy⟩ := h x List.mem_cons_self
      obtain ⟨ys, hys⟩ := ih fun x hx => h x (List.mem_cons_of_mem _ hx)
      refine ⟨y :: ys, ?_⟩
      simp only [walkItems, hy, hys, Except.ok_bind, Except.pure_eq]
  obtain ⟨ys, hys⟩ := hitems
  refine ⟨.arr ys, ?_⟩
  simp only [walk, hys, Except.map_eq_ok]

lemma walkMembers_eq_map (kvs : Record) : walkMembers kvs = kvs.map fun p => (p.1, walk p.2) := by
  induction kvs with
  | nil => rfl
  | cons p kvs ih => rw [walkMembers, ih, List.map_cons]

lemma signable_obj {kvs : Record} (h : ∀ p ∈ kvs, Signable p.2) : Signable (.obj kvs) := by
  have hmembers : ∀ members : List (String × Except String Json),
      (∀ p ∈ members, ∃ v, p.2 = .ok v) → ∃ record, sequenceMembers members = .ok record := by
    intro members
    induction members with
    | nil =>
      intro _
      exact ⟨[], rfl⟩
    | cons p members ih =>
      intro hok
      obtain ⟨v, hv⟩ := hok p List.mem_cons_self
      obtain ⟨record, hrecord⟩ := ih fun q hq => hok q (List.mem_cons_of_mem p hq)
      refine ⟨(p.1, v) :: record, ?_⟩
      simp only [sequenceMembers, hv, hrecord, Except.ok_bind, Except.pure_eq]
  obtain ⟨record, hrecord⟩ := hmembers (sortKeys (walkMembers kvs)) (by
    intro p hp
    have hp := mem_sortKeys hp
    rw [walkMembers_eq_map, List.mem_map] at hp
    obtain ⟨q, hq, rfl⟩ := hp
    exact h q hq)
  refine ⟨.obj record, ?_⟩
  simp only [walk, hrecord, Except.map_eq_ok]

lemma digest_ok {record : Record} (h : Signable (.obj record)) : ∃ s, digest record = .ok s := by
  obtain ⟨w, hw⟩ := h
  refine ⟨sha (utf8 w.dumps), ?_⟩
  rw [digest, canonical, hw]
  rfl

/-! ### Keys and signatures -/

/-- A key of one of the roles producer, approver and observer. -/
structure Key where
  role : String
  keyId : String
  privateKey : String
  publicKey : String

variable (ed : Ed25519)

/-- `generate_keypair`, with the seed it draws. -/
def generateKeypair (role : String) (seed : Bytes) : Except String Key :=
  if role ∈ ["producer", "approver", "observer"] then
    .ok
      { role
        keyId := String.ofList ((sha (ed.publicKey seed)).toList.take 16)
        privateKey := Base64.encode seed
        publicKey := Base64.encode (ed.publicKey seed) }
  else .error "invalid role"

/-- `sign`. -/
def sign (obj : Record) (key : Key) : Except String String :=
  match Base64.decode? key.privateKey with
  | none => .error "binascii.Error"
  | some seed =>
    if seed.length = 32 then (canonical obj).map fun data => Base64.encode (ed.sign seed data)
    else .error "An Ed25519 private key is 32 bytes long"

/-- `verify_sig`: false whenever something on the way raises. -/
def verifySig (obj : Record) (sig pub : Json) : Bool :=
  match sig, pub, canonical obj with
  | .str sig, .str pub, .ok data =>
    match Base64.decode? pub, Base64.decode? sig with
    | some pub, some sig => ed.verify pub sig data
    | _, _ => false
  | _, _, _ => false

/-- The private and the public text of a key belong together. -/
def KeyPair (key : Key) : Prop :=
  ∃ seed, Base64.decode? key.privateKey = some seed ∧ seed.length = 32 ∧
    Base64.decode? key.publicKey = some (ed.publicKey seed)

variable {ed}

lemma keyPair_generateKeypair {role : String} {seed : Bytes} {key : Key} (hseed : seed.length = 32)
    (h : generateKeypair ed role seed = .ok key) : KeyPair ed key := by
  rw [generateKeypair] at h
  split_ifs at h
  cases h
  exact ⟨seed, Base64.decode?_encode seed, hseed, Base64.decode?_encode _⟩

lemma sign_ok {key : Key} (hkey : KeyPair ed key) {obj : Record} (h : Signable (.obj obj)) :
    ∃ sig, sign ed obj key = .ok sig := by
  obtain ⟨seed, hprivate, hlength, -⟩ := hkey
  obtain ⟨w, hw⟩ := h
  refine ⟨Base64.encode (ed.sign seed (utf8 w.dumps)), ?_⟩
  simp only [sign, hprivate, hlength, if_true, canonical, hw, Except.map_eq_ok]

/-- What a key signs verifies under its public text. -/
lemma verifySig_sign (hcorrect : ed.Correct) {key : Key} (hkey : KeyPair ed key) {obj : Record}
    {sig : String} (h : sign ed obj key = .ok sig) :
    verifySig ed obj (.str sig) (.str key.publicKey) = true := by
  obtain ⟨seed, hprivate, hlength, hpublic⟩ := hkey
  rw [sign, hprivate] at h
  simp only [hlength, if_true] at h
  cases hdata : canonical obj with
  | error e =>
    rw [hdata] at h
    cases h
  | ok data =>
    rw [hdata] at h
    cases h
    simp only [verifySig, hdata, hpublic, Base64.decode?_encode]
    exact hcorrect seed data hlength

end AxiomGrid.Legal
