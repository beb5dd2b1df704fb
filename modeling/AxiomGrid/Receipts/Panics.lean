import AxiomGrid.Lib.RustStr
import AxiomGrid.Receipts.Log

/-!
# Panics of the signature checks

`hex_decode` of `phantom-core/src/identity.rs` cuts its argument into slices of two bytes, and
`u8::from_str_radix` takes a plus sign for a digit. A slice inside a character panics, and with it
`verify_signature`, `JitToken::is_valid` and `ReceiptLog::verify_chain`, which decode texts that
come from a file.

The definitions of this module compute the panics that the receipt log leaves out; where there is
none they return what the receipt log returns. `r.seq + 1` is taken to panic when it overflows, as it
does in the profiles `dev` and `test`.
-/

namespace AxiomGrid.Receipts.Panics

/-! ### The functions with their panics -/

/-- `u8::from_str_radix(text, 16)`; `none` is the error. -/
def fromStrRadix (text : Str) : Option UInt8 :=
  let digits := if text.head? = some '+' then text.tail else text
  if digits = [] then none
  else do
    let values ← digits.mapM hexDigit?
    let n := values.foldl (fun n d => 16 * n + d) 0
    if n < 256 then some (UInt8.ofNat n) else none

/-- The bytes at some offsets, up to the first error; `none` is a panic. -/
def decodeAt (hex : Str) : List ℕ → Option (Except String Bytes)
  | [] => some (.ok [])
  | i :: offsets =>
    match hex.sliceBytes i (i + 2) with
    | none => none
    | some digits =>
      match fromStrRadix digits with
      | none => some (.error "Invalid hex")
      | some byte => (decodeAt hex offsets).map fun rest => rest.map (byte :: ·)

/-- `(0..len).step_by(2)`, for an even length. -/
def offsets (len : ℕ) : List ℕ := (List.range (len / 2)).map (2 * ·)

/-- `hex_decode`; `none` is a panic. -/
def hexDecode (hex : String) : Option (Except String Bytes) :=
  if Str.byteLength hex.toList % 2 ≠ 0 then some (.error "Odd hex length")
  else decodeAt hex.toList (offsets (Str.byteLength hex.toList))

/-- `verify_signature`. -/
def verifySignature (ed : Ed25519) (agentId : String) (data : Bytes) (signatureHex : String) :
    Option Bool := do
  match ← hexDecode agentId with
  | .error _ => some false
  | .ok publicKey =>
    match ← hexDecode signatureHex with
    | .error _ => some false
    | .ok sig => some (publicKey.length == 32 && sig.length == 64 && ed.verify publicKey sig data)

/-- `JitToken`. -/
structure JitToken where
  agentId : String
  scope : String
  issuedAt : UInt64
  expiresAt : UInt64
  signature : String

/-- The checks of the time in `is_valid`. -/
def JitToken.current (token : JitToken) (now : UInt64) : Bool :=
  !(now < token.issuedAt || token.expiresAt ≤ now || token.expiresAt ≤ token.issuedAt)

/-- `JitToken::is_valid`. Whether 32 bytes are a key and the strict verification are parameters. -/
def JitToken.isValid (isKey : Bytes → Bool) (verifyStrict : Bytes → Bytes → Bytes → Bool)
    (token : JitToken) (now : UInt64) : Option Bool :=
  if token.current now then do
    match ← hexDecode token.agentId with
    | .error _ => some false
    | .ok key =>
      if key.length = 32 ∧ isKey key then
        match ← hexDecode token.signature with
        | .error _ => some false
        | .ok sig =>
          let payload := token.agentId ++ ":" ++ token.scope ++ ":" ++ toString token.expiresAt.toNat
          some (sig.length == 64 && verifyStrict key sig (utf8 payload))
      else some false
  else some false

/-- `seq + 1`. -/
def checkedSucc (seq : UInt64) : Option UInt64 :=
  if seq.toNat + 1 < 2 ^ 64 then some (seq + 1) else none

section

variable (ed : Ed25519) (readFloat : List Char → FloatRepr)

/-- The loop of `verify_chain`. -/
def violationsFrom (prevHash : String) (expectedSeq : UInt64) : List Str → Option ℕ
  | [] => some 0
  | line :: lines =>
    if isBlankLine line then violationsFrom prevHash expectedSeq lines
    else
      match fromStr readFloat line with
      | some r => do
        let valid ← verifySignature ed r.agentId (utf8 r.selfHash) r.signature
        let next ← checkedSucc r.seq
        let rest ← violationsFrom r.selfHash next lines
        some (receiptViolations (fun _ => valid) prevHash expectedSeq r + rest)
      | none => (violationsFrom prevHash expectedSeq lines).map (1 + ·)

/-- `verify_chain`. -/
def verifyChain : Option Bytes → Option ℕ
  | none => some 0
  | some file => violationsFrom ed readFloat "genesis" 0 (lines (readToString file))

end

/-! ### Where a slice falls -/

/-- A hexadecimal digit of either case. -/
def IsHexDigit (c : Char) : Prop := (hexDigit? c).isSome

/-- Pairs of a digit, or a plus sign, and a digit. -/
inductive Pairs : Str → Prop
  | nil : Pairs []
  | cons {a b : Char} {s : Str} :
    (a = '+' ∨ IsHexDigit a) → IsHexDigit b → Pairs s → Pairs (a :: b :: s)

/-- The second byte of a text ends inside a character. -/
inductive CutsFirst : Str → Prop
  | wide {c : Char} {s : Str} : 2 < c.utf8Size → CutsFirst (c :: s)
  | second {a b : Char} {s : Str} : a.utf8Size = 1 → 1 < b.utf8Size → CutsFirst (a :: b :: s)

/-- Behind some pairs the text is cut inside a character. -/
def CutBehindPairs (s : Str) : Prop :=
  ∃ pairs rest, s = pairs ++ rest ∧ Pairs pairs ∧ CutsFirst rest

/-- A text with an even number of bytes that is cut inside a character. -/
def CutInside (s : Str) : Prop := s.byteLength % 2 = 0 ∧ CutBehindPairs s

lemma IsHexDigit.utf8Size {c : Char} (h : IsHexDigit c) : c.utf8Size = 1 := by
  have hle : c ≤ 'f' := by
    unfold IsHexDigit hexDigit? at h
    split_ifs at h with h0 ha hA
    · exact Char.le_trans h0.2 (by decide)
    · exact ha.2
    · exact Char.le_trans hA.2 (by decide)
    · cases h
  rw [Char.utf8Size_eq_one_iff]
  exact UInt32.le_trans hle (by decide)

lemma hexPair_isSome_iff {a b : Char} :
    (∃ byte, hexPair a b = some byte) ↔ (a = '+' ∨ IsHexDigit a) ∧ IsHexDigit b := by
  unfold hexPair IsHexDigit
  by_cases ha : a = '+'
  · cases hexDigit? b <;> simp [ha]
  · cases hexDigit? a <;> cases hexDigit? b <;> simp [ha]

lemma Pairs.cons_iff {a b : Char} {s : Str} :
    Pairs (a :: b :: s) ↔ (∃ byte, hexPair a b = some byte) ∧ Pairs s := by
  rw [hexPair_isSome_iff]
  constructor
  · rintro (_ | ⟨ha, hb, hs⟩)
    exact ⟨⟨ha, hb⟩, hs⟩
  · rintro ⟨⟨ha, hb⟩, hs⟩
    exact .cons ha hb hs

/-- The pairs are the texts that the receipt log decodes. -/
lemma pairs_iff {s : Str} : Pairs s ↔ ∃ v, Receipts.hexDecode s = some v := by
  induction s using Receipts.hexDecode.induct with
  | case1 => exact ⟨fun _ => ⟨[], rfl⟩, fun _ => .nil⟩
  | case2 c =>
    constructor
    · rintro ⟨⟩
    · rintro ⟨v, ⟨⟩⟩
  | case3 a b s ih =>
    rw [Pairs.cons_iff, ih, Receipts.hexDecode]
    cases hexPair a b <;> cases Receipts.hexDecode s <;> simp

/-! ### Two bytes at a time -/

lemma decodeAt_add {s t : Str} {i : ℕ} (h : s.dropBytes i = some t) (is : List ℕ) :
    decodeAt s (is.map (i + ·)) = decodeAt t is := by
  induction is with
  | nil => rfl
  | cons j is ih =>
    rw [List.map_cons, decodeAt, decodeAt, ih, Nat.add_assoc, Str.sliceBytes_add h]

lemma offsets_add_two (n : ℕ) : offsets (n + 2) = 0 :: (offsets n).map (2 + ·) := by
  rw [offsets, offsets, Nat.add_div_right n Nat.zero_lt_two, List.range_succ_eq_map]
  simp [Function.comp_def, Nat.mul_add, Nat.add_comm]

/-- The text of an even length from its start. -/
def decodeText (s : Str) : Option (Except String Bytes) := decodeAt s (offsets s.byteLength)

lemma decodeText_wide {c : Char} (s : Str) (h : 2 < c.utf8Size) : decodeText (c :: s) = none := by
  have hlen : Str.byteLength (c :: s) = (c.utf8Size - 2 + s.byteLength) + 2 := by
    rw [Str.byteLength_cons]
    omega
  have hslice : Str.sliceBytes (c :: s) 0 2 = none := by
    simp [Str.sliceBytes, Str.takeBytes, Nat.not_le.mpr h]
  rw [decodeText, hlen, offsets_add_two, decodeAt, hslice]

lemma decodeText_two {c : Char} (s : Str) (h : c.utf8Size = 2) :
    decodeText (c :: s) = some (.error "Invalid hex") := by
  have hlen : Str.byteLength (c :: s) = s.byteLength + 2 := by
    rw [Str.byteLength_cons, h, Nat.add_comm]
  have hslice : Str.sliceBytes (c :: s) 0 2 = some [c] := by
    simp [Str.sliceBytes, Str.takeBytes, h]
  have hdigit : hexDigit? c = none := by
    cases hc : hexDigit? c with
    | none => rfl
    | some n =>
      have hsize := IsHexDigit.utf8Size (c := c) (by rw [IsHexDigit, hc]; rfl)
      omega
  have hparse : fromStrRadix [c] = none := by
    have hplus : c ≠ '+' := by
      rintro rfl
      cases h
    simp [fromStrRadix, hplus, hdigit]
  rw [decodeText, hlen, offsets_add_two, decodeAt, hslice]
  simp only [hparse]

lemma decodeText_second {a b : Char} (s : Str) (ha : a.utf8Size = 1) (hb : 1 < b.utf8Size) :
    decodeText (a :: b :: s) = none := by
  have hlen : Str.byteLength (a :: b :: s) = (b.utf8Size - 1 + s.byteLength) + 2 := by
    rw [Str.byteLength_cons, Str.byteLength_cons, ha]
    omega
  have hslice : Str.sliceBytes (a :: b :: s) 0 2 = none := by
    simp [Str.sliceBytes, Str.takeBytes, ha, Nat.not_le.mpr hb]
  rw [decodeText, hlen, offsets_add_two, decodeAt, hslice]

lemma hexDigit?_lt {c : Char} {n : ℕ} (h : hexDigit? c = some n) : n < 16 := by
  have htoNat {d e : Char} (hle : d ≤ e) : d.toNat ≤ e.toNat := UInt32.le_iff_toNat_le.mp hle
  unfold hexDigit? at h
  split_ifs at h with h0 ha hA
  · have hc : c.toNat ≤ 57 := htoNat h0.2
    have hzero : '0'.toNat = 48 := rfl
    cases h
    omega
  · have hc : c.toNat ≤ 102 := htoNat ha.2
    have hzero : 'a'.toNat = 97 := rfl
    cases h
    omega
  · have hc : c.toNat ≤ 70 := htoNat hA.2
    have hzero : 'A'.toNat = 65 := rfl
    cases h
    omega

lemma fromStrRadix_pair (a b : Char) : fromStrRadix [a, b] = hexPair a b := by
  unfold fromStrRadix hexPair
  by_cases ha : a = '+'
  · cases hb : hexDigit? b with
    | none => simp [ha, hb]
    | some n =>
      have hn := hexDigit?_lt hb
      simp [ha, hb, show n < 256 by omega]
  · cases ha' : hexDigit? a with
    | none => simp [ha, ha']
    | some m =>
      cases hb : hexDigit? b with
      | none => simp [ha, ha', hb]
      | some n =>
        have hm := hexDigit?_lt ha'
        have hn := hexDigit?_lt hb
        simp [ha, ha', hb, show 16 * m + n < 256 by omega]

lemma decodeText_pair {a b : Char} (s : Str) (ha : a.utf8Size = 1) (hb : b.utf8Size = 1) :
    decodeText (a :: b :: s) =
      match hexPair a b with
      | none => some (.error "Invalid hex")
      | some byte => (decodeText s).map fun rest => rest.map (byte :: ·) := by
  have hlen : Str.byteLength (a :: b :: s) = s.byteLength + 2 := by
    rw [Str.byteLength_cons, Str.byteLength_cons, ha, hb]
    omega
  have hslice : Str.sliceBytes (a :: b :: s) 0 2 = some [a, b] := by
    simp [Str.sliceBytes, Str.takeBytes, ha, hb]
  have hdrop : Str.dropBytes (a :: b :: s) 2 = some s := by
    simp [Str.dropBytes, ha, hb]
  rw [decodeText, hlen, offsets_add_two, decodeAt, hslice, decodeAt_add hdrop]
  simp only [fromStrRadix_pair]
  rfl

/-- How the first two bytes of a text of an even length lie. -/
lemma text_cases (s : Str) (heven : s.byteLength % 2 = 0) :
    s = [] ∨ (∃ c t, s = c :: t ∧ 2 < c.utf8Size) ∨ (∃ c t, s = c :: t ∧ c.utf8Size = 2) ∨
      (∃ a b t, s = a :: b :: t ∧ a.utf8Size = 1 ∧ 1 < b.utf8Size) ∨
      ∃ a b t, s = a :: b :: t ∧ a.utf8Size = 1 ∧ b.utf8Size = 1 := by
  rcases s with _ | ⟨a, s⟩
  · exact .inl rfl
  · obtain ha | ha | ha : a.utf8Size = 1 ∨ a.utf8Size = 2 ∨ 2 < a.utf8Size := by
      have hpos := a.utf8Size_pos
      omega
    · rcases s with _ | ⟨b, s⟩
      · rw [Str.byteLength_cons, ha, Str.byteLength_nil] at heven
        cases heven
      · obtain hb | hb : b.utf8Size = 1 ∨ 1 < b.utf8Size := by
          have hpos := b.utf8Size_pos
          omega
        · exact .inr (.inr (.inr (.inr ⟨a, b, s, rfl, ha, hb⟩)))
        · exact .inr (.inr (.inr (.inl ⟨a, b, s, rfl, ha, hb⟩)))
    · exact .inr (.inr (.inl ⟨a, s, rfl, ha⟩))
    · exact .inr (.inl ⟨a, s, rfl, ha⟩)

lemma cutBehindPairs_iff {s : Str} :
    CutBehindPairs s ↔ CutsFirst s ∨
      ∃ a b t, s = a :: b :: t ∧ (∃ byte, hexPair a b = some byte) ∧ CutBehindPairs t := by
  constructor
  · rintro ⟨pairs, rest, rfl, hpairs, hrest⟩
    cases hpairs with
    | nil => exact .inl hrest
    | cons ha hb hpairs =>
      exact .inr ⟨_, _, _, rfl, hexPair_isSome_iff.mpr ⟨ha, hb⟩, _, _, rfl, hpairs, hrest⟩
  · rintro (h | ⟨a, b, _, rfl, hbyte, pairs, rest, rfl, hpairs, hrest⟩)
    · exact ⟨[], s, rfl, .nil, h⟩
    · exact ⟨a :: b :: pairs, rest, rfl, Pairs.cons_iff.mpr ⟨hbyte, hpairs⟩, hrest⟩

lemma utf8Size_of_hexPair {a b : Char} (h : ∃ byte, hexPair a b = some byte) :
    a.utf8Size = 1 ∧ b.utf8Size = 1 := by
  obtain ⟨rfl | ha, hb⟩ := hexPair_isSome_iff.mp h
  · exact ⟨rfl, hb.utf8Size⟩
  · exact ⟨ha.utf8Size, hb.utf8Size⟩

lemma cutsFirst_cons_cons_iff {a b : Char} {s : Str} :
    CutsFirst (a :: b :: s) ↔ 2 < a.utf8Size ∨ a.utf8Size = 1 ∧ 1 < b.utf8Size := by
  constructor
  · rintro (h | ⟨ha, hb⟩)
    · exact .inl h
    · exact .inr ⟨ha, hb⟩
  · rintro (h | ⟨ha, hb⟩)
    · exact .wide h
    · exact .second ha hb

lemma cutBehindPairs_pair_iff {a b : Char} {s : Str} (ha : a.utf8Size = 1) (hb : b.utf8Size = 1) :
    CutBehindPairs (a :: b :: s) ↔ (∃ byte, hexPair a b = some byte) ∧ CutBehindPairs s := by
  rw [cutBehindPairs_iff, cutsFirst_cons_cons_iff, ha, hb]
  simp

lemma not_cutBehindPairs_two {c : Char} {s : Str} (h : c.utf8Size = 2) :
    ¬CutBehindPairs (c :: s) := by
  rw [cutBehindPairs_iff]
  rintro (hcut | ⟨a, b, t, heq, hbyte, -⟩)
  · cases hcut <;> omega
  · cases heq
    have hsize := (utf8Size_of_hexPair hbyte).1
    omega

/-- A text that is decoded has only characters of one byte. -/
lemma utf8Size_of_pairs {s : Str} (h : Pairs s) : ∀ c ∈ s, c.utf8Size = 1 := by
  induction h with
  | nil => simp
  | cons ha hb _ ih =>
    obtain ⟨ha, hb⟩ := utf8Size_of_hexPair (hexPair_isSome_iff.mpr ⟨ha, hb⟩)
    simp only [List.forall_mem_cons]
    exact ⟨ha, hb, ih⟩

lemma hexDecode_ne_some {s : Str} {c : Char} (hc : c ∈ s) (hsize : 1 < c.utf8Size) (v : Bytes) :
    Receipts.hexDecode s ≠ some v := by
  intro h
  have hone := utf8Size_of_pairs (pairs_iff.mpr ⟨v, h⟩) c hc
  omega

/-- What the loop does: it panics at a cut behind the pairs that were read, and it returns what the
receipt log decodes. -/
lemma decodeText_spec (s : Str) (heven : s.byteLength % 2 = 0) :
    (decodeText s = none ↔ CutBehindPairs s) ∧
      ∀ v, decodeText s = some (.ok v) ↔ Receipts.hexDecode s = some v := by
  induction hn : s.length using Nat.strong_induction_on generalizing s with
  | _ n ih =>
    obtain rfl | ⟨c, t, rfl, hc⟩ | ⟨c, t, rfl, hc⟩ | ⟨a, b, t, rfl, ha, hb⟩ | ⟨a, b, t, rfl, ha, hb⟩ :=
      text_cases s heven
    · refine ⟨?_, fun v => by simp [decodeText, offsets, decodeAt, Receipts.hexDecode]⟩
      have hnil : ¬CutBehindPairs [] := by
        rw [cutBehindPairs_iff]
        rintro (h | ⟨a, b, t, ⟨⟩, -⟩)
        cases h
      simp [decodeText, offsets, decodeAt, hnil]
    · have hnone (v : Bytes) := hexDecode_ne_some (List.mem_cons_self (a := c) (l := t)) (by omega) v
      rw [decodeText_wide t hc]
      simp [hnone, cutBehindPairs_iff.mpr (.inl (.wide hc))]
    · have hnone (v : Bytes) := hexDecode_ne_some (List.mem_cons_self (a := c) (l := t)) (by omega) v
      rw [decodeText_two t hc]
      simp [hnone, not_cutBehindPairs_two hc]
    · have hmem : b ∈ a :: b :: t := by simp
      rw [decodeText_second t ha hb]
      simp [hexDecode_ne_some hmem hb, cutBehindPairs_iff.mpr (.inl (.second ha hb))]
    · have hrest : Str.byteLength t % 2 = 0 := by
        rw [Str.byteLength_cons, Str.byteLength_cons, ha, hb] at heven
        omega
      obtain ⟨ihnone, ihok⟩ := ih t.length (by rw [← hn, List.length_cons, List.length_cons]; omega) t hrest rfl
      rw [decodeText_pair t ha hb, cutBehindPairs_pair_iff ha hb, Receipts.hexDecode, ← ihnone]
      cases hbyte : hexPair a b with
      | none => simp
      | some byte =>
        have hfails (h : ∀ v, decodeText t ≠ some (.ok v)) : Receipts.hexDecode t = none :=
          Option.eq_none_iff_forall_ne_some.mpr fun v hv => h v ((ihok v).mpr hv)
        cases hdecode : decodeText t with
        | none => simp [hfails (by simp [hdecode])]
        | some result =>
          cases result with
          | error e => simp [hfails (by simp [hdecode]), Except.map]
          | ok bytes =>
            have hbytes := (ihok bytes).mp hdecode
            simp [hbytes, Except.map]

lemma Pairs.even {s : Str} (h : Pairs s) : s.length % 2 = 0 ∧ s.byteLength % 2 = 0 := by
  induction h with
  | nil => exact ⟨rfl, rfl⟩
  | cons ha hb _ ih =>
    obtain ⟨ha, hb⟩ := utf8Size_of_hexPair (hexPair_isSome_iff.mpr ⟨ha, hb⟩)
    rw [Str.byteLength_cons, Str.byteLength_cons, ha, hb, List.length_cons, List.length_cons]
    omega

/-! ### Decoding -/

lemma hexDecode_eq_none_iff {hex : String} : hexDecode hex = none ↔ CutInside hex.toList := by
  rw [hexDecode, CutInside]
  split_ifs with hodd
  · simp [hodd]
  · rw [not_not] at hodd
    simp only [hodd, true_and]
    exact (decodeText_spec _ hodd).1

/-- Where it does not panic, `hex_decode` returns what the receipt log decodes. -/
lemma hexDecode_eq_ok_iff {hex : String} {v : Bytes} :
    hexDecode hex = some (.ok v) ↔ Receipts.hexDecode hex.toList = some v := by
  rw [hexDecode]
  split_ifs with hodd
  · constructor
    · rintro ⟨⟩
    · intro h
      exact absurd (pairs_iff.mpr ⟨v, h⟩).even.2 hodd
  · rw [not_not] at hodd
    exact (decodeText_spec _ hodd).2 v

lemma pairs_iff_hexDecode {hex : String} :
    Pairs hex.toList ↔ ∃ v, hexDecode hex = some (.ok v) := by
  simp only [hexDecode_eq_ok_iff, pairs_iff]

/-- An even number of hexadecimal digits. -/
def EvenHexDigits (s : Str) : Prop := s.length % 2 = 0 ∧ ∀ c ∈ s, IsHexDigit c

lemma not_isHexDigit_plus : ¬IsHexDigit '+' := by
  rw [IsHexDigit]
  decide

lemma evenHexDigits_iff {s : Str} : EvenHexDigits s ↔ Pairs s ∧ '+' ∉ s := by
  constructor
  · rintro ⟨heven, hdigits⟩
    refine ⟨?_, fun hplus => not_isHexDigit_plus (hdigits _ hplus)⟩
    induction s using Receipts.hexDecode.induct with
    | case1 => exact .nil
    | case2 c => cases heven
    | case3 a b s ih =>
      simp only [List.forall_mem_cons] at hdigits
      obtain ⟨ha, hb, hs⟩ := hdigits
      rw [List.length_cons, List.length_cons] at heven
      exact .cons (.inr ha) hb (ih (by omega) hs)
  · rintro ⟨hpairs, hplus⟩
    refine ⟨hpairs.even.1, ?_⟩
    induction hpairs with
    | nil => simp
    | cons ha hb _ ih =>
      simp only [List.mem_cons, not_or] at hplus
      simp only [List.forall_mem_cons]
      exact ⟨ha.resolve_left (Ne.symm hplus.1), hb, ih hplus.2.2⟩

lemma digitChar_of_hexDigit? {c : Char} {n : ℕ} (h : hexDigit? c = some n) :
    Nat.digitChar n = c.toLower := by
  have hcheck : ∀ k < 128, ∀ m ∈ hexDigit? (Char.ofNat k),
      Nat.digitChar m = (Char.ofNat k).toLower := by
    decide
  have hsize : c.utf8Size = 1 := IsHexDigit.utf8Size (by rw [IsHexDigit, h]; rfl)
  have hlt : c.toNat ≤ 127 := UInt32.le_iff_toNat_le.mp (Char.utf8Size_eq_one_iff.mp hsize)
  have hc := hcheck c.toNat (by omega) n
  rw [Char.ofNat_toNat] at hc
  exact hc h

/-- The bytes of hexadecimal digits are written as the digits in lower case. -/
lemma hex_of_hexDecode {s : Str} {v : Bytes} (hplus : '+' ∉ s) (h : Receipts.hexDecode s = some v) :
    v.flatMap hexByte = s.map Char.toLower := by
  induction s using Receipts.hexDecode.induct generalizing v with
  | case1 =>
    cases h
    rfl
  | case2 c => cases h
  | case3 a b s ih =>
    simp only [List.mem_cons, not_or] at hplus
    obtain ⟨byte, hbyte, h⟩ := Option.bind_eq_some_iff.mp h
    obtain ⟨bytes, hbytes, h⟩ := Option.bind_eq_some_iff.mp h
    cases h
    rw [hexPair, if_neg (Ne.symm hplus.1)] at hbyte
    obtain ⟨hi, hhi, hbyte⟩ := Option.bind_eq_some_iff.mp hbyte
    obtain ⟨lo, hlo, hbyte⟩ := Option.bind_eq_some_iff.mp hbyte
    cases hbyte
    have hhi16 := hexDigit?_lt hhi
    have hlo16 := hexDigit?_lt hlo
    have hval : (UInt8.ofNat (16 * hi + lo)).toNat = 16 * hi + lo := by
      rw [UInt8.toNat_ofNat']
      omega
    have hdiv : (16 * hi + lo) / 16 = hi := by omega
    have hmod : (16 * hi + lo) % 16 = lo := by omega
    rw [List.flatMap_cons, ih hplus.2.2 hbytes, hexByte, hval, hdiv, hmod, digitChar_of_hexDigit? hhi,
      digitChar_of_hexDigit? hlo]
    rfl

/-- What is expected of `hex_decode` on one text. -/
structure DecodesHex (hex : String) : Prop where
  returns : hexDecode hex ≠ none
  ok_iff : (∃ v, hexDecode hex = some (.ok v)) ↔ EvenHexDigits hex.toList
  encode : ∀ v, hexDecode hex = some (.ok v) → v.hex.toList = hex.toList.map Char.toLower

/-- The texts on which `hex_decode` does what is expected: they are not cut inside a character, and
they are not pairs with a plus sign. -/
def DecodesAsHex (s : Str) : Prop := ¬CutInside s ∧ (Pairs s → '+' ∉ s)

lemma decodesHex_iff (hex : String) : DecodesHex hex ↔ DecodesAsHex hex.toList := by
  constructor
  · intro h
    refine ⟨fun hcut => h.returns (hexDecode_eq_none_iff.mpr hcut), fun hpairs => ?_⟩
    have hdigits := h.ok_iff.mp (pairs_iff_hexDecode.mp hpairs)
    exact (evenHexDigits_iff.mp hdigits).2
  · rintro ⟨hcut, hplus⟩
    refine ⟨fun h => hcut (hexDecode_eq_none_iff.mp h), ?_, ?_⟩
    · rw [← pairs_iff_hexDecode, evenHexDigits_iff]
      exact ⟨fun h => ⟨h, hplus h⟩, And.left⟩
    · intro v hv
      have hpairs := pairs_iff_hexDecode.mpr ⟨v, hv⟩
      rw [Bytes.hex, String.toList_ofList]
      exact hex_of_hexDecode (hplus hpairs) (hexDecode_eq_ok_iff.mp hv)

/-- The three ends of `hex_decode`. -/
lemma hexDecode_cases (hex : String) :
    (hexDecode hex = none ∧ CutInside hex.toList) ∨
      (∃ v, hexDecode hex = some (.ok v) ∧ ¬CutInside hex.toList ∧ Pairs hex.toList ∧
        Receipts.hexDecode hex.toList = some v) ∨
      ∃ e, hexDecode hex = some (.error e) ∧ ¬CutInside hex.toList ∧ ¬Pairs hex.toList ∧
        Receipts.hexDecode hex.toList = none := by
  have hcut : hexDecode hex = none ↔ CutInside hex.toList := hexDecode_eq_none_iff
  have hpairs : Pairs hex.toList ↔ ∃ v, hexDecode hex = some (.ok v) := pairs_iff_hexDecode
  cases h : hexDecode hex with
  | none => exact .inl ⟨rfl, hcut.mp h⟩
  | some result =>
    have hnot : ¬CutInside hex.toList := by
      rw [← hcut, h]
      rintro ⟨⟩
    cases result with
    | ok v =>
      exact .inr (.inl ⟨v, rfl, hnot, hpairs.mpr ⟨v, h⟩, hexDecode_eq_ok_iff.mp h⟩)
    | error e =>
      have hno : ¬Pairs hex.toList := by
        rw [hpairs, h]
        rintro ⟨v, ⟨⟩⟩
      refine .inr (.inr ⟨e, rfl, hnot, hno, ?_⟩)
      rw [Option.eq_none_iff_forall_ne_some]
      exact fun v hv => hno (pairs_iff.mpr ⟨v, hv⟩)

/-! ### The checks of signatures -/

/-- The texts with which `verify_signature` returns. -/
def ReturnsOn (agentId signature : String) : Prop :=
  ¬CutInside agentId.toList ∧ (Pairs agentId.toList → ¬CutInside signature.toList)

/-- `verify_signature` panics on the texts that are cut inside a character, the signature only if the
key is decoded; where it returns, it is the check of the receipt log. -/
lemma verifySignature_spec (ed : Ed25519) (agentId : String) (data : Bytes) (signatureHex : String) :
    (verifySignature ed agentId data signatureHex ≠ none ↔ ReturnsOn agentId signatureHex) ∧
      (ReturnsOn agentId signatureHex → verifySignature ed agentId data signatureHex =
        some (Receipts.verifySignature ed agentId data signatureHex)) := by
  unfold verifySignature Receipts.verifySignature ReturnsOn
  obtain ⟨ha, hcut⟩ | ⟨v, ha, hcut, hpairs, hlog⟩ | ⟨e, ha, hcut, hpairs, hlog⟩ :=
    hexDecode_cases agentId
  · simp [ha, hcut]
  · obtain ⟨hs, hcut'⟩ | ⟨w, hs, hcut', -, hlog'⟩ | ⟨e, hs, hcut', -, hlog'⟩ :=
      hexDecode_cases signatureHex
    · simp [ha, hs, hcut, hpairs, hcut']
    · simp [ha, hs, hcut, hcut', hlog, hlog']
    · simp [ha, hs, hcut, hcut', hlog, hlog']
  · simp [ha, hcut, hpairs, hlog]

/-- `is_valid` decodes the key of a token that is current, and its signature if the key is one. -/
lemma isValid_ne_none_iff (isKey : Bytes → Bool) (verifyStrict : Bytes → Bytes → Bytes → Bool)
    (token : JitToken) (now : UInt64) :
    token.isValid isKey verifyStrict now ≠ none ↔
      (token.current now = true → ¬CutInside token.agentId.toList ∧
        ∀ key, Receipts.hexDecode token.agentId.toList = some key → key.length = 32 → isKey key = true →
          ¬CutInside token.signature.toList) := by
  unfold JitToken.isValid
  by_cases hnow : token.current now = true
  · obtain ⟨ha, hcut⟩ | ⟨v, ha, hcut, hpairs, hlog⟩ | ⟨e, ha, hcut, hpairs, hlog⟩ :=
      hexDecode_cases token.agentId
    · simp [hnow, ha, hcut]
    · by_cases hkey : v.length = 32 ∧ isKey v = true
      · obtain ⟨hs, hcut'⟩ | ⟨w, hs, hcut', -, hlog'⟩ | ⟨e, hs, hcut', -, hlog'⟩ :=
          hexDecode_cases token.signature
        · simp [hnow, ha, hs, hcut, hcut', hlog, hkey]
        · simp [hnow, ha, hs, hcut, hcut', hkey]
        · simp [hnow, ha, hs, hcut, hcut']
      · have hno : v.length = 32 → isKey v = true → ¬CutInside token.signature.toList :=
          fun h h' => absurd ⟨h, h'⟩ hkey
        simpa [hnow, ha, hcut, hlog, hkey] using hno
    · simp [hnow, ha, hcut, hlog]
  · simp [hnow]

/-- A receipt with which `verify_chain` goes on: its signature check returns, and its number has a
successor. -/
def GoesOn (r : ProvenanceReceipt) : Prop :=
  ReturnsOn r.agentId r.signature ∧ r.seq.toNat + 1 < 2 ^ 64

section

variable {ed : Ed25519} {readFloat : List Char → FloatRepr}

/-- The loop returns if it goes on with every receipt, and then it counts as the receipt log does. -/
lemma violationsFrom_spec (prevHash : String) (expectedSeq : UInt64) (lines : List Str) :
    (violationsFrom ed readFloat prevHash expectedSeq lines ≠ none ↔
        ∀ r ∈ lineReceipts readFloat lines, GoesOn r) ∧
      ((∀ r ∈ lineReceipts readFloat lines, GoesOn r) →
        violationsFrom ed readFloat prevHash expectedSeq lines =
          some (Receipts.violationsFrom readFloat (signatureValid ed) prevHash expectedSeq lines)) := by
  induction lines generalizing prevHash expectedSeq with
  | nil => simp [violationsFrom, Receipts.violationsFrom, lineReceipts]
  | cons line lines ih =>
    rw [violationsFrom, Receipts.violationsFrom, lineReceipts_cons]
    split_ifs with hblank
    · exact ih prevHash expectedSeq
    · cases fromStr readFloat line with
      | none =>
        obtain ⟨hiff, heq⟩ := ih prevHash expectedSeq
        simp only [Option.toList_none, List.nil_append]
        refine ⟨by simpa using hiff, fun h => by simp [heq h]⟩
      | some r =>
        obtain ⟨hsig, hvalue⟩ :=
          verifySignature_spec ed r.agentId (utf8 r.selfHash) r.signature
        rw [Option.toList_some, List.singleton_append, List.forall_mem_cons]
        by_cases hgoes : GoesOn r
        · obtain ⟨hiff, heq⟩ := ih r.selfHash (r.seq + 1)
          rw [and_iff_right hgoes]
          simp only [hvalue hgoes.1, checkedSucc, if_pos hgoes.2, Option.bind_eq_bind,
            Option.bind_some]
          refine ⟨?_, fun h => ?_⟩
          · rw [← hiff]
            cases violationsFrom ed readFloat r.selfHash (r.seq + 1) lines <;> simp
          · rw [heq h]
            rfl
        · refine ⟨?_, fun h => absurd h.1 hgoes⟩
          simp only [hgoes, false_and, iff_false, not_not]
          by_cases hreturns : ReturnsOn r.agentId r.signature
          · have hseq : ¬r.seq.toNat + 1 < 2 ^ 64 := fun h => hgoes ⟨hreturns, h⟩
            rw [hvalue hreturns, checkedSucc, if_neg hseq]
            rfl
          · have hnone : verifySignature ed r.agentId (utf8 r.selfHash) r.signature = none :=
              not_not.mp (mt hsig.mp hreturns)
            rw [hnone]
            rfl

/-- `verify_chain` returns if it goes on with every receipt of the file, and then it is that of the
receipt log. -/
lemma verifyChain_spec (file : Option Bytes) :
    (verifyChain ed readFloat file ≠ none ↔
        ∀ r ∈ lineReceipts readFloat (lines (readToString (file.getD []))), GoesOn r) ∧
      ((∀ r ∈ lineReceipts readFloat (lines (readToString (file.getD []))), GoesOn r) →
        verifyChain ed readFloat file =
          some (Receipts.verifyChain readFloat (signatureValid ed) file)) := by
  cases file with
  | none =>
    have hempty : lineReceipts readFloat (lines (readToString [])) = [] := rfl
    simp [hempty, verifyChain, Receipts.verifyChain]
  | some file => exact violationsFrom_spec "genesis" 0 _

end

/-- The inputs without a panic, for each function: `hex_decode` does what is expected of it on the
texts that are not cut inside a character and are not pairs with a plus sign, and the checks return
unless they come to a text that is cut, `verify_chain` also unless it comes to the last number. -/
theorem hexDecode_checks_return_iff (ed : Ed25519) (readFloat : List Char → FloatRepr)
    (isKey : Bytes → Bool) (verifyStrict : Bytes → Bytes → Bytes → Bool) :
    (∀ hex, DecodesHex hex ↔ DecodesAsHex hex.toList) ∧
      (∀ agentId data signatureHex, verifySignature ed agentId data signatureHex ≠ none ↔
        ReturnsOn agentId signatureHex) ∧
      (∀ (token : JitToken) now, token.isValid isKey verifyStrict now ≠ none ↔
        (token.current now = true → ¬CutInside token.agentId.toList ∧
          ∀ key, Receipts.hexDecode token.agentId.toList = some key → key.length = 32 →
            isKey key = true → ¬CutInside token.signature.toList)) ∧
      ∀ file, verifyChain ed readFloat file ≠ none ↔
        ∀ r ∈ lineReceipts readFloat (lines (readToString (file.getD []))), GoesOn r := by
  refine ⟨decodesHex_iff, ?_, ?_, fun file => (verifyChain_spec file).1⟩
  · intro agentId data signatureHex
    exact (verifySignature_spec ed agentId data signatureHex).1
  · exact isValid_ne_none_iff isKey verifyStrict

/-! ### Inputs with a panic -/

/-- A float reader for the receipts without floats. -/
def readSome (_ : List Char) : FloatRepr := ⟨"8.5".toList, by decide⟩

/-- A receipt with the last number. -/
def lastReceipt : ProvenanceReceipt :=
  ⟨18446744073709551615, 0, "", "", "", "", "genesis", "", "", "", "", ""⟩

/-- A receipt whose agent is no hexadecimal text. -/
def accentReceipt : ProvenanceReceipt := ⟨0, 0, "aéa", "", "", "", "genesis", "", "", "", "", ""⟩

lemma verifyChain_fileOf_eq_none {r : ProvenanceReceipt} (h : ¬GoesOn r) :
    verifyChain Ed25519.digest readSome (some (fileOf [r])) = none := by
  have hspec : verifyChain Ed25519.digest readSome (some (fileOf [r])) ≠ none ↔ _ :=
    (verifyChain_spec (some (fileOf [r]))).1
  rw [Option.getD_some, lineReceipts_fileOf, List.forall_mem_singleton] at hspec
  exact not_not.mp (mt hspec.mp h)

lemma hexDecode_accent : hexDecode "aéa" = none := by decide

/-- A text with an accent panics and a plus sign is decoded; a file with one such receipt, or with the
last number, makes `verify_chain` panic. -/
theorem hexDecode_panics_on_accent :
    hexDecode "aéa" = none ∧
      (hexDecode "+f" = some (.ok [15]) ∧ ¬EvenHexDigits "+f".toList) ∧
      verifySignature Ed25519.digest "aéa" [] "" = none ∧
      (JitToken.mk "aéa" "*" 0 2 "").isValid (fun _ => true) (fun _ _ _ => true) 1 = none ∧
      verifyChain Ed25519.digest readSome (some (fileOf [accentReceipt])) = none ∧
      verifyChain Ed25519.digest readSome (some (fileOf [lastReceipt])) = none := by
  refine ⟨hexDecode_accent, ⟨by decide, ?_⟩, rfl, rfl, verifyChain_fileOf_eq_none ?_,
    verifyChain_fileOf_eq_none ?_⟩
  · exact fun h => not_isHexDigit_plus (h.2 '+' (by decide))
  · exact fun h => h.1.1 (hexDecode_eq_none_iff.mp hexDecode_accent)
  · exact fun h => absurd h.2 (by decide)

end AxiomGrid.Receipts.Panics
