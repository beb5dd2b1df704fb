import AxiomGrid.Lib.Sha256

/-!
# Base64

`base64.b64encode` and `base64.b64decode`. The decoder is the one of `binascii` without its strict
mode: characters outside the alphabet are skipped, and decoding stops at a complete padding.
-/

namespace Base64

def alphabet : List Char :=
  "ABCDEFGHIJKLMNOPQRSTUVWXYZabcdefghijklmnopqrstuvwxyz0123456789+/".toList

/-- The digit for a value below 64. -/
def digit (n : ℕ) : Char := alphabet.getD n 'A'

/-- The value of a digit. -/
def digit? (c : Char) : Option ℕ := alphabet.findIdx? (· == c)

/-- The text of a byte string, three bytes at a time. -/
def encodeChars : Bytes → List Char
  | [] => []
  | [a] => [digit (a.toNat / 4), digit (a.toNat % 4 * 16), '=', '=']
  | [a, b] =>
    [digit (a.toNat / 4), digit (a.toNat % 4 * 16 + b.toNat / 16), digit (b.toNat % 16 * 4), '=']
  | a :: b :: c :: bs =>
    digit (a.toNat / 4) :: digit (a.toNat % 4 * 16 + b.toNat / 16) ::
      digit (b.toNat % 16 * 4 + c.toNat / 64) :: digit (c.toNat % 64) :: encodeChars bs

/-- `b64encode(bs).decode()`. -/
def encode (bs : Bytes) : String := String.ofList (encodeChars bs)

/-- The loop of the decoder: `quad` is the position in the group of four digits, `left` holds the
bits not yet written, `pads` counts the padding seen. -/
def decodeChars : List Char → ℕ → ℕ → ℕ → Option Bytes
  | [], quad, _, _ => if quad = 0 then some [] else none
  | c :: cs, quad, left, pads =>
    if c = '=' then
      if 2 ≤ quad then
        if 4 ≤ quad + (pads + 1) then some [] else decodeChars cs quad left (pads + 1)
      else decodeChars cs quad left pads
    else
      match digit? c with
      | none => decodeChars cs quad left pads
      | some d =>
        if quad = 0 then decodeChars cs 1 d 0
        else if quad = 1 then
          (decodeChars cs 2 (d % 16) 0).map (UInt8.ofNat (left * 4 + d / 16) :: ·)
        else if quad = 2 then
          (decodeChars cs 3 (d % 4) 0).map (UInt8.ofNat (left * 16 + d / 4) :: ·)
        else (decodeChars cs 0 0 0).map (UInt8.ofNat (left * 64 + d) :: ·)

/-- `b64decode(s)`; `none` is an exception. A text that is not ASCII is refused. -/
def decode? (s : String) : Option Bytes :=
  if s.toList.all (·.toNat < 128) then decodeChars s.toList 0 0 0 else none

/-! ### Round trip -/

lemma digit?_digit {n : ℕ} (h : n < 64) :
    digit n ≠ '=' ∧ digit? (digit n) = some n ∧ (digit n).toNat < 128 := by
  revert n
  decide +kernel

private lemma decodeChars_digit {n : ℕ} (h : n < 64) (cs : List Char) (quad left pads : ℕ) :
    decodeChars (digit n :: cs) quad left pads =
      if quad = 0 then decodeChars cs 1 n 0
      else if quad = 1 then
        (decodeChars cs 2 (n % 16) 0).map (UInt8.ofNat (left * 4 + n / 16) :: ·)
      else if quad = 2 then (decodeChars cs 3 (n % 4) 0).map (UInt8.ofNat (left * 16 + n / 4) :: ·)
      else (decodeChars cs 0 0 0).map (UInt8.ofNat (left * 64 + n) :: ·) := by
  obtain ⟨hpad, hvalue, -⟩ := digit?_digit h
  rw [decodeChars, if_neg hpad, hvalue]

private lemma ofNat_eq {b : UInt8} {n : ℕ} (h : n = b.toNat) : UInt8.ofNat n = b := by
  rw [h, UInt8.ofNat_toNat]

private lemma decodeChars_encodeChars (bs : Bytes) : decodeChars (encodeChars bs) 0 0 0 = some bs := by
  induction bs using encodeChars.induct with
  | case1 => rfl
  | case2 a =>
    have ha := a.toNat_lt
    rw [encodeChars, decodeChars_digit (by omega), if_pos rfl, decodeChars_digit (by omega),
      if_neg (by decide), if_pos rfl, ofNat_eq (b := a) (by omega)]
    simp [decodeChars]
  | case3 a b =>
    have ha := a.toNat_lt
    have hb := b.toNat_lt
    rw [encodeChars, decodeChars_digit (by omega), if_pos rfl, decodeChars_digit (by omega),
      if_neg (by decide), if_pos rfl, decodeChars_digit (by omega), if_neg (by decide),
      if_neg (by decide), if_pos rfl, ofNat_eq (b := a) (by omega), ofNat_eq (b := b) (by omega)]
    simp [decodeChars]
  | case4 a b c bs ih =>
    have ha := a.toNat_lt
    have hb := b.toNat_lt
    have hc := c.toNat_lt
    rw [encodeChars, decodeChars_digit (by omega), if_pos rfl, decodeChars_digit (by omega),
      if_neg (by decide), if_pos rfl, decodeChars_digit (by omega), if_neg (by decide),
      if_neg (by decide), if_pos rfl, decodeChars_digit (by omega), if_neg (by decide),
      if_neg (by decide), if_neg (by decide), ih, ofNat_eq (b := a) (by omega),
      ofNat_eq (b := b) (by omega), ofNat_eq (b := c) (by omega)]
    rfl

private lemma encodeChars_ascii (bs : Bytes) : ∀ c ∈ encodeChars bs, c.toNat < 128 := by
  have hdigit : ∀ n, (digit n).toNat < 128 := by
    intro n
    by_cases h : n < 64
    · exact (digit?_digit h).2.2
    · have hlen : alphabet.length ≤ n := by
        apply le_trans _ (not_lt.mp h)
        decide
      rw [digit, List.getD_eq_default _ _ hlen]
      decide
  induction bs using encodeChars.induct with
  | case1 => simp [encodeChars]
  | case2 a => simp [encodeChars, hdigit]
  | case3 a b => simp [encodeChars, hdigit]
  | case4 a b c bs ih =>
    simp only [encodeChars, List.forall_mem_cons]
    exact ⟨hdigit _, hdigit _, hdigit _, hdigit _, ih⟩

/-- An encoded text is made of digits and padding. -/
lemma mem_encode {bs : Bytes} {c : Char} (hc : c ∈ (encode bs).toList) :
    (digit? c).isSome = true ∨ c = '=' := by
  have hdigit : ∀ n < 64, (digit? (digit n)).isSome = true := by
    intro n hn
    rw [(digit?_digit hn).2.1]
    rfl
  rw [encode, String.toList_ofList] at hc
  induction bs using encodeChars.induct with
  | case1 => cases hc
  | case2 a =>
    have ha := a.toNat_lt
    simp only [encodeChars, List.mem_cons, List.not_mem_nil, or_false] at hc
    rcases hc with rfl | rfl | rfl | rfl
    · exact .inl (hdigit _ (by omega))
    · exact .inl (hdigit _ (by omega))
    · exact .inr rfl
    · exact .inr rfl
  | case3 a b =>
    have ha := a.toNat_lt
    have hb := b.toNat_lt
    simp only [encodeChars, List.mem_cons, List.not_mem_nil, or_false] at hc
    rcases hc with rfl | rfl | rfl | rfl
    · exact .inl (hdigit _ (by omega))
    · exact .inl (hdigit _ (by omega))
    · exact .inl (hdigit _ (by omega))
    · exact .inr rfl
  | case4 a b c' bs ih =>
    have ha := a.toNat_lt
    have hb := b.toNat_lt
    have hc' := c'.toNat_lt
    simp only [encodeChars, List.mem_cons] at hc
    rcases hc with rfl | rfl | rfl | rfl | hc
    · exact .inl (hdigit _ (by omega))
    · exact .inl (hdigit _ (by omega))
    · exact .inl (hdigit _ (by omega))
    · exact .inl (hdigit _ (by omega))
    · exact ih hc

lemma encode_eq_empty_iff {bs : Bytes} : encode bs = "" ↔ bs = [] := by
  rw [encode, ← String.toList_inj, String.toList_ofList]
  cases bs using encodeChars.induct <;> simp [encodeChars]

/-- Decoding undoes encoding. -/
@[simp] theorem decode?_encode (bs : Bytes) : decode? (encode bs) = some bs := by
  rw [decode?, encode, String.toList_ofList, if_pos, decodeChars_encodeChars]
  rw [List.all_eq_true]
  intro c hc
  exact decide_eq_true (encodeChars_ascii bs c hc)

end Base64
