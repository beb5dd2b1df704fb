import AxiomGrid.Lib.LengthPrefix
import Mathlib.Tactic.Linarith
import Mathlib.Tactic.Ring

/-!
# The order of digit strings

Digit strings without leading zeros are in the order of the numbers that they denote if they are
compared by their length first and byte by byte at equal length. Nothing is converted, so there is no
bound on the length.
-/

/-- The code of an ASCII digit. -/
def isDigitByte (b : UInt8) : Bool := 48 ≤ b.toNat ∧ b.toNat ≤ 57

/-- `bs.isdigit()`. -/
def Bytes.isDigit (bs : Bytes) : Bool := bs ≠ [] ∧ bs.all isDigitByte

/-- The number that a string of digits denotes. -/
def decimalValue : Bytes → ℕ
  | [] => 0
  | b :: bs => (b.toNat - 48) * 10 ^ bs.length + decimalValue bs

/-- `bs.lstrip(b"0") or b"0"`. -/
def stripZeros (bs : Bytes) : Bytes :=
  match bs.dropWhile (· == 48) with
  | [] => [48]
  | stripped => stripped

/-- A number in digits. -/
def decimal (n : ℕ) : Bytes := utf8 (toString n)

/-! ### Digits -/

lemma decimalValue_append (bs : Bytes) (b : UInt8) :
    decimalValue (bs ++ [b]) = 10 * decimalValue bs + (b.toNat - 48) := by
  induction bs with
  | nil => simp [decimalValue]
  | cons c bs ih =>
    rw [List.cons_append, decimalValue, ih, decimalValue, List.length_append, List.length_singleton,
      pow_succ]
    ring

lemma decimalValue_lt {bs : Bytes} (h : ∀ b ∈ bs, isDigitByte b = true) :
    decimalValue bs < 10 ^ bs.length := by
  induction bs with
  | nil => simp [decimalValue]
  | cons b bs ih =>
    have hb := of_decide_eq_true (h b List.mem_cons_self)
    have hrest := ih fun c hc => h c (List.mem_cons_of_mem b hc)
    have hfirst : (b.toNat - 48) * 10 ^ bs.length ≤ 9 * 10 ^ bs.length :=
      Nat.mul_le_mul_right _ (by omega)
    rw [decimalValue, List.length_cons, pow_succ]
    linarith

/-- Without a leading zero a string of digits denotes a number of that many digits. -/
lemma le_decimalValue {b : UInt8} {bs : Bytes} (hb : isDigitByte b = true) (hzero : b ≠ 48) :
    10 ^ bs.length ≤ decimalValue (b :: bs) := by
  have hdigit := of_decide_eq_true hb
  have hne : b.toNat ≠ 48 := fun h => hzero (UInt8.toNat_inj.mp h)
  rw [decimalValue]
  apply le_trans _ (Nat.le_add_right _ _)
  exact Nat.le_mul_of_pos_left _ (by omega)

/-- At equal length digit strings are in the order of their numbers. -/
lemma lt_iff_decimalValue_lt {ds es : Bytes} (hlength : ds.length = es.length)
    (hds : ∀ b ∈ ds, isDigitByte b = true) (hes : ∀ b ∈ es, isDigitByte b = true) :
    ds < es ↔ decimalValue ds < decimalValue es := by
  induction ds generalizing es with
  | nil =>
    obtain rfl := List.length_eq_zero_iff.mp hlength.symm
    simp
  | cons d ds ih =>
    cases es with
    | nil => cases hlength
    | cons e es =>
      have hlen : ds.length = es.length := Nat.succ.inj hlength
      have hd := of_decide_eq_true (hds d List.mem_cons_self)
      have he := of_decide_eq_true (hes e List.mem_cons_self)
      have hds' : ∀ b ∈ ds, isDigitByte b = true := fun b hb => hds b (List.mem_cons_of_mem d hb)
      have hes' : ∀ b ∈ es, isDigitByte b = true := fun b hb => hes b (List.mem_cons_of_mem e hb)
      have hdval := decimalValue_lt hds'
      have heval := decimalValue_lt hes'
      rw [List.cons_lt_cons_iff, ih hlen hds' hes', UInt8.lt_iff_toNat_lt, decimalValue, decimalValue]
      rw [hlen] at hdval ⊢
      -- the first digits decide unless they are equal
      rcases lt_trichotomy d.toNat e.toNat with hlt | heq | hgt
      · have hstep : (d.toNat - 48 + 1) * 10 ^ es.length ≤ (e.toNat - 48) * 10 ^ es.length :=
          Nat.mul_le_mul_right _ (by omega)
        rw [add_mul, one_mul] at hstep
        exact iff_of_true (.inl hlt) (by omega)
      · obtain rfl := UInt8.toNat_inj.mp heq
        simp
      · have hstep : (e.toNat - 48 + 1) * 10 ^ es.length ≤ (d.toNat - 48) * 10 ^ es.length :=
          Nat.mul_le_mul_right _ (by omega)
        rw [add_mul, one_mul] at hstep
        refine iff_of_false ?_ (by omega)
        rintro (h | ⟨rfl, -⟩)
        · omega
        · omega

/-! ### Leading zeros -/

/-- Nothing but a single zero begins with a zero. -/
def NoLeadingZero (bs : Bytes) : Prop := bs = [48] ∨ ∃ b bs', bs = b :: bs' ∧ b ≠ 48

lemma stripZeros_noLeadingZero (bs : Bytes) : NoLeadingZero (stripZeros bs) := by
  rw [stripZeros]
  cases hdrop : bs.dropWhile (· == 48) with
  | nil => exact .inl rfl
  | cons b rest =>
    have hhead := List.head?_dropWhile_not (fun b : UInt8 => b == 48) bs
    rw [hdrop] at hhead
    exact .inr ⟨b, rest, rfl, by simpa using hhead⟩

lemma decimalValue_stripZeros (bs : Bytes) : decimalValue (stripZeros bs) = decimalValue bs := by
  induction bs with
  | nil => rfl
  | cons b bs ih =>
    by_cases hb : b = 48
    · have hstrip : stripZeros (b :: bs) = stripZeros bs := by
        simp [stripZeros, hb]
      rw [hstrip, ih, hb, decimalValue]
      simp
    · simp [stripZeros, hb]

lemma isDigitByte_of_mem_stripZeros {bs : Bytes} (h : ∀ b ∈ bs, isDigitByte b = true) :
    ∀ b ∈ stripZeros bs, isDigitByte b = true := by
  rw [stripZeros]
  cases hdrop : bs.dropWhile (· == 48) with
  | nil => simp [isDigitByte]
  | cons c rest =>
    intro b hb
    have hsuffix := List.dropWhile_suffix (fun b : UInt8 => b == 48) (l := bs)
    rw [hdrop] at hsuffix
    exact h b (hsuffix.subset hb)

/-! ### Numbers in digits -/

lemma decimal_of_lt {n : ℕ} (h : n < 10) : decimal n = [UInt8.ofNat (48 + n)] := by
  have hdigit : ∀ d < 10, String.utf8EncodeChar (Nat.digitChar d) = [UInt8.ofNat (48 + d)] := by decide
  rw [decimal, utf8, Nat.toString_eq_ofList_toDigits, String.toList_ofList,
    Nat.toDigits_of_lt_base h, List.flatMap_singleton, hdigit n h]

lemma decimal_of_le {n : ℕ} (h : 10 ≤ n) :
    decimal n = decimal (n / 10) ++ [UInt8.ofNat (48 + n % 10)] := by
  have hlast := decimal_of_lt (Nat.mod_lt n (by decide : 0 < 10))
  rw [← hlast]
  simp only [decimal, utf8, Nat.toString_eq_ofList_toDigits, String.toList_ofList]
  rw [Nat.toDigits_of_base_le (by decide) h, List.flatMap_append,
    Nat.toDigits_of_lt_base (Nat.mod_lt n (by decide))]

lemma toNat_digit {d : ℕ} (h : d < 10) : (UInt8.ofNat (48 + d)).toNat = 48 + d := by
  rw [UInt8.toNat_ofNat']
  omega

@[elab_as_elim]
lemma decimal_induction {motive : ℕ → Prop} (small : ∀ n < 10, motive n)
    (step : ∀ n, 10 ≤ n → motive (n / 10) → motive n) (n : ℕ) : motive n := by
  induction n using Nat.strong_induction_on with
  | _ n ih =>
    by_cases h : n < 10
    · exact small n h
    · exact step n (by omega) (ih (n / 10) (by omega))

@[simp] lemma decimalValue_decimal (n : ℕ) : decimalValue (decimal n) = n := by
  induction n using decimal_induction with
  | small n h =>
    rw [decimal_of_lt h, ← List.nil_append [_], decimalValue_append, toNat_digit h, decimalValue]
    omega
  | step n h ih =>
    rw [decimal_of_le h, decimalValue_append, ih, toNat_digit (Nat.mod_lt n (by decide))]
    omega

lemma isDigitByte_decimal (n : ℕ) : ∀ b ∈ decimal n, isDigitByte b = true := by
  have hdigit : ∀ d < 10, isDigitByte (UInt8.ofNat (48 + d)) = true := by decide
  induction n using decimal_induction with
  | small n h =>
    rw [decimal_of_lt h]
    simpa using hdigit n h
  | step n h ih =>
    rw [decimal_of_le h, List.forall_mem_append]
    exact ⟨ih, by simpa using hdigit _ (Nat.mod_lt n (by decide))⟩

lemma length_decimal (n : ℕ) : (decimal n).length = (Nat.toDigits 10 n).length := by
  induction n using decimal_induction with
  | small n h => rw [decimal_of_lt h, Nat.toDigits_of_lt_base h]; rfl
  | step n h ih =>
    rw [decimal_of_le h, Nat.toDigits_of_base_le (by decide) h, List.length_append,
      List.length_append, ih]
    rfl

lemma length_decimal_le_iff {n k : ℕ} (hk : 0 < k) : (decimal n).length ≤ k ↔ n < 10 ^ k := by
  rw [length_decimal]
  exact Nat.length_toDigits_le_iff (by decide) hk

/-- Longer, or as long and greater byte by byte, means a greater number. -/
theorem longer_or_greater_iff {bs : Bytes} (hdigits : ∀ b ∈ bs, isDigitByte b = true)
    (hzero : NoLeadingZero bs) (n : ℕ) :
    (decimal n).length < bs.length ∨ bs.length = (decimal n).length ∧ decimal n < bs ↔
      n < decimalValue bs := by
  have hpos : 0 < bs.length := by
    rcases hzero with rfl | ⟨b, bs', rfl, -⟩
    · exact Nat.one_pos
    · exact Nat.succ_pos _
  have hvalue := decimalValue_lt hdigits
  rcases lt_trichotomy (decimal n).length bs.length with hlt | heq | hgt
  · refine iff_of_true (.inl hlt) ?_
    rcases hzero with rfl | ⟨b, bs', rfl, hb⟩
    · rw [List.length_singleton, Nat.lt_one_iff, length_decimal] at hlt
      exact absurd hlt Nat.length_toDigits_pos.ne'
    · rw [List.length_cons, Nat.lt_succ_iff] at hlt
      have hrest : 0 < bs'.length :=
        lt_of_lt_of_le (by rw [length_decimal]; exact Nat.length_toDigits_pos) hlt
      calc n < 10 ^ bs'.length := (length_decimal_le_iff hrest).mp hlt
        _ ≤ decimalValue (b :: bs') := le_decimalValue (hdigits b List.mem_cons_self) hb
  · rw [lt_iff_decimalValue_lt heq (isDigitByte_decimal n) hdigits, decimalValue_decimal]
    simp [heq]
  · have hge : ¬ n < 10 ^ bs.length := by
      rw [← length_decimal_le_iff hpos]
      omega
    refine iff_of_false ?_ (by omega)
    rintro (h | ⟨h, -⟩)
    · omega
    · omega
