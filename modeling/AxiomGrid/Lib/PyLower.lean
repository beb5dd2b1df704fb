import AxiomGrid.Lib.PyStr

/-!
# Lower case of a part of a text

Lowering a text does not commute with cutting it. The dotted capital I becomes two characters, so the
offsets behind it move, and the form of a capital sigma depends on the letters around it. These are the
only two reasons: `lowerIn` is the lower case of a part of a text where it stands, its length counts the
dotted capital I twice, and it depends on the surroundings through the sigmas alone.
-/

namespace Str

variable (u : UnicodeData)

/-- The lower case of a part of a text, where `before` is what stands before it, last character first,
and `after` what stands after it. -/
def lowerIn (before : Str) : Str → Str → Str
  | [], _ => []
  | c :: cs, after => lowerChar u before c (cs ++ after) ++ lowerIn (c :: before) cs after

/-- Every capital sigma of `s` has the same form in both surroundings. -/
def SameSigmas (before after before' after' s : Str) : Prop :=
  ∀ x y, s = x ++ 'Σ' :: y →
    isFinalSigma u (x.reverse ++ before) (y ++ after) =
      isFinalSigma u (x.reverse ++ before') (y ++ after')

variable {before after before' after' s : Str}

lemma lower_go_append (before s after : Str) :
    lower.go u before (s ++ after) =
      lowerIn u before s after ++ lower.go u (s.reverse ++ before) after := by
  induction s generalizing before with
  | nil => rfl
  | cons c s ih => simp [lower.go, lowerIn, ih]

lemma lower_append (s after : Str) :
    lower u (s ++ after) = lowerIn u [] s after ++ lower.go u s.reverse after := by
  rw [lower, lower_go_append, List.append_nil]

lemma lower_eq_lowerIn (s : Str) : lower u s = lowerIn u [] s [] := by
  have h := lower_append u s []
  rwa [List.append_nil, lower.go, List.append_nil] at h

lemma length_lowerChar (before : Str) (c : Char) (after : Str) :
    (lowerChar u before c after).length = if c = 'İ' then 2 else 1 := by
  unfold lowerChar
  by_cases hsigma : c = 'Σ'
  · simp [hsigma]
  · by_cases hdotted : c = 'İ' <;> simp [hsigma, hdotted]

lemma length_lowerIn (before s after : Str) :
    (lowerIn u before s after).length = s.length + s.count 'İ' := by
  induction s generalizing before with
  | nil => rfl
  | cons c s ih =>
    rw [lowerIn, List.length_append, ih, length_lowerChar, List.length_cons, List.count_cons]
    by_cases hc : c = 'İ'
    · simp only [hc, if_true, beq_self_eq_true]
      omega
    · simp only [hc, if_false, beq_iff_eq]
      omega

lemma length_lower (s : Str) : (lower u s).length = s.length + s.count 'İ' := by
  rw [lower_eq_lowerIn, length_lowerIn]

/-- Of all characters only the capital sigma looks at its surroundings. -/
lemma lowerChar_eq_iff {c : Char} :
    lowerChar u before c after = lowerChar u before' c after' ↔
      (c = 'Σ' → isFinalSigma u before after = isFinalSigma u before' after') := by
  unfold lowerChar
  by_cases hc : c = 'Σ'
  · cases isFinalSigma u before after <;> cases isFinalSigma u before' after' <;> simp [hc]
  · simp [hc]

/-- The lower case of a part of a text depends on its surroundings through the sigmas alone. -/
lemma lowerIn_eq_iff :
    lowerIn u before s after = lowerIn u before' s after' ↔
      SameSigmas u before after before' after' s := by
  induction s generalizing before before' with
  | nil => simp [lowerIn, SameSigmas]
  | cons c s ih =>
    have hlength : (lowerChar u before c (s ++ after)).length =
        (lowerChar u before' c (s ++ after')).length := by
      rw [length_lowerChar, length_lowerChar]
    have hparts : lowerIn u before (c :: s) after = lowerIn u before' (c :: s) after' ↔
        lowerChar u before c (s ++ after) = lowerChar u before' c (s ++ after') ∧
          lowerIn u (c :: before) s after = lowerIn u (c :: before') s after' :=
      ⟨fun h => List.append_inj h hlength, fun h => congrArg₂ (· ++ ·) h.1 h.2⟩
    rw [hparts, lowerChar_eq_iff, ih]
    constructor
    · rintro ⟨hc, hs⟩ x y hxy
      cases x with
      | nil =>
        obtain ⟨rfl, rfl⟩ := List.cons_eq_cons.mp hxy
        exact hc rfl
      | cons d x =>
        obtain ⟨rfl, rfl⟩ := List.cons_eq_cons.mp hxy
        simpa using hs x y rfl
    · intro h
      refine ⟨?_, ?_⟩
      · rintro rfl
        exact h [] s rfl
      · rintro x y rfl
        simpa using h (c :: x) y rfl

/-- Where a text was found. -/
lemma exists_of_find? {needle text : Str} {i : ℕ} (h : find? needle text = some i) :
    ∃ a b, text = a ++ (needle ++ b) ∧ a.length = i := by
  rw [find?, List.findIdx?_eq_some_iff_getElem] at h
  obtain ⟨hlt, hpre, -⟩ := h
  rw [List.getElem_tails, List.isPrefixOf_iff_prefix] at hpre
  obtain ⟨rest, hrest⟩ := hpre
  refine ⟨text.take i, rest, ?_, ?_⟩
  · rw [hrest, List.take_append_drop]
  · rw [List.length_tails] at hlt
    rw [List.length_take]
    omega

/-! ### Lowering twice -/

/-- The character is its own lower case. -/
def IsLowered (c : Char) : Prop := c ≠ 'Σ' ∧ c ≠ 'İ' ∧ u.simpleLower c = c

instance (c : Char) : Decidable (IsLowered u c) :=
  inferInstanceAs (Decidable (c ≠ 'Σ' ∧ c ≠ 'İ' ∧ u.simpleLower c = c))

/-- What the tables say of every version of the database: lower case letters and the blank are their own
lower case. -/
structure LowerStable : Prop where
  simpleLower : ∀ c, c ≠ 'Σ' → c ≠ 'İ' → IsLowered u (u.simpleLower c)
  sigma : IsLowered u 'σ'
  finalSigma : IsLowered u 'ς'
  letterI : IsLowered u 'i'
  dotAbove : IsLowered u '\u0307'
  blank : IsLowered u ' '

variable {u}

lemma LowerStable.of_mem_lowerChar (hu : LowerStable u) {c d : Char}
    (h : d ∈ lowerChar u before c after) : IsLowered u d := by
  unfold lowerChar at h
  split_ifs at h with hsigma hfinal hdotted
  · rw [List.mem_singleton.mp h]
    exact hu.finalSigma
  · rw [List.mem_singleton.mp h]
    exact hu.sigma
  · rcases List.mem_pair.mp h with rfl | rfl
    · exact hu.letterI
    · exact hu.dotAbove
  · rw [List.mem_singleton.mp h]
    exact hu.simpleLower c hsigma hdotted

lemma LowerStable.of_mem_lower (hu : LowerStable u) {c : Char} (h : c ∈ lower u s) :
    IsLowered u c := by
  suffices hgo : ∀ before, c ∈ lower.go u before s → IsLowered u c from hgo [] h
  clear h
  intro before h
  induction s generalizing before with
  | nil => cases h
  | cons d s ih =>
    rcases List.mem_append.mp h with h | h
    · exact hu.of_mem_lowerChar h
    · exact ih (d :: before) h

lemma lower_eq_self (h : ∀ c ∈ s, IsLowered u c) : lower u s = s := by
  suffices hgo : ∀ before, lower.go u before s = s from hgo []
  intro before
  induction s generalizing before with
  | nil => rfl
  | cons c s ih =>
    rw [List.forall_mem_cons] at h
    rw [lower.go, ih h.2, lowerChar, if_neg h.1.1, if_neg h.1.2.1, h.1.2.2]
    rfl

/-- A character that no sigma looks at or beyond cuts the lower case of a text in two. -/
lemma lower_append_cons {a b : Str} {c : Char} (hcased : u.isCased c = false)
    (hignorable : u.isCaseIgnorable c = false) (hlower : IsLowered u c) :
    lower u (a ++ c :: b) = lower u a ++ c :: lower u b := by
  have hskip : ∀ s t : Str, ((s ++ c :: t).dropWhile u.isCaseIgnorable).head?.any u.isCased =
      (s.dropWhile u.isCaseIgnorable).head?.any u.isCased := by
    intro s t
    induction s with
    | nil => simp [hignorable, hcased]
    | cons d s ih =>
      rw [List.cons_append, List.dropWhile_cons, List.dropWhile_cons]
      split_ifs
      · exact ih
      · rfl
  have hbefore : lowerIn u [] a (c :: b) = lower u a := by
    rw [lower_eq_lowerIn, lowerIn_eq_iff]
    intro x y _
    simp only [isFinalSigma, hskip, List.append_nil]
  have hafter : lower.go u (c :: a.reverse) b = lower u b := by
    have hgo := lower_go_append u (c :: a.reverse) b []
    rw [List.append_nil, lower.go, List.append_nil] at hgo
    rw [hgo, lower_eq_lowerIn, lowerIn_eq_iff]
    intro x y _
    simp only [isFinalSigma, hskip, List.append_nil]
  rw [lower_append, hbefore, lower.go, hafter, lowerChar, if_neg hlower.1, if_neg hlower.2.1,
    hlower.2.2]
  rfl

/-- Without the two special characters the lower case is taken character by character. -/
lemma lower_eq_map (h : ∀ c ∈ s, c ≠ 'Σ' ∧ c ≠ 'İ') : lower u s = s.map u.simpleLower := by
  suffices hgo : ∀ before, lower.go u before s = s.map u.simpleLower from hgo []
  intro before
  induction s generalizing before with
  | nil => rfl
  | cons c s ih =>
    rw [List.forall_mem_cons] at h
    rw [lower.go, ih h.2, lowerChar, if_neg h.1.1, if_neg h.1.2]
    rfl

lemma lowerStable_asciiData : LowerStable asciiData where
  simpleLower c hsigma hdotted := by
    by_cases hc : c.val ≥ 'A'.val ∧ c.val ≤ 'Z'.val
    · have hletters : ∀ n ∈ List.range' 65 26,
          IsLowered asciiData (asciiData.simpleLower (Char.ofNat n)) := by decide
      have hmem : c.toNat ∈ List.range' 65 26 := by
        have hlo := UInt32.le_iff_toNat_le.mp hc.1
        have hhi := UInt32.le_iff_toNat_le.mp hc.2
        rw [List.mem_range'_1]
        change 65 ≤ c.toNat at hlo
        change c.toNat ≤ 90 at hhi
        omega
      simpa only [Char.ofNat_toNat] using hletters c.toNat hmem
    · have hlower : asciiData.simpleLower c = c := dif_neg hc
      rw [hlower]
      exact ⟨hsigma, hdotted, hlower⟩
  sigma := by decide
  finalSigma := by decide
  letterI := by decide
  dotAbove := by decide
  blank := by decide

end Str
