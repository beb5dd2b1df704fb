import Mathlib.Algebra.BigOperators.Field
import Mathlib.Algebra.Order.BigOperators.Group.Finset
import Mathlib.Tactic.Linarith
import Mathlib.Tactic.Ring

/-!
# Total variation

The distance of two functions on a finite set that sum up to the same: what one of them has more than the
other. Where counts are raised, the frequencies of the raised ones may come to stand above the target, and
those of the others fall; the distance does not grow as long as the former is made up for by the latter.
-/

namespace TotalVariation

open Finset

variable {α K : Type*} [Field K] [LinearOrder K] [IsStrictOrderedRing K] {T : Finset α} {p q : α → K}

/-- Half the sum of the differences. -/
def tv (T : Finset α) (p q : α → K) : K := (∑ t ∈ T, |p t - q t|) / 2

/-- Two functions with one sum differ by as much upwards as downwards. -/
lemma tv_eq_sum_max (h : ∑ t ∈ T, p t = ∑ t ∈ T, q t) : tv T p q = ∑ t ∈ T, max 0 (p t - q t) := by
  have habs : ∀ t ∈ T, |p t - q t| = 2 * max 0 (p t - q t) - (p t - q t) := by
    intro t _
    rcases le_total (p t - q t) 0 with hle | hle
    · rw [abs_of_nonpos hle, max_eq_left hle]
      ring
    · rw [abs_of_nonneg hle, max_eq_right hle]
      ring
  have hzero : ∑ t ∈ T, (p t - q t) = 0 := by rw [sum_sub_distrib, h, sub_self]
  rw [tv, sum_congr rfl habs, sum_sub_distrib, hzero, sub_zero, ← mul_sum]
  ring

/-- Where both functions vanish nothing is added. -/
lemma tv_of_subset {T' : Finset α} (hsub : T ⊆ T') (hp : ∀ t ∉ T, p t = 0) (hq : ∀ t ∉ T, q t = 0) :
    tv T' p q = tv T p q := by
  rw [tv, tv, ← sum_subset hsub fun t _ ht => by rw [hp t ht, hq t ht, sub_zero, abs_zero]]

/-! ### Raised counts -/

section

variable (T) (b δ : α → K)

/-- The frequency of a count. -/
def frequency (t : α) : K := b t / ∑ s ∈ T, b s

/-- By how much the raised counts overshoot their part of the target, times the new total. -/
def overshoot (p : α → K) : K :=
  ∑ t ∈ T with frequency T b t < p t,
    max 0 (δ t - (∑ s ∈ T, b s) * (p t - frequency T b t) - (∑ s ∈ T, δ s) * p t)

/-- By how much the other ones come down to theirs, times the new total. -/
def approach (p : α → K) : K :=
  ∑ t ∈ T with p t ≤ frequency T b t,
    min ((∑ s ∈ T, b s + ∑ s ∈ T, δ s) * (frequency T b t - p t)) ((∑ s ∈ T, δ s) * frequency T b t)

end

variable {b δ : α → K}

omit [LinearOrder K] [IsStrictOrderedRing K] in
lemma sum_frequency (h : ∑ t ∈ T, b t ≠ 0) : ∑ t ∈ T, frequency T b t = 1 := by
  simp only [frequency, ← sum_div]
  exact div_self h

omit [LinearOrder K] [IsStrictOrderedRing K] in
lemma sum_mul_frequency (h : ∑ s ∈ T, b s ≠ 0) (t : α) : (∑ s ∈ T, b s) * frequency T b t = b t :=
  mul_div_cancel₀ _ h

/-- The new frequencies, against the new total. -/
lemma sum_mul_frequency_raised (hb : 0 < ∑ t ∈ T, b t) (hδ : 0 ≤ ∑ t ∈ T, δ t) (t : α) :
    (∑ s ∈ T, b s + ∑ s ∈ T, δ s) * (frequency T (fun t => b t + δ t) t - p t) =
      b t + δ t - (∑ s ∈ T, b s + ∑ s ∈ T, δ s) * p t := by
  have hsum : ∑ t ∈ T, (b t + δ t) = ∑ t ∈ T, b t + ∑ t ∈ T, δ t := sum_add_distrib
  have hne : ∑ t ∈ T, (b t + δ t) ≠ 0 := by
    rw [hsum]
    exact (add_pos_of_pos_of_nonneg hb hδ).ne'
  have hcount := sum_mul_frequency (b := fun t => b t + δ t) hne t
  rw [hsum] at hcount
  rw [mul_sub, hcount]

/-- What the raised counts have more than the target. -/
lemma sum_raised_eq_overshoot (hb : 0 < ∑ t ∈ T, b t) (hδ : 0 ≤ ∑ t ∈ T, δ t) :
    ∑ t ∈ T with ¬p t ≤ frequency T b t,
      max 0 ((∑ s ∈ T, b s + ∑ s ∈ T, δ s) * (frequency T (fun t => b t + δ t) t - p t)) =
        overshoot T b δ p := by
  rw [overshoot]
  simp only [not_le]
  refine sum_congr rfl fun t _ => ?_
  rw [sum_mul_frequency_raised hb hδ, ← sum_mul_frequency hb.ne' t]
  congr 1
  ring

/-- The other ones come down, from what they have more than the target. -/
lemma sum_others_eq_sub_approach (hb : 0 < ∑ t ∈ T, b t) (hδ : 0 ≤ ∑ t ∈ T, δ t)
    (hraised : ∀ t ∈ T, p t ≤ frequency T b t → δ t = 0) :
    ∑ t ∈ T with p t ≤ frequency T b t,
      max 0 ((∑ s ∈ T, b s + ∑ s ∈ T, δ s) * (frequency T (fun t => b t + δ t) t - p t)) =
        ∑ t ∈ T with p t ≤ frequency T b t,
          max 0 ((∑ s ∈ T, b s + ∑ s ∈ T, δ s) * (frequency T b t - p t)) - approach T b δ p := by
  rw [approach, ← sum_sub_distrib]
  refine sum_congr rfl fun t ht => ?_
  obtain ⟨ht, hle⟩ := mem_filter.mp ht
  have hx : 0 ≤ (∑ s ∈ T, b s + ∑ s ∈ T, δ s) * (frequency T b t - p t) :=
    mul_nonneg (add_nonneg hb.le hδ) (sub_nonneg.mpr hle)
  have hstep : (∑ s ∈ T, b s + ∑ s ∈ T, δ s) * (frequency T (fun t => b t + δ t) t - p t) =
      (∑ s ∈ T, b s + ∑ s ∈ T, δ s) * (frequency T b t - p t) -
        (∑ s ∈ T, δ s) * frequency T b t := by
    rw [sum_mul_frequency_raised hb hδ, hraised t ht hle, ← sum_mul_frequency hb.ne' t]
    ring
  rw [hstep, max_eq_right hx]
  rcases le_total ((∑ s ∈ T, b s + ∑ s ∈ T, δ s) * (frequency T b t - p t))
    ((∑ s ∈ T, δ s) * frequency T b t) with hmin | hmin
  · rw [min_eq_left hmin, max_eq_left (sub_nonpos.mpr hmin), sub_self]
  · rw [min_eq_right hmin, max_eq_right (sub_nonneg.mpr hmin)]

/-- The distance does not grow when counts below the target are raised, exactly if they overshoot it by at
most what the others come closer. -/
theorem tv_raised_le_iff (hb : 0 < ∑ t ∈ T, b t) (hp : ∑ t ∈ T, p t = 1) (hδ : 0 ≤ ∑ t ∈ T, δ t)
    (hraised : ∀ t ∈ T, p t ≤ frequency T b t → δ t = 0) :
    tv T (frequency T fun t => b t + δ t) p ≤ tv T (frequency T b) p ↔
      overshoot T b δ p ≤ approach T b δ p := by
  have hpos : 0 < ∑ t ∈ T, b t + ∑ t ∈ T, δ t := add_pos_of_pos_of_nonneg hb hδ
  have hpos' : 0 < ∑ t ∈ T, (b t + δ t) := by rwa [sum_add_distrib]
  have hone : ∑ t ∈ T, frequency T b t = ∑ t ∈ T, p t := by rw [sum_frequency hb.ne', hp]
  have hone' : ∑ t ∈ T, frequency T (fun t => b t + δ t) t = ∑ t ∈ T, p t := by
    rw [sum_frequency hpos'.ne', hp]
  have hmax : ∀ x : K, (∑ s ∈ T, b s + ∑ s ∈ T, δ s) * max 0 x =
      max 0 ((∑ s ∈ T, b s + ∑ s ∈ T, δ s) * x) := fun x => by
    rw [mul_max_of_nonneg _ _ hpos.le, mul_zero]
  -- before, the counts to be raised are below the target
  have hbelow : ∑ t ∈ T with ¬p t ≤ frequency T b t,
      max 0 ((∑ s ∈ T, b s + ∑ s ∈ T, δ s) * (frequency T b t - p t)) = 0 := by
    refine sum_eq_zero fun t ht => max_eq_left ?_
    exact mul_nonpos_of_nonneg_of_nonpos hpos.le
      (sub_nonpos.mpr (le_of_not_ge (mem_filter.mp ht).2))
  rw [tv_eq_sum_max hone, tv_eq_sum_max hone', ← mul_le_mul_iff_of_pos_left hpos, mul_sum, mul_sum]
  simp only [hmax]
  rw [← sum_filter_add_sum_filter_not T (fun t => p t ≤ frequency T b t),
    ← sum_filter_add_sum_filter_not T (fun t => p t ≤ frequency T b t)
      (fun t => max 0 ((∑ s ∈ T, b s + ∑ s ∈ T, δ s) * (frequency T b t - p t))),
    sum_others_eq_sub_approach hb hδ hraised, sum_raised_eq_overshoot hb hδ, hbelow]
  constructor <;> intro h <;> linarith

/-- Raises that are not larger than what is missing do not overshoot. -/
lemma overshoot_le_approach (hb : ∀ t, 0 ≤ b t) (hp : ∀ t, 0 ≤ p t) (hδ : 0 ≤ ∑ t ∈ T, δ t)
    (hsmall : ∀ t ∈ T, δ t ≤ (∑ s ∈ T, b s) * (p t - frequency T b t) ∨ p t ≤ frequency T b t) :
    overshoot T b δ p ≤ approach T b δ p := by
  have hzero : overshoot T b δ p = 0 := by
    refine sum_eq_zero fun t ht => max_eq_left ?_
    obtain ⟨ht, hlt⟩ := mem_filter.mp ht
    have hle := (hsmall t ht).resolve_right (not_le.mpr hlt)
    have hpart := mul_nonneg hδ (hp t)
    linarith
  rw [hzero]
  refine sum_nonneg fun t ht => le_min ?_ ?_
  · exact mul_nonneg (add_nonneg (sum_nonneg fun s _ => hb s) hδ)
      (sub_nonneg.mpr (mem_filter.mp ht).2)
  · exact mul_nonneg hδ (div_nonneg (hb t) (sum_nonneg fun s _ => hb s))

end TotalVariation
