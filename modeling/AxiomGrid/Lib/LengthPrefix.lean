import AxiomGrid.Lib.Hex
import Mathlib.Tactic.Common

/-!
# Fields with their length in front

A field is its length in decimal digits, a blank, and its bytes. The digits end at the first blank,
and the length tells where the bytes end, so a field is read off whatever follows it.
-/

/-- The byte of a blank. -/
def blankByte : UInt8 := 32

lemma utf8_blank : utf8 " " = [blankByte] := rfl

lemma blankByte_notMem_digit {c : Char} (hc : c.isDigit = true) :
    blankByte ∉ String.utf8EncodeChar c := by
  have hrange : 48 ≤ c.toNat ∧ c.toNat ≤ 57 := by
    simpa [Char.isDigit, UInt32.le_iff_toNat_le] using hc
  have hsize : c.utf8Size = 1 := by
    rw [Char.utf8Size, if_pos]
    rw [UInt32.le_iff_toNat_le]
    exact hrange.2.trans (by decide)
  rw [String.utf8EncodeChar_eq_singleton hsize, List.mem_singleton]
  intro h
  have hvalue : 32 = c.toNat % 256 := congrArg UInt8.toNat h
  omega

lemma blankByte_notMem_decimal (n : ℕ) : blankByte ∉ utf8 (toString n) := by
  rw [utf8, Nat.toString_eq_repr, Nat.repr_eq_ofList_toDigits, String.toList_ofList, List.mem_flatMap]
  rintro ⟨c, hc, hblank⟩
  exact blankByte_notMem_digit (Nat.isDigit_of_mem_toDigits (by decide) (by decide) hc) hblank

lemma decimal_injective {m n : ℕ} (h : utf8 (toString m) = utf8 (toString n)) : m = n := by
  have hdigits := congrArg String.toList (utf8_injective h)
  rw [Nat.toString_eq_repr, Nat.toString_eq_repr, Nat.repr_eq_ofList_toDigits,
    Nat.repr_eq_ofList_toDigits, String.toList_ofList, String.toList_ofList] at hdigits
  have hvalue := congrArg (fun ds => Nat.ofDigitChars 10 ds 0) hdigits
  simpa using hvalue

/-- A separator ends what does not contain it. -/
lemma List.append_cons_inj_of_separator {α : Type} {a : α} {xs ys zs ws : List α} (hx : a ∉ xs) (hy : a ∉ ys)
    (h : xs ++ a :: zs = ys ++ a :: ws) : xs = ys ∧ zs = ws := by
  induction xs generalizing ys with
  | nil =>
    cases ys with
    | nil => exact ⟨rfl, List.tail_eq_of_cons_eq h⟩
    | cons y ys =>
      obtain ⟨rfl, -⟩ := List.cons.inj h
      exact absurd List.mem_cons_self hy
  | cons x xs ih =>
    cases ys with
    | nil =>
      obtain ⟨rfl, -⟩ := List.cons.inj h
      exact absurd List.mem_cons_self hx
    | cons y ys =>
      rw [List.mem_cons, not_or] at hx hy
      obtain ⟨rfl, htail⟩ := List.cons.inj h
      obtain ⟨rfl, hrest⟩ := ih hx.2 hy.2 htail
      exact ⟨rfl, hrest⟩

/-- A separator begins what does not contain it. -/
lemma List.append_cons_inj_of_last_separator {α : Type} {a : α} {xs ys zs ws : List α} (hx : a ∉ xs)
    (hy : a ∉ ys) (h : zs ++ a :: xs = ws ++ a :: ys) : zs = ws ∧ xs = ys := by
  have hreverse := congrArg List.reverse h
  simp only [List.reverse_append, List.reverse_cons, List.append_assoc, List.singleton_append]
    at hreverse
  obtain ⟨hback, hfront⟩ :=
    List.append_cons_inj_of_separator (by simpa using hx) (by simpa using hy) hreverse
  exact ⟨List.reverse_injective hfront, List.reverse_injective hback⟩

/-- A field with its length in front. -/
def lengthPrefixed (bs : Bytes) : Bytes := utf8 (toString bs.length) ++ utf8 " " ++ bs

/-- A field ends where its length says. -/
theorem lengthPrefixed_append_inj {as bs r r' : Bytes}
    (h : lengthPrefixed as ++ r = lengthPrefixed bs ++ r') : as = bs ∧ r = r' := by
  simp only [lengthPrefixed, utf8_blank, List.append_assoc, List.singleton_append] at h
  obtain ⟨hlength, hrest⟩ :=
    List.append_cons_inj_of_separator (blankByte_notMem_decimal _) (blankByte_notMem_decimal _) h
  exact List.append_inj hrest (decimal_injective hlength)
