import Mathlib.Algebra.GroupWithZero.Nat
import Mathlib.Data.List.Basic
import Mathlib.Tactic.Common

/-!
# Splitting at the top level

A list is split at the separators that stand where a running state, such as the depth of the open
parentheses, is the one it started with. What the list is split into is determined by two conditions:
no piece has a separator at the top level, and each piece but the last one leads back to the start.
-/

namespace TopLevel

variable {α σ : Type*} (step : σ → α → σ) (start : σ) (sep : α)

/-- No separator in the piece is at the top level. -/
def Whole (piece : List α) : Prop :=
  ∀ left right, piece = left ++ sep :: right → left.foldl step start ≠ start

/-- The pieces are whole, and each but the last one leads back to the start. -/
def Separated (pieces : List (List α)) : Prop :=
  (∀ piece ∈ pieces, Whole step start sep piece) ∧
    ∀ piece ∈ pieces.dropLast, piece.foldl step start = start

variable {step start sep} {pieces : List (List α)} {piece : List α} {xs : List α}

lemma whole_nil : Whole step start sep [] := fun _ _ h => absurd h (by simp)

lemma Whole.concat {x : α} (h : Whole step start sep piece)
    (hx : ¬(x = sep ∧ piece.foldl step start = start)) : Whole step start sep (piece ++ [x]) := by
  intro left right hsplit hstart
  obtain rfl | ⟨right, y, rfl⟩ := right.eq_nil_or_concat
  · obtain ⟨rfl, hsep⟩ := List.append_inj' hsplit rfl
    exact hx ⟨List.singleton_inj.mp hsep, hstart⟩
  · rw [List.concat_eq_append, ← List.cons_append, ← List.append_assoc] at hsplit
    exact h left right (List.append_inj' hsplit rfl).1 hstart

lemma Separated.cons (hpiece : Whole step start sep piece) (hstart : piece.foldl step start = start)
    (h : Separated step start sep pieces) : Separated step start sep (piece :: pieces) := by
  refine ⟨List.forall_mem_cons.mpr ⟨hpiece, h.1⟩, ?_⟩
  intro p hp
  cases pieces with
  | nil => cases hp
  | cons q qs =>
    obtain rfl | hp := List.mem_cons.mp hp
    · exact hstart
    · exact h.2 p hp

variable [DecidableEq α] [DecidableEq σ]

variable (step start sep) in
/-- The loop, with the state and the piece that was begun. -/
def split : List α → σ → List α → List (List α)
  | [], _, piece => [piece]
  | x :: xs, s, piece =>
    if x = sep ∧ s = start then piece :: split xs start [] else split xs (step s x) (piece ++ [x])

lemma split_ne_nil {s : σ} : split step start sep xs s piece ≠ [] := by
  induction xs generalizing s piece with
  | nil => exact List.cons_ne_nil _ _
  | cons x xs ih =>
    rw [split]
    split_ifs
    · exact List.cons_ne_nil _ _
    · exact ih

/-- What a list is split into are separated pieces of it. -/
lemma separated_split (h : Whole step start sep piece) :
    [sep].intercalate (split step start sep xs (piece.foldl step start) piece) = piece ++ xs ∧
      Separated step start sep (split step start sep xs (piece.foldl step start) piece) := by
  induction xs generalizing piece with
  | nil => exact ⟨by simp [split], List.forall_mem_singleton.mpr h, by simp [split]⟩
  | cons x xs ih =>
    rw [split]
    split_ifs with hx
    · obtain ⟨rfl, hstart⟩ := hx
      obtain ⟨hjoin, hsep⟩ := ih whole_nil
      rw [List.foldl_nil, List.nil_append] at hjoin
      have hne : split step start x xs start [] ≠ [] := split_ne_nil
      obtain ⟨q, qs, hpieces⟩ := List.exists_cons_of_ne_nil hne
      refine ⟨?_, hsep.cons h hstart⟩
      rw [hpieces] at hjoin ⊢
      rw [List.intercalate_cons_cons, hjoin, List.append_assoc, List.singleton_append]
    · have hnext := ih (h.concat hx)
      rw [List.foldl_concat, List.append_assoc, List.singleton_append] at hnext
      exact hnext

variable (step start sep) in
lemma separated_split_nil (xs : List α) :
    [sep].intercalate (split step start sep xs start []) = xs ∧
      Separated step start sep (split step start sep xs start []) := by
  have h := @separated_split _ _ step start sep [] xs _ _ whole_nil
  rwa [List.foldl_nil, List.nil_append] at h

lemma split_append {tail : List α} (h : Whole step start sep (piece ++ tail)) :
    split step start sep (tail ++ xs) (piece.foldl step start) piece =
      split step start sep xs ((piece ++ tail).foldl step start) (piece ++ tail) := by
  induction tail generalizing piece with
  | nil => rw [List.append_nil, List.nil_append]
  | cons x tail ih =>
    have hnot : ¬(x = sep ∧ piece.foldl step start = start) := by
      rintro ⟨rfl, hstart⟩
      exact h piece tail rfl hstart
    have hnext := @ih (piece ++ [x]) (by simpa using h)
    rw [List.foldl_concat, List.append_assoc, List.singleton_append] at hnext
    rw [List.cons_append, split, if_neg hnot, hnext]

/-- Separated pieces are what the list that they make up is split into. -/
lemma split_intercalate (hne : pieces ≠ []) (h : Separated step start sep pieces) :
    split step start sep ([sep].intercalate pieces) start [] = pieces := by
  induction pieces with
  | nil => exact absurd rfl hne
  | cons piece pieces ih =>
    obtain ⟨hpiece, hpieces⟩ := List.forall_mem_cons.mp h.1
    have hfirst : ∀ xs, split step start sep (piece ++ xs) start [] =
        split step start sep xs (piece.foldl step start) piece :=
      fun xs => split_append (show Whole step start sep ([] ++ piece) from hpiece)
    cases pieces with
    | nil =>
      have hend := hfirst []
      rw [List.append_nil] at hend
      rw [List.intercalate_singleton, hend, split]
    | cons q qs =>
      have hstart := h.2 piece List.mem_cons_self
      have hrest := ih (List.cons_ne_nil _ _) ⟨hpieces, fun p hp => h.2 p (List.mem_cons_of_mem _ hp)⟩
      rw [List.intercalate_cons_cons, List.append_assoc, hfirst, List.singleton_append, split,
        if_pos ⟨rfl, hstart⟩, hrest]

/-! ### Pieces that are joined -/

omit [DecidableEq σ]

lemma count_intercalate {x : α} (hne : pieces ≠ []) :
    ([sep].intercalate pieces).count x =
      (pieces.map (List.count x)).sum + (pieces.length - 1) * [sep].count x := by
  induction pieces with
  | nil => exact absurd rfl hne
  | cons piece pieces ih =>
    cases pieces with
    | nil => simp
    | cons q qs =>
      rw [List.intercalate_cons_cons, List.count_append, List.count_append, ih (List.cons_ne_nil _ _)]
      simp only [List.map_cons, List.sum_cons, List.length_cons, Nat.add_sub_cancel, Nat.add_mul]
      omega

/-- Pieces with as many separators each make up one list only if they are the same. -/
lemma eq_of_intercalate_eq {pieces' : List (List α)}
    (hcount : pieces.map (List.count sep) = pieces'.map (List.count sep))
    (h : [sep].intercalate pieces = [sep].intercalate pieces') : pieces = pieces' := by
  have hshort : ∀ {p q r : List α}, p.count sep = q.count sep → ∀ r', p ++ sep :: r = q ++ sep :: r' →
      q.length ≤ p.length := by
    intro p q r hpq r' heq
    by_contra hlt
    -- the longer piece goes on with the separator that ends the shorter one
    have hprefix : p ++ [sep] <+: q := by
      refine List.prefix_of_prefix_length_le ?_ (List.prefix_append q (sep :: r')) ?_
      · rw [← heq]
        exact ⟨r, by simp⟩
      · rw [List.length_append, List.length_singleton]
        exact Nat.lt_of_not_le hlt
    have hle := hprefix.sublist.count_le sep
    simp only [List.count_append, List.count_singleton_self] at hle
    omega
  induction pieces generalizing pieces' with
  | nil => simpa using hcount
  | cons p ps ih =>
    cases pieces' with
    | nil => simp at hcount
    | cons q qs =>
      obtain ⟨hhead, htail⟩ := List.cons_eq_cons.mp hcount
      obtain _ | ⟨p', ps⟩ := ps
      · obtain _ | ⟨q', qs⟩ := qs
        · simpa using h
        · simp at htail
      · obtain _ | ⟨q', qs⟩ := qs
        · simp at htail
        · rw [List.intercalate_cons_cons, List.intercalate_cons_cons, List.append_assoc,
            List.append_assoc, List.singleton_append, List.singleton_append] at h
          have hlength := Nat.le_antisymm (hshort hhead.symm _ h.symm) (hshort hhead _ h)
          obtain ⟨rfl, hrest⟩ := List.append_inj h hlength
          rw [ih htail (List.cons.inj hrest).2]

omit [DecidableEq α] in
lemma getLast?_intercalate {last : List α} (hlast : last ≠ []) (h : last ∈ pieces.getLast?) :
    ([sep].intercalate pieces).getLast? = last.getLast? := by
  induction pieces with
  | nil => cases h
  | cons piece pieces ih =>
    cases pieces with
    | nil => rw [List.intercalate_singleton, show piece = last from Option.some.inj h]
    | cons q qs =>
      have hrest := ih h
      have hsome : last.getLast?.isSome := by simpa using hlast
      rw [List.intercalate_cons_cons, List.getLast?_append, hrest, Option.or_of_isSome hsome]

end TopLevel
