import Mathlib.Data.List.Basic
import Mathlib.Data.List.Forall2

/-!
# Greedy merging in one pass

The first element that is not yet used absorbs every later unused element that joins it, growing as it
goes, and is put out; then the next unused element does the same. A pass splits its input into groups
(`mergeFrom_spec`) and changes nothing exactly when no two elements join (`merge_eq_self_iff`). Its own
output need not be of that form, because an element that was passed over may join what the group has
grown into; `Settled` says that this does not happen.
-/

namespace Greedy

variable {α β : Type*}

section

variable (joins : α → α → Bool) (join : α → α → α)

/-- What `current` grows into, and which of the later elements are used then. -/
def absorb (current : α) : List α → List Bool → α × List Bool
  | x :: xs, u :: us =>
    if u then
      let r := absorb current xs us
      (r.1, true :: r.2)
    else if joins current x then
      let r := absorb (join current x) xs us
      (r.1, true :: r.2)
    else
      let r := absorb current xs us
      (r.1, false :: r.2)
  | _, _ => (current, [])

/-- The pass over the elements that are not used. -/
def mergeFrom : List α → List Bool → List α
  | x :: xs, u :: us =>
    if u then mergeFrom xs us
    else
      let r := absorb joins join x xs us
      r.1 :: mergeFrom xs r.2
  | _, _ => []

/-- One pass. -/
def merge (items : List α) : List α :=
  mergeFrom joins join items (List.replicate items.length false)

/-- `out` is what `current` grows into when it absorbs some elements one after the other. -/
def Grown (current : α) : List α → α → Prop
  | [], out => out = current
  | x :: xs, out => joins current x = true ∧ Grown (join current x) xs out

end

/-- The elements that are not used. -/
def unused : List α → List Bool → List α
  | x :: xs, u :: us => if u then unused xs us else x :: unused xs us
  | _, _ => []

@[simp] lemma unused_cons_true (x : α) (xs : List α) (us : List Bool) :
    unused (x :: xs) (true :: us) = unused xs us := rfl

@[simp] lemma unused_cons_false (x : α) (xs : List α) (us : List Bool) :
    unused (x :: xs) (false :: us) = x :: unused xs us := rfl

@[simp] lemma unused_replicate (items : List α) :
    unused items (List.replicate items.length false) = items := by
  induction items with
  | nil => rfl
  | cons x xs ih => simp [List.replicate_succ, ih]

/-- Induction on elements with a mark each, used or free; the marks behind may have changed. -/
@[elab_as_elim]
lemma induction_marks {motive : ∀ (xs : List α) (us : List Bool), us.length = xs.length → Prop}
    {xs : List α} {us : List Bool} (hlen : us.length = xs.length) (nil : motive [] [] rfl)
    (used : ∀ x xs us (hlen : us.length = xs.length),
      (∀ {us'} (hlen' : us'.length = xs.length), motive xs us' hlen') →
      motive (x :: xs) (true :: us) (congrArg (· + 1) hlen))
    (free : ∀ x xs us (hlen : us.length = xs.length),
      (∀ {us'} (hlen' : us'.length = xs.length), motive xs us' hlen') →
      motive (x :: xs) (false :: us) (congrArg (· + 1) hlen)) : motive xs us hlen := by
  induction xs generalizing us with
  | nil =>
    obtain rfl := List.length_eq_zero_iff.mp hlen
    exact nil
  | cons x xs ih =>
    obtain _ | ⟨u, us⟩ := us
    · cases hlen
    · have hlen' : us.length = xs.length := Nat.succ.inj hlen
      cases u with
      | true => exact used x xs us hlen' ih
      | false => exact free x xs us hlen' ih

variable {joins : α → α → Bool} {join : α → α → α}

lemma absorb_cons_true (current x : α) (xs : List α) (us : List Bool) :
    absorb joins join current (x :: xs) (true :: us) =
      ((absorb joins join current xs us).1, true :: (absorb joins join current xs us).2) := rfl

lemma mergeFrom_cons_false (x : α) (xs : List α) (us : List Bool) :
    mergeFrom joins join (x :: xs) (false :: us) =
      (absorb joins join x xs us).1 :: mergeFrom joins join xs (absorb joins join x xs us).2 := rfl

/-! ### Groups -/

/-- An element absorbs some of the unused elements, in their order, and leaves the others. -/
lemma absorb_spec (current : α) {xs : List α} {us : List Bool} (hlen : us.length = xs.length) :
    (absorb joins join current xs us).2.length = xs.length ∧
      (unused xs (absorb joins join current xs us).2).Sublist (unused xs us) ∧
      ∃ taken, Grown joins join current taken (absorb joins join current xs us).1 ∧
        taken.Sublist (unused xs us) ∧
        (taken ++ unused xs (absorb joins join current xs us).2).Perm (unused xs us) := by
  induction hlen using induction_marks generalizing current with
  | nil => simp [absorb, unused, Grown]
  | used x xs us hlen ih =>
    obtain ⟨hlen', hleft, taken, hgrown, htaken, hperm⟩ := ih hlen current
    exact ⟨congrArg (· + 1) hlen', hleft, taken, hgrown, htaken, hperm⟩
  | free x xs us hlen ih =>
    rw [absorb, if_neg Bool.false_ne_true]
    split_ifs with hjoin
    · obtain ⟨hlen', hleft, taken, hgrown, htaken, hperm⟩ := ih hlen (join current x)
      exact ⟨congrArg (· + 1) hlen', hleft.cons x, x :: taken, ⟨hjoin, hgrown⟩, htaken.cons_cons x,
        hperm.cons x⟩
    · obtain ⟨hlen', hleft, taken, hgrown, htaken, hperm⟩ := ih hlen current
      exact ⟨congrArg (· + 1) hlen', hleft.cons_cons x, taken, hgrown, htaken.cons x,
        List.perm_middle.trans (hperm.cons x)⟩

variable (joins join) in
/-- A pass puts out one element for each group; the groups make up the unused elements, each is in
their order, and so are their first members. -/
lemma mergeFrom_spec {xs : List α} {us : List Bool} (hlen : us.length = xs.length) :
    ∃ groups : List (α × List α),
      List.Forall₂ (fun g out => Grown joins join g.1 g.2 out) groups (mergeFrom joins join xs us) ∧
      (∀ g ∈ groups, (g.1 :: g.2).Sublist (unused xs us)) ∧
      (groups.map Prod.fst).Sublist (unused xs us) ∧
      (groups.flatMap fun g => g.1 :: g.2).Perm (unused xs us) := by
  induction hlen using induction_marks with
  | nil => exact ⟨[], by simp [mergeFrom, unused]⟩
  | used x xs us hlen ih => exact ih hlen
  | free x xs us hlen ih =>
    obtain ⟨hlen', hleft, taken, hgrown, htaken, hperm⟩ := @absorb_spec α joins join x xs us hlen
    obtain ⟨groups, hgroups, hsub, hfirst, hall⟩ := ih hlen'
    refine ⟨(x, taken) :: groups, .cons hgrown hgroups, ?_, (hfirst.trans hleft).cons_cons x, ?_⟩
    · rw [List.forall_mem_cons]
      exact ⟨htaken.cons_cons x, fun g hg => ((hsub g hg).trans hleft).cons x⟩
    · rw [List.flatMap_cons, List.cons_append]
      exact ((hall.append_left taken).trans hperm).cons x

/-! ### Positions -/

section

variable {joins' : β → β → Bool} {join' : β → β → β} {f : β → α}

lemma absorb_map (hjoins : ∀ a b, joins' a b = joins (f a) (f b))
    (hjoin : ∀ a b, f (join' a b) = join (f a) (f b)) (current : β) (xs : List β) (us : List Bool) :
    absorb joins join (f current) (xs.map f) us =
      (f (absorb joins' join' current xs us).1, (absorb joins' join' current xs us).2) := by
  induction xs generalizing current us with
  | nil => rfl
  | cons x xs ih =>
    cases us with
    | nil => rfl
    | cons u us =>
      rw [List.map_cons, absorb, absorb, ← hjoins, ← hjoin, ih, ih]
      split_ifs <;> rfl

lemma mergeFrom_map (hjoins : ∀ a b, joins' a b = joins (f a) (f b))
    (hjoin : ∀ a b, f (join' a b) = join (f a) (f b)) (xs : List β) (us : List Bool) :
    mergeFrom joins join (xs.map f) us = (mergeFrom joins' join' xs us).map f := by
  induction xs generalizing us with
  | nil => rfl
  | cons x xs ih =>
    cases us with
    | nil => rfl
    | cons u us =>
      rw [List.map_cons, mergeFrom, mergeFrom, absorb_map hjoins hjoin]
      split_ifs
      · exact ih us
      · exact congrArg _ (ih _)

lemma Grown.map (hjoins : ∀ a b, joins' a b = joins (f a) (f b))
    (hjoin : ∀ a b, f (join' a b) = join (f a) (f b)) {current out : β} {taken : List β}
    (h : Grown joins' join' current taken out) :
    Grown joins join (f current) (taken.map f) (f out) := by
  induction taken generalizing current with
  | nil => exact congrArg f h
  | cons x xs ih =>
    refine ⟨by rw [← hjoins]; exact h.1, ?_⟩
    rw [← hjoin]
    exact ih h.2

end

variable (joins join) in
/-- The groups as positions: they split the positions, each group is ascending, they stand in the order
of their first members, and each output is grown from the elements of its group. -/
theorem merge_spec (items : List α) :
    ∃ groups : List (List ℕ),
      groups.flatten.Perm (List.range items.length) ∧
      (∀ g ∈ groups, g.Pairwise (· < ·)) ∧
      (groups.filterMap List.head?).Pairwise (· < ·) ∧
      List.Forall₂ (fun g out => ∃ first taken, g.map (items[·]?) = (first :: taken).map some ∧
        Grown joins join first taken out) groups (merge joins join items) := by
  -- the same pass over the elements with their positions
  let joins' : α × ℕ → α × ℕ → Bool := fun p q => joins p.1 q.1
  let join' : α × ℕ → α × ℕ → α × ℕ := fun p q => (join p.1 q.1, p.2)
  have hitems : items.zipIdx.map Prod.fst = items := List.zipIdx_map_fst 0 items
  have hpositions : items.zipIdx.map Prod.snd = List.range items.length := by
    rw [List.zipIdx_map_snd, List.range_eq_range']
  have hlen : (List.replicate items.zipIdx.length false).length = items.zipIdx.length :=
    List.length_replicate
  obtain ⟨groups, hgrown, hsub, hfirst, hall⟩ := mergeFrom_spec joins' join' hlen
  rw [unused_replicate] at hsub hfirst hall
  refine ⟨groups.map fun g => (g.1 :: g.2).map Prod.snd, ?_, ?_, ?_, ?_⟩
  · have hflat := hall.map Prod.snd
    rw [hpositions, List.map_flatMap] at hflat
    rwa [← List.flatMap_def]
  · rw [List.forall_mem_map]
    intro g hg
    have hlt := (hsub g hg).map Prod.snd
    rw [hpositions] at hlt
    exact List.pairwise_lt_range.sublist hlt
  · have hlt := hfirst.map Prod.snd
    rw [hpositions, List.map_map] at hlt
    rw [List.filterMap_map]
    change (groups.filterMap (some ∘ (Prod.snd ∘ Prod.fst))).Pairwise (· < ·)
    rw [List.filterMap_eq_map]
    exact List.pairwise_lt_range.sublist hlt
  · have hmerge := @mergeFrom_map α (α × ℕ) joins join joins' join' Prod.fst (fun _ _ => rfl)
      (fun _ _ => rfl) items.zipIdx (List.replicate items.length false)
    rw [hitems] at hmerge
    rw [merge, hmerge, List.forall₂_map_left_iff, List.forall₂_map_right_iff]
    rw [List.length_zipIdx] at hgrown
    have hat : ∀ g ∈ groups, (g.1 :: g.2).map (fun p => items[p.2]?) =
        (g.1 :: g.2).map fun p => some p.1 := by
      intro g hg
      rw [List.map_inj_left]
      exact fun p hp => List.mem_zipIdx_iff_getElem?.mp ((hsub g hg).subset hp)
    refine ((List.forall₂_and_left _ _).mpr ⟨hat, hgrown⟩).imp fun g out hg => ?_
    have hgrown' : Grown joins join g.1.1 (g.2.map Prod.fst) out.1 :=
      hg.2.map (f := Prod.fst) (fun _ _ => rfl) (fun _ _ => rfl)
    refine ⟨g.1.1, g.2.map Prod.fst, ?_, hgrown'⟩
    rw [← List.map_cons, List.map_map, List.map_map]
    exact hg.1

/-! ### A second pass -/

lemma length_mergeFrom_le {xs : List α} {us : List Bool} (hlen : us.length = xs.length) :
    (mergeFrom joins join xs us).length ≤ (unused xs us).length := by
  obtain ⟨groups, hgrown, -, hfirst, -⟩ := mergeFrom_spec joins join hlen
  rw [← hgrown.length_eq, ← List.length_map Prod.fst]
  exact hfirst.length_le

/-- An element that joins no unused element absorbs nothing. -/
lemma absorb_eq_self {current : α} {xs : List α} {us : List Bool} (hlen : us.length = xs.length)
    (h : ∀ x ∈ unused xs us, joins current x = false) :
    absorb joins join current xs us = (current, us) := by
  induction hlen using induction_marks with
  | nil => rfl
  | used x xs us hlen ih => rw [absorb_cons_true, ih hlen h]
  | free x xs us hlen ih =>
    rw [unused_cons_false, List.forall_mem_cons] at h
    rw [absorb, if_neg Bool.false_ne_true, h.1, if_neg Bool.false_ne_true, ih hlen h.2]

/-- An element that leaves all unused elements joins none of them. -/
lemma not_joins_of_length {current : α} {xs : List α} {us : List Bool} (hlen : us.length = xs.length)
    (h : (unused xs us).length ≤ (unused xs (absorb joins join current xs us).2).length) :
    ∀ x ∈ unused xs us, joins current x = false := by
  induction hlen using induction_marks with
  | nil => simp [unused]
  | used x xs us hlen ih => exact ih hlen h
  | free x xs us hlen ih =>
    rw [absorb, if_neg Bool.false_ne_true, unused_cons_false, List.length_cons] at h
    split_ifs at h with hjoin
    · have hleft := (@absorb_spec α joins join (join current x) xs us hlen).2.1.length_le
      rw [unused_cons_true] at h
      omega
    · rw [unused_cons_false, List.forall_mem_cons]
      exact ⟨Bool.eq_false_iff.mpr hjoin, ih hlen (Nat.le_of_succ_le_succ h)⟩

/-- A pass over elements that do not join puts them out as they are. -/
lemma mergeFrom_eq_unused {xs : List α} {us : List Bool} (hlen : us.length = xs.length)
    (h : (unused xs us).Pairwise fun a b => joins a b = false) :
    mergeFrom joins join xs us = unused xs us := by
  induction hlen using induction_marks with
  | nil => rfl
  | used x xs us hlen ih => exact ih hlen h
  | free x xs us hlen ih =>
    rw [unused_cons_false, List.pairwise_cons] at h
    rw [mergeFrom_cons_false, absorb_eq_self hlen h.1, ih hlen h.2, unused_cons_false]

lemma pairwise_of_length {xs : List α} {us : List Bool} (hlen : us.length = xs.length)
    (h : (unused xs us).length ≤ (mergeFrom joins join xs us).length) :
    (unused xs us).Pairwise fun a b => joins a b = false := by
  induction hlen using induction_marks with
  | nil => exact .nil
  | used x xs us hlen ih => exact ih hlen h
  | free x xs us hlen ih =>
    have hlen' := (@absorb_spec α joins join x xs us hlen).1
    have hle := @length_mergeFrom_le α joins join xs _ hlen'
    rw [unused_cons_false, mergeFrom_cons_false, List.length_cons, List.length_cons,
      Nat.add_le_add_iff_right] at h
    have hnone := @not_joins_of_length α joins join x xs us hlen (by omega)
    rw [absorb_eq_self hlen hnone] at h
    exact .cons hnone (ih hlen h)

/-- A pass leaves its input as it is exactly when no two elements join. -/
theorem merge_eq_self_iff {items : List α} :
    merge joins join items = items ↔ items.Pairwise fun a b => joins a b = false := by
  have hlen : (List.replicate items.length false).length = items.length := List.length_replicate
  constructor
  · intro h
    have hpairs := @pairwise_of_length α joins join items _ hlen
    rw [unused_replicate] at hpairs
    exact hpairs (Nat.le_of_eq (congrArg List.length h).symm)
  · intro h
    have hself := @mergeFrom_eq_unused α joins join items _ hlen
    rw [unused_replicate] at hself
    exact hself h

variable (joins join) in
/-- What has been put out joins nothing that is left over. -/
def SettledFrom : List α → List Bool → Prop
  | x :: xs, u :: us =>
    if u then SettledFrom xs us
    else
      let r := absorb joins join x xs us
      (∀ y ∈ unused xs r.2, joins r.1 y = false) ∧ SettledFrom xs r.2
  | _, _ => True

variable (joins join) in
/-- Whenever a group is put out it joins none of the elements that are left over. -/
def Settled (items : List α) : Prop :=
  SettledFrom joins join items (List.replicate items.length false)

lemma exists_of_forall₂ {R : β → α → Prop} {xs : List β} {ys : List α} (h : List.Forall₂ R xs ys)
    {y : α} (hy : y ∈ ys) : ∃ x ∈ xs, R x y := by
  induction h with
  | nil => cases hy
  | cons hxy _ ih =>
    rcases List.mem_cons.mp hy with rfl | hy
    · exact ⟨_, List.mem_cons_self, hxy⟩
    · exact (ih hy).imp fun x hx => ⟨List.mem_cons_of_mem _ hx.1, hx.2⟩

section

variable (hjoin : ∀ e a b, joins a b = true → joins e a = false → joins e b = false →
  joins e (join a b) = false)

include hjoin

lemma Grown.not_joins {e current out : α} {taken : List α} (h : Grown joins join current taken out)
    (hcurrent : joins e current = false) (htaken : ∀ x ∈ taken, joins e x = false) :
    joins e out = false := by
  induction taken generalizing current with
  | nil => rwa [show out = current from h]
  | cons x xs ih =>
    rw [List.forall_mem_cons] at htaken
    exact ih h.2 (hjoin e current x h.1 hcurrent htaken.1) htaken.2

/-- In a settled pass no two of the elements that are put out join. -/
lemma pairwise_of_settledFrom {xs : List α} {us : List Bool} (hlen : us.length = xs.length)
    (h : SettledFrom joins join xs us) :
    (mergeFrom joins join xs us).Pairwise fun a b => joins a b = false := by
  induction hlen using induction_marks with
  | nil => exact .nil
  | used x xs us hlen ih => exact ih hlen h
  | free x xs us hlen ih =>
    rw [SettledFrom, if_neg Bool.false_ne_true] at h
    have hlen' := (@absorb_spec α joins join x xs us hlen).1
    obtain ⟨groups, hgrown, hsub, -, -⟩ := mergeFrom_spec joins join hlen'
    refine .cons ?_ (ih hlen' h.2)
    -- a later output is grown from elements that were left over
    intro out hout
    obtain ⟨g, hg, hout⟩ := exists_of_forall₂ hgrown hout
    have hleft : ∀ y ∈ g.1 :: g.2, joins _ y = false := fun y hy => h.1 y ((hsub g hg).subset hy)
    rw [List.forall_mem_cons] at hleft
    exact hout.not_joins hjoin hleft.1 hleft.2

theorem pairwise_merge_of_settled {items : List α} (h : Settled joins join items) :
    (merge joins join items).Pairwise fun a b => joins a b = false :=
  pairwise_of_settledFrom hjoin List.length_replicate h

end

end Greedy
