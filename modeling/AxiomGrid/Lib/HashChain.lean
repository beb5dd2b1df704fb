import Mathlib.Data.List.Basic
import Mathlib.Data.List.Forall2
import Mathlib.Data.List.Induction

/-!
# Hash chains

Entries that carry a hash and the hash of the entry before them. A chain that starts from a genesis
value is determined by the hash of its last entry, as soon as the hash determines an entry and is
never the genesis value.
-/

section HashChain

variable {α H : Type*} (prev hash : α → H)

/-- Each entry names the hash of the one before it, the first one the value `start`. -/
def Linked : H → List α → Prop
  | _, [] => True
  | start, a :: as => prev a = start ∧ Linked (hash a) as

/-- The hash of the last entry, or `start` if there is none. -/
def tip (start : H) (as : List α) : H := as.foldl (fun _ a => hash a) start

variable {prev hash} {start : H} {as bs : List α}

@[simp]
lemma tip_nil : tip hash start [] = start := rfl

@[simp]
lemma tip_concat {a : α} : tip hash start (as ++ [a]) = hash a := by simp [tip]

lemma tip_eq_getLast? : tip hash start as = (as.getLast?.map hash).getD start := by
  induction as using List.reverseRecOn with
  | nil => rfl
  | append_singleton as a => simp

lemma linked_append :
    Linked prev hash start (as ++ bs) ↔
      Linked prev hash start as ∧ Linked prev hash (tip hash start as) bs := by
  induction as generalizing start with
  | nil => simp [Linked]
  | cons a as ih =>
    rw [List.cons_append, Linked, Linked, ih, and_assoc]
    rfl

lemma linked_concat {a : α} :
    Linked prev hash start (as ++ [a]) ↔
      Linked prev hash start as ∧ prev a = tip hash start as := by
  simp [linked_append, Linked]

/-- Two chains from the same start whose last hashes agree match entry by entry. -/
theorem Linked.forall₂_of_tip_eq {R : α → α → Prop} (has : Linked prev hash start as)
    (hbs : Linked prev hash start bs)
    (hinj : ∀ a ∈ as, ∀ b ∈ bs, hash a = hash b → R a b ∧ prev a = prev b)
    (hstart : ∀ a ∈ as, hash a ≠ start) (hstart' : ∀ b ∈ bs, hash b ≠ start)
    (htip : tip hash start as = tip hash start bs) : List.Forall₂ R as bs := by
  induction as using List.reverseRecOn generalizing bs with
  | nil =>
    induction bs using List.reverseRecOn with
    | nil => exact .nil
    | append_singleton bs b =>
      rw [tip_nil, tip_concat] at htip
      exact absurd htip.symm (hstart' b (by simp))
  | append_singleton as a ih =>
    induction bs using List.reverseRecOn with
    | nil =>
      rw [tip_nil, tip_concat] at htip
      exact absurd htip (hstart a (by simp))
    | append_singleton bs b =>
      rw [tip_concat, tip_concat] at htip
      obtain ⟨hab, hprev⟩ := hinj a (by simp) b (by simp) htip
      rw [linked_concat] at has hbs
      -- the entries before the last ones again end in one hash
      have hrest : List.Forall₂ R as bs := by
        apply ih has.1 hbs.1
        · intro x hx y hy
          exact hinj x (by simp [hx]) y (by simp [hy])
        · intro x hx
          exact hstart x (by simp [hx])
        · intro y hy
          exact hstart' y (by simp [hy])
        · rw [← has.2, ← hbs.2, hprev]
      exact List.rel_append hrest (.cons hab .nil)

end HashChain
