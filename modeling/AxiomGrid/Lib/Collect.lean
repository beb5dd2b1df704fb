import Mathlib.Algebra.GroupWithZero.Nat
import Mathlib.Data.List.Forall2
import AxiomGrid.Lib.Loop

/-!
# Loops that collect what they accept

A loop that reads each element, checks what it read against its state and adds it. Such a loop succeeds
iff all elements can be read and are accepted one after the other (`List.foldlM_ok_iff`); the other
lemmas say what that means for the checks a loop makes: one that ignores the state, a key that has to be
new, and a total with a limit.
-/

universe v

namespace Except

lemma bind_eq_ok_iff {ε : Type*} {α β : Type v} {x : Except ε α} {f : α → Except ε β} {b : β} :
    x >>= f = .ok b ↔ ∃ a, x = .ok a ∧ f a = .ok b := by
  constructor
  · exact of_bind_eq_ok
  · rintro ⟨a, rfl, h⟩
    exact h

end Except

namespace List

variable {α ε : Type*}

/-- A comprehension succeeds iff the body does so on every element. -/
lemma mapM_eq_ok_iff {β : Type v} {f : α → Except ε β} {xs : List α} {ys : List β} :
    xs.mapM f = .ok ys ↔ Forall₂ (fun x y => f x = .ok y) xs ys := by
  induction xs generalizing ys with
  | nil =>
    rw [mapM_nil, forall₂_nil_left_iff, Except.pure_eq, Except.ok.injEq, eq_comm]
  | cons x xs ih =>
    simp only [mapM_cons, Except.bind_eq_ok_iff, Except.pure_eq, Except.ok.injEq, ih,
      forall₂_cons_left_iff]
    constructor
    · rintro ⟨y, hy, ys', hys, rfl⟩
      exact ⟨y, ys', hy, hys, rfl⟩
    · rintro ⟨y, ys', hy, hys, rfl⟩
      exact ⟨y, hy, ys', hys, rfl⟩

/-- What a comprehension returns comes from an element. -/
lemma exists_of_mem_mapM {β : Type v} {f : α → Except ε β} {xs : List α} {ys : List β}
    (h : xs.mapM f = .ok ys) {y : β} (hy : y ∈ ys) : ∃ x ∈ xs, f x = .ok y := by
  induction mapM_eq_ok_iff.mp h with
  | nil => cases hy
  | cons hhead htail ih =>
    obtain rfl | hy := List.mem_cons.mp hy
    · exact ⟨_, mem_cons_self, hhead⟩
    · obtain ⟨x, hx, heq⟩ := ih (mapM_eq_ok_iff.mpr htail) hy
      exact ⟨x, mem_cons_of_mem _ hx, heq⟩

/-- A comprehension returns what it makes of each element. -/
lemma exists_mem_of_mapM {β : Type v} {f : α → Except ε β} {xs : List α} {ys : List β}
    (h : xs.mapM f = .ok ys) {x : α} (hx : x ∈ xs) : ∃ y ∈ ys, f x = .ok y := by
  induction mapM_eq_ok_iff.mp h with
  | nil => cases hx
  | cons hhead htail ih =>
    obtain rfl | hx := List.mem_cons.mp hx
    · exact ⟨_, mem_cons_self, hhead⟩
    · obtain ⟨y, hy, heq⟩ := ih (mapM_eq_ok_iff.mpr htail) hx
      exact ⟨y, mem_cons_of_mem _ hy, heq⟩

variable {σ β : Type v}

/-- Every element is accepted in the state that the ones before it lead to. -/
def Accepted (add : σ → β → σ) (accepts : σ → β → Prop) : σ → List β → Prop
  | _, [] => True
  | s, b :: bs => accepts s b ∧ Accepted add accepts (add s b) bs

section

variable {add : σ → β → σ} {accepts accepts' : σ → β → Prop}

/-- A loop whose body reads an element, checks it against the state and adds it reads all elements,
and they are accepted one after the other. -/
lemma foldlM_ok_iff {f : σ → α → Except ε σ} {reads : α → β → Prop}
    (hstep : ∀ s x s', f s x = .ok s' ↔ ∃ b, reads x b ∧ accepts s b ∧ s' = add s b)
    {xs : List α} {s s' : σ} :
    xs.foldlM f s = .ok s' ↔
      ∃ bs, Forall₂ reads xs bs ∧ Accepted add accepts s bs ∧ s' = bs.foldl add s := by
  induction xs generalizing s with
  | nil =>
    simp only [foldlM_nil, Except.pure_eq, Except.ok.injEq, forall₂_nil_left_iff]
    constructor
    · rintro rfl
      exact ⟨[], rfl, trivial, rfl⟩
    · rintro ⟨bs, rfl, -, rfl⟩
      rfl
  | cons x xs ih =>
    simp only [foldlM_cons, Except.bind_eq_ok_iff, hstep, ih, forall₂_cons_left_iff]
    constructor
    · rintro ⟨mid, ⟨b, hread, haccept, rfl⟩, bs, hreads, haccepts, rfl⟩
      exact ⟨b :: bs, ⟨b, bs, hread, hreads, rfl⟩, ⟨haccept, haccepts⟩, rfl⟩
    · rintro ⟨bs, ⟨b, bs, hread, hreads, rfl⟩, ⟨haccept, haccepts⟩, rfl⟩
      exact ⟨add s b, ⟨b, hread, haccept, rfl⟩, bs, hreads, haccepts, rfl⟩

lemma accepted_and {s : σ} {bs : List β} :
    Accepted add (fun s b => accepts s b ∧ accepts' s b) s bs ↔
      Accepted add accepts s bs ∧ Accepted add accepts' s bs := by
  induction bs generalizing s with
  | nil => simp [Accepted]
  | cons b bs ih =>
    simp only [Accepted, ih]
    tauto

lemma accepted_const {P : β → Prop} {s : σ} {bs : List β} :
    Accepted add (fun _ b => P b) s bs ↔ ∀ b ∈ bs, P b := by
  induction bs generalizing s with
  | nil => simp [Accepted]
  | cons b bs ih => simp only [Accepted, ih, forall_mem_cons]

/-- Elements whose key has to be new have distinct keys. -/
lemma accepted_not_mem {κ : Type*} {key : β → κ} {seen : σ → List κ}
    (hadd : ∀ s b, seen (add s b) = seen s ++ [key b]) {s : σ} {bs : List β} :
    Accepted add (fun s b => key b ∉ seen s) s bs ↔
      (bs.map key).Nodup ∧ ∀ b ∈ bs, key b ∉ seen s := by
  induction bs generalizing s with
  | nil => simp [Accepted]
  | cons b bs ih =>
    simp only [Accepted, ih, hadd, mem_append, mem_singleton, not_or, map_cons, nodup_cons, mem_map,
      not_exists, not_and, forall_mem_cons]
    constructor
    · rintro ⟨hb, hnodup, hbs⟩
      exact ⟨⟨fun c hc => (hbs c hc).2, hnodup⟩, hb, fun c hc => (hbs c hc).1⟩
    · rintro ⟨⟨hnew, hnodup⟩, hb, hbs⟩
      exact ⟨hb, hnodup, fun c hc => ⟨hbs c hc, hnew c hc⟩⟩

/-- Elements that keep a running total within a limit add up to at most the limit. -/
lemma accepted_total {total : σ → ℕ} {weight : β → ℕ} {limit : ℕ}
    (hadd : ∀ s b, total (add s b) = total s + weight b) {s : σ} {bs : List β}
    (hs : total s ≤ limit) :
    Accepted add (fun s b => total s + weight b ≤ limit) s bs ↔
      total s + (bs.map weight).sum ≤ limit := by
  induction bs generalizing s with
  | nil => simpa [Accepted] using hs
  | cons b bs ih =>
    rw [Accepted, map_cons, sum_cons, ← Nat.add_assoc, ← hadd]
    constructor
    · rintro ⟨hb, hbs⟩
      exact (ih hb).mp hbs
    · intro hbs
      have hb : total (add s b) ≤ limit := Nat.le_trans (Nat.le_add_right _ _) hbs
      exact ⟨hb, (ih hb).mpr hbs⟩

end

/-! ### What a loop leaves -/

/-- A loop runs to its end if its body succeeds on every element, in every state it can be in. -/
lemma exists_foldlM_ok {f : σ → α → Except ε σ} {I : σ → Prop} {xs : List α}
    (hstep : ∀ s, I s → ∀ x ∈ xs, ∃ s', f s x = .ok s' ∧ I s') {s : σ} (hs : I s) :
    ∃ s', xs.foldlM f s = .ok s' ∧ I s' := by
  induction xs generalizing s with
  | nil => exact ⟨s, rfl, hs⟩
  | cons x xs ih =>
    obtain ⟨mid, hmid, hI⟩ := hstep s hs x mem_cons_self
    obtain ⟨s', hs', hI'⟩ := ih (fun s hs y hy => hstep s hs y (mem_cons_of_mem x hy)) hI
    exact ⟨s', by rw [foldlM_cons, hmid, Except.ok_bind, hs'], hI'⟩

/-- Where every turn adds to a set what its element has, the loop adds what the elements have. -/
lemma adds_of_foldlM_ok {γ : Type*} {f : σ → α → Except ε σ} {I : σ → Prop} {P : σ → γ → Prop}
    {Q : α → γ → Prop} {xs : List α}
    (hstep : ∀ s, I s → ∀ x ∈ xs, ∀ s', f s x = .ok s' → I s' ∧ ∀ c, P s' c ↔ P s c ∨ Q x c)
    {s s' : σ} (hs : I s) (h : xs.foldlM f s = .ok s') :
    I s' ∧ ∀ c, P s' c ↔ P s c ∨ ∃ x ∈ xs, Q x c := by
  induction xs generalizing s with
  | nil =>
    cases h
    exact ⟨hs, by simp⟩
  | cons x xs ih =>
    rw [foldlM_cons] at h
    obtain ⟨mid, hmid, h⟩ := Except.of_bind_eq_ok h
    obtain ⟨hI, hP⟩ := hstep s hs x mem_cons_self mid hmid
    obtain ⟨hI', hP'⟩ := ih (fun s hs y hy => hstep s hs y (mem_cons_of_mem x hy)) hI h
    refine ⟨hI', fun c => ?_⟩
    rw [hP', hP, exists_mem_cons_iff, or_assoc]

end List
