import Mathlib.Data.List.Infix
import Mathlib.Tactic.Common

/-!
# Deleting words and blocks

A list without the occurrences of a word, and a list without its blocks: a block begins with a marker and
ends at the bracket that closes it, or with the list. The loop over the blocks counts brackets; what it
leaves is described by a relation, and is the same after every element is encoded.
-/

variable {α β : Type*} [DecidableEq α] [DecidableEq β]

namespace List

/-- The loop of `eraseWord`; `skip` elements belong to an occurrence. -/
def eraseFrom (word : List α) : ℕ → List α → List α
  | _, [] => []
  | skip + 1, _ :: s => eraseFrom word skip s
  | 0, x :: s =>
    if word.isPrefixOf (x :: s) then eraseFrom word (word.length - 1) s else x :: eraseFrom word 0 s

/-- `s.replace(word, "")` for a word that is not empty. -/
def eraseWord (word s : List α) : List α := eraseFrom word 0 s

lemma eraseWord_eq_self {word s : List α} (h : ¬ word <:+: s) : eraseWord word s = s := by
  induction s with
  | nil => rfl
  | cons x s ih =>
    rw [eraseWord, eraseFrom, if_neg, ← eraseWord, ih fun hs => h (hs.trans (suffix_cons x s).isInfix)]
    exact fun hbegins => h ( isPrefixOf_iff_prefix.mp hbegins).isInfix

end List

/-- What begins a block, and its brackets. The marker has opened one of them. -/
structure Blocks (α : Type*) where
  marker : List α
  opening : α
  closing : α
  marker_ne : marker ≠ []
  opening_ne : opening ≠ closing

namespace Blocks

variable (b : Blocks α)

/-- The loop of `strip`, with `depth` open brackets; `skip` elements belong to a marker. -/
def stripFrom : ℕ → ℕ → List α → List α
  | _, _, [] => []
  | skip + 1, depth, _ :: s => stripFrom skip depth s
  | 0, depth, x :: s =>
    if depth = 0 then
      if b.marker.isPrefixOf (x :: s) then stripFrom (b.marker.length - 1) 1 s
      else x :: stripFrom 0 0 s
    else if x = b.opening then stripFrom 0 (depth + 1) s
    else if x = b.closing then stripFrom 0 (depth - 1) s
    else stripFrom 0 depth s

/-- A list without its blocks. -/
def strip (s : List α) : List α := b.stripFrom 0 0 s

/-- No part of the list from its start on closes more brackets than it opens, with `depth` open before. -/
def OpenAt (depth : ℕ) (s : List α) : Prop :=
  ∀ p, p <+: s → p.count b.closing ≤ p.count b.opening + depth

/-- The second list is the first one without its blocks. -/
inductive Strips : List α → List α → Prop where
  | nil : Strips [] []
  | keep {x : α} {s t : List α} (hmarker : ¬ b.marker <+: x :: s) (h : Strips s t) :
      Strips (x :: s) (x :: t)
  | block {body s t : List α} (hopen : b.OpenAt 0 body)
      (hclosed : body.count b.closing = body.count b.opening) (h : Strips s t) :
      Strips (b.marker ++ (body ++ b.closing :: s)) t
  | unclosed {s : List α} (hopen : b.OpenAt 0 s) : Strips (b.marker ++ s) []

variable {b}

/-! ### Brackets -/

lemma openAt_nil (depth : ℕ) : b.OpenAt depth [] := by
  intro p hp
  rw [List.prefix_nil.mp hp]
  simp

lemma openAt_cons {depth : ℕ} {x : α} {s : List α} : b.OpenAt depth (x :: s) ↔
    ∀ p, p <+: s → (x :: p).count b.closing ≤ (x :: p).count b.opening + depth := by
  refine ⟨fun h p hp => h _ (List.cons_prefix_cons.mpr ⟨rfl, hp⟩), fun h p hp => ?_⟩
  rcases List.prefix_cons_iff.mp hp with rfl | ⟨q, rfl, hq⟩
  · simp
  · exact h q hq

@[simp] lemma openAt_opening {depth : ℕ} {s : List α} :
    b.OpenAt depth (b.opening :: s) ↔ b.OpenAt (depth + 1) s := by
  rw [openAt_cons, OpenAt]
  refine forall₂_congr fun p _ => ?_
  rw [List.count_cons_self, List.count_cons_of_ne b.opening_ne]
  omega

@[simp] lemma openAt_closing {depth : ℕ} {s : List α} :
    b.OpenAt depth (b.closing :: s) ↔ depth ≠ 0 ∧ b.OpenAt (depth - 1) s := by
  rw [openAt_cons, OpenAt]
  simp only [List.count_cons_self, List.count_cons_of_ne b.opening_ne.symm]
  constructor
  · intro h
    have hdepth : depth ≠ 0 := by
      have hstart := h [] List.nil_prefix
      simp only [List.count_nil] at hstart
      omega
    exact ⟨hdepth, fun p hp => by have := h p hp; omega⟩
  · rintro ⟨hdepth, h⟩ p hp
    have := h p hp
    omega

lemma openAt_other {depth : ℕ} {x : α} {s : List α} (hopening : x ≠ b.opening)
    (hclosing : x ≠ b.closing) : b.OpenAt depth (x :: s) ↔ b.OpenAt depth s := by
  rw [openAt_cons, OpenAt]
  simp only [List.count_cons_of_ne hopening, List.count_cons_of_ne hclosing]

/-- Either the brackets stay open, or there is a first one that closes too much. -/
lemma exists_close (depth : ℕ) (s : List α) : b.OpenAt depth s ∨ ∃ body rest,
    s = body ++ b.closing :: rest ∧ b.OpenAt depth body ∧
      body.count b.closing = body.count b.opening + depth := by
  induction s generalizing depth with
  | nil => exact .inl (openAt_nil depth)
  | cons x s ih =>
    by_cases hopening : x = b.opening
    · subst hopening
      rcases ih (depth + 1) with h | ⟨body, rest, rfl, hbody, hcount⟩
      · exact .inl (openAt_opening.mpr h)
      · refine .inr ⟨b.opening :: body, rest, rfl, openAt_opening.mpr hbody, ?_⟩
        rw [List.count_cons_self, List.count_cons_of_ne b.opening_ne, hcount]
        omega
    by_cases hclosing : x = b.closing
    · subst hclosing
      by_cases hdepth : depth = 0
      · exact .inr ⟨[], s, rfl, openAt_nil depth, by simp [hdepth]⟩
      rcases ih (depth - 1) with h | ⟨body, rest, rfl, hbody, hcount⟩
      · exact .inl (openAt_closing.mpr ⟨hdepth, h⟩)
      · refine .inr ⟨b.closing :: body, rest, rfl, openAt_closing.mpr ⟨hdepth, hbody⟩, ?_⟩
        rw [List.count_cons_self, List.count_cons_of_ne b.opening_ne.symm, hcount]
        omega
    · rcases ih depth with h | ⟨body, rest, rfl, hbody, hcount⟩
      · exact .inl ((openAt_other hopening hclosing).mpr h)
      · refine .inr ⟨x :: body, rest, rfl, (openAt_other hopening hclosing).mpr hbody, ?_⟩
        rw [List.count_cons_of_ne hopening, List.count_cons_of_ne hclosing, hcount]

/-! ### The loop -/

lemma stripFrom_eq (skip depth : ℕ) (s : List α) :
    b.stripFrom skip depth s = b.stripFrom 0 depth (s.drop skip) := by
  induction skip generalizing s with
  | zero => rfl
  | succ skip ih =>
    cases s with
    | nil => rfl
    | cons x s => exact ih s

/-- Inside of a block. -/
lemma stripFrom_succ (depth : ℕ) (x : α) (s : List α) : b.stripFrom 0 (depth + 1) (x :: s) =
    if x = b.opening then b.stripFrom 0 (depth + 2) s
    else if x = b.closing then b.stripFrom 0 depth s
    else b.stripFrom 0 (depth + 1) s := if_neg (Nat.succ_ne_zero depth)

@[simp] lemma stripFrom_opening (depth : ℕ) (s : List α) :
    b.stripFrom 0 (depth + 1) (b.opening :: s) = b.stripFrom 0 (depth + 2) s := by
  rw [stripFrom_succ, if_pos rfl]

@[simp] lemma stripFrom_closing (depth : ℕ) (s : List α) :
    b.stripFrom 0 (depth + 1) (b.closing :: s) = b.stripFrom 0 depth s := by
  rw [stripFrom_succ, if_neg b.opening_ne.symm, if_pos rfl]

lemma stripFrom_other {depth : ℕ} {x : α} {s : List α} (hopening : x ≠ b.opening)
    (hclosing : x ≠ b.closing) :
    b.stripFrom 0 (depth + 1) (x :: s) = b.stripFrom 0 (depth + 1) s := by
  rw [stripFrom_succ, if_neg hopening, if_neg hclosing]

/-- Outside of a block. -/
lemma strip_cons_eq (x : α) (s : List α) : b.strip (x :: s) =
    if b.marker.isPrefixOf (x :: s) then b.stripFrom (b.marker.length - 1) 1 s
    else x :: b.strip s := by
  show b.stripFrom 0 0 (x :: s) = _
  exact if_pos rfl

@[simp] lemma strip_nil : b.strip [] = [] := rfl

lemma strip_cons {x : α} {s : List α} (h : ¬ b.marker <+: x :: s) : b.strip (x :: s) = x :: b.strip s := by
  rw [strip_cons_eq, if_neg (mt List.isPrefixOf_iff_prefix.mp h)]

lemma strip_marker (s : List α) : b.strip (b.marker ++ s) = b.stripFrom 0 1 s := by
  obtain ⟨x, m, hm⟩ := List.exists_cons_of_ne_nil b.marker_ne
  have hbegins : b.marker.isPrefixOf (x :: (m ++ s)) = true := by
    rw [List.isPrefixOf_iff_prefix, ← List.cons_append, ← hm]
    exact List.prefix_append _ _
  rw [hm, List.cons_append, strip_cons_eq, if_pos hbegins, stripFrom_eq, hm]
  simp

/-- Where the brackets stay open, all that follows the marker belongs to the block. -/
lemma stripFrom_of_openAt {depth : ℕ} {s : List α} (h : b.OpenAt depth s) :
    b.stripFrom 0 (depth + 1) s = [] := by
  induction s generalizing depth with
  | nil => rfl
  | cons x s ih =>
    by_cases hopening : x = b.opening
    · subst hopening
      rw [stripFrom_opening, ih (openAt_opening.mp h)]
    by_cases hclosing : x = b.closing
    · subst hclosing
      obtain ⟨hdepth, h⟩ := openAt_closing.mp h
      rw [stripFrom_closing]
      simpa [Nat.sub_add_cancel (Nat.one_le_iff_ne_zero.mpr hdepth)] using ih h
    · rw [stripFrom_other hopening hclosing, ih ((openAt_other hopening hclosing).mp h)]

/-- The bracket that closes too much ends the block. -/
lemma stripFrom_of_close {depth : ℕ} {body : List α} (s : List α) (h : b.OpenAt depth body)
    (hcount : body.count b.closing = body.count b.opening + depth) :
    b.stripFrom 0 (depth + 1) (body ++ b.closing :: s) = b.strip s := by
  induction body generalizing depth with
  | nil =>
    obtain rfl : depth = 0 := by simpa using hcount.symm
    rw [List.nil_append, stripFrom_closing, strip]
  | cons x body ih =>
    rw [List.cons_append]
    by_cases hopening : x = b.opening
    · subst hopening
      rw [List.count_cons_self, List.count_cons_of_ne b.opening_ne] at hcount
      rw [stripFrom_opening, ih (openAt_opening.mp h) (by omega)]
    by_cases hclosing : x = b.closing
    · subst hclosing
      obtain ⟨hdepth, h⟩ := openAt_closing.mp h
      rw [List.count_cons_self, List.count_cons_of_ne b.opening_ne.symm] at hcount
      have hrest := ih h (by omega)
      rw [Nat.sub_add_cancel (Nat.one_le_iff_ne_zero.mpr hdepth)] at hrest
      rw [stripFrom_closing, hrest]
    · rw [List.count_cons_of_ne hopening, List.count_cons_of_ne hclosing] at hcount
      rw [stripFrom_other hopening hclosing, ih ((openAt_other hopening hclosing).mp h) hcount]

lemma strips_strip (s : List α) : b.Strips s (b.strip s) := by
  induction hn : s.length using Nat.strong_induction_on generalizing s with
  | _ n ih =>
    subst hn
    cases s with
    | nil => exact .nil
    | cons x s =>
      by_cases hbegins : b.marker <+: x :: s
      · obtain ⟨tail, htail⟩ := hbegins
        rw [← htail, strip_marker]
        rcases exists_close (b := b) 0 tail with hopen | ⟨body, rest, rfl, hopen, hcount⟩
        · rw [stripFrom_of_openAt hopen]
          exact .unclosed hopen
        · rw [stripFrom_of_close rest hopen hcount]
          refine .block hopen hcount (ih rest.length ?_ rest rfl)
          rw [← htail]
          simp only [List.length_append, List.length_cons]
          omega
      · rw [strip_cons hbegins]
        exact .keep hbegins (ih s.length (by simp) s rfl)

/-- The loop leaves the list without its blocks. -/
lemma strips_iff {s t : List α} : b.Strips s t ↔ b.strip s = t := by
  refine ⟨fun h => ?_, fun h => h ▸ strips_strip s⟩
  induction h with
  | nil => rfl
  | keep hmarker h ih => rw [strip_cons hmarker, ih]
  | block hopen hclosed h ih => rw [strip_marker, stripFrom_of_close _ hopen hclosed, ih]
  | unclosed hopen => rw [strip_marker, stripFrom_of_openAt hopen]

/-- A list without a marker has no block. -/
lemma strip_eq_self {s : List α} (h : ¬ b.marker <:+: s) : b.strip s = s := by
  induction s with
  | nil => rfl
  | cons x s ih =>
    rw [strip_cons fun hbegins => h hbegins.isInfix,
      ih fun hs => h (hs.trans (List.suffix_cons x s).isInfix)]

/-! ### Encoded blocks -/

/-- The blocks of the encoded lists: the brackets and the marker are encoded, and nothing else is encoded
with a bracket, or to what begins a marker. -/
structure Encodes (b : Blocks α) (code : α → List β) (b' : Blocks β) : Prop where
  opening : code b.opening = [b'.opening]
  closing : code b.closing = [b'.closing]
  other : ∀ x, x ≠ b.opening → x ≠ b.closing → b'.opening ∉ code x ∧ b'.closing ∉ code x
  head : b'.marker.head? = some b'.opening
  marker : b.marker.flatMap code = b'.marker
  marker_prefix : ∀ s, b'.marker <+: s.flatMap code ↔ b.marker <+: s

variable {b' : Blocks β} {code : α → List β}

/-- Outside of a block, elements that are not the opening bracket are kept. -/
lemma strip_append_of_not_mem (hhead : b.marker.head? = some b.opening) {t : List α}
    (h : b.opening ∉ t) (s : List α) : b.strip (t ++ s) = t ++ b.strip s := by
  induction t with
  | nil => rfl
  | cons x t ih =>
    have hx : x ≠ b.opening := fun hx => h (hx ▸ List.mem_cons_self)
    rw [List.cons_append, strip_cons, ih fun ht => h (List.mem_cons_of_mem x ht), List.cons_append]
    rintro ⟨rest, hrest⟩
    obtain ⟨y, m, hm⟩ := List.exists_cons_of_ne_nil b.marker_ne
    rw [hm] at hhead hrest
    exact hx ((List.cons.inj hrest).1.symm.trans (Option.some.inj hhead))

/-- Inside of a block, elements that are not brackets are skipped. -/
lemma stripFrom_append_of_not_mem {t : List α} (hopening : b.opening ∉ t) (hclosing : b.closing ∉ t)
    (depth : ℕ) (s : List α) : b.stripFrom 0 (depth + 1) (t ++ s) = b.stripFrom 0 (depth + 1) s := by
  induction t with
  | nil => rfl
  | cons x t ih =>
    rw [List.mem_cons, not_or] at hopening hclosing
    rw [List.cons_append, stripFrom_other (Ne.symm hopening.1) (Ne.symm hclosing.1),
      ih hopening.2 hclosing.2]

/-- The loop on an encoded list leaves what it leaves of the list, encoded. -/
lemma Encodes.stripFrom_flatMap (h : Encodes b code b') (depth : ℕ) (s : List α) :
    b'.stripFrom 0 depth (s.flatMap code) = (b.stripFrom 0 depth s).flatMap code := by
  induction hn : s.length using Nat.strong_induction_on generalizing s depth with
  | _ n ih =>
    subst hn
    cases s with
    | nil => rfl
    | cons x s =>
      have ihs : ∀ depth, b'.stripFrom 0 depth (s.flatMap code) =
          (b.stripFrom 0 depth s).flatMap code := fun depth => ih s.length (by simp) depth s rfl
      cases depth with
      | zero =>
        by_cases hbegins : b.marker <+: x :: s
        · obtain ⟨tail, htail⟩ := hbegins
          have hlength : tail.length < (x :: s).length := by
            have := List.length_pos_of_ne_nil b.marker_ne
            rw [← htail, List.length_append]
            omega
          rw [← htail, List.flatMap_append, h.marker]
          exact (strip_marker _).trans ((ih tail.length hlength 1 tail rfl).trans
            (congrArg (List.flatMap code) (strip_marker tail).symm))
        · have hkeep : b.stripFrom 0 0 (x :: s) = x :: b.stripFrom 0 0 s := strip_cons hbegins
          rw [hkeep, List.flatMap_cons, List.flatMap_cons, ← ihs 0]
          by_cases hopening : x = b.opening
          · rw [hopening, h.opening]
            refine strip_cons fun hmarker => hbegins ((h.marker_prefix _).mp ?_)
            rwa [List.flatMap_cons, hopening, h.opening]
          · refine strip_append_of_not_mem h.head ?_ _
            by_cases hclosing : x = b.closing
            · rw [hclosing, h.closing]
              simpa using b'.opening_ne
            · exact (h.other x hopening hclosing).1
      | succ depth =>
        rw [List.flatMap_cons]
        by_cases hopening : x = b.opening
        · rw [hopening, h.opening, List.singleton_append, stripFrom_opening, stripFrom_opening, ihs]
        by_cases hclosing : x = b.closing
        · rw [hclosing, h.closing, List.singleton_append, stripFrom_closing, stripFrom_closing, ihs]
        · obtain ⟨hopen, hclose⟩ := h.other x hopening hclosing
          rw [stripFrom_other hopening hclosing, stripFrom_append_of_not_mem hopen hclose, ihs]

lemma Encodes.strip_flatMap (h : Encodes b code b') (s : List α) :
    b'.strip (s.flatMap code) = (b.strip s).flatMap code :=
  h.stripFrom_flatMap 0 s

end Blocks
