import AxiomGrid.Lib.RegexMatches

/-!
# Redaction by regular expressions

Patterns are replaced one after the other by placeholders in brackets. Where every pattern is set off
from the words around it, and matches nothing inside a placeholder, the redacted text has no match of
any of the patterns: what a replacement brings together was set apart before it.
-/

namespace Regex

/-- The text starts with a character of a word. -/
def atWord (word : Char → Bool) (s : Str) : Bool := s.head?.any word

@[simp] lemma atWord_nil (word : Char → Bool) : atWord word [] = false := rfl

@[simp] lemma atWord_cons (word : Char → Bool) (c : Char) (s : Str) :
    atWord word (c :: s) = word c := rfl

lemma atWord_append {word : Char → Bool} {s t t' : Str} (h : atWord word t = atWord word t') :
    atWord word (s ++ t) = atWord word (s ++ t') := by
  cases s <;> simp [h]

lemma atWord_append_of_ne_nil {word : Char → Bool} {s t : Str} (h : s ≠ []) :
    atWord word (s ++ t) = atWord word s := by
  obtain ⟨c, v, rfl⟩ := List.exists_cons_of_ne_nil h
  rfl

lemma atWord_of_append {word : Char → Bool} {s t : Str} (h : atWord word (s ++ t) = false) :
    atWord word s = false := by
  cases s with
  | nil => rfl
  | cons c s => exact h

/-! ### Shapes of patterns -/

namespace Pattern

/-- The only anchors of the pattern are boundaries of words. -/
def Local (word : Char → Bool) : Pattern → Prop
  | .seq r t | .alt r t => r.Local word ∧ t.Local word
  | .capture r => r.Local word
  | .boundary p => p = word
  | .start | .stop | .lookbehind _ => False
  | .empty | .char _ | .many _ _ => True

/-- A match ends with a character of `p`. -/
def EndsIn (p : Char → Bool) : Pattern → Prop
  | .char q => ∀ c, q c = true → p c = true
  | .seq r t => t.EndsIn p ∨ r.EndsIn p ∧ t.Within fun c => p c = true
  | .alt r t => r.EndsIn p ∧ t.EndsIn p
  | .capture r => r.EndsIn p
  | _ => False

/-- A match ends at a boundary of a word. -/
def EndsAtBoundary (word : Char → Bool) : Pattern → Prop
  | .boundary p => p = word
  | .seq _ t => t.EndsAtBoundary word
  | _ => False

/-- A match has a character of `p`. -/
def Needs (p : Char → Prop) : Pattern → Prop
  | .char q => ∀ c, q c = true → p c
  | .seq r t => r.Needs p ∨ t.Needs p
  | .alt r t => r.Needs p ∧ t.Needs p
  | .capture r => r.Needs p
  | _ => False

/-- The pattern has no anchors. -/
def Free : Pattern → Prop
  | .seq r t | .alt r t => r.Free ∧ t.Free
  | .capture r => r.Free
  | .boundary _ | .start | .stop | .lookbehind _ => False
  | .empty | .char _ | .many _ _ => True

end Pattern

variable {word : Char → Bool} {r t : Pattern} {before before' w after after' : Str}

/-! Sequences and repetitions have these shapes when their parts have them. -/

namespace Pattern

variable {p : Char → Bool} {q : Char → Prop}

/-- The last part but a boundary says how a sequence ends. -/
lemma endsIn_concat_boundary (rs : List Pattern) (h : r.EndsIn p) :
    (concat (rs ++ [r, .boundary word])).EndsIn p := by
  match rs with
  | [] => exact .inr ⟨h, trivial⟩
  | [t] => exact .inl (.inr ⟨h, trivial⟩)
  | t :: t' :: rs => exact .inl (endsIn_concat_boundary (t' :: rs) h)

lemma endsAtBoundary_concat (rs : List Pattern) :
    (concat (rs ++ [.boundary word])).EndsAtBoundary word := by
  match rs with
  | [] => rfl
  | [t] => rfl
  | t :: t' :: rs => exact endsAtBoundary_concat (t' :: rs)

lemma endsIn_times (n : ℕ) (h : r.EndsIn p) : (times (n + 1) r).EndsIn p := by
  induction n with
  | zero => exact h
  | succ n ih => exact .inl ih

lemma local_concat {rs : List Pattern} : (concat rs).Local word ↔ ∀ r ∈ rs, r.Local word := by
  match rs with
  | [] => simp [concat, Local]
  | [r] => simp [concat]
  | r :: r' :: rs =>
    rw [List.forall_mem_cons, ← local_concat]
    rfl

lemma free_concat {rs : List Pattern} : (concat rs).Free ↔ ∀ r ∈ rs, r.Free := by
  match rs with
  | [] => simp [concat, Free]
  | [r] => simp [concat]
  | r :: r' :: rs =>
    rw [List.forall_mem_cons, ← free_concat]
    rfl

lemma within_concat {rs : List Pattern} : (concat rs).Within q ↔ ∀ r ∈ rs, r.Within q := by
  match rs with
  | [] => simp [concat, Within]
  | [r] => simp [concat]
  | r :: r' :: rs =>
    rw [List.forall_mem_cons, ← within_concat]
    rfl

lemma needs_concat {rs : List Pattern} (hr : r ∈ rs) (h : r.Needs q) : (concat rs).Needs q := by
  match rs with
  | [t] =>
    obtain rfl := List.mem_singleton.mp hr
    exact h
  | t :: t' :: rs =>
    obtain rfl | hr := List.mem_cons.mp hr
    · exact .inl h
    · exact .inr (needs_concat hr h)

lemma consuming_concat {rs : List Pattern} (hr : r ∈ rs) (h : r.Consuming) :
    (concat rs).Consuming := by
  match rs with
  | [t] =>
    obtain rfl := List.mem_singleton.mp hr
    exact h
  | t :: t' :: rs =>
    obtain rfl | hr := List.mem_cons.mp hr
    · exact .inl h
    · exact .inr (consuming_concat hr h)

lemma local_times (n : ℕ) (h : r.Local word) : (times n r).Local word :=
  local_concat.mpr fun _ ht => (List.eq_of_mem_replicate ht) ▸ h

lemma free_times (n : ℕ) (h : r.Free) : (times n r).Free :=
  free_concat.mpr fun _ ht => (List.eq_of_mem_replicate ht) ▸ h

lemma within_times (n : ℕ) (h : r.Within q) : (times n r).Within q :=
  within_concat.mpr fun _ ht => (List.eq_of_mem_replicate ht) ▸ h

lemma needs_times (n : ℕ) (h : r.Needs q) : (times (n + 1) r).Needs q :=
  needs_concat (List.mem_replicate.mpr ⟨Nat.succ_ne_zero n, rfl⟩) h

lemma consuming_times (n : ℕ) (h : r.Consuming) : (times (n + 1) r).Consuming :=
  consuming_concat (List.mem_replicate.mpr ⟨Nat.succ_ne_zero n, rfl⟩) h

lemma free_oneOf {rs : List Pattern} (h : ∀ r ∈ rs, r.Free) : (oneOf rs).Free := by
  match rs with
  | [] => trivial
  | [r] => exact h r List.mem_cons_self
  | r :: r' :: rs =>
    rw [List.forall_mem_cons] at h
    exact ⟨h.1, free_oneOf h.2⟩

lemma within_oneOf {rs : List Pattern} (h : ∀ r ∈ rs, r.Within q) : (oneOf rs).Within q := by
  match rs with
  | [] => exact fun c hc => by cases hc
  | [r] => exact h r List.mem_cons_self
  | r :: r' :: rs =>
    rw [List.forall_mem_cons] at h
    exact ⟨h.1, within_oneOf h.2⟩

lemma needs_oneOf {rs : List Pattern} (h : ∀ r ∈ rs, r.Needs q) : (oneOf rs).Needs q := by
  match rs with
  | [] => exact fun c hc => by cases hc
  | [r] => exact h r List.mem_cons_self
  | r :: r' :: rs =>
    rw [List.forall_mem_cons] at h
    exact ⟨h.1, needs_oneOf h.2⟩

lemma local_upTo (n : ℕ) : (upTo p n).Local word := by
  induction n with
  | zero => trivial
  | succ n ih => exact ⟨⟨trivial, ih⟩, trivial⟩

lemma within_upTo (n : ℕ) (h : ∀ c, p c = true → q c) : (upTo p n).Within q := by
  induction n with
  | zero => trivial
  | succ n ih => exact ⟨⟨h, ih⟩, trivial⟩

end Pattern

lemma ne_nil_of_matches (hr : r.Consuming) (h : Matches r before w after) : w ≠ [] := by
  obtain ⟨group', hmem⟩ := mem_run_of_matches h none
  obtain ⟨w', hw'⟩ := run_reads hmem
  have hrest : w ++ after = w' ++ after := hw'.rest
  rw [List.append_cancel_right hrest]
  exact hw'.consuming hr

lemma within_of_matches {q : Char → Prop} (hr : r.Within q) (h : Matches r before w after) :
    ∀ c ∈ w, q c := by
  obtain ⟨group', hmem⟩ := mem_run_of_matches h none
  obtain ⟨w', hw'⟩ := run_reads hmem
  have hrest : w ++ after = w' ++ after := hw'.rest
  rw [List.append_cancel_right hrest]
  exact hw'.within q hr

/-- A pattern sees of its surroundings whether they are words. -/
lemma matches_congr (hr : r.Local word) (h : Matches r before w after)
    (hbefore : atWord word before' = atWord word before)
    (hafter : atWord word after' = atWord word after) : Matches r before' w after' := by
  induction r generalizing before before' w after after' with
  | empty | char | many => exact h
  | seq r t ihr iht =>
    obtain ⟨v, v', rfl, hv, hv'⟩ := h
    exact ⟨v, v', rfl, ihr hr.1 hv hbefore (atWord_append hafter),
      iht hr.2 hv' (atWord_append hbefore) hafter⟩
  | alt r t ihr iht =>
    exact h.imp (ihr hr.1 · hbefore hafter) (iht hr.2 · hbefore hafter)
  | capture r ih => exact ih hr h hbefore hafter
  | boundary p =>
    obtain ⟨rfl, hne⟩ := h
    obtain rfl : p = word := hr
    refine ⟨rfl, fun heq => hne ?_⟩
    exact hbefore.symm.trans (Eq.trans heq hafter)
  | start | stop | lookbehind => exact hr.elim

lemma Pattern.Free.local (hr : r.Free) : r.Local word := by
  induction r with
  | empty | char | many => trivial
  | seq r t ihr iht | alt r t ihr iht => exact ⟨ihr hr.1, iht hr.2⟩
  | capture r ih => exact ih hr
  | boundary | start | stop | lookbehind => exact hr.elim

/-- A pattern without anchors does not see its surroundings. -/
lemma matches_of_free (hr : r.Free) (h : Matches r before w after) : Matches r before' w after' := by
  -- it is local for words of no characters, and then all surroundings are alike
  have hnone : ∀ s : Str, atWord (fun _ => false) s = false := fun s => by cases s <;> rfl
  have hlocal : r.Local fun _ => false := hr.local
  exact matches_congr hlocal h ((hnone _).trans (hnone _).symm) ((hnone _).trans (hnone _).symm)

lemma exists_concat_of_matches {p : Char → Bool} (hr : r.EndsIn p) (h : Matches r before w after) :
    ∃ v c, w = v ++ [c] ∧ p c = true := by
  induction r generalizing before w after with
  | char q =>
    obtain ⟨c, rfl, hc⟩ := h
    exact ⟨[], c, rfl, hr c hc⟩
  | seq r t ihr iht =>
    obtain ⟨v, v', rfl, hv, hv'⟩ := h
    obtain ht | ⟨hr, ht⟩ := hr
    · obtain ⟨u, c, rfl, hc⟩ := iht ht hv'
      exact ⟨v ++ u, c, by rw [List.append_assoc], hc⟩
    · obtain rfl | ⟨u, c, rfl⟩ := v'.eq_nil_or_concat'
      · simpa using ihr hr hv
      · exact ⟨v ++ u, c, by rw [List.append_assoc], within_of_matches ht hv' c (by simp)⟩
  | alt r t ihr iht => exact h.elim (ihr hr.1) (iht hr.2)
  | capture r ih => exact ih hr h
  | empty | many | boundary | start | stop | lookbehind => exact hr.elim

lemma atWord_ne_of_endsAtBoundary (hr : r.EndsAtBoundary word) (h : Matches r before w after) :
    atWord word (w.reverse ++ before) ≠ atWord word after := by
  induction r generalizing before w after with
  | seq r t _ iht =>
    obtain ⟨v, v', rfl, -, hv'⟩ := h
    rw [List.reverse_append, List.append_assoc]
    exact iht hr hv'
  | boundary p =>
    obtain ⟨rfl, hne⟩ := h
    obtain rfl : p = word := hr
    exact hne
  | empty | char | many | alt | capture | start | stop | lookbehind => exact hr.elim

lemma exists_mem_of_matches {p : Char → Prop} (hr : r.Needs p) (h : Matches r before w after) :
    ∃ c ∈ w, p c := by
  induction r generalizing before w after with
  | char q =>
    obtain ⟨c, rfl, hc⟩ := h
    exact ⟨c, by simp, hr c hc⟩
  | seq r t ihr iht =>
    obtain ⟨v, v', rfl, hv, hv'⟩ := h
    obtain hr | ht := hr
    · exact (ihr hr hv).imp fun c hc => ⟨List.mem_append_left _ hc.1, hc.2⟩
    · exact (iht ht hv').imp fun c hc => ⟨List.mem_append_right _ hc.1, hc.2⟩
  | alt r t ihr iht => exact h.elim (ihr hr.1) (iht hr.2)
  | capture r ih => exact ih hr h
  | empty | many | boundary | start | stop | lookbehind => exact hr.elim

/-! ### Patterns that are set off -/

/-- A match is set off from the words around it: it ends with a word, begins with the start of a word
where it begins inside one, and depends on its surroundings only in that way. -/
structure SetOff (word : Char → Bool) (r : Pattern) : Prop where
  ends : ∀ {before w after}, Matches r before w after → ∃ v c, w = v ++ [c] ∧ word c = true
  after : ∀ {before w after}, Matches r before w after → atWord word after = false
  before : ∀ {before w after}, Matches r before w after → atWord word w = true →
    atWord word before = false
  /-- A match that begins outside the words does not see what is before it. -/
  outside : ∀ {before before' w after}, Matches r before w after → atWord word w = false →
    atWord word before = false → Matches r before' w after
  congr : ∀ {before before' w after after'}, Matches r before w after →
    atWord word before' = atWord word before → atWord word after' = atWord word after →
    Matches r before' w after'

lemma SetOff.ne_nil (h : SetOff word r) (hw : Matches r before w after) : w ≠ [] := by
  obtain ⟨v, c, rfl, -⟩ := h.ends hw
  simp

/-- Between two boundaries of words. -/
lemma setOff_boundary (hlocal : t.Local word) (hends : t.EndsIn word)
    (hboundary : t.EndsAtBoundary word) : SetOff word (.seq (.boundary word) t) := by
  have hparts : ∀ {before w after : Str}, Matches (.seq (.boundary word) t) before w after →
      atWord word before ≠ atWord word (w ++ after) ∧ Matches t before w after := by
    rintro before _ after ⟨_, v', rfl, ⟨rfl, hne⟩, hv'⟩
    exact ⟨hne, hv'⟩
  have hhead : ∀ {before w after : Str}, Matches (.seq (.boundary word) t) before w after →
      atWord word before ≠ atWord word w := by
    intro before w after h
    obtain ⟨hne, ht⟩ := hparts h
    obtain ⟨v, c, rfl, -⟩ := exists_concat_of_matches hends ht
    cases v <;> exact hne
  refine ⟨fun h => exists_concat_of_matches hends (hparts h).2, fun h => ?_, fun h hw => ?_,
    fun h hw hbefore => ?_, fun h => matches_congr ⟨rfl, hlocal⟩ h⟩
  · obtain ⟨v, c, rfl, hc⟩ := exists_concat_of_matches hends (hparts h).2
    have hne := atWord_ne_of_endsAtBoundary hboundary (hparts h).2
    rw [List.reverse_append, List.reverse_singleton, List.singleton_append, List.cons_append,
      atWord_cons, hc] at hne
    exact Bool.eq_false_iff.mpr (Ne.symm hne)
  · rw [← Bool.not_eq_true, ← hw]
    exact hhead h
  · exact absurd (hbefore.trans hw.symm) (hhead h)

/-- Behind an optional character outside the words. -/
lemma SetOff.opt {p : Char → Bool} (h : SetOff word t) (hp : ∀ c, p c = true → word c = false) :
    SetOff word (.seq (.opt (.char p)) t) := by
  have hparts : ∀ {before w after : Str}, Matches (.seq (.opt (.char p)) t) before w after →
      (∃ c v, w = c :: v ∧ p c = true ∧ Matches t (c :: before) v after) ∨
        Matches t before w after := by
    rintro before _ after ⟨_, v', rfl, ⟨c, rfl, hc⟩ | rfl, hv'⟩
    · exact .inl ⟨c, v', rfl, hc, hv'⟩
    · exact .inr hv'
  have hcons : ∀ {before v after : Str} {c : Char}, p c = true → Matches t (c :: before) v after →
      Matches (.seq (.opt (.char p)) t) before (c :: v) after :=
    fun hc hv => ⟨[_], _, rfl, .inl ⟨_, rfl, hc⟩, hv⟩
  have hnil : ∀ {before v after : Str}, Matches t before v after →
      Matches (.seq (.opt (.char p)) t) before v after :=
    fun hv => ⟨[], _, rfl, .inr rfl, hv⟩
  constructor
  · intro before w after hw
    obtain ⟨c, v, rfl, -, hv⟩ | hw := hparts hw
    · obtain ⟨u, d, rfl, hd⟩ := h.ends hv
      exact ⟨c :: u, d, rfl, hd⟩
    · exact h.ends hw
  · intro before w after hw
    obtain ⟨c, v, -, -, hv⟩ | hw := hparts hw
    · exact h.after hv
    · exact h.after hw
  · intro before w after hw hword
    obtain ⟨c, v, rfl, hc, -⟩ | hw := hparts hw
    · rw [atWord_cons, hp c hc] at hword
      cases hword
    · exact h.before hw hword
  · intro before before' w after hw hword hbefore
    obtain ⟨c, v, rfl, hc, hv⟩ | hw := hparts hw
    · exact hcons hc (h.congr hv rfl rfl)
    · exact hnil (h.outside hw hword hbefore)
  · intro before before' w after after' hw hbefore hafter
    obtain ⟨c, v, rfl, hc, hv⟩ | hw := hparts hw
    · exact hcons hc (h.congr hv rfl hafter)
    · exact hnil (h.congr hw hbefore hafter)

/-- A match ends at a boundary of a word, begins with the start of a word where it begins inside one, and
depends on its surroundings only in that way. -/
structure Bounded (word : Char → Bool) (r : Pattern) : Prop where
  ne_nil : ∀ {before w after}, Matches r before w after → w ≠ []
  ends : ∀ {before w after}, Matches r before w after →
    atWord word (w.reverse ++ before) ≠ atWord word after
  before : ∀ {before w after}, Matches r before w after → atWord word w = true →
    atWord word before = false
  /-- A match that begins outside the words does not see what is before it. -/
  outside : ∀ {before before' w after}, Matches r before w after → atWord word w = false →
    atWord word before = false → Matches r before' w after
  congr : ∀ {before before' w after after'}, Matches r before w after →
    atWord word before' = atWord word before → atWord word after' = atWord word after →
    Matches r before' w after'

lemma SetOff.bounded (h : SetOff word r) : Bounded word r := by
  refine ⟨fun hw => h.ne_nil hw, fun hw => ?_, fun hw => h.before hw, fun hw => h.outside hw,
    fun hw => h.congr hw⟩
  obtain ⟨v, c, rfl, hc⟩ := h.ends hw
  rw [h.after hw]
  simp [hc]

/-- Between two boundaries of words, whatever a match ends with. -/
lemma bounded_boundary (hlocal : t.Local word) (hconsuming : t.Consuming)
    (hboundary : t.EndsAtBoundary word) : Bounded word (.seq (.boundary word) t) := by
  have hparts : ∀ {before w after : Str}, Matches (.seq (.boundary word) t) before w after →
      w ≠ [] ∧ atWord word before ≠ atWord word w ∧ Matches t before w after := by
    rintro before _ after ⟨_, v', rfl, ⟨rfl, hne⟩, hv'⟩
    have hnil := ne_nil_of_matches hconsuming hv'
    refine ⟨hnil, ?_, hv'⟩
    rw [List.nil_append, ← atWord_append_of_ne_nil hnil]
    exact hne
  refine ⟨fun h => (hparts h).1, fun h => ?_, fun h hw => ?_, fun h hw hbefore => ?_,
    fun h => matches_congr ⟨rfl, hlocal⟩ h⟩
  · exact atWord_ne_of_endsAtBoundary hboundary (hparts h).2.2
  · rw [← Bool.not_eq_true, ← hw]
    exact (hparts h).2.1
  · exact absurd (hbefore.trans hw.symm) (hparts h).2.1

/-! ### Replacing by a placeholder -/

/-- A class without two characters. -/
lemma avoids {p : Char → Bool} {a b : Char} (hp : p a = false ∧ p b = false) {c : Char}
    (hc : p c = true) : ¬c = a ∧ ¬c = b := by
  constructor <;> rintro rfl <;> simp_all

/-- What a redaction writes: a text between two characters. -/
structure Placeholder where
  opening : Char
  text : Str
  closing : Char

/-- The placeholder as it is written. -/
def Placeholder.toStr (p : Placeholder) : Str := p.opening :: (p.text ++ [p.closing])

/-- The placeholder is no part of a word and has no match of the pattern, nor part of one that reaches
out of it. -/
structure Placeholder.Inert (word : Char → Bool) (q : Pattern) (p : Placeholder) : Prop where
  opening : word p.opening = false
  closing : word p.closing = false
  outside : q.Within fun c => c ≠ p.opening ∧ c ≠ p.closing
  text : ∃ need : Char → Prop, q.Needs need ∧ ∀ c ∈ p.text, ¬need c

/-- A piece of the text before, inside or behind a placeholder. -/
lemma Placeholder.cases_of_append {p : Placeholder} {s s' x w y : Str}
    (hw : ∀ c ∈ w, c ≠ p.opening ∧ c ≠ p.closing) (h : s ++ (p.toStr ++ s') = x ++ w ++ y) :
    (∃ y', s = x ++ w ++ y' ∧ y = y' ++ (p.toStr ++ s')) ∨ w <:+: p.text ∨
      ∃ x', x = s ++ p.toStr ++ x' ∧ s' = x' ++ w ++ y := by
  have hopening : p.opening ∉ w := fun hmem => (hw _ hmem).1 rfl
  have hclosing : p.closing ∉ w := fun hmem => (hw _ hmem).2 rfl
  have htoStr : p.toStr ++ s' = p.opening :: (p.text ++ p.closing :: s') := by
    simp [Placeholder.toStr]
  rw [htoStr] at h ⊢
  obtain ⟨y', hs, hy⟩ | ⟨x', hx, h'⟩ := append_cons_eq_append hopening h
  · exact .inl ⟨y', hs, hy⟩
  · obtain ⟨y', htext, -⟩ | ⟨x'', hx', hs'⟩ := append_cons_eq_append hclosing h'
    · exact .inr (.inl ⟨x', y', htext.symm⟩)
    · exact .inr (.inr ⟨x'', by rw [hx, hx']; simp [Placeholder.toStr], hs'⟩)

/-- The pattern matches nowhere inside a text between `before` and `after`. -/
def NoMatchIn (q : Pattern) (before s after : Str) : Prop :=
  ∀ x w y, s = x ++ w ++ y → ¬Matches q (x.reverse ++ before) w (y ++ after)

lemma noMatchIn_nil {q : Pattern} {s : Str} : NoMatchIn q before s [] ↔ NoMatch q before s := by
  simp only [NoMatchIn, NoMatch, List.append_nil]

variable {q : Pattern} {s : Str}

/-- What stands before the text may change where both are words or neither is, and from a word to no
word where the text begins outside the words. -/
lemma NoMatchIn.congr_before (hq : Bounded word q) (h : NoMatchIn q before s after)
    (hbefore : atWord word before' = atWord word before ∨
      atWord word before' = false ∧ atWord word s = false) :
    NoMatchIn q before' s after := by
  rintro x w y rfl hw
  cases x with
  | nil =>
    refine h [] w y rfl ?_
    obtain hsame | ⟨hnone, hs⟩ := hbefore
    · exact hq.congr hw hsame.symm rfl
    · obtain ⟨c, v, rfl⟩ := List.exists_cons_of_ne_nil (hq.ne_nil hw)
      exact hq.outside hw hs hnone
  | cons c x =>
    refine h (c :: x) w y rfl (hq.congr hw ?_ rfl)
    rw [List.reverse_cons, List.append_assoc, List.append_assoc]
    exact atWord_append rfl

/-- What stands behind the text may change to no word where it was none behind a word. -/
lemma NoMatchIn.congr_after (hq : Bounded word q) (h : NoMatchIn q before s after)
    (hafter : atWord word (s.reverse ++ before) = true → atWord word after = false)
    (hafter' : atWord word after' = false) : NoMatchIn q before s after' := by
  rintro x w y rfl hw
  refine h x w y rfl (hq.congr hw rfl ?_)
  cases y with
  | nil =>
    have hends := hq.ends hw
    rw [List.nil_append, hafter', ne_eq, Bool.not_eq_false] at hends
    exact (hafter (by simpa using hends)).trans hafter'.symm
  | cons d y => rfl

/-- A placeholder between two texts. -/
lemma noMatch_append_placeholder {p : Placeholder} {s' : Str} (hp : p.Inert word q)
    (h : NoMatchIn q before s (p.toStr ++ s'))
    (h' : NoMatch q ((s ++ p.toStr).reverse ++ before) s') :
    NoMatch q before (s ++ (p.toStr ++ s')) := by
  intro x w y hs hw
  obtain ⟨y', hx, rfl⟩ | hin | ⟨x', rfl, hout⟩ :=
    Placeholder.cases_of_append (within_of_matches hp.outside hw) hs
  · exact h x w y' hx hw
  · obtain ⟨need, hneed, htext⟩ := hp.text
    obtain ⟨c, hc, hcneed⟩ := exists_mem_of_matches hneed hw
    exact htext c (hin.subset hc) hcneed
  · exact h' x' w y hout (by simpa using hw)

/-- A placeholder cuts a text in two for a pattern whose only anchors are boundaries of words. -/
theorem noMatch_placeholder_iff {p : Placeholder} (hq : q.Local word) (hp : p.Inert word q)
    {s' : Str} :
    NoMatch q [] (s ++ (p.toStr ++ s')) ↔ NoMatch q [] s ∧ NoMatch q [] s' := by
  have hopening : ∀ y : Str, atWord word (y ++ (p.toStr ++ s')) = atWord word y := by
    intro y
    cases y with
    | nil => exact hp.opening
    | cons c y => rfl
  have hclosing : ∀ x : Str, atWord word (x.reverse ++ (s ++ p.toStr).reverse) =
      atWord word (x.reverse ++ []) := by
    intro x
    refine atWord_append ?_
    rw [Placeholder.toStr, ← List.cons_append, ← List.append_assoc, List.reverse_concat]
    exact hp.closing
  constructor
  · refine fun h => ⟨fun x w y hs hw => ?_, fun x w y hs hw => ?_⟩
    · exact h x w (y ++ (p.toStr ++ s')) (by rw [hs]; simp) (matches_congr hq hw rfl (hopening y))
    · refine h (s ++ p.toStr ++ x) w y (by rw [hs]; simp) (matches_congr hq hw ?_ rfl)
      rw [← hclosing x, ← List.reverse_append, List.append_nil]
  · rintro ⟨h, h'⟩ x w y hs hw
    obtain ⟨y', hx, rfl⟩ | hin | ⟨x', rfl, hout⟩ :=
      Placeholder.cases_of_append (within_of_matches hp.outside hw) hs
    · exact h x w y' hx (matches_congr hq hw rfl (hopening y').symm)
    · obtain ⟨need, hneed, htext⟩ := hp.text
      obtain ⟨c, hc, hcneed⟩ := exists_mem_of_matches hneed hw
      exact htext c (hin.subset hc) hcneed
    · refine h' x' w y hout (matches_congr hq hw ?_ rfl)
      rw [← hclosing, ← List.reverse_append, List.append_nil]

/-- A text without the brackets lies on one side of a placeholder, or inside it. -/
lemma infix_placeholder_iff {p : Placeholder} {s' : Str}
    (hw : ∀ c ∈ w, c ≠ p.opening ∧ c ≠ p.closing) (hp : ¬w <:+: p.text) :
    w <:+: s ++ (p.toStr ++ s') ↔ w <:+: s ∨ w <:+: s' := by
  constructor
  · rintro ⟨x, y, hs⟩
    obtain ⟨y', hx, -⟩ | hin | ⟨x', -, hout⟩ := Placeholder.cases_of_append hw hs.symm
    · exact .inl ⟨x, y', hx.symm⟩
    · exact absurd hin hp
    · exact .inr ⟨x', y, hout.symm⟩
  · rintro (h | h)
    · exact h.trans (List.prefix_append _ _).isInfix
    · exact h.trans ((List.suffix_append _ _).trans (List.suffix_append _ _)).isInfix

/-- The text that a search skips has no match, where the whole text has none or the search is for this
pattern. -/
lemma noMatchIn_skipped {m : Match} (hq : ∀ {before w after}, Matches q before w after → w ≠ [])
    (h : q = r ∨ NoMatch q before s) (hm : searchFrom r before s = some m) : NoMatchIn q before m.skipped (m.text ++ m.rest) := by
  intro x w y hskipped hw
  have hs : s = x ++ w ++ (y ++ (m.text ++ m.rest)) := by
    rw [(searchFrom_spec hm).parts, hskipped]
    simp
  obtain rfl | hnone := h
  · refine (searchFrom_first hm).2 x w _ hs ?_ hw
    have hlength := List.length_pos_iff.mpr (hq hw)
    rw [hskipped, List.length_append, List.length_append]
    omega
  · exact hnone x w _ hs hw

/-- The text behind a match has no match of a pattern that the whole text does not have. -/
lemma noMatch_rest {m : Match} (h : NoMatch q before s) (hm : searchFrom r before s = some m) :
    NoMatch q ((m.skipped ++ m.text).reverse ++ before) m.rest := by
  rintro x w y hrest hw
  refine h (m.skipped ++ m.text ++ x) w y ?_ (by simpa using hw)
  rw [(searchFrom_spec hm).parts, hrest]
  simp

/-- Replacing a pattern that is set off leaves no match of it, and makes none of a pattern that has
none before. -/
lemma noMatch_subFrom {p : Placeholder} (hq : Bounded word q) (hr : Bounded word r)
    (hp : p.Inert word q) {fuel : ℕ} (hfuel : s.length ≤ fuel)
    (hbefore : atWord word before' = atWord word before ∨
      atWord word before' = false ∧ atWord word s = false)
    (h : q = r ∨ NoMatch q before s) :
    NoMatch q before' (subFrom r (fun _ => p.toStr) fuel before s) := by
  induction fuel generalizing before before' s with
  | zero =>
    obtain rfl := List.length_eq_zero_iff.mp (Nat.le_zero.mp hfuel)
    intro x w y hs hw
    have hnil : x ++ w ++ y = [] := hs.symm
    simp only [List.append_eq_nil_iff] at hnil
    exact hq.ne_nil hw hnil.1.2
  | succ fuel ih =>
    rw [subFrom]
    split
    · rename_i hnone
      refine noMatchIn_nil.mp (NoMatchIn.congr_before hq (noMatchIn_nil.mpr ?_) hbefore)
      obtain rfl | hnomatch := h
      · exact searchFrom_eq_none_iff.mp hnone
      · exact hnomatch
    · rename_i m hm
      have hmatch := (searchFrom_first hm).1
      have hparts := (searchFrom_spec hm).parts
      have hne := hr.ne_nil hmatch
      rw [List.append_assoc]
      apply noMatch_append_placeholder hp
      · have hskipped : NoMatchIn q before m.skipped (m.text ++ m.rest) := noMatchIn_skipped (fun hw => hq.ne_nil hw) h hm
        refine (hskipped.congr_after hq ?_ ?_).congr_before hq ?_
        · -- the match does not begin inside a word
          intro hword
          rw [atWord_append_of_ne_nil hne, ← Bool.not_eq_true]
          intro htext
          rw [hr.before hmatch htext] at hword
          cases hword
        · exact hp.opening
        · obtain hsame | ⟨hnone, hs⟩ := hbefore
          · exact .inl hsame
          · rw [hparts, List.append_assoc] at hs
            exact .inr ⟨hnone, atWord_of_append hs⟩
      · apply ih
        · have hlength := List.length_pos_iff.mpr hne
          rw [hparts, List.length_append, List.length_append] at hfuel
          omega
        · -- the placeholder is no word, and a word at the end of the match ends there
          have hclosing : atWord word ((m.skipped ++ p.toStr).reverse ++ before') = false := by
            simpa [Placeholder.toStr] using hp.closing
          have hends := hr.ends hmatch
          rw [← List.append_assoc, ← List.reverse_append] at hends
          cases hlast : atWord word ((m.skipped ++ m.text).reverse ++ before) with
          | true =>
            rw [hlast, ne_comm, ne_eq, Bool.not_eq_true] at hends
            exact .inr ⟨hclosing, hends⟩
          | false => exact .inl hclosing
        · exact h.imp_right fun hnomatch => noMatch_rest hnomatch hm

/-! ### Pieces between the matches -/

/-- The parts of a text have no match of a pattern without anchors that the text does not have. -/
lemma noMatch_of_infix {x : Str} (hq : q.Free) (h : NoMatch q before s) (hx : x <:+: s) :
    NoMatch q before' x := by
  obtain ⟨l, t, rfl⟩ := hx
  rintro y w z rfl hw
  exact h (l ++ y) w (z ++ t) (by simp) (matches_of_free hq hw)

lemma infix_of_mem_pieces {fuel : ℕ} {x : Str} (h : x ∈ pieces r fuel before s) : x <:+: s := by
  induction fuel generalizing before s with
  | zero =>
    rw [pieces, List.mem_singleton] at h
    rw [h]
  | succ fuel ih =>
    cases hm : searchFrom r before s with
    | none =>
      rw [pieces_succ_of_none hm, List.mem_singleton] at h
      rw [h]
    | some m =>
      rw [pieces_succ_of_some hm] at h
      rw [(searchFrom_spec hm).parts]
      obtain rfl | h := List.mem_cons.mp h
      · exact ⟨[], m.text ++ m.rest, by simp⟩
      · exact (ih h).trans (List.suffix_append _ _).isInfix

/-- The pieces between the matches of a pattern without anchors have no match of it. -/
lemma noMatch_of_mem_pieces (hr : r.Free) (hconsuming : r.Consuming) {fuel : ℕ}
    (hfuel : s.length ≤ fuel) : ∀ x ∈ pieces r fuel before s, NoMatch r [] x := by
  induction fuel generalizing before s with
  | zero =>
    obtain rfl := List.length_eq_zero_iff.mp (Nat.le_zero.mp hfuel)
    intro x hx
    rw [pieces, List.mem_singleton] at hx
    rintro y w z hyz hw
    rw [hx, eq_comm, List.append_eq_nil_iff, List.append_eq_nil_iff] at hyz
    exact ne_nil_of_matches hconsuming hw hyz.1.2
  | succ fuel ih =>
    intro x hx
    cases hm : searchFrom r before s with
    | none =>
      rw [pieces_succ_of_none hm, List.mem_singleton] at hx
      rw [hx]
      exact noMatch_of_infix hr (searchFrom_eq_none_iff.mp hm) (List.infix_refl s)
    | some m =>
      rw [pieces_succ_of_some hm] at hx
      obtain rfl | hx := List.mem_cons.mp hx
      · intro y w z hyz hw
        exact noMatchIn_skipped (fun hw => ne_nil_of_matches hconsuming hw) (.inl rfl) hm y w z hyz
          (matches_of_free hr hw)
      · refine ih ?_ x hx
        have hlength := List.length_pos_iff.mpr (ne_nil_of_matches hconsuming (searchFrom_first hm).1)
        rw [(searchFrom_spec hm).parts, List.length_append, List.length_append] at hfuel
        omega

/-- After a replacement there is a match exactly if a piece between the matches that were replaced has one
by itself. -/
theorem noMatch_sub_iff {p : Placeholder} (hq : q.Local word) (hp : p.Inert word q) :
    NoMatch q [] (sub r (fun _ => p.toStr) s) ↔ ∀ x ∈ split r s, NoMatch q [] x := by
  suffices hfrom : ∀ fuel before s, NoMatch q [] (subFrom r (fun _ => p.toStr) fuel before s) ↔
      ∀ x ∈ pieces r fuel before s, NoMatch q [] x from hfrom s.length [] s
  intro fuel
  induction fuel with
  | zero => simp [subFrom, pieces]
  | succ fuel ih =>
    intro before s
    rw [subFrom]
    cases hm : searchFrom r before s with
    | none => simp [pieces_succ_of_none hm]
    | some m =>
      simp only [pieces_succ_of_some hm]
      rw [List.append_assoc, noMatch_placeholder_iff hq hp, ih, List.forall_mem_cons]

/-- A pattern without anchors has no match after it is replaced, or after another one is. -/
lemma noMatch_sub_of_free {p : Placeholder} (hq : q.Free) (hconsuming : q.Consuming)
    (hp : p.Inert word q) (h : q = r ∨ NoMatch q [] s) :
    NoMatch q [] (sub r (fun _ => p.toStr) s) := by
  rw [noMatch_sub_iff hq.local hp]
  intro x hx
  obtain rfl | hnone := h
  · exact noMatch_of_mem_pieces hq hconsuming le_rfl x hx
  · exact noMatch_of_infix hq hnone (infix_of_mem_pieces hx)

/-! ### Redaction -/

/-- `re.is_match(s)`. -/
def isMatch (r : Pattern) (s : Str) : Bool := (search r s).isSome

lemma isMatch_eq_false_iff {s : Str} : isMatch r s = false ↔ NoMatch r [] s := by
  rw [isMatch, search, Option.isSome_eq_false_iff, Option.isNone_iff_eq_none,
    searchFrom_eq_none_iff]

lemma sub_of_noMatch {s : Str} (h : NoMatch r [] s) (f : Match → Str) : sub r f s = s := by
  rw [sub]
  cases s.length with
  | zero => rfl
  | succ fuel => rw [subFrom, searchFrom_eq_none_iff.mpr h]

lemma findall_of_noMatch {s : Str} (h : NoMatch r [] s) : findall r s = [] := by
  rw [findall]
  cases s.length with
  | zero => rfl
  | succ fuel => rw [matchesFrom, searchFrom_eq_none_iff.mpr h, List.map_nil]

/-- Each pattern is replaced by its placeholder, in order. -/
def redact (rules : List (Pattern × Placeholder)) (s : Str) : Str :=
  rules.foldl (fun s rule => sub rule.1 (fun _ => rule.2.toStr) s) s

/-- A pattern that is among the rules, or has no match before, has none afterwards, if that holds of every
single replacement. -/
lemma noMatch_redact_of_sub {rules : List (Pattern × Placeholder)}
    (hsub : ∀ rule ∈ rules, ∀ s, q = rule.1 ∨ NoMatch q [] s →
      NoMatch q [] (sub rule.1 (fun _ => rule.2.toStr) s)) {s : Str}
    (h : (∃ rule ∈ rules, rule.1 = q) ∨ NoMatch q [] s) : NoMatch q [] (redact rules s) := by
  induction rules generalizing s with
  | nil => exact h.resolve_left (by simp)
  | cons rule rules ih =>
    rw [List.forall_mem_cons] at hsub
    refine ih hsub.2 ?_
    obtain ⟨rule', hmem, heq⟩ | hnone := h
    · obtain rfl | hmem := List.mem_cons.mp hmem
      · exact .inr (hsub.1 s (.inl heq.symm))
      · exact .inl ⟨rule', hmem, heq⟩
    · exact .inr (hsub.1 s (.inr hnone))

/-- The redacted text has no match of a pattern that was replaced, or had none before. -/
theorem noMatch_redact_of_bounded {rules : List (Pattern × Placeholder)}
    (hrules : ∀ rule ∈ rules, Bounded word rule.1) (hq : Bounded word q)
    (hinert : ∀ rule ∈ rules, rule.2.Inert word q) {s : Str}
    (h : (∃ rule ∈ rules, rule.1 = q) ∨ NoMatch q [] s) : NoMatch q [] (redact rules s) :=
  noMatch_redact_of_sub (fun rule hrule _ =>
    noMatch_subFrom hq (hrules rule hrule) (hinert rule hrule) le_rfl (.inl rfl)) h

/-- Nor has it one of a pattern without anchors, whatever the other patterns are. -/
theorem noMatch_redact_of_free {rules : List (Pattern × Placeholder)} (hq : q.Free)
    (hconsuming : q.Consuming) (hinert : ∀ rule ∈ rules, rule.2.Inert word q) {s : Str}
    (h : (∃ rule ∈ rules, rule.1 = q) ∨ NoMatch q [] s) : NoMatch q [] (redact rules s) :=
  noMatch_redact_of_sub (fun rule hrule _ =>
    noMatch_sub_of_free hq hconsuming (hinert rule hrule)) h

theorem noMatch_redact {rules : List (Pattern × Placeholder)}
    (hrules : ∀ rule ∈ rules, SetOff word rule.1) (hq : SetOff word q)
    (hinert : ∀ rule ∈ rules, rule.2.Inert word q) {s : Str}
    (h : (∃ rule ∈ rules, rule.1 = q) ∨ NoMatch q [] s) : NoMatch q [] (redact rules s) :=
  noMatch_redact_of_bounded (fun rule hrule => (hrules rule hrule).bounded) hq.bounded hinert h

/-- A text without matches stays as it is. -/
theorem redact_of_noMatch {rules : List (Pattern × Placeholder)} {s : Str}
    (h : ∀ rule ∈ rules, NoMatch rule.1 [] s) : redact rules s = s := by
  induction rules with
  | nil => rfl
  | cons rule rules ih =>
    rw [List.forall_mem_cons] at h
    rw [redact, List.foldl_cons, sub_of_noMatch h.1]
    exact ih h.2

end Regex
