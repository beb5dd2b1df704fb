import AxiomGrid.Redline.Hits

/-!
# Which edits a document records

The writer numbers the edits it places, and a deletion carries the number of its edit. All numbers
are found in the written document exactly when no two edits hit the same paragraph.
-/

namespace AxiomGrid.Redline

/-- The deletions in the document. -/
def deletions (doc : Document) : List (Mark × Str) := doc.flatMap fun p => p.filterMap delOf?

/-- The identifiers of the deletions. -/
def deletionIds (doc : Document) : List ℕ := (deletions doc).map fun d => d.1.id

lemma Shows.deletions_eq {doc : Document} {views : List View} (h : Shows doc views) :
    deletions doc = views.filterMap View.del := by
  induction h with
  | nil => rfl
  | @original p v ps vs htext hdel hcr hps ih =>
    rw [deletions, List.flatMap_cons, hdel, List.filterMap_cons]
    rw [deletions] at ih
    cases hv : v.del with
    | none => exact ih
    | some d => exact congrArg (d :: ·) ih
  | inserted hps ih => exact ih

lemma Shows.mem_deletionIds {doc : Document} {views : List View} (h : Shows doc views) {x : ℕ} :
    x ∈ deletionIds doc ↔
      ∃ (i : ℕ) (v : View) (d : Mark × Str), views[i]? = some v ∧ v.del = some d ∧ d.1.id = x := by
  rw [deletionIds, h.deletions_eq]
  simp only [List.mem_map, List.mem_filterMap]
  constructor
  · rintro ⟨d, ⟨v, hv, hd⟩, rfl⟩
    obtain ⟨i, hi⟩ := List.mem_iff_getElem?.mp hv
    exact ⟨i, v, d, hi, hd, rfl⟩
  · rintro ⟨i, v, d, hv, hd, rfl⟩
    exact ⟨d, ⟨v, List.mem_of_getElem? hv, hd⟩, rfl⟩

/-- The deletions of the views carry different numbers below `count`. -/
structure Numbered (count : ℕ) (views : List View) : Prop where
  lt : ∀ {i : ℕ} {v : View} {d : Mark × Str}, views[i]? = some v → v.del = some d →
    d.1.id < count * 2
  inj : ∀ {i j : ℕ} {v w : View} {d e : Mark × Str}, views[i]? = some v → views[j]? = some w →
    v.del = some d → w.del = some e → d.1.id = e.1.id → i = j

lemma numbered_viewsOf (texts : List Str) : Numbered 0 (viewsOf texts) where
  lt hv hd := by
    rw [(del_of_mem_viewsOf (List.mem_of_getElem? hv)).2] at hd
    cases hd
  inj hv _ hd := by
    rw [(del_of_mem_viewsOf (List.mem_of_getElem? hv)).2] at hd
    cases hd

section Step

variable {author date : Str} {count : ℕ} {target text : Str} {views : List View} {i : ℕ} {v : View}

/-- What the views show after an edit was placed in paragraph `i`. -/
lemma getElem?_set_cases {w w' : View} {j : ℕ} (h : (views.set i w)[j]? = some w') :
    i = j ∧ w = w' ∨ i ≠ j ∧ views[j]? = some w' := by
  rw [List.getElem?_set] at h
  split_ifs at h with hij hlt
  · exact .inl ⟨hij, Option.some.inj h⟩
  · exact .inr ⟨hij, h⟩

lemma Numbered.set (h : Numbered count views) :
    Numbered (count + 1) (views.set i ⟨text, some (delMark author date count, target)⟩) where
  lt hw hd := by
    rcases getElem?_set_cases hw with ⟨-, rfl⟩ | ⟨-, hw⟩
    · cases hd
      show count * 2 < (count + 1) * 2
      omega
    · have := h.lt hw hd
      omega
  inj hw hw' hd hd' hid := by
    rcases getElem?_set_cases hw with ⟨rfl, rfl⟩ | ⟨-, hw⟩
    · rcases getElem?_set_cases hw' with ⟨rfl, -⟩ | ⟨-, hw'⟩
      · rfl
      · have hlt := h.lt hw' hd'
        rw [← hid] at hlt
        cases hd
        exact absurd hlt (lt_irrefl _)
    · rcases getElem?_set_cases hw' with ⟨rfl, rfl⟩ | ⟨-, hw'⟩
      · have hlt := h.lt hw hd
        rw [hid] at hlt
        cases hd'
        exact absurd hlt (lt_irrefl _)
      · exact h.inj hw hw' hd hd' hid

variable {doc out : Document} {edit : Edit}

/-- The new number is found, a number the paragraph carried before is not, the others stay. -/
lemma mem_deletionIds_set (hdoc : Shows doc views) (hnum : Numbered count views)
    (hv : views[i]? = some v)
    (hout : Shows out (views.set i ⟨text, some (delMark author date count, target)⟩)) {x : ℕ} :
    x ∈ deletionIds out ↔
      x = count * 2 ∨ x ∈ deletionIds doc ∧ ∀ d, v.del = some d → d.1.id ≠ x := by
  have hi : i < views.length := (List.getElem?_eq_some_iff.mp hv).1
  rw [hout.mem_deletionIds, hdoc.mem_deletionIds]
  constructor
  · rintro ⟨j, w, d, hw, hd, rfl⟩
    rcases getElem?_set_cases hw with ⟨rfl, rfl⟩ | ⟨hij, hw⟩
    · cases hd
      exact .inl rfl
    · refine .inr ⟨⟨j, w, d, hw, hd, rfl⟩, ?_⟩
      intro e he hid
      exact hij (hnum.inj hv hw he hd hid)
  · rintro (rfl | ⟨⟨j, w, d, hw, hd, rfl⟩, hne⟩)
    · exact ⟨i, _, _, List.getElem?_set_self hi, rfl, rfl⟩
    · have hij : i ≠ j := by
        rintro rfl
        obtain rfl : v = w := by simpa [hv] using hw
        exact hne d hd rfl
      exact ⟨j, w, d, by rwa [List.getElem?_set_ne hij], hd, rfl⟩

end Step

section Run

variable {author date : Str} {count n : ℕ} {views : List View} {doc out : Document}
  {edits : List Edit}

/-- The count grows by the number of edits that hit a paragraph. -/
lemma Shows.count_eq (hshows : Shows doc views)
    (hok : edits.foldlM (applyEdit author date) (doc, count) = .ok (out, n)) :
    n = count + (hits (views.map View.text) edits).reduceOption.length := by
  induction edits generalizing doc views count with
  | nil =>
    obtain ⟨rfl, rfl⟩ : doc = out ∧ count = n := by simpa using hok
    rfl
  | cons edit edits ih =>
    rw [List.foldlM_cons] at hok
    obtain ⟨⟨doc', count'⟩, hstep, hrest⟩ := Except.of_bind_eq_ok hok
    rcases hshows.applyEdit_cases hstep with ⟨rfl, rfl, hhits⟩ | ⟨i, v, hv, rfl, -, hplaced, hhits⟩
    · rw [hhits edits, List.reduceOption_cons_of_none]
      exact ih hshows hrest
    · have hrest' := ih (hplaced.shows_out v hv) hrest
      rw [hhits (some _) edits, List.reduceOption_cons_of_some, List.length_cons]
      exact hrest'.trans (by rw [Nat.add_assoc, Nat.add_comm 1])

/-- Numbers below the count that the document does not hold do not come back, and all numbers are
kept exactly when the edits are fresh. -/
lemma Shows.deletionIds_run (hshows : Shows doc views) (hnum : Numbered count views)
    (hok : edits.foldlM (applyEdit author date) (doc, count) = .ok (out, n)) :
    (∀ x < count * 2, x ∈ deletionIds out → x ∈ deletionIds doc) ∧
      ((∀ q, count ≤ q → q < n → q * 2 ∈ deletionIds out) ∧
          (∀ x ∈ deletionIds doc, x ∈ deletionIds out) ↔ Fresh views edits) := by
  induction edits generalizing doc views count with
  | nil =>
    obtain ⟨rfl, rfl⟩ : doc = out ∧ count = n := by simpa using hok
    refine ⟨fun x _ hx => hx, ?_⟩
    refine iff_of_true ⟨fun q hq hq' => by omega, fun x hx => hx⟩ ⟨List.nodup_nil, ?_⟩
    intro i hi
    exact absurd hi List.not_mem_nil
  | cons edit edits ih =>
    rw [List.foldlM_cons] at hok
    obtain ⟨⟨doc', count'⟩, hstep, hrest⟩ := Except.of_bind_eq_ok hok
    rcases hshows.applyEdit_cases hstep with ⟨rfl, rfl, hhits⟩ | ⟨i, v, hv, rfl, -, hplaced, hhits⟩
    · rw [fresh_cons_of_none (hhits edits)]
      exact ih hshows hnum hrest
    · have hshows' := hplaced.shows_out v hv
      have hids := fun x => @mem_deletionIds_set _ _ _ _ _ _ _ _ doc doc' hshows hnum hv hshows' x
      obtain ⟨hold, hfresh⟩ := ih hshows' hnum.set hrest
      have hn : count + 1 ≤ n := (Shows.count_eq hshows' hrest).symm ▸ Nat.le_add_right _ _
      rw [fresh_cons_of_some hv rfl (hhits (some _) edits), ← hfresh]
      constructor
      · intro x hx hxout
        rcases (hids x).mp (hold x (by omega) hxout) with rfl | ⟨hxdoc, -⟩
        · exact absurd hx (lt_irrefl _)
        · exact hxdoc
      constructor
      · rintro ⟨hnew, hkeep⟩
        have hnone : v.del = none := by
          by_contra hsome
          obtain ⟨d, hd⟩ := Option.ne_none_iff_exists'.mp hsome
          have hlt := hnum.lt hv hd
          have hmem : d.1.id ∈ deletionIds doc := hshows.mem_deletionIds.mpr ⟨i, v, d, hv, hd, rfl⟩
          rcases (hids _).mp (hold _ (by omega) (hkeep _ hmem)) with heq | ⟨-, hne⟩
          · omega
          · exact hne d hd rfl
        refine ⟨hnone, fun q hq hq' => hnew q (by omega) hq', ?_⟩
        intro x hx
        rcases (hids x).mp hx with rfl | ⟨hxdoc, -⟩
        · exact hnew count le_rfl (by omega)
        · exact hkeep x hxdoc
      · rintro ⟨hnone, hnew, hkeep⟩
        constructor
        · intro q hq hq'
          rcases Nat.eq_or_lt_of_le hq with rfl | hlt
          · exact hkeep _ ((hids _).mpr (.inl rfl))
          · exact hnew q hlt hq'
        · intro x hx
          refine hkeep x ((hids x).mpr (.inr ⟨hx, ?_⟩))
          intro d hd
          rw [hnone] at hd
          cases hd

end Run

/-- The written document holds the deletions of all the edits that were placed exactly when no two
of them hit the same paragraph. -/
theorem deletionIds_complete_iff {author date : Str} {texts : List Str} {edits : List Edit}
    {out : Document} {n : ℕ} (hcr : ∀ text ∈ texts, '\r' ∉ text)
    (hok : pythonDocxTrackedFallback author date (Document.ofTexts texts) edits = .ok (out, n)) :
    (∀ q < n, q * 2 ∈ deletionIds out) ↔ (hits texts edits).reduceOption.Nodup := by
  have hshows := shows_ofTexts hcr
  obtain ⟨-, hfresh⟩ :=
    hshows.deletionIds_run (numbered_viewsOf texts) (foldlM_of_fallback_eq_ok hok)
  rw [← fresh_viewsOf, ← hfresh]
  constructor
  · intro h
    refine ⟨fun q _ hq => h q hq, ?_⟩
    intro x hx
    obtain ⟨i, v, d, hv, hd, -⟩ := hshows.mem_deletionIds.mp hx
    rw [(del_of_mem_viewsOf (List.mem_of_getElem? hv)).2] at hd
    cases hd
  · rintro ⟨h, -⟩ q hq
    exact h q (Nat.zero_le q) hq

/-! ### Edits by position -/

/-- The number of edits the writer places. -/
def appliedCount (author date : Str) (doc : Document) (edits : List Edit) : ℕ :=
  match pythonDocxTrackedFallback author date doc edits with
  | .ok (_, n) => n
  | .error _ => 0

/-- Whether the document `out` holds the deletion of the edit at position `j`: the writer placed the
edit, and the number it gave to it is found. -/
def isRecorded (author date : Str) (doc : Document) (edits : List Edit) (out : Document) (j : ℕ) :
    Bool :=
  let n := appliedCount author date doc (edits.take j)
  appliedCount author date doc (edits.take (j + 1)) == n + 1 && (deletionIds out).contains (n * 2)

/-- For each edit whether the document `out` holds its deletion. -/
def recordedFlags (author date : Str) (doc : Document) (edits : List Edit) (out : Document) :
    List Bool :=
  (List.range edits.length).map (isRecorded author date doc edits out)

lemma length_hits (texts : List Str) (edits : List Edit) :
    (hits texts edits).length = edits.length := by
  induction edits generalizing texts with
  | nil => rfl
  | cons edit edits ih =>
    simp only [hits]
    split_ifs
    · simp [ih]
    · split <;> simp [ih]

lemma hits_take (texts : List Str) (edits : List Edit) (j : ℕ) :
    hits texts (edits.take j) = (hits texts edits).take j := by
  induction edits generalizing texts j with
  | nil => simp [hits]
  | cons edit edits ih =>
    cases j with
    | zero => simp [hits]
    | succ j =>
      simp only [List.take_succ_cons, hits]
      split_ifs
      · simp [ih]
      · split <;> simp [ih]

section Positions

variable {author date : Str} {texts : List Str} {edits : List Edit} {out : Document} {n : ℕ}

lemma appliedCount_take (hcr : ∀ text ∈ texts, '\r' ∉ text)
    (hok : pythonDocxTrackedFallback author date (Document.ofTexts texts) edits = .ok (out, n))
    (j : ℕ) :
    appliedCount author date (Document.ofTexts texts) (edits.take j) =
      ((hits texts edits).take j).reduceOption.length := by
  have hfold := foldlM_of_fallback_eq_ok hok
  rw [← List.take_append_drop j edits, List.foldlM_append] at hfold
  obtain ⟨⟨mid, m⟩, hmid, -⟩ := Except.of_bind_eq_ok hfold
  have hcount := (shows_ofTexts hcr).count_eq hmid
  rw [map_text_viewsOf, hits_take, Nat.zero_add] at hcount
  rw [appliedCount, pythonDocxTrackedFallback, hmid]
  exact hcount

/-- An edit that hits no paragraph is not recorded; one that does is, if its number is found. -/
lemma isRecorded_eq (hcr : ∀ text ∈ texts, '\r' ∉ text)
    (hok : pythonDocxTrackedFallback author date (Document.ofTexts texts) edits = .ok (out, n))
    {j : ℕ} {h : Option ℕ} (hj : (hits texts edits)[j]? = some h) :
    isRecorded author date (Document.ofTexts texts) edits out j =
      (h.isSome &&
        (deletionIds out).contains (((hits texts edits).take j).reduceOption.length * 2)) := by
  have htake : (hits texts edits).take (j + 1) = (hits texts edits).take j ++ [h] := by
    rw [List.take_add_one, hj]
    rfl
  rw [isRecorded, appliedCount_take hcr hok, appliedCount_take hcr hok, htake,
    List.reduceOption_append]
  cases h <;> simp [List.reduceOption]

/-- The edits that hit a paragraph are numbered from `n` on; the flags of those whose number is
found. -/
def foundFlags (found : ℕ → Bool) : ℕ → List (Option ℕ) → List Bool
  | _, [] => []
  | n, none :: hs => false :: foundFlags found n hs
  | n, some _ :: hs => found n :: foundFlags found (n + 1) hs

variable {found : ℕ → Bool}

lemma map_range_eq_foundFlags (hs : List (Option ℕ)) (n : ℕ) :
    (List.range hs.length).map
        (fun j => (hs[j]?.join).isSome && found (n + (hs.take j).reduceOption.length)) =
      foundFlags found n hs := by
  induction hs generalizing n with
  | nil => rfl
  | cons h hs ih =>
    rw [List.length_cons, List.range_succ_eq_map, List.map_cons, List.map_map]
    cases h with
    | none =>
      rw [foundFlags, ← ih n]
      congr 1
    | some i =>
      rw [foundFlags, ← ih (n + 1)]
      congr 1
      apply List.map_congr_left
      intro j _
      simp [Nat.add_assoc, Nat.add_comm 1]

lemma count_foundFlags_le (hs : List (Option ℕ)) (n : ℕ) :
    (foundFlags found n hs).count true ≤ hs.reduceOption.length := by
  induction hs generalizing n with
  | nil => exact le_rfl
  | cons h hs ih =>
    cases h with
    | none => simpa [foundFlags] using ih n
    | some i =>
      have := ih (n + 1)
      rw [foundFlags, List.count_cons, List.reduceOption_cons_of_some, List.length_cons]
      split_ifs <;> omega

/-- All flags are set exactly when all numbers are found. -/
lemma count_foundFlags_eq_iff (hs : List (Option ℕ)) (n : ℕ) :
    (foundFlags found n hs).count true = hs.reduceOption.length ↔
      ∀ q < hs.reduceOption.length, found (n + q) = true := by
  induction hs generalizing n with
  | nil => simp [foundFlags]
  | cons h hs ih =>
    cases h with
    | none => simpa [foundFlags] using ih n
    | some i =>
      have hle : (foundFlags found (n + 1) hs).count true ≤ hs.reduceOption.length :=
        count_foundFlags_le hs (n + 1)
      rw [foundFlags, List.count_cons, List.reduceOption_cons_of_some, List.length_cons]
      constructor
      · intro hcount q hq
        split_ifs at hcount with hn
        · cases q with
          | zero => simpa using hn
          | succ q =>
            have := (ih (n + 1)).mp (by omega) q (by omega)
            rwa [Nat.add_assoc, Nat.add_comm 1] at this
        · omega
      · intro hall
        have hn : found n = true := hall 0 (by omega)
        have hrest := (ih (n + 1)).mpr fun q hq => by
          rw [Nat.add_assoc, Nat.add_comm 1]
          exact hall (q + 1) (by omega)
        simp [hn, hrest]

lemma foundFlags_eq_of_found (hs : List (Option ℕ)) (n : ℕ)
    (hall : ∀ q < hs.reduceOption.length, found (n + q) = true) :
    foundFlags found n hs = hs.map Option.isSome := by
  induction hs generalizing n with
  | nil => rfl
  | cons h hs ih =>
    cases h with
    | none =>
      rw [foundFlags, ih n (by simpa using hall)]
      rfl
    | some i =>
      rw [List.reduceOption_cons_of_some, List.length_cons] at hall
      have hn : found n = true := hall 0 (by omega)
      have hrest : ∀ q < hs.reduceOption.length, found (n + 1 + q) = true := by
        intro q hq
        rw [Nat.add_assoc, Nat.add_comm 1]
        exact hall (q + 1) (by omega)
      rw [foundFlags, ih (n + 1) hrest, hn]
      rfl

lemma recordedFlags_eq (hcr : ∀ text ∈ texts, '\r' ∉ text)
    (hok : pythonDocxTrackedFallback author date (Document.ofTexts texts) edits = .ok (out, n)) :
    recordedFlags author date (Document.ofTexts texts) edits out =
      foundFlags (fun q => (deletionIds out).contains (q * 2)) 0 (hits texts edits) := by
  rw [← map_range_eq_foundFlags, recordedFlags, length_hits]
  apply List.map_congr_left
  intro j hj
  have hlt : j < (hits texts edits).length := by
    rw [length_hits]
    exact List.mem_range.mp hj
  rw [isRecorded_eq hcr hok (List.getElem?_eq_getElem hlt), List.getElem?_eq_getElem hlt,
    Nat.zero_add]
  rfl

lemma hits_length_eq (hcr : ∀ text ∈ texts, '\r' ∉ text)
    (hok : pythonDocxTrackedFallback author date (Document.ofTexts texts) edits = .ok (out, n)) :
    n = (hits texts edits).reduceOption.length := by
  have hcount := (shows_ofTexts hcr).count_eq (foldlM_of_fallback_eq_ok hok)
  rwa [map_text_viewsOf, Nat.zero_add] at hcount

/-- As many edits are recorded as were placed exactly when no two hit the same paragraph. -/
theorem count_recordedFlags_eq_iff (hcr : ∀ text ∈ texts, '\r' ∉ text)
    (hok : pythonDocxTrackedFallback author date (Document.ofTexts texts) edits = .ok (out, n)) :
    (recordedFlags author date (Document.ofTexts texts) edits out).count true = n ↔
      (hits texts edits).reduceOption.Nodup := by
  rw [← deletionIds_complete_iff hcr hok, recordedFlags_eq hcr hok, hits_length_eq hcr hok,
    count_foundFlags_eq_iff]
  simp

/-- In that case these are the edits that hit a paragraph. -/
theorem recordedFlags_of_nodup (hcr : ∀ text ∈ texts, '\r' ∉ text)
    (hok : pythonDocxTrackedFallback author date (Document.ofTexts texts) edits = .ok (out, n))
    (hnodup : (hits texts edits).reduceOption.Nodup) :
    recordedFlags author date (Document.ofTexts texts) edits out =
      (hits texts edits).map Option.isSome := by
  rw [← deletionIds_complete_iff hcr hok, hits_length_eq hcr hok] at hnodup
  rw [recordedFlags_eq hcr hok]
  apply foundFlags_eq_of_found
  simpa using hnodup

end Positions

end AxiomGrid.Redline
