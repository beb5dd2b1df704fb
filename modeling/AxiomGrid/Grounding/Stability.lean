import AxiomGrid.Grounding.Standalone

/-!
# More regions

What happens to a verdict of `StandaloneVerifier.verify` when the stored regions are permuted or further
ones are inserted. The first and the last stage look at every region, and the last one also accepts what
the second one can accept; a region that overlaps the box and holds the quote, verbatim or by ratio, is
therefore found whatever else is stored. The third stage looks at the first of the most similar regions
only, and no later stage looks at the others: a region with the same words elsewhere on the page takes
its place.
-/

namespace AxiomGrid.Standalone

section

variable {u : UnicodeData} {self : StandaloneVerifier} {claimedQuote : Str} {claimedBbox : BBox}
  {storedGeometry storedGeometry' : List StoredRegion} {best : Best} {v : Verified}

/-- The region overlaps the box and holds the quote, verbatim or by ratio. -/
def Holds (u : UnicodeData) (self : StandaloneVerifier) (claimedQuote : Str) (claimedBbox : BBox)
    (region : StoredRegion) : Prop :=
  self.visualIouThreshold ≤ computeIou claimedBbox region.bbox ∧
    (Str.contains (normalizeText u claimedQuote) (normalizeText u region.text) = true ∨
      self.fuzzyThreshold ≤ (bestFuzzyMatch u claimedQuote region.text).ratio)

/-! ### What each stage accepts -/

lemma holds_of_exactStage
    (h : exactStage u self claimedQuote claimedBbox storedGeometry best = .error v) :
    ∃ region ∈ storedGeometry, Holds u self claimedQuote claimedBbox region := by
  obtain ⟨region, hregion, best', hbody⟩ := List.exists_of_foldlM_error h
  simp only at hbody
  split_ifs at hbody with htext hiou
  exact ⟨region, hregion, hiou, .inl htext⟩

lemma holds_of_fuzzyStage
    (h : fuzzyStage u self claimedQuote claimedBbox storedGeometry best = .error v) :
    ∃ region ∈ storedGeometry, Holds u self claimedQuote claimedBbox region := by
  simp only [fuzzyStage] at h
  split at h
  · cases h
  · rename_i region hregion
    obtain ⟨hmem, -, hratio⟩ := List.of_bestBy_eq_some hregion
    split_ifs at h with hfuzzy hiou
    rw [hratio] at hfuzzy
    exact ⟨region, hmem, hiou, .inr hfuzzy⟩

lemma holds_of_visualStage
    (h : visualStage u self claimedQuote claimedBbox storedGeometry best = .error v) :
    ∃ region ∈ storedGeometry, Holds u self claimedQuote claimedBbox region := by
  obtain ⟨region, hregion, best', hbody⟩ := List.exists_of_foldlM_error h
  simp only at hbody
  split_ifs at hbody with hiou htext hfuzzy
  · exact ⟨region, hregion, hiou, .inl htext⟩
  · exact ⟨region, hregion, hiou, .inr hfuzzy⟩

/-- The third stage accepts the first of the most similar regions, if it overlaps the box. -/
lemma overlaps_of_semanticStage
    (h : semanticStage u self claimedQuote claimedBbox storedGeometry best = .error v) :
    ∃ region, (storedGeometry.bestBy (fun p q => decide (p < q)) (fun _ => true)
        (fun region => jaccardSimilarity u claimedQuote region.text) (0 : ℚ)).2 = some region ∧
      self.visualIouThreshold ≤ computeIou claimedBbox region.bbox := by
  simp only [semanticStage] at h
  split at h
  · cases h
  · rename_i region hregion
    split_ifs at h with hsemantic hverify hiou
    exact ⟨region, hregion, hiou⟩

lemma cascade_error_cases (h : cascade u self claimedQuote claimedBbox storedGeometry = .error v) :
    (∃ region ∈ storedGeometry, Holds u self claimedQuote claimedBbox region) ∨
    ∃ region, (storedGeometry.bestBy (fun p q => decide (p < q)) (fun _ => true)
        (fun region => jaccardSimilarity u claimedQuote region.text) (0 : ℚ)).2 = some region ∧
      self.visualIouThreshold ≤ computeIou claimedBbox region.bbox := by
  obtain hexact | ⟨best, -, h⟩ := Except.of_bind_eq_error h
  · exact .inl (holds_of_exactStage hexact)
  obtain hfuzzy | ⟨best, -, h⟩ := Except.of_bind_eq_error h
  · exact .inl (holds_of_fuzzyStage hfuzzy)
  obtain hsemantic | ⟨best, -, hvisual⟩ := Except.of_bind_eq_error h
  · exact .inr (overlaps_of_semanticStage hsemantic)
  · exact .inl (holds_of_visualStage hvisual)

/-- A region that holds the quote in the box is found whatever else is stored. -/
lemma cascade_of_holds {region : StoredRegion} (hregion : region ∈ storedGeometry)
    (h : Holds u self claimedQuote claimedBbox region) :
    ∃ v, cascade u self claimedQuote claimedBbox storedGeometry = .error v := by
  cases hcascade : cascade u self claimedQuote claimedBbox storedGeometry with
  | error v => exact ⟨v, rfl⟩
  | ok best => exact absurd h.2 (cascade_ok hcascade region hregion h.1)

/-! ### A region that takes the place of the best one -/

lemma jaccardSimilarity_self (u : UnicodeData) (s : Str) : jaccardSimilarity u s s = 1 := by
  simp only [jaccardSimilarity, and_self, or_self, Finset.inter_self, Finset.union_self]
  split_ifs with hempty
  · rfl
  · have hne : ((Str.split (normalizeText u s)).toFinset.card : ℚ) ≠ 0 := by
      exact_mod_cast Finset.card_ne_zero.mpr (Finset.nonempty_iff_ne_empty.mpr hempty)
    exact div_self hne

lemma jaccardSimilarity_le_one (u : UnicodeData) (s1 s2 : Str) : jaccardSimilarity u s1 s2 ≤ 1 := by
  simp only [jaccardSimilarity]
  split_ifs
  · exact le_rfl
  · exact zero_le_one
  · refine div_le_one_of_le₀ ?_ (Nat.cast_nonneg _)
    exact_mod_cast Finset.card_le_card (Finset.inter_subset_union)

/-- A box to the right of another one. -/
def BBox.beside (b : BBox) : BBox where
  x0 := b.x1 + 1
  y0 := b.y0
  x1 := b.x1 + 2
  y1 := b.y1
  x_le := by linarith
  y_le := b.y_le

lemma computeIou_beside (b : BBox) : computeIou b b.beside = 0 := by
  have hright : b.x0 ≤ b.x1 + 1 := by linarith [b.x_le]
  have hempty : min b.x1 b.beside.x1 - max b.x0 b.beside.x0 ≤ 0 := by
    have hx0 : max b.x0 b.beside.x0 = b.x1 + 1 := max_eq_right hright
    rw [hx0]
    linarith [min_le_left b.x1 b.beside.x1]
  simp only [computeIou]
  rw [if_pos (.inl hempty)]

/-- The quote itself, outside the box. -/
def decoy (claimedQuote : Str) (claimedBbox : BBox) : StoredRegion where
  text := claimedQuote
  bbox := claimedBbox.beside

/-- With the decoy in front, the third stage looks at nothing else. -/
lemma bestBy_decoy (storedGeometry : List StoredRegion) :
    ((decoy claimedQuote claimedBbox :: storedGeometry).bestBy (fun p q => decide (p < q))
      (fun _ => true) (fun region => jaccardSimilarity u claimedQuote region.text) (0 : ℚ)).2 =
        some (decoy claimedQuote claimedBbox) := by
  have hself : jaccardSimilarity u claimedQuote (decoy claimedQuote claimedBbox).text = 1 :=
    jaccardSimilarity_self u claimedQuote
  have hbest : (decoy claimedQuote claimedBbox :: storedGeometry).bestBy (fun p q => decide (p < q))
      (fun _ => true) (fun region => jaccardSimilarity u claimedQuote region.text) (0 : ℚ) =
        (jaccardSimilarity u claimedQuote (decoy claimedQuote claimedBbox).text,
          some (decoy claimedQuote claimedBbox)) :=
    List.bestBy_cons_of_le rfl (by rw [hself]; exact zero_lt_one)
      fun region _ => by rw [hself]; exact jaccardSimilarity_le_one u claimedQuote region.text
  rw [hbest]

/-! ### Stability -/

/-- The other list holds the same regions in another order, or further ones between them. -/
def Extends (storedGeometry storedGeometry' : List StoredRegion) : Prop :=
  storedGeometry.Perm storedGeometry' ∨ storedGeometry.Sublist storedGeometry'

lemma Extends.mem (h : Extends storedGeometry storedGeometry') {region : StoredRegion}
    (hregion : region ∈ storedGeometry) : region ∈ storedGeometry' := by
  rcases h with hperm | hsub
  · exact hperm.subset hregion
  · exact hsub.subset hregion

/-- Whether a list of regions is accepted depends on the cascade alone, once another one is. -/
lemma verify_iff {repr : ℚ → String} {pageBounds : Option PageBounds}
    (h : verify u self claimedQuote claimedBbox repr storedGeometry pageBounds = .verified v)
    (hne : storedGeometry' ≠ []) :
    (∃ v', verify u self claimedQuote claimedBbox repr storedGeometry' pageBounds = .verified v') ↔
      ∃ v', cascade u self claimedQuote claimedBbox storedGeometry' = .error v' := by
  simp only [verify] at h ⊢
  split_ifs at h with hempty hpage hquote
  rw [if_neg hne, if_neg hpage, if_neg hquote]
  cases cascade u self claimedQuote claimedBbox storedGeometry' with
  | error v' => exact ⟨fun _ => ⟨v', rfl⟩, fun _ => ⟨v', rfl⟩⟩
  | ok best =>
    constructor
    · rintro ⟨v', hv⟩
      cases hv
    · rintro ⟨v', hv⟩
      cases hv

/-- A citation that was verified stays verified under every permutation and every insertion exactly when
one of the regions overlaps the box and holds the quote, verbatim or by ratio. -/
theorem verified_stable_iff {repr : ℚ → String} {pageBounds : Option PageBounds}
    (hthreshold : 0 < self.visualIouThreshold)
    (h : verify u self claimedQuote claimedBbox repr storedGeometry pageBounds = .verified v) :
    (∀ storedGeometry', Extends storedGeometry storedGeometry' →
      ∃ v', verify u self claimedQuote claimedBbox repr storedGeometry' pageBounds = .verified v') ↔
    ∃ region ∈ storedGeometry, Holds u self claimedQuote claimedBbox region := by
  constructor
  · intro hstable
    have hextends : Extends storedGeometry (decoy claimedQuote claimedBbox :: storedGeometry) :=
      .inr (List.sublist_cons_self _ _)
    obtain ⟨v', hcascade⟩ := (verify_iff h (List.cons_ne_nil _ _)).mp (hstable _ hextends)
    -- neither the decoy nor a stage that looks at it can be what was accepted
    have hdecoy : ¬self.visualIouThreshold ≤
        computeIou claimedBbox (decoy claimedQuote claimedBbox).bbox := by
      rw [show (decoy claimedQuote claimedBbox).bbox = claimedBbox.beside from rfl,
        computeIou_beside, not_le]
      exact hthreshold
    rcases cascade_error_cases hcascade with ⟨region, hregion, hholds⟩ | ⟨region, hbest, hiou⟩
    · rcases List.mem_cons.mp hregion with rfl | hregion
      · exact absurd hholds.1 hdecoy
      · exact ⟨region, hregion, hholds⟩
    · rw [bestBy_decoy] at hbest
      cases hbest
      exact absurd hiou hdecoy
  · rintro ⟨region, hregion, hholds⟩ storedGeometry' hextends
    have hmem := hextends.mem hregion
    exact (verify_iff h (List.ne_nil_of_mem hmem)).mpr (cascade_of_holds hmem hholds)

/-- The invoice line stays verified whatever else is stored. -/
theorem verified_stable_iff_totalRegion :
    verify asciiData {} "total due".toList totalRegion.bbox (fun _ => "0.5") [totalRegion]
        (some ⟨100, 100⟩) = .verified (accept .exact totalRegion 1 1) ∧
      ∀ storedGeometry', Extends [totalRegion] storedGeometry' →
        ∃ v, verify asciiData {} "total due".toList totalRegion.bbox (fun _ => "0.5") storedGeometry'
          (some ⟨100, 100⟩) = .verified v := by
  have haccept : verify asciiData {} "total due".toList totalRegion.bbox (fun _ => "0.5")
      [totalRegion] (some ⟨100, 100⟩) = .verified (accept .exact totalRegion 1 1) := by
    decide +kernel
  have hiou : (1 / 2 : ℚ) ≤ computeIou totalRegion.bbox totalRegion.bbox := by decide +kernel
  have htext : Str.contains (normalizeText asciiData "total due".toList)
      (normalizeText asciiData totalRegion.text) = true := by decide +kernel
  have hthreshold : (0 : ℚ) < 1 / 2 := by norm_num
  exact ⟨haccept, (verified_stable_iff hthreshold haccept).mpr
    ⟨totalRegion, List.mem_singleton_self _, hiou, .inl htext⟩⟩

lemma corner_ordered : (0 : ℚ) ≤ 10 := by decide

lemma below_ordered : (50 : ℚ) ≤ 60 := by decide

/-- The words of the quote in another order, in the corner of a page. -/
def reordered : StoredRegion where
  text := "gamma beta alpha".toList
  bbox := ⟨0, 0, 10, 10, corner_ordered, corner_ordered⟩

/-- The same words further down. -/
def reorderedBelow : StoredRegion where
  text := "gamma beta alpha".toList
  bbox := ⟨0, 50, 10, 60, corner_ordered, below_ordered⟩

/-- The citation is verified on its region alone and before the second one, but rejected behind it. -/
theorem verified_not_stable :
    verify asciiData {} "alpha beta gamma".toList reordered.bbox (fun _ => "0.5") [reordered] none =
        .verified (accept .semantic reordered 1 1) ∧
      verify asciiData {} "alpha beta gamma".toList reordered.bbox (fun _ => "0.5")
          [reordered, reorderedBelow] none = .verified (accept .semantic reordered 1 1) ∧
      ∃ r, verify asciiData {} "alpha beta gamma".toList reordered.bbox (fun _ => "0.5")
          [reorderedBelow, reordered] none = .rejected r := by
  refine ⟨by decide +kernel, by decide +kernel, ⟨.bboxMismatch, 1, 1,
    "text matched (sim=1.000) but bbox IoU=1.000 < 0.5"⟩, by decide +kernel⟩

end

end AxiomGrid.Standalone
