import Mathlib.Algebra.Order.BigOperators.Group.List
import Mathlib.Algebra.Order.Group.Nat
import AxiomGrid.Redline.Hits

/-!
# Rejecting the changes

The original stream of the written document against the text of the document it was made from. An
edit that hits a paragraph with a recorded deletion rebuilds it from the text outside of tracked
changes and so loses the deleted text; the weight of the original stream shows that no later edit
brings it back.
-/

namespace AxiomGrid.Redline

/-- A plain-text paragraph: its text is the text of one run, without tabs and line ends. -/
structure PlainText where
  text : Str
  plain : ∀ c ∈ text, c ≠ '\t' ∧ c ≠ '\n' ∧ c ≠ '\r'

/-- The text of the original document, as the reader normalises it. -/
def originalDocumentText (nfc : Nfc) (paragraphs : List PlainText) : Str :=
  norm nfc (Str.joinLines (paragraphs.map PlainText.text))

variable {nfc : Nfc}

/-! ### Words and weights of a stream -/

/-- The words of the normalised text. -/
def Nfc.words (nfc : Nfc) (text : Str) : List Str := Str.split (nfc.apply text)

def Nfc.weigh (nfc : Nfc) (text : Str) : ℕ := (text.map nfc.weight).sum

@[simp]
lemma Nfc.words_nil : nfc.words [] = [] := by rw [Nfc.words, nfc.apply_nil, Str.split_nil]

@[simp]
lemma Nfc.weigh_nil : nfc.weigh [] = 0 := rfl

lemma Nfc.weigh_append (a b : Str) : nfc.weigh (a ++ b) = nfc.weigh a + nfc.weigh b := by
  simp [Nfc.weigh]

/-- Line ends separate words, so that a joined text has the words of its lines. -/
lemma words_joinLines (lines : List Str) :
    nfc.words (Str.joinLines lines) = lines.flatMap nfc.words := by
  rw [Str.joinLines]
  induction lines with
  | nil => exact Nfc.words_nil
  | cons a rest ih =>
    cases rest with
    | nil => simp
    | cons b rest =>
      have hspace : Str.isSpace '\n' = true := rfl
      rw [List.flatMap_cons, ← ih, List.intercalate_cons_cons, List.append_assoc,
        List.singleton_append, Nfc.words, nfc.apply_newline, Str.split_append_cons hspace]
      rfl

lemma weigh_words (text : Str) : nfc.weigh (nfc.words text).flatten = nfc.weigh text := by
  rw [Nfc.weigh, Nfc.words, Str.sum_split nfc.weight_space, nfc.weight_apply, Nfc.weigh]

/-- Texts that are the same after normalisation have the same weight. -/
lemma weigh_eq_of_norm_eq {a b : Str} (h : norm nfc a = norm nfc b) :
    nfc.weigh a = nfc.weigh b := by
  have hnorm : ∀ s, nfc.weigh (norm nfc s) = nfc.weigh s := by
    intro s
    rw [← weigh_words s]
    exact Str.sum_unwords (nfc.weight_space ' ' rfl) _
  rw [← hnorm a, ← hnorm b, h]

lemma weigh_strip_pos {s : Str} (h : Str.strip s ≠ []) : 0 < nfc.weigh (Str.strip s) := by
  obtain ⟨c, hc, hspace⟩ := Str.exists_of_strip_ne_nil h
  have hmem : nfc.weight c ∈ (Str.strip s).map nfc.weight := List.mem_map_of_mem hc
  exact lt_of_lt_of_le (nfc.weight_pos c hspace) (List.single_le_sum (fun _ _ => Nat.zero_le _) _ hmem)

/-! ### The original stream of a paragraph -/

/-- Text that `_walk` reads back whole from a run. -/
def Plain (s : Str) : Prop := ∀ c ∈ s, c ≠ '\t' ∧ c ≠ '\n'

lemma Plain.runText_eq {s : Str} (h : Plain s) : Paragraph.runText s = s := by
  apply List.filter_eq_self.mpr
  intro c hc
  simp [h c hc]

lemma Plain.mono {s t : Str} (h : Plain s) (hsub : ∀ c ∈ t, c ∈ s) : Plain t :=
  fun c hc => h c (hsub c hc)

variable {p : Paragraph}

/-- Without a recorded deletion the original stream is the text of the runs. -/
lemma original_eq_text (hplain : Plain p.text) (hdel : p.filterMap delOf? = []) :
    p.original = p.text := by
  induction p with
  | nil => rfl
  | cons node p ih =>
    rw [Paragraph.text, List.flatMap_cons] at hplain
    have hrest : Plain (Paragraph.text p) := hplain.mono fun c hc => List.mem_append_right _ hc
    rw [Paragraph.original, Paragraph.text, List.flatMap_cons, List.flatMap_cons]
    cases node with
    | run text =>
      have htext : Plain text := hplain.mono fun c hc => List.mem_append_left _ hc
      exact congrArg₂ _ htext.runText_eq (ih hrest (by simpa [delOf?] using hdel))
    | del mark text => simp [delOf?] at hdel
    | ins mark text => exact ih hrest (by simpa [delOf?] using hdel)

/-- A recorded deletion adds its text to the weight of the original stream. -/
lemma weigh_original (hplain : Plain p.text) :
    nfc.weigh p.original =
      nfc.weigh p.text + ((p.filterMap delOf?).map fun d => nfc.weigh d.2).sum := by
  induction p with
  | nil => rfl
  | cons node p ih =>
    rw [Paragraph.text, List.flatMap_cons] at hplain
    have hrest := ih (hplain.mono fun c hc => List.mem_append_right _ hc)
    rw [Paragraph.original, Paragraph.text] at hrest
    rw [Paragraph.original, Paragraph.text, List.flatMap_cons, List.flatMap_cons, Nfc.weigh_append,
      Nfc.weigh_append, hrest]
    cases node with
    | run text =>
      have htext : Plain text := hplain.mono fun c hc => List.mem_append_left _ hc
      simp [Paragraph.nodeOriginal, Paragraph.nodeText, List.filterMap_cons, delOf?, htext.runText_eq,
        Nat.add_assoc]
    | del mark text =>
      simp [Paragraph.nodeOriginal, Paragraph.nodeText, delOf?]
      omega
    | ins mark text =>
      simp [Paragraph.nodeOriginal, Paragraph.nodeText, List.filterMap_cons, delOf?]

variable {author date : Str} {count : ℕ} {target new : Str}

lemma original_insertedNodes :
    (insertedNodes author date count new).flatMap Paragraph.nodeOriginal = [] := by
  unfold insertedNodes
  split_ifs <;> simp [Paragraph.nodeOriginal]

lemma original_insertedParagraphs {q : Paragraph}
    (h : q ∈ insertedParagraphs author date count new) : q.original = [] := by
  unfold insertedParagraphs at h
  split_ifs at h
  · obtain ⟨i, hi, rfl⟩ := List.mem_mapIdx.mp h
    rfl
  · exact absurd h List.not_mem_nil

/-- Rejecting the edit in the rebuilt paragraph gives the text the paragraph showed before. -/
lemma original_redlineParagraph (hcr : '\r' ∉ p.text) (hplain : Plain p.text)
    (h : Str.contains target p.text = true) :
    (redlineParagraph author date count target new p).original = p.text := by
  obtain ⟨before, after, hparts, htext⟩ := Str.splitFirst_of_contains h
  have hb : Paragraph.runText before = before :=
    (hplain.mono fun c hc => by simp [htext, hc]).runText_eq
  have ha : Paragraph.runText after = after :=
    (hplain.mono fun c hc => by simp [htext, hc]).runText_eq
  have hrun : ∀ s : Str, Paragraph.runText s = s →
      (if s ≠ [] then [Node.run s] else []).flatMap Paragraph.nodeOriginal = s := by
    intro s hs
    split_ifs with hne
    · simp [Paragraph.nodeOriginal, hs]
    · simp_all
  rw [redlineParagraph_eq hcr hparts htext, htext, Paragraph.original]
  simp only [List.flatMap_append, List.flatMap_cons, original_insertedNodes, hrun _ hb, hrun _ ha]
  simp [Paragraph.nodeOriginal, Paragraph.runText]

/-! ### The original stream of a document -/

def originalWords (nfc : Nfc) (doc : Document) : List Str :=
  doc.flatMap fun p => nfc.words p.original

def originalWeight (nfc : Nfc) (doc : Document) : ℕ :=
  (doc.map fun p => nfc.weigh p.original).sum

lemma fst_reconstruct (doc : Document) :
    (reconstructOriginalAndFinal nfc doc).1 = Str.unwords (originalWords nfc doc) := by
  rw [originalWords, ← List.flatMap_map, ← words_joinLines]
  rfl

lemma weigh_joinLines (lines : List Str) :
    nfc.weigh (Str.joinLines lines) = (lines.map nfc.weigh).sum := by
  rw [← weigh_words, words_joinLines]
  induction lines with
  | nil => rfl
  | cons line lines ih =>
    rw [List.flatMap_cons, List.flatten_append, Nfc.weigh_append, ih, weigh_words, List.map_cons,
      List.sum_cons]

lemma originalWeight_eq_of_fst_eq {doc doc' : Document}
    (h : (reconstructOriginalAndFinal nfc doc).1 = (reconstructOriginalAndFinal nfc doc').1) :
    originalWeight nfc doc = originalWeight nfc doc' := by
  have hw := weigh_eq_of_norm_eq h
  rw [weigh_joinLines, weigh_joinLines, List.map_map, List.map_map] at hw
  exact hw

section Placed

variable {doc out : Document} {views : List View} {i : ℕ} {v : View}

/-- Placing an edit loses exactly the deletion its paragraph recorded before. -/
lemma Placed.originalWeight_eq (h : Placed author date count target new doc views i out)
    (hv : views[i]? = some v) (hplain : Plain v.text) :
    originalWeight nfc out + (v.del.toList.map fun d => nfc.weigh d.2).sum =
      originalWeight nfc doc := by
  obtain ⟨pre, p, post, w, rfl, rfl, hw, htext, hdel, hcr, hc⟩ := h.exists_split
  obtain rfl : v = w := by simpa [hv] using hw
  rw [← htext] at hplain
  have hnew : ((insertedParagraphs author date count new).map
      fun q => nfc.weigh q.original).sum = 0 := by
    apply List.sum_eq_zero
    intro x hx
    obtain ⟨q, hq, rfl⟩ := List.mem_map.mp hx
    rw [original_insertedParagraphs hq, Nfc.weigh_nil]
  rw [← hdel]
  simp only [originalWeight, List.map_append, List.map_cons, List.sum_append, List.sum_cons, hnew,
    original_redlineParagraph hcr hplain hc, weigh_original hplain]
  omega

/-- In a paragraph without a recorded deletion nothing is lost. -/
lemma Placed.originalWords_eq (h : Placed author date count target new doc views i out)
    (hv : views[i]? = some v) (hplain : Plain v.text) (hnone : v.del = none) :
    originalWords nfc out = originalWords nfc doc := by
  obtain ⟨pre, p, post, w, rfl, rfl, hw, htext, hdel, hcr, hc⟩ := h.exists_split
  obtain rfl : v = w := by simpa [hv] using hw
  rw [← htext] at hplain
  rw [hnone, Option.toList_none] at hdel
  have hnew : (insertedParagraphs author date count new).flatMap
      (fun q => nfc.words q.original) = [] := by
    rw [List.flatMap_eq_nil_iff]
    intro q hq
    rw [original_insertedParagraphs hq, Nfc.words_nil]
  simp only [originalWords, List.flatMap_append, List.flatMap_cons, hnew,
    original_redlineParagraph hcr hplain hc, original_eq_text hplain hdel, List.nil_append]

end Placed

/-! ### A list of edits -/

/-- The text of the paragraphs is plain and the deletions they record are not blank. -/
def WellMarked (nfc : Nfc) (views : List View) : Prop :=
  ∀ v ∈ views, Plain v.text ∧ ∀ d, v.del = some d → 0 < nfc.weigh d.2

variable {views : List View} {edits : List Edit}

/-- The weight never grows, it stays the same for fresh edits only, and these keep every word. -/
lemma Shows.foldlM_applyEdit {doc out : Document} {n : ℕ} (hshows : Shows doc views)
    (hmarked : WellMarked nfc views)
    (hok : edits.foldlM (applyEdit author date) (doc, count) = .ok (out, n)) :
    originalWeight nfc out ≤ originalWeight nfc doc ∧
      (originalWeight nfc out = originalWeight nfc doc → Fresh views edits) ∧
      (Fresh views edits → originalWords nfc out = originalWords nfc doc) := by
  induction edits generalizing doc views count with
  | nil =>
    obtain ⟨rfl, rfl⟩ : doc = out ∧ count = n := by simpa using hok
    refine ⟨le_rfl, fun _ => ⟨List.nodup_nil, ?_⟩, fun _ => rfl⟩
    intro i hi
    exact absurd hi List.not_mem_nil
  | cons edit edits ih =>
    rw [List.foldlM_cons] at hok
    obtain ⟨⟨doc', count'⟩, hstep, hrest⟩ := Except.of_bind_eq_ok hok
    rcases hshows.applyEdit_cases hstep with ⟨rfl, rfl, hhits⟩ | ⟨i, v, hv, rfl, hne, hplaced, hhits⟩
    · rw [fresh_cons_of_none (hhits edits)]
      exact ih hshows hmarked hrest
    · set v' : View := ⟨removeFirst (Str.strip edit.targetText) v.text,
        some (delMark author date count, Str.strip edit.targetText)⟩ with hv'
      have hvm := hmarked v (List.mem_of_getElem? hv)
      have hmarked' : WellMarked nfc (views.set i v') := by
        intro w hw
        rcases List.mem_or_eq_of_mem_set hw with hw | rfl
        · exact hmarked w hw
        · obtain ⟨pre, p, post, w, -, -, hw, htext, -, -, hc⟩ := hplaced.exists_split
          obtain rfl : v = w := by simpa [hv] using hw
          rw [htext] at hc
          refine ⟨hvm.1.mono fun c => mem_of_mem_removeFirst hc, ?_⟩
          rintro d ⟨⟩
          exact weigh_strip_pos hne
      obtain ⟨hle, hfresh, hwords⟩ := ih (hplaced.shows_out v hv) hmarked' hrest
      have hweight : originalWeight nfc doc' + (v.del.toList.map fun d => nfc.weigh d.2).sum =
          originalWeight nfc doc := hplaced.originalWeight_eq hv hvm.1
      have hsome : v'.del.isSome := rfl
      rw [fresh_cons_of_some hv hsome (hhits v'.del edits)]
      refine ⟨by omega, ?_, ?_⟩
      · intro heq
        refine ⟨?_, hfresh (by omega)⟩
        by_contra hlost
        obtain ⟨d, hd⟩ := Option.ne_none_iff_exists'.mp hlost
        have hpos := hvm.2 d hd
        rw [hd] at hweight
        simp only [Option.toList_some, List.map_cons, List.map_nil, List.sum_cons, List.sum_nil]
          at hweight
        omega
      · rintro ⟨hnone, hrestFresh⟩
        rw [hwords hrestFresh, hplaced.originalWords_eq hv hvm.1 hnone]

section Paragraphs

variable {paragraphs : List PlainText}

lemma plain_of_mem {s : Str} (hs : s ∈ paragraphs.map PlainText.text) : Plain s ∧ '\r' ∉ s := by
  obtain ⟨q, -, rfl⟩ := List.mem_map.mp hs
  constructor
  · intro c hc
    exact ⟨(q.plain c hc).1, (q.plain c hc).2.1⟩
  · intro hc
    exact (q.plain _ hc).2.2 rfl

lemma fst_reconstruct_ofTexts :
    (reconstructOriginalAndFinal nfc (Document.ofTexts (paragraphs.map PlainText.text))).1 =
      originalDocumentText nfc paragraphs := by
  have horiginal : (Document.ofTexts (paragraphs.map PlainText.text)).map Paragraph.original =
      paragraphs.map PlainText.text := by
    rw [Document.ofTexts, List.map_map]
    apply (List.map_congr_left _).trans (List.map_id _)
    intro s hs
    obtain ⟨hplain, hcr⟩ := plain_of_mem hs
    simp [addRun_of_no_cr hcr, Paragraph.original, Paragraph.nodeOriginal, hplain.runText_eq]
  rw [reconstructOriginalAndFinal, horiginal]
  rfl

lemma wellMarked_viewsOf : WellMarked nfc (viewsOf (paragraphs.map PlainText.text)) := by
  intro v hv
  obtain ⟨htext, hdel⟩ := del_of_mem_viewsOf hv
  refine ⟨(plain_of_mem htext).1, ?_⟩
  intro d hd
  rw [hdel] at hd
  cases hd

end Paragraphs

/-- Rejecting all changes gives back the text of the document exactly when no two edits hit the same
paragraph. -/
theorem original_eq_iff_hits_nodup (nfc : Nfc) (author date : Str) (paragraphs : List PlainText)
    (edits : List Edit) {out : Document} {n : ℕ}
    (h : pythonDocxTrackedFallback author date
      (Document.ofTexts (paragraphs.map PlainText.text)) edits = .ok (out, n)) :
    (reconstructOriginalAndFinal nfc out).1 = originalDocumentText nfc paragraphs ↔
      (hits (paragraphs.map PlainText.text) edits).reduceOption.Nodup := by
  have hshows := shows_ofTexts fun s (hs : s ∈ paragraphs.map PlainText.text) => (plain_of_mem hs).2
  have hmarked : WellMarked nfc (viewsOf (paragraphs.map PlainText.text)) := wellMarked_viewsOf
  obtain ⟨-, hfresh, hwords⟩ := hshows.foldlM_applyEdit hmarked (foldlM_of_fallback_eq_ok h)
  rw [← fst_reconstruct_ofTexts, ← fresh_viewsOf]
  constructor
  · intro heq
    exact hfresh (originalWeight_eq_of_fst_eq heq)
  · intro hall
    rw [fst_reconstruct, fst_reconstruct, hwords hall]

namespace Sample

def paragraph : PlainText := ⟨['a', ' ', 'b'], by simp⟩

def editA : Edit := ⟨['a'], some ['x']⟩

def editB : Edit := ⟨['b'], some ['y', '\n', 'z']⟩

def outA : Document :=
  [[.run [], .del ⟨['K'], [], 0⟩ ['a'], .ins ⟨['K'], [], 1⟩ ['x'], .run [' ', 'b']]]

def outAB : Document :=
  [[.run [], .run [' '], .del ⟨['K'], [], 2⟩ ['b'], .ins ⟨['K'], [], 3⟩ ['y']],
    [.ins ⟨['K'], [], 1000⟩ ['z']]]

theorem original_eq_of_one_edit :
    (reconstructOriginalAndFinal .ofNormalised outA).1 =
      originalDocumentText .ofNormalised [paragraph] :=
  (original_eq_iff_hits_nodup .ofNormalised ['K'] [] [paragraph] [editA] (n := 1) rfl).mpr (by decide)

/-- The second edit of the paragraph drops the deletion that the first one recorded. -/
theorem original_lost_by_second_edit :
    pythonDocxTrackedFallback ['K'] [] (Document.ofTexts [paragraph.text]) [editA, editB] =
        .ok (outAB, 2) ∧
      (reconstructOriginalAndFinal .ofNormalised outAB).1 ≠
        originalDocumentText .ofNormalised [paragraph] := by
  constructor
  · rfl
  · decide

end Sample

end AxiomGrid.Redline
