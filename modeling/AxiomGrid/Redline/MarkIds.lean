import Mathlib.Data.List.Nodup
import AxiomGrid.Redline.Accept

/-!
# Identifiers of revision marks

The writer numbers its marks by two rules: the edit that is placed as number `k` uses `2 k` and
`2 k + 1` in the paragraph of its target, and `1000 k`, `1000 k + 1` and so on in the paragraphs that
it adds. The rules overlap: the first number of the second kind is the number of a deletion if as many
as `500 k + 1` edits are placed, in particular always for the first edit.
-/

namespace AxiomGrid.Redline

/-! ### The marks that are written -/

/-- The mark of a node. -/
def markOf? : Node → Option Mark
  | .run _ => none
  | .del mark _ => some mark
  | .ins mark _ => some mark

/-- The marks of a document. -/
def marks (doc : Document) : List Mark := doc.flatMap fun p => p.filterMap markOf?

section Writer

variable (author date : Str)

/-- The marks of the edit that is placed as number `count`. -/
def editMarks (count : ℕ) (new : Str) : List Mark :=
  delMark author date count :: (insertedNodes author date count new).filterMap markOf? ++
    marks (insertedParagraphs author date count new)

/-- The marks that are written in a run, in order. -/
def writtenMarks (state : Document × ℕ) : List Edit → List Mark
  | [] => []
  | edit :: edits =>
    match applyEdit author date state edit with
    | .error _ => []
    | .ok next =>
      (if next.2 = state.2 then [] else editMarks author date state.2 (edit.newText.getD [])) ++
        writtenMarks next edits

end Writer

/-! ### The edits that are placed -/

/-- What a paragraph shows of its text once the target is deleted. -/
def shownAfter (target text : Str) : Str :=
  (removeFirst target text).map fun c => if c = '\r' then '\n' else c

/-- The replacements of the edits that are placed in paragraphs with the given texts, in order. -/
def placedTexts (texts : List Str) : List Edit → List Str
  | [] => []
  | edit :: edits =>
    let target := Str.strip edit.targetText
    if target = [] then placedTexts texts edits
    else
      match texts.findIdx? (Str.contains target) with
      | none => placedTexts texts edits
      | some i => edit.newText.getD [] :: placedTexts (texts.modify i (shownAfter target)) edits

/-- The texts of the paragraphs that show some. -/
inductive ShowsTexts : Document → List Str → Prop
  | nil : ShowsTexts [] []
  | keep {p : Paragraph} {ps : Document} {texts : List Str} :
    ShowsTexts ps texts → ShowsTexts (p :: ps) (p.text :: texts)
  | skip {p : Paragraph} {ps : Document} {texts : List Str} :
    p.text = [] → ShowsTexts ps texts → ShowsTexts (p :: ps) texts

lemma showsTexts_map (doc : Document) : ShowsTexts doc (doc.map Paragraph.text) := by
  induction doc with
  | nil => exact .nil
  | cons p ps ih => exact .keep ih

section

variable {author date : Str} {count : ℕ} {target new : Str}

lemma text_optionalRun (text : Str) :
    (if text ≠ [] then [addRun text] else []).flatMap Paragraph.nodeText =
      text.map fun c => if c = '\r' then '\n' else c := by
  split_ifs with h
  · simp [addRun, Paragraph.nodeText]
  · simp [not_not.mp h]

lemma text_redlineParagraph_eq {p : Paragraph} (h : Str.contains target p.text = true) :
    (redlineParagraph author date count target new p).text = shownAfter target p.text := by
  obtain ⟨before, after, hparts, -⟩ := Str.splitFirst_of_contains h
  have hnodes : redlineParagraph author date count target new p =
      addRun [] :: (if before ≠ [] then [addRun before] else []) ++
        [.del (delMark author date count) target] ++ insertedNodes author date count new ++
        (if after ≠ [] then [addRun after] else []) := by
    unfold redlineParagraph
    rw [hparts]
    rfl
  rw [hnodes, shownAfter, removeFirst, hparts, Paragraph.text]
  simp only [List.flatMap_append, List.flatMap_cons, text_insertedNodes, text_optionalRun]
  simp [addRun, Paragraph.nodeText]

lemma filterMap_markOf?_redlineParagraph {p : Paragraph} :
    (redlineParagraph author date count target new p).filterMap markOf? =
      delMark author date count :: (insertedNodes author date count new).filterMap markOf? := by
  have hrun : ∀ text : Str, (if text ≠ [] then [addRun text] else []).filterMap markOf? = [] := by
    intro text
    split_ifs <;> rfl
  simp only [redlineParagraph, List.filterMap_append, List.filterMap_cons, hrun]
  simp [addRun, markOf?]

lemma marks_append (doc doc' : Document) : marks (doc ++ doc') = marks doc ++ marks doc' :=
  List.flatMap_append

lemma marks_cons (p : Paragraph) (doc : Document) : marks (p :: doc) = p.filterMap markOf? ++ marks doc :=
  rfl

lemma ShowsTexts.append {added ps : Document} {texts : List Str} (h : ShowsTexts ps texts)
    (hadded : ∀ q ∈ added, Paragraph.text q = []) : ShowsTexts (added ++ ps) texts := by
  induction added with
  | nil => exact h
  | cons q added ih =>
    rw [List.forall_mem_cons] at hadded
    exact .skip hadded.1 (ih hadded.2)

/-- An edit that no paragraph shows the target of is not placed. -/
lemma ShowsTexts.placeEdit_eq_none {doc : Document} {texts : List Str} (h : ShowsTexts doc texts)
    (ht : target ≠ []) (hi : texts.findIdx? (Str.contains target) = none) :
    placeEdit author date count target new doc = none := by
  induction h with
  | nil => rfl
  | keep hps ih =>
    rw [List.findIdx?_cons] at hi
    split_ifs at hi with hcontains
    rw [placeEdit, if_neg hcontains, ih (by simpa using hi), Option.map_none]
  | skip htext hps ih =>
    rw [placeEdit, htext, Str.not_contains_nil ht, if_neg Bool.false_ne_true, ih hi, Option.map_none]

/-- The marks of the written document are among those of the document and those that are written. -/
def MarksFrom (doc : Document) (written : List Mark) (out : Document) : Prop :=
  ∃ lost, (marks doc ++ written).Perm (marks out ++ lost)

lemma MarksFrom.cons {doc out : Document} {written : List Mark} (h : MarksFrom doc written out)
    (p : Paragraph) : MarksFrom (p :: doc) written (p :: out) := by
  obtain ⟨lost, hperm⟩ := h
  refine ⟨lost, ?_⟩
  rw [marks_cons, marks_cons, List.append_assoc, List.append_assoc]
  exact hperm.append_left _

lemma MarksFrom.trans {doc mid out : Document} {written written' : List Mark}
    (h : MarksFrom doc written mid) (h' : MarksFrom mid written' out) :
    MarksFrom doc (written ++ written') out := by
  obtain ⟨lost, hperm⟩ := h
  obtain ⟨lost', hperm'⟩ := h'
  refine ⟨lost' ++ lost, ?_⟩
  have hswap : (marks mid ++ lost ++ written').Perm (marks mid ++ written' ++ lost) := by
    rw [List.append_assoc, List.append_assoc]
    exact List.perm_append_comm.append_left _
  rw [← List.append_assoc, ← List.append_assoc]
  exact (hperm.append_right written').trans (hswap.trans (hperm'.append_right lost))

lemma perm_swap_ends {α : Type} (a b c d : List α) : (a ++ b ++ (c ++ d)).Perm (c ++ (d ++ b) ++ a) := by
  rw [List.append_assoc a b, ← List.append_assoc c d]
  exact List.perm_append_comm.trans (List.perm_append_comm.append_right a)

/-- An edit whose target a paragraph shows is placed in the first such paragraph. -/
lemma ShowsTexts.placeEdit_eq_some {doc : Document} {texts : List Str} (h : ShowsTexts doc texts)
    (ht : target ≠ []) {i : ℕ} (hi : texts.findIdx? (Str.contains target) = some i) :
    ∃ out, placeEdit author date count target new doc = some out ∧
      ShowsTexts out (texts.modify i (shownAfter target)) ∧
      MarksFrom doc (editMarks author date count new) out := by
  induction h generalizing i with
  | nil => cases hi
  | @keep p ps texts hps ih =>
    rw [List.findIdx?_cons] at hi
    split_ifs at hi with hcontains
    · obtain rfl : 0 = i := by simpa using hi
      rw [placeEdit, if_pos hcontains]
      refine ⟨_, rfl, ?_, p.filterMap markOf?, ?_⟩
      · rw [List.modify_zero_cons, ← text_redlineParagraph_eq hcontains]
        exact .keep (hps.append text_insertedParagraphs)
      · rw [marks_cons, marks_cons, marks_append, filterMap_markOf?_redlineParagraph, editMarks]
        exact perm_swap_ends _ _ _ _
    · obtain ⟨j, hj, rfl⟩ := Option.map_eq_some_iff.mp hi
      obtain ⟨out, hout, hshows, hmarks⟩ := ih hj
      rw [placeEdit, if_neg hcontains, hout, List.modify_succ_cons]
      exact ⟨p :: out, rfl, .keep hshows, hmarks.cons p⟩
  | @skip p ps texts htext hps ih =>
    obtain ⟨out, hout, hshows, hmarks⟩ := ih hi
    rw [placeEdit, htext, Str.not_contains_nil ht, if_neg Bool.false_ne_true, hout]
    exact ⟨p :: out, rfl, .skip htext hshows, hmarks.cons p⟩

/-- In a run that succeeds the marks of the edits that are placed are written, in order. -/
lemma ShowsTexts.foldlM_applyEdit {edits : List Edit} {doc out : Document} {texts : List Str} {n : ℕ}
    (h : ShowsTexts doc texts)
    (hok : edits.foldlM (applyEdit author date) (doc, count) = .ok (out, n)) :
    writtenMarks author date (doc, count) edits =
        ((placedTexts texts edits).zipIdx count).flatMap
          (fun placed => editMarks author date placed.2 placed.1) ∧
      MarksFrom doc (writtenMarks author date (doc, count) edits) out := by
  induction edits generalizing doc texts count with
  | nil =>
    cases hok
    exact ⟨rfl, [], .refl _⟩
  | cons edit edits ih =>
    rw [List.foldlM_cons] at hok
    obtain ⟨⟨doc', count'⟩, hstep, hrest⟩ := Except.of_bind_eq_ok hok
    rw [writtenMarks, placedTexts, hstep]
    simp only
    rw [applyEdit] at hstep
    simp only at hstep
    by_cases htarget : Str.strip edit.targetText = []
    · rw [if_pos htarget] at hstep ⊢
      cases hstep
      rw [if_pos rfl, List.nil_append]
      exact ih h hrest
    · rw [if_neg htarget] at hstep ⊢
      cases hfind : texts.findIdx? (Str.contains (Str.strip edit.targetText)) with
      | none =>
        rw [h.placeEdit_eq_none htarget hfind] at hstep
        cases hstep
        rw [if_pos rfl, List.nil_append]
        exact ih h hrest
      | some i =>
        obtain ⟨placed, hplaced, hshows, hmarks⟩ :=
          @ShowsTexts.placeEdit_eq_some author date count _ (edit.newText.getD []) _ _ h htarget _ hfind
        simp only [hplaced] at hstep
        split_ifs at hstep
        cases hstep
        obtain ⟨hwritten, hfrom⟩ := ih hshows hrest
        rw [if_neg (by omega), List.zipIdx_cons, List.flatMap_cons, ← hwritten]
        exact ⟨rfl, hmarks.trans hfrom⟩

end

/-! ### Numbers -/

/-- The number of further lines of a replacement. -/
def furtherLines (new : Str) : ℕ := (Str.lines new).tail.length

lemma furtherLines_pos_iff {new : Str} : 0 < furtherLines new ↔ '\n' ∈ new := by
  rw [furtherLines, List.length_pos_iff, ne_eq, tail_lines_eq_nil_iff, not_not]

/-- The identifiers of the edit that is placed as number `k`. -/
def editIds (k : ℕ) (new : Str) : List ℕ :=
  k * 2 :: ((if (Str.lines new).headD [] ≠ [] then [k * 2 + 1] else []) ++
    (List.range (furtherLines new)).map (k * 1000 + ·))

lemma filterMap_markOf?_insertedNodes (author date : Str) (k : ℕ) (new : Str) :
    (insertedNodes author date k new).filterMap markOf? =
      if (Str.lines new).headD [] ≠ [] then [insMark author date k] else [] := by
  unfold insertedNodes
  by_cases hnewline : '\n' ∈ new
  · rw [if_neg (List.ne_nil_of_mem hnewline), if_pos hnewline]
    simp only
    split_ifs <;> rfl
  · rw [lines_of_not_mem hnewline, if_neg hnewline]
    by_cases hempty : new = []
    · simp [hempty]
    · simp [hempty, markOf?]

lemma marks_insertedParagraphs (author date : Str) (k : ℕ) (new : Str) :
    marks (insertedParagraphs author date k new) =
      (List.range (furtherLines new)).map (nextMark author date k) := by
  unfold insertedParagraphs
  split_ifs with hnewline
  · have hindices : (Str.lines new).tail.zipIdx.map Prod.snd = List.range (furtherLines new) := by
      rw [List.zipIdx_map_snd, furtherLines, List.range_eq_range']
    rw [marks, List.mapIdx_eq_zipIdx_map, List.flatMap_map, ← hindices, List.map_map,
      List.map_eq_flatMap]
    rfl
  · rw [furtherLines, lines_of_not_mem hnewline]
    rfl

lemma ids_editMarks (author date : Str) (k : ℕ) (new : Str) :
    (editMarks author date k new).map Mark.id = editIds k new := by
  rw [editMarks, editIds, filterMap_markOf?_insertedNodes, marks_insertedParagraphs, List.cons_append,
    List.map_cons, List.map_append, List.map_map]
  split_ifs <;> rfl

lemma mem_editIds {k x : ℕ} {new : Str} (h : x ∈ editIds k new) :
    x = k * 2 ∨ x = k * 2 + 1 ∨ ∃ i < furtherLines new, x = k * 1000 + i := by
  rw [editIds, List.mem_cons, List.mem_append, List.mem_map] at h
  rcases h with h | h | ⟨i, hi, rfl⟩
  · exact .inl h
  · split_ifs at h
    · exact .inr (.inl (List.mem_singleton.mp h))
    · cases h
  · exact .inr (.inr ⟨i, List.mem_range.mp hi, rfl⟩)

lemma del_mem_editIds (k : ℕ) (new : Str) : k * 2 ∈ editIds k new := List.mem_cons_self

lemma next_mem_editIds {k i : ℕ} {new : Str} (hi : i < furtherLines new) :
    k * 1000 + i ∈ editIds k new := by
  rw [editIds, List.mem_cons, List.mem_append]
  exact .inr (.inr (List.mem_map_of_mem (List.mem_range.mpr hi)))

/-- The numbers of the edits with further lines are out of reach of the deletions, and of one
another. -/
def DistinctNumbers (placed : List Str) : Prop :=
  ∀ (k : ℕ) (new : Str), placed[k]? = some new → '\n' ∈ new →
    placed.length ≤ 500 * k ∧
      ∀ (k' : ℕ) (new' : Str), k < k' → placed[k']? = some new' → '\n' ∈ new' →
        furtherLines new ≤ 1000 * (k' - k)

lemma nodup_editIds {k : ℕ} {new : Str} (h : 0 < furtherLines new → 0 < k) :
    (editIds k new).Nodup := by
  have hfar : ∀ i < furtherLines new, k * 2 + 1 < k * 1000 + i := by
    intro i hi
    have hk := h (by omega)
    omega
  rw [editIds, List.nodup_cons]
  constructor
  · intro hmem
    rw [List.mem_append, List.mem_map] at hmem
    rcases hmem with hmem | ⟨i, hi, heq⟩
    · split_ifs at hmem
      · have heq := List.mem_singleton.mp hmem
        omega
      · cases hmem
    · have hlt := hfar i (List.mem_range.mp hi)
      omega
  · rw [List.nodup_append]
    refine ⟨?_, ?_, ?_⟩
    · split_ifs <;> simp
    · exact List.nodup_range.map (add_right_injective _)
    · intro x hx y hy heq
      obtain ⟨i, hi, rfl⟩ := List.mem_map.mp hy
      have hlt := hfar i (List.mem_range.mp hi)
      split_ifs at hx
      · have hx := List.mem_singleton.mp hx
        omega
      · cases hx

lemma pairwise_zipIdx_iff {α : Type} {R : α × ℕ → α × ℕ → Prop} {l : List α} :
    l.zipIdx.Pairwise R ↔
      ∀ (i j : ℕ) (a b : α), i < j → l[i]? = some a → l[j]? = some b → R (a, i) (b, j) := by
  rw [List.pairwise_iff_getElem]
  constructor
  · intro h i j a b hij ha hb
    obtain ⟨hi, rfl⟩ := List.getElem?_eq_some_iff.mp ha
    obtain ⟨hj, rfl⟩ := List.getElem?_eq_some_iff.mp hb
    have hpair := h i j (by simpa using hi) (by simpa using hj) hij
    rw [List.getElem_zipIdx, List.getElem_zipIdx, Nat.zero_add, Nat.zero_add] at hpair
    exact hpair
  · intro h i j hi hj hij
    rw [List.getElem_zipIdx, List.getElem_zipIdx, Nat.zero_add, Nat.zero_add]
    exact h i j _ _ hij (List.getElem?_eq_getElem _) (List.getElem?_eq_getElem _)

/-- The first edit has the identifier 0 for its deletion and for its first further line. -/
lemma pos_of_nodup_editIds {k : ℕ} {new : Str} (h : (editIds k new).Nodup)
    (hfurther : 0 < furtherLines new) : 0 < k := by
  by_contra hk
  obtain rfl : k = 0 := by omega
  rw [editIds, List.nodup_cons] at h
  refine h.1 (List.mem_append_right _ ?_)
  exact List.mem_map.mpr ⟨0, List.mem_range.mpr hfurther, by simp⟩

/-- The first further line of edit `k` has the identifier of the deletion number `500 k`. -/
lemma not_disjoint_deletion {k : ℕ} {new : Str} (hfurther : 0 < furtherLines new) (other : Str) :
    ¬List.Disjoint (editIds k new) (editIds (500 * k) other) := by
  intro hdisjoint
  have hnext := next_mem_editIds (k := k) hfurther
  have heq : k * 1000 + 0 = 500 * k * 2 := by omega
  rw [heq] at hnext
  exact hdisjoint hnext (del_mem_editIds _ other)

/-- Further lines that run into the thousand of a later edit meet its first one. -/
lemma not_disjoint_further {k k' : ℕ} {new new' : Str} (hkk' : k < k')
    (hreach : 1000 * (k' - k) < furtherLines new) (hfurther' : 0 < furtherLines new') :
    ¬List.Disjoint (editIds k new) (editIds k' new') := by
  intro hdisjoint
  have hnext := next_mem_editIds (k := k) hreach
  have hnext' := next_mem_editIds (k := k') hfurther'
  have heq : k' * 1000 + 0 = k * 1000 + 1000 * (k' - k) := by omega
  rw [heq] at hnext'
  exact hdisjoint hnext hnext'

/-- Otherwise the identifiers of two edits have nothing in common. -/
lemma disjoint_editIds {k k' : ℕ} {new new' : Str} (hkk' : k < k')
    (hbound : 0 < furtherLines new → k' < 500 * k)
    (hapart : 0 < furtherLines new → 0 < furtherLines new' → furtherLines new ≤ 1000 * (k' - k)) :
    List.Disjoint (editIds k new) (editIds k' new') := by
  intro x hx hx'
  rcases mem_editIds hx with rfl | rfl | ⟨i, hi, rfl⟩ <;>
    rcases mem_editIds hx' with heq | heq | ⟨i', hi', heq⟩
  all_goals omega

/-- The identifiers are distinct exactly if the numbers of the edits with further lines are out of
reach. -/
lemma nodup_ids_iff (placed : List Str) :
    (placed.zipIdx.flatMap fun p => editIds p.2 p.1).Nodup ↔ DistinctNumbers placed := by
  rw [List.nodup_flatMap, pairwise_zipIdx_iff]
  constructor
  · rintro ⟨hself, hdisjoint⟩ k new hnew hnewline
    have hfurther := furtherLines_pos_iff.mpr hnewline
    have hnodup : (editIds k new).Nodup :=
      hself (new, k) (List.mk_mem_zipIdx_iff_getElem?.mpr hnew)
    have hpos := pos_of_nodup_editIds hnodup hfurther
    constructor
    · by_contra hlt
      have hdel : placed[500 * k]? = some placed[500 * k] := List.getElem?_eq_getElem (by omega)
      exact not_disjoint_deletion hfurther _ (hdisjoint k (500 * k) new _ (by omega) hnew hdel)
    · intro k' new' hkk' hnew' hnewline'
      by_contra hlt
      exact not_disjoint_further hkk' (not_le.mp hlt) (furtherLines_pos_iff.mpr hnewline')
        (hdisjoint k k' new new' hkk' hnew hnew')
  · intro h
    have hbound {k : ℕ} {new : Str} (hnew : placed[k]? = some new) (hfurther : 0 < furtherLines new) :
        placed.length ≤ 500 * k := (h k new hnew (furtherLines_pos_iff.mp hfurther)).1
    have hlt {k : ℕ} {new : Str} (hnew : placed[k]? = some new) : k < placed.length :=
      (List.getElem?_eq_some_iff.mp hnew).1
    constructor
    · rintro ⟨new, k⟩ hmem
      have hnew := List.mk_mem_zipIdx_iff_getElem?.mp hmem
      refine nodup_editIds fun hfurther => ?_
      have hk := hlt hnew
      have hk' := hbound hnew hfurther
      omega
    · intro k k' new new' hkk' hnew hnew'
      exact disjoint_editIds hkk' (fun hfurther => (hlt hnew').trans_le (hbound hnew hfurther))
        fun hfurther hfurther' => (h k new hnew (furtherLines_pos_iff.mp hfurther)).2 k' new' hkk' hnew'
          (furtherLines_pos_iff.mp hfurther')

/-- The identifiers that a run writes are distinct exactly if, of the edits that are placed, each one
with further lines comes late enough for their number, and close enough to no later one; the document
then has distinct identifiers if it had no revisions before. -/
theorem writtenIds_nodup_iff (author date : Str) (doc : Document) (edits : List Edit) {out : Document}
    {n : ℕ} (h : pythonDocxTrackedFallback author date doc edits = .ok (out, n)) :
    (((writtenMarks author date (doc, 0) edits).map Mark.id).Nodup ↔
        DistinctNumbers (placedTexts (doc.map Paragraph.text) edits)) ∧
      (marks doc = [] → DistinctNumbers (placedTexts (doc.map Paragraph.text) edits) →
        ((marks out).map Mark.id).Nodup) := by
  obtain ⟨hwritten, lost, hperm⟩ := (showsTexts_map doc).foldlM_applyEdit (foldlM_of_fallback_eq_ok h)
  have hiff : ((writtenMarks author date (doc, 0) edits).map Mark.id).Nodup ↔
      DistinctNumbers (placedTexts (doc.map Paragraph.text) edits) := by
    rw [hwritten, List.map_flatMap]
    simp only [ids_editMarks]
    exact nodup_ids_iff _
  refine ⟨hiff, fun hdoc hdistinct => ?_⟩
  rw [hdoc, List.nil_append] at hperm
  have hnodup := (hperm.map Mark.id).nodup (hiff.mpr hdistinct)
  rw [List.map_append] at hnodup
  exact hnodup.of_append_left

namespace Sample

lemma distinctNumbers_editA : DistinctNumbers (placedTexts [paragraph.text] [editA]) := by
  have hplaced : placedTexts [paragraph.text] [editA] = [['x']] := rfl
  rw [hplaced]
  intro k new hnew hnewline
  obtain rfl : new = ['x'] := by
    have hmem := List.mem_of_getElem? hnew
    simpa using hmem
  exact absurd hnewline (by decide)

theorem writtenIds_nodup_editA : ((marks outA).map Mark.id).Nodup := by
  exact (writtenIds_nodup_iff ['K'] [] (Document.ofTexts [paragraph.text]) [editA] (n := 1) rfl).2 rfl
    distinctNumbers_editA

/-- The deletion of an edit with two lines and its second line have the same number. -/
theorem writtenIds_repeated :
    pythonDocxTrackedFallback ['K'] [] (Document.ofTexts [paragraph.text]) [firstEdit] =
        .ok (outFirst, 1) ∧
      (writtenMarks ['K'] [] (Document.ofTexts [paragraph.text], 0) [firstEdit]).map Mark.id =
        [0, 1, 0] ∧
      ¬((marks outFirst).map Mark.id).Nodup := by
  refine ⟨rfl, rfl, by decide⟩

end Sample

end AxiomGrid.Redline
