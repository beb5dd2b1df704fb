import Mathlib.Data.List.ReduceOption
import AxiomGrid.Redline.Document

/-!
# Which paragraph an edit hits

What the writer does with a document depends only on what each paragraph shows outside of its
tracked changes. A list of `View`s keeps that text for the paragraphs of the original document, with
the deletion the paragraph records; the paragraphs the writer inserted show nothing.
-/

namespace AxiomGrid.Redline

/-- The text without the first occurrence of the target. -/
def removeFirst (target s : Str) : Str := (Str.splitFirst target s).flatten

/-- For each edit the paragraph it hits: the first one whose text outside of tracked changes holds
the target. The target then is no longer part of that text. -/
def hits : List Str → List Edit → List (Option ℕ)
  | _, [] => []
  | texts, edit :: edits =>
    let target := Str.strip edit.targetText
    if target = [] then none :: hits texts edits
    else
      match texts.findIdx? (Str.contains target) with
      | none => none :: hits texts edits
      | some i => some i :: hits (texts.modify i (removeFirst target)) edits

/-- The deletion a node records. -/
def delOf? : Node → Option (Mark × Str)
  | .run _ => none
  | .del mark delText => some (mark, delText)
  | .ins _ _ => none

/-- A paragraph of the original document: its text outside of tracked changes and the deletion it
records. -/
structure View where
  text : Str
  del : Option (Mark × Str)

/-- The paragraphs of the document are those of `views`, with inserted ones between them. -/
inductive Shows : Document → List View → Prop
  | nil : Shows [] []
  | original {p : Paragraph} {v : View} {ps : Document} {vs : List View}
      (htext : p.text = v.text) (hdel : p.filterMap delOf? = v.del.toList) (hcr : '\r' ∉ v.text)
      (hps : Shows ps vs) : Shows (p :: ps) (v :: vs)
  | inserted {mark : Mark} {line : Str} {ps : Document} {vs : List View}
      (hps : Shows ps vs) : Shows ([.ins mark line] :: ps) vs

lemma addRun_of_no_cr {text : Str} (h : '\r' ∉ text) : addRun text = .run text := by
  rw [addRun]
  congr 1
  apply (List.map_congr_left _).trans (List.map_id text)
  intro c hc
  have hne : c ≠ '\r' := fun hcr => h (hcr ▸ hc)
  simp [hne]

/-- The views of a document without tracked changes. -/
def viewsOf (texts : List Str) : List View := texts.map fun text => ⟨text, none⟩

lemma map_text_viewsOf (texts : List Str) : (viewsOf texts).map View.text = texts := by
  rw [viewsOf, List.map_map]
  exact List.map_id texts

lemma del_of_mem_viewsOf {texts : List Str} {v : View} (h : v ∈ viewsOf texts) :
    v.text ∈ texts ∧ v.del = none := by
  obtain ⟨text, htext, rfl⟩ := List.mem_map.mp h
  exact ⟨htext, rfl⟩

lemma shows_ofTexts {texts : List Str} (h : ∀ text ∈ texts, '\r' ∉ text) :
    Shows (Document.ofTexts texts) (viewsOf texts) := by
  induction texts with
  | nil => exact .nil
  | cons text texts ih =>
    have hcr := h text (List.mem_cons_self ..)
    rw [Document.ofTexts, viewsOf, List.map_cons, List.map_cons]
    refine .original ?_ ?_ hcr (ih fun t ht => h t (List.mem_cons_of_mem _ ht))
    · simp [addRun_of_no_cr hcr, Paragraph.text, Paragraph.nodeText]
    · simp [addRun_of_no_cr hcr, delOf?]

/-! ### One edit -/

variable {author date : Str} {count : ℕ} {target new : Str} {p : Paragraph}

lemma text_insertedNodes : (insertedNodes author date count new).flatMap Paragraph.nodeText = [] := by
  unfold insertedNodes
  split_ifs <;> simp [Paragraph.nodeText]

lemma filterMap_insertedNodes : (insertedNodes author date count new).filterMap delOf? = [] := by
  unfold insertedNodes
  split_ifs <;> simp [delOf?]

/-- The paragraph after the edit, in terms of the two parts of its text. -/
lemma redlineParagraph_eq {before after : Str} (hcr : '\r' ∉ p.text)
    (hparts : Str.splitFirst target p.text = [before, after])
    (htext : p.text = before ++ target ++ after) :
    redlineParagraph author date count target new p =
      .run [] :: (if before ≠ [] then [.run before] else []) ++
        [.del (delMark author date count) target] ++ insertedNodes author date count new ++
        (if after ≠ [] then [.run after] else []) := by
  have hb : '\r' ∉ before := fun h => hcr (by simp [htext, h])
  have ha : '\r' ∉ after := fun h => hcr (by simp [htext, h])
  unfold redlineParagraph
  rw [hparts]
  simp only [List.headD_cons, List.getD_cons_succ, List.getD_cons_zero, addRun_of_no_cr hb,
    addRun_of_no_cr ha]
  rfl

lemma text_redlineParagraph (hcr : '\r' ∉ p.text) (h : Str.contains target p.text = true) :
    (redlineParagraph author date count target new p).text = removeFirst target p.text := by
  obtain ⟨before, after, hparts, htext⟩ := Str.splitFirst_of_contains h
  rw [redlineParagraph_eq hcr hparts htext, removeFirst, hparts, Paragraph.text]
  simp only [List.flatMap_append, List.flatMap_cons, text_insertedNodes, Paragraph.nodeText]
  split_ifs <;> simp_all [Paragraph.nodeText]

lemma filterMap_redlineParagraph :
    (redlineParagraph author date count target new p).filterMap delOf? =
      [(delMark author date count, target)] := by
  have hrun : ∀ text : Str, (if text ≠ [] then [addRun text] else []).filterMap delOf? = [] := by
    intro text
    split_ifs <;> rfl
  simp only [redlineParagraph, List.filterMap_append, List.filterMap_cons, filterMap_insertedNodes,
    hrun]
  rfl

lemma mem_of_mem_removeFirst {s : Str} (h : Str.contains target s = true) {c : Char}
    (hc : c ∈ removeFirst target s) : c ∈ s := by
  obtain ⟨before, after, hparts, htext⟩ := Str.splitFirst_of_contains h
  rw [removeFirst, hparts] at hc
  rw [htext]
  simp_all
  tauto

lemma Shows.insertedParagraphs {ps : Document} {vs : List View} (h : Shows ps vs) :
    Shows (insertedParagraphs author date count new ++ ps) vs := by
  unfold Redline.insertedParagraphs
  split_ifs with hnl
  · rw [List.mapIdx_eq_zipIdx_map]
    induction (Str.lines new).tail.zipIdx with
    | nil => exact h
    | cons line lines ih => exact .inserted ih
  · exact h

/-- An edit that no paragraph shows the target of is not placed. -/
lemma Shows.placeEdit_eq_none {doc : Document} {views : List View} (h : Shows doc views)
    (ht : target ≠ []) (hi : (views.map View.text).findIdx? (Str.contains target) = none) :
    placeEdit author date count target new doc = none := by
  induction h with
  | nil => rfl
  | @original p v ps vs htext hdel hcr hps ih =>
    simp only [List.map_cons, List.findIdx?_cons] at hi
    split_ifs at hi with hc
    rw [placeEdit, htext, if_neg hc, ih (by simpa using hi), Option.map_none]
  | @inserted mark line ps vs hps ih =>
    have hno : Str.contains target (Paragraph.text [.ins mark line]) = false :=
      Str.not_contains_nil ht
    rw [placeEdit, hno, if_neg Bool.false_ne_true, ih hi, Option.map_none]

/-- What placing an edit does: the paragraph `p` behind the view `v` is rebuilt. -/
structure Placed (author date : Str) (count : ℕ) (target new : Str) (doc : Document)
    (views : List View) (i : ℕ) (out : Document) : Prop where
  exists_split : ∃ pre p post v, doc = pre ++ p :: post ∧
    out = pre ++ redlineParagraph author date count target new p ::
      (Redline.insertedParagraphs author date count new ++ post) ∧
    views[i]? = some v ∧ p.text = v.text ∧ p.filterMap delOf? = v.del.toList ∧
    '\r' ∉ p.text ∧ Str.contains target p.text = true
  shows_out : ∀ v, views[i]? = some v →
    Shows out (views.set i ⟨removeFirst target v.text, some (delMark author date count, target)⟩)

lemma Placed.cons {q : Paragraph} {doc out : Document} {views views' : List View} {i j : ℕ}
    (h : Placed author date count target new doc views i out)
    (hget : views'[j]? = views[i]?)
    (hset : ∀ v, Shows out (views.set i v) → Shows (q :: out) (views'.set j v)) :
    Placed author date count target new (q :: doc) views' j (q :: out) := by
  obtain ⟨⟨pre, p, post, v, rfl, rfl, hv, hrest⟩, hshows⟩ := h
  constructor
  · exact ⟨q :: pre, p, post, v, rfl, rfl, hget.trans hv, hrest⟩
  · intro w hw
    rw [hget] at hw
    exact hset _ (hshows w hw)

/-- An edit whose target a paragraph shows is placed in the first such paragraph. -/
lemma Shows.placeEdit_eq_some {doc : Document} {views : List View} (h : Shows doc views)
    (ht : target ≠ []) {i : ℕ}
    (hi : (views.map View.text).findIdx? (Str.contains target) = some i) :
    ∃ out, placeEdit author date count target new doc = some out ∧
      Placed author date count target new doc views i out := by
  induction h generalizing i with
  | nil => simp at hi
  | @original p v ps vs htext hdel hcr hps ih =>
    simp only [List.map_cons, List.findIdx?_cons] at hi
    rw [placeEdit, htext]
    split_ifs at hi with hc
    · obtain rfl : 0 = i := by simpa using hi
      rw [if_pos hc]
      rw [← htext] at hc hcr
      refine ⟨_, rfl, ⟨⟨[], p, ps, v, rfl, rfl, rfl, htext, hdel, hcr, hc⟩, ?_⟩⟩
      intro w hw
      obtain rfl : v = w := by simpa using hw
      refine .original ?_ ?_ ?_ hps.insertedParagraphs
      · rw [text_redlineParagraph hcr hc, htext]
      · rw [filterMap_redlineParagraph, Option.toList_some]
      · intro hmem
        rw [← htext] at hmem
        exact hcr (mem_of_mem_removeFirst hc hmem)
    · obtain ⟨j, hj, rfl⟩ := Option.map_eq_some_iff.mp hi
      obtain ⟨out, hout, hplaced⟩ := ih hj
      rw [if_neg hc, hout]
      refine ⟨p :: out, rfl, hplaced.cons (by simp) ?_⟩
      intro w hw
      exact .original htext hdel hcr hw
  | @inserted mark line ps vs hps ih =>
    have hno : Str.contains target (Paragraph.text [.ins mark line]) = false :=
      Str.not_contains_nil ht
    obtain ⟨out, hout, hplaced⟩ := ih hi
    rw [placeEdit, hno, if_neg Bool.false_ne_true, hout]
    refine ⟨[.ins mark line] :: out, rfl, hplaced.cons rfl ?_⟩
    intro w hw
    exact .inserted hw

lemma foldlM_of_fallback_eq_ok {doc out : Document} {edits : List Edit} {n : ℕ}
    (h : pythonDocxTrackedFallback author date doc edits = .ok (out, n)) :
    edits.foldlM (applyEdit author date) (doc, 0) = .ok (out, n) := by
  unfold pythonDocxTrackedFallback at h
  split at h
  · rename_i result hresult
    rw [hresult, h]
  · cases h

/-- What one turn of the loop does, in terms of the views: nothing, or one edit is placed. -/
lemma Shows.applyEdit_cases {doc out : Document} {views : List View} {n : ℕ} {edit : Edit}
    (h : Shows doc views) (hok : applyEdit author date (doc, count) edit = .ok (out, n)) :
    (out = doc ∧ n = count ∧
      ∀ edits, hits (views.map View.text) (edit :: edits) =
        none :: hits (views.map View.text) edits) ∨
    ∃ i v, views[i]? = some v ∧ n = count + 1 ∧ Str.strip edit.targetText ≠ [] ∧
      Placed author date count (Str.strip edit.targetText) (edit.newText.getD []) doc views i out ∧
      ∀ del edits, hits (views.map View.text) (edit :: edits) =
        some i :: hits ((views.set i ⟨removeFirst (Str.strip edit.targetText) v.text, del⟩).map
          View.text) edits := by
  simp only [applyEdit] at hok
  by_cases ht : Str.strip edit.targetText = []
  · rw [if_pos ht] at hok
    obtain ⟨rfl, rfl⟩ : doc = out ∧ count = n := by simpa using hok
    refine .inl ⟨rfl, rfl, fun edits => ?_⟩
    rw [hits, if_pos ht]
  · rw [if_neg ht] at hok
    cases hi : (views.map View.text).findIdx? (Str.contains (Str.strip edit.targetText)) with
    | none =>
      rw [h.placeEdit_eq_none ht hi] at hok
      obtain ⟨rfl, rfl⟩ : doc = out ∧ count = n := by simpa using hok
      refine .inl ⟨rfl, rfl, fun edits => ?_⟩
      rw [hits, if_neg ht, hi]
    | some i =>
      obtain ⟨doc', hdoc', hplaced⟩ :=
        @Shows.placeEdit_eq_some author date count _ (edit.newText.getD []) _ _ h ht _ hi
      simp only [hdoc'] at hok
      split_ifs at hok
      obtain ⟨rfl, rfl⟩ : doc' = out ∧ count + 1 = n := by simpa using hok
      have hsplit := hplaced.exists_split
      obtain ⟨pre, p, post, v, -, -, hv, -⟩ := hsplit
      refine .inr ⟨i, v, hv, rfl, ht, hplaced, fun del edits => ?_⟩
      have hset : (views.set i ⟨removeFirst (Str.strip edit.targetText) v.text, del⟩).map View.text =
          (views.map View.text).modify i (removeFirst (Str.strip edit.targetText)) := by
        rw [List.map_set, List.modify_eq_set_getElem?, List.getElem?_map, hv]
        rfl
      rw [hits, if_neg ht, hi, hset]

/-! ### Edits that hit different paragraphs -/

/-- No edit hits a paragraph twice, or one that records a deletion already. -/
def Fresh (views : List View) (edits : List Edit) : Prop :=
  (hits (views.map View.text) edits).reduceOption.Nodup ∧
    ∀ i ∈ (hits (views.map View.text) edits).reduceOption, ∀ v, views[i]? = some v → v.del = none

section Fresh

variable {views : List View} {edit : Edit} {edits : List Edit} {i : ℕ} {v v' : View}

lemma fresh_cons_of_none
    (h : hits (views.map View.text) (edit :: edits) = none :: hits (views.map View.text) edits) :
    Fresh views (edit :: edits) ↔ Fresh views edits := by
  rw [Fresh, h, List.reduceOption_cons_of_none, Fresh]

lemma fresh_cons_of_some (hv : views[i]? = some v) (hdel : v'.del.isSome)
    (h : hits (views.map View.text) (edit :: edits) =
      some i :: hits ((views.set i v').map View.text) edits) :
    Fresh views (edit :: edits) ↔ v.del = none ∧ Fresh (views.set i v') edits := by
  have hi : i < views.length := (List.getElem?_eq_some_iff.mp hv).1
  rw [Fresh, Fresh, h, List.reduceOption_cons_of_some, List.nodup_cons]
  constructor
  · rintro ⟨⟨hnot, hnodup⟩, hall⟩
    refine ⟨hall i (List.mem_cons_self ..) v hv, hnodup, ?_⟩
    intro j hj w hw
    have hij : i ≠ j := fun hij => hnot (hij ▸ hj)
    rw [List.getElem?_set_ne hij] at hw
    exact hall j (List.mem_cons_of_mem _ hj) w hw
  · rintro ⟨hnone, hnodup, hall⟩
    -- the paragraph just hit now records a deletion
    have hnot : i ∉ (hits ((views.set i v').map View.text) edits).reduceOption := by
      intro hmem
      have hdel' := hall i hmem v' (List.getElem?_set_self hi)
      rw [hdel'] at hdel
      exact Bool.false_ne_true hdel
    refine ⟨⟨hnot, hnodup⟩, ?_⟩
    intro j hj w hw
    rcases List.mem_cons.mp hj with rfl | hj
    · obtain rfl : v = w := by simpa [hv] using hw
      exact hnone
    · have hij : i ≠ j := fun hij => hnot (hij ▸ hj)
      exact hall j hj w (by rwa [List.getElem?_set_ne hij])

lemma fresh_viewsOf {texts : List Str} :
    Fresh (viewsOf texts) edits ↔ (hits texts edits).reduceOption.Nodup := by
  rw [Fresh, map_text_viewsOf]
  refine and_iff_left ?_
  intro i _ v hv
  exact (del_of_mem_viewsOf (List.mem_of_getElem? hv)).2

end Fresh

end AxiomGrid.Redline
