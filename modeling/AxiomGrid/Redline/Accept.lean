import AxiomGrid.Redline.Reject

/-!
# Accepting the changes

The final stream of the written document against the text with every target replaced. The writer puts
what stands behind a target into the paragraph of the target, in front of the paragraphs it adds for
the further lines of the replacement; so the order is right for the replacements of one line, and for
the targets at the end of their paragraph.
-/

namespace AxiomGrid.Redline

/-- A paragraph of the original document: as it was, or cut at the target of the edit that hit it. -/
inductive Piece where
  | whole (text : Str)
  | replaced (before new after : Str)

namespace Piece

/-- The text outside of tracked changes. -/
def shown : Piece → Str
  | whole text => text
  | replaced before _ after => before ++ after

/-- The last text of a list with another text behind it. -/
def appendLast (tail : Str) : List Str → List Str
  | [] => []
  | [line] => [line ++ tail]
  | line :: next :: lines => line :: appendLast tail (next :: lines)

/-- What the edit asks for: the lines of the replacement are paragraphs, the text before the target
begins the first one and the text behind it ends the last one. -/
def intended : Piece → List Str
  | whole text => [text]
  | replaced before new after =>
    match appendLast after (Str.lines new) with
    | [] => []
    | line :: lines => (before ++ line) :: lines

/-- What the writer records: the text behind the target ends the first paragraph. -/
def recorded : Piece → List Str
  | whole text => [text]
  | replaced before new after =>
    (before ++ (Str.lines new).headD [] ++ after) :: (Str.lines new).tail

/-- A replacement of one line, or nothing behind the target. -/
def InOrder : Piece → Prop
  | whole _ => True
  | replaced _ new after => '\n' ∉ new ∨ after = []

end Piece

/-- The replacement of the first occurrence of the target in the first paragraph that no edit has hit
and that holds it. -/
def placePiece (target new : Str) : List Piece → List Piece
  | [] => []
  | .whole text :: pieces =>
    if Str.contains target text then
      let parts := Str.splitFirst target text
      .replaced (parts.headD []) new (parts.getD 1 []) :: pieces
    else .whole text :: placePiece target new pieces
  | .replaced before new' after :: pieces =>
    .replaced before new' after :: placePiece target new pieces

/-- One edit; a blank target is skipped. -/
def replaceEdit (pieces : List Piece) (edit : Edit) : List Piece :=
  let target := Str.strip edit.targetText
  if target = [] then pieces else placePiece target (edit.newText.getD []) pieces

/-- The paragraphs of a document, cut by the edits in order. -/
def cutPieces (texts : List Str) (edits : List Edit) : List Piece :=
  edits.foldl replaceEdit (texts.map .whole)

/-! ### Lines of a replacement -/

lemma exists_lines (s : Str) : ∃ line lines, Str.lines s = line :: lines :=
  List.exists_cons_of_ne_nil (List.splitOn_ne_nil '\n' s)

/-- A text without a newline is its only line. -/
lemma lines_of_not_mem {s : Str} (h : '\n' ∉ s) : Str.lines s = [s] := List.splitOn_eq_singleton h

lemma tail_lines_eq_nil_iff {s : Str} : (Str.lines s).tail = [] ↔ '\n' ∉ s := by
  constructor
  · intro h hmem
    obtain ⟨a, b, rfl⟩ := List.append_of_mem hmem
    obtain ⟨line, lines, hlines⟩ := exists_lines a
    obtain ⟨line', lines', hlines'⟩ := exists_lines b
    rw [Str.lines, List.splitOn_append_cons_of_beq a b (beq_self_eq_true '\n')] at h
    rw [Str.lines] at hlines hlines'
    rw [hlines, hlines'] at h
    simp at h
  · intro h
    rw [lines_of_not_mem h, List.tail_cons]

namespace Piece

lemma appendLast_nil (lines : List Str) : appendLast [] lines = lines := by
  induction lines with
  | nil => rfl
  | cons line lines ih =>
    cases lines with
    | nil => simp [appendLast]
    | cons line' lines => rw [appendLast, ih]

lemma length_appendLast (tail : Str) (lines : List Str) :
    (appendLast tail lines).length = lines.length := by
  induction lines with
  | nil => rfl
  | cons line lines ih =>
    cases lines with
    | nil => rfl
    | cons line' lines =>
      rw [appendLast, List.length_cons, ih]
      rfl

/-- The paragraphs that are asked for, by the number of lines. -/
lemma intended_replaced {before new after line : Str} {lines : List Str}
    (h : Str.lines new = line :: lines) :
    intended (.replaced before new after) =
      if lines = [] then [before ++ line ++ after] else (before ++ line) :: appendLast after lines := by
  rw [intended, h]
  cases lines with
  | nil => simp [appendLast]
  | cons line' lines => simp [appendLast]

lemma recorded_replaced {before new after line : Str} {lines : List Str}
    (h : Str.lines new = line :: lines) :
    recorded (.replaced before new after) = (before ++ line ++ after) :: lines := by
  rw [recorded, h]
  rfl

/-- The writer adds as many paragraphs as the edit asks for. -/
lemma length_recorded (piece : Piece) : piece.recorded.length = piece.intended.length := by
  cases piece with
  | whole text => rfl
  | replaced before new after =>
    obtain ⟨line, lines, hlines⟩ := exists_lines new
    rw [intended_replaced hlines, recorded_replaced hlines]
    split_ifs with hone
    · simp [hone]
    · simp [length_appendLast]

lemma recorded_eq_intended_iff (piece : Piece) : piece.recorded = piece.intended ↔ piece.InOrder := by
  cases piece with
  | whole text => exact ⟨fun _ => trivial, fun _ => rfl⟩
  | replaced before new after =>
    obtain ⟨line, lines, hlines⟩ := exists_lines new
    have hone : lines = [] ↔ '\n' ∉ new := by
      rw [← tail_lines_eq_nil_iff, hlines, List.tail_cons]
    rw [intended_replaced hlines, recorded_replaced hlines, InOrder, ← hone]
    split_ifs with hempty
    · simp [hempty]
    · simp only [hempty, false_or]
      constructor
      · intro h
        exact List.append_right_eq_self.mp (List.cons.inj h).1
      · rintro rfl
        rw [List.append_nil, appendLast_nil]

end Piece

/-- The document reads as intended exactly if each of its pieces is in order. -/
lemma flatMap_recorded_eq_iff {pieces : List Piece} :
    pieces.flatMap Piece.recorded = pieces.flatMap Piece.intended ↔
      ∀ piece ∈ pieces, piece.InOrder := by
  induction pieces with
  | nil => simp
  | cons piece pieces ih =>
    rw [List.flatMap_cons, List.flatMap_cons, List.forall_mem_cons, ← ih,
      ← piece.recorded_eq_intended_iff]
    constructor
    · intro h
      exact List.append_inj h piece.length_recorded
    · rintro ⟨hpiece, hpieces⟩
      rw [hpiece, hpieces]

/-! ### The written document -/

/-- The paragraphs of the document are those of the pieces: a paragraph that was not hit has one run,
and one that was hit is followed by the paragraphs that the edit added. -/
inductive Reads : Document → List Piece → Prop
  | nil : Reads [] []
  | whole {text : Str} {ps : Document} {pieces : List Piece} :
    Plain text → '\r' ∉ text → Reads ps pieces → Reads ([.run text] :: ps) (.whole text :: pieces)
  | replaced {p : Paragraph} {added ps : Document} {before new after : Str} {pieces : List Piece} :
    p.text = before ++ after → (∀ q ∈ added, Paragraph.text q = []) →
    (p :: added).map Paragraph.final = Piece.recorded (.replaced before new after) →
    Reads ps pieces → Reads (p :: (added ++ ps)) (.replaced before new after :: pieces)

lemma reads_ofTexts {texts : List Str} (h : ∀ text ∈ texts, Plain text ∧ '\r' ∉ text) :
    Reads (Document.ofTexts texts) (texts.map .whole) := by
  induction texts with
  | nil => exact .nil
  | cons text texts ih =>
    rw [List.forall_mem_cons] at h
    rw [Document.ofTexts, List.map_cons, addRun_of_no_cr h.1.2]
    exact .whole h.1.1 h.1.2 (ih h.2)

/-- Accepting the changes reads what the pieces record. -/
lemma Reads.map_final {doc : Document} {pieces : List Piece} (h : Reads doc pieces) :
    doc.map Paragraph.final = pieces.flatMap Piece.recorded := by
  induction h with
  | nil => rfl
  | @whole text ps pieces hplain hcr hps ih =>
    rw [List.map_cons, List.flatMap_cons, ih]
    simp [Paragraph.final, Paragraph.nodeFinal, hplain.runText_eq, Piece.recorded]
  | replaced htext hadded hfinal hps ih =>
    rw [← List.cons_append, List.map_append, hfinal, ih, List.flatMap_cons]

section

variable {author date : Str} {count : ℕ} {target new : Str}

lemma final_optionalRun {text : Str} (h : Plain text) :
    (if text ≠ [] then [Node.run text] else []).flatMap Paragraph.nodeFinal = text := by
  split_ifs with hempty
  · simp [Paragraph.nodeFinal, h.runText_eq]
  · simpa using (not_not.mp hempty).symm

lemma final_insertedNodes :
    (insertedNodes author date count new).flatMap Paragraph.nodeFinal = (Str.lines new).headD [] := by
  unfold insertedNodes
  by_cases hnewline : '\n' ∈ new
  · rw [if_neg (List.ne_nil_of_mem hnewline), if_pos hnewline]
    simp only
    split_ifs with hfirst
    · simp [Paragraph.nodeFinal]
    · simpa using (not_not.mp hfirst).symm
  · rw [lines_of_not_mem hnewline, if_neg hnewline]
    split_ifs with hempty
    · simp [hempty]
    · simp [Paragraph.nodeFinal]

lemma final_insertedParagraphs :
    (insertedParagraphs author date count new).map Paragraph.final = (Str.lines new).tail := by
  unfold insertedParagraphs
  split_ifs with hnewline
  · apply List.ext_getElem?
    intro i
    simp [Paragraph.final, Paragraph.nodeFinal, Function.comp_def]
  · rw [lines_of_not_mem hnewline]
    rfl

lemma text_insertedParagraphs : ∀ q ∈ insertedParagraphs author date count new,
    Paragraph.text q = [] := by
  unfold insertedParagraphs
  split_ifs with hnewline
  · intro q hq
    rw [List.mem_mapIdx] at hq
    obtain ⟨i, hi, rfl⟩ := hq
    rfl
  · simp

/-- A paragraph that is hit becomes the piece that is cut at the target. -/
lemma reads_redlineParagraph {text : Str} {ps : Document} {pieces : List Piece} (hplain : Plain text)
    (hcr : '\r' ∉ text) (hcontains : Str.contains target text = true) (hps : Reads ps pieces) :
    Reads (redlineParagraph author date count target new [.run text] ::
        (insertedParagraphs author date count new ++ ps))
      (.replaced ((Str.splitFirst target text).headD []) new ((Str.splitFirst target text).getD 1 []) ::
        pieces) := by
  have htext : Paragraph.text [.run text] = text := by
    simp [Paragraph.text, Paragraph.nodeText]
  obtain ⟨before, after, hparts, heq⟩ := Str.splitFirst_of_contains hcontains
  have hb : Plain before := hplain.mono fun c hc => by simp [heq, hc]
  have ha : Plain after := hplain.mono fun c hc => by simp [heq, hc]
  rw [hparts]
  refine .replaced ?_ text_insertedParagraphs ?_ hps
  · rw [text_redlineParagraph (by rwa [htext]) (by rwa [htext]), htext, removeFirst, hparts]
    simp
  · rw [List.map_cons, final_insertedParagraphs, Piece.recorded,
      redlineParagraph_eq (by rwa [htext]) (by rwa [htext]) (by rwa [htext])]
    congr 1
    simp only [Paragraph.final, List.flatMap_append, List.flatMap_cons, List.flatMap_nil,
      final_insertedNodes, final_optionalRun hb, final_optionalRun ha, Paragraph.nodeFinal,
      List.append_nil]
    rfl

/-- The first piece that shows the target, if one does, was not hit before. -/
def FirstWhole (target : Str) (pieces : List Piece) : Prop :=
  ∀ i, (pieces.map Piece.shown).findIdx? (Str.contains target) = some i →
    ∃ text, pieces[i]? = some (.whole text)

lemma FirstWhole.tail {piece : Piece} {pieces : List Piece} (h : FirstWhole target (piece :: pieces))
    (hnot : Str.contains target piece.shown = false) : FirstWhole target pieces := by
  intro i hi
  have hnext := h (i + 1)
  rw [List.map_cons, List.findIdx?_cons, hnot, if_neg Bool.false_ne_true, hi] at hnext
  exact hnext rfl

/-- Paragraphs that were added do not take an edit. -/
lemma placeEdit_append {added ps : Document} (ht : target ≠ [])
    (hadded : ∀ q ∈ added, Paragraph.text q = []) :
    placeEdit author date count target new (added ++ ps) =
      (placeEdit author date count target new ps).map (added ++ ·) := by
  induction added with
  | nil => simp
  | cons q added ih =>
    rw [List.forall_mem_cons] at hadded
    rw [List.cons_append, placeEdit, hadded.1, Str.not_contains_nil ht, if_neg Bool.false_ne_true,
      ih hadded.2, Option.map_map]
    rfl

/-- The writer places an edit where the first piece shows its target. -/
lemma Reads.placeEdit_getD {doc : Document} {pieces : List Piece} (h : Reads doc pieces)
    (ht : target ≠ []) (hfirst : FirstWhole target pieces) :
    Reads ((placeEdit author date count target new doc).getD doc) (placePiece target new pieces) := by
  induction h with
  | nil => exact .nil
  | @whole text ps pieces hplain hcr hps ih =>
    have htext : Paragraph.text [.run text] = text := by
      simp [Paragraph.text, Paragraph.nodeText]
    rw [placeEdit, placePiece, htext]
    by_cases hcontains : Str.contains target text = true
    · rw [if_pos hcontains, if_pos hcontains]
      exact reads_redlineParagraph hplain hcr hcontains hps
    · rw [if_neg hcontains, if_neg hcontains]
      have hrest := ih (hfirst.tail (Bool.eq_false_of_not_eq_true hcontains))
      rw [Option.getD_map (fun out => [Node.run text] :: out)]
      exact .whole hplain hcr hrest
  | @replaced p added ps before new' after pieces htext hadded hfinal hps ih =>
    have hnot : Str.contains target (before ++ after) = false := by
      by_contra hcontains
      rw [Bool.not_eq_false] at hcontains
      obtain ⟨text, hwhole⟩ := hfirst 0 (by simp [Piece.shown, List.findIdx?_cons, hcontains])
      cases hwhole
    have hrest := ih (hfirst.tail hnot)
    rw [placeEdit, placePiece, htext, hnot, if_neg Bool.false_ne_true, placeEdit_append ht hadded,
      Option.map_map, Function.comp_def, Option.getD_map (fun out => p :: (added ++ out))]
    exact .replaced htext hadded hfinal hrest

/-! ### A list of edits -/

/-- A piece as the view of its paragraph: a deletion is recorded if an edit hit it. -/
def Piece.view : Piece → View
  | .whole text => ⟨text, none⟩
  | .replaced before _ after => ⟨before ++ after, some (⟨[], [], 0⟩, [])⟩

lemma map_text_view (pieces : List Piece) :
    (pieces.map Piece.view).map View.text = pieces.map Piece.shown := by
  rw [List.map_map]
  apply List.map_congr_left
  rintro (_ | _) _ <;> rfl

lemma exists_whole_of_del {pieces : List Piece} {i : ℕ} (hi : i < pieces.length)
    (h : ∀ v, (pieces.map Piece.view)[i]? = some v → v.del = none) :
    ∃ text, pieces[i]? = some (.whole text) := by
  have hget : pieces[i]? = some pieces[i] := List.getElem?_eq_getElem hi
  have hdel := h _ (by rw [List.getElem?_map, hget, Option.map_some])
  rw [hget]
  cases hpiece : pieces[i] with
  | whole text => exact ⟨text, rfl⟩
  | replaced before new after =>
    rw [hpiece] at hdel
    cases hdel

/-- The piece that is cut stands where the first paragraph shows the target. -/
lemma placePiece_eq_set {pieces : List Piece} {i : ℕ} {text : Str}
    (hi : (pieces.map Piece.shown).findIdx? (Str.contains target) = some i)
    (htext : pieces[i]? = some (.whole text)) :
    placePiece target new pieces = pieces.set i (.replaced ((Str.splitFirst target text).headD []) new
      ((Str.splitFirst target text).getD 1 [])) ∧ Str.contains target text = true := by
  induction pieces generalizing i with
  | nil => cases htext
  | cons piece pieces ih =>
    rw [List.map_cons, List.findIdx?_cons] at hi
    split_ifs at hi with hcontains
    · obtain rfl : 0 = i := by simpa using hi
      obtain rfl : piece = .whole text := by simpa using htext
      rw [Piece.shown] at hcontains
      rw [placePiece, if_pos hcontains]
      exact ⟨rfl, hcontains⟩
    · obtain ⟨j, hj, rfl⟩ := Option.map_eq_some_iff.mp hi
      obtain ⟨heq, htarget⟩ := ih hj (by simpa using htext)
      refine ⟨?_, htarget⟩
      cases piece with
      | whole text' =>
        rw [Piece.shown] at hcontains
        rw [placePiece, if_neg hcontains, heq]
        rfl
      | replaced before new' after =>
        rw [placePiece, heq]
        rfl

lemma placePiece_eq_self {pieces : List Piece}
    (h : (pieces.map Piece.shown).findIdx? (Str.contains target) = none) :
    placePiece target new pieces = pieces := by
  induction pieces with
  | nil => rfl
  | cons piece pieces ih =>
    rw [List.map_cons, List.findIdx?_cons] at h
    split_ifs at h with hcontains
    have hrest := ih (by simpa using h)
    cases piece with
    | whole text =>
      rw [Piece.shown] at hcontains
      rw [placePiece, if_neg hcontains, hrest]
    | replaced before new' after => rw [placePiece, hrest]

/-- One turn of the loop on the document. -/
lemma applyEdit_fst {doc doc' : Document} {edit : Edit} {n : ℕ}
    (h : applyEdit author date (doc, count) edit = .ok (doc', n)) :
    doc' = if Str.strip edit.targetText = [] then doc
      else (placeEdit author date count (Str.strip edit.targetText) (edit.newText.getD []) doc).getD
        doc := by
  simp only [applyEdit] at h
  by_cases htarget : Str.strip edit.targetText = []
  · rw [if_pos htarget] at h ⊢
    cases h
    rfl
  · rw [if_neg htarget] at h ⊢
    split at h
    · rename_i hplace
      cases h
      rw [hplace, Option.getD_none]
    · rename_i out hplace
      split_ifs at h
      cases h
      rw [hplace, Option.getD_some]

/-- An edit that no paragraph shows the target of hits nothing. -/
lemma hits_cons_of_not_found {pieces : List Piece} {edit : Edit} {edits : List Edit}
    (h : Str.strip edit.targetText = [] ∨
      (pieces.map Piece.shown).findIdx? (Str.contains (Str.strip edit.targetText)) = none) :
    hits ((pieces.map Piece.view).map View.text) (edit :: edits) =
      none :: hits ((pieces.map Piece.view).map View.text) edits := by
  rw [hits, map_text_view]
  split_ifs with htarget
  · rfl
  · rw [h.resolve_left htarget]

/-- What the next edits find where an edit has replaced its target in a whole paragraph. -/
lemma hits_cons_of_found {pieces : List Piece} {edit : Edit} {edits : List Edit} {i : ℕ}
    {text before after : Str} (htarget : Str.strip edit.targetText ≠ [])
    (hfind : (pieces.map Piece.shown).findIdx? (Str.contains (Str.strip edit.targetText)) = some i)
    (htext : pieces[i]? = some (.whole text))
    (hparts : Str.splitFirst (Str.strip edit.targetText) text = [before, after]) :
    hits ((pieces.map Piece.view).map View.text) (edit :: edits) =
      some i :: hits (((pieces.set i (.replaced before (edit.newText.getD []) after)).map
        Piece.view).map View.text) edits := by
  have hmodify : (pieces.map Piece.shown).modify i (removeFirst (Str.strip edit.targetText)) =
      (pieces.map Piece.shown).set i (before ++ after) := by
    rw [List.modify_eq_set_getElem?, List.getElem?_map, htext]
    simp [Piece.shown, removeFirst, hparts]
  rw [map_text_view, map_text_view, hits, if_neg htarget, hfind, List.map_set]
  simp only [hmodify]
  rfl

/-- Of edits that hit different paragraphs the first one hits a paragraph that is whole, and the others
still hit different ones. -/
lemma fresh_replaceEdit {pieces : List Piece} {edit : Edit} {edits : List Edit}
    (h : Fresh (pieces.map Piece.view) (edit :: edits)) :
    (Str.strip edit.targetText ≠ [] → FirstWhole (Str.strip edit.targetText) pieces) ∧
      Fresh ((replaceEdit pieces edit).map Piece.view) edits := by
  by_cases htarget : Str.strip edit.targetText = []
  · rw [fresh_cons_of_none (hits_cons_of_not_found (.inl htarget))] at h
    rw [replaceEdit, if_pos htarget]
    exact ⟨fun hne => absurd htarget hne, h⟩
  · rw [replaceEdit, if_neg htarget]
    cases hfind : (pieces.map Piece.shown).findIdx? (Str.contains (Str.strip edit.targetText)) with
    | none =>
      rw [fresh_cons_of_none (hits_cons_of_not_found (.inr hfind))] at h
      rw [placePiece_eq_self hfind]
      refine ⟨fun _ i hi => ?_, h⟩
      rw [hfind] at hi
      cases hi
    | some i =>
      have hi : i < pieces.length := by
        simpa using (List.findIdx?_eq_some_iff_findIdx_eq.mp hfind).1
      have hmem : i ∈ (hits ((pieces.map Piece.view).map View.text) (edit :: edits)).reduceOption := by
        rw [hits, if_neg htarget, map_text_view, hfind, List.reduceOption_cons_of_some]
        exact List.mem_cons_self
      obtain ⟨text, htext⟩ := exists_whole_of_del hi (h.2 i hmem)
      obtain ⟨hset, hcontains⟩ := @placePiece_eq_set _ (edit.newText.getD []) _ _ _ hfind htext
      obtain ⟨before, after, hparts, -⟩ := Str.splitFirst_of_contains hcontains
      have hview : (pieces.map Piece.view)[i]? = some ⟨text, none⟩ := by
        rw [List.getElem?_map, htext]
        rfl
      have hhits := @hits_cons_of_found _ _ edits _ _ _ _ htarget hfind htext hparts
      rw [List.map_set] at hhits
      constructor
      · intro _ j hj
        rw [hfind, Option.some.injEq] at hj
        exact ⟨text, hj ▸ htext⟩
      · rw [hset, hparts, List.map_set]
        exact ((fresh_cons_of_some hview rfl hhits).mp h).2

/-- Edits that hit different paragraphs are placed where the pieces are cut. -/
lemma Reads.foldlM_applyEdit {edits : List Edit} {doc out : Document} {pieces : List Piece} {n : ℕ}
    (hreads : Reads doc pieces) (hfresh : Fresh (pieces.map Piece.view) edits)
    (hok : edits.foldlM (applyEdit author date) (doc, count) = .ok (out, n)) :
    Reads out (edits.foldl replaceEdit pieces) := by
  induction edits generalizing doc pieces count with
  | nil =>
    cases hok
    exact hreads
  | cons edit edits ih =>
    rw [List.foldlM_cons] at hok
    obtain ⟨⟨doc', count'⟩, hstep, hrest⟩ := Except.of_bind_eq_ok hok
    obtain ⟨hfirst, hnext⟩ := fresh_replaceEdit hfresh
    refine ih ?_ hnext hrest
    rw [applyEdit_fst hstep, replaceEdit]
    split_ifs with htarget
    · exact hreads
    · exact hreads.placeEdit_getD htarget (hfirst htarget)

end

/-- No replacement with further lines has text behind its target. -/
def InOrder (texts : List Str) (edits : List Edit) : Prop :=
  ∀ before new after, .replaced before new after ∈ cutPieces texts edits → '\n' ∉ new ∨ after = []

/-- The paragraphs that the edits ask for. -/
def intendedParagraphs (texts : List Str) (edits : List Edit) : List Str :=
  (cutPieces texts edits).flatMap Piece.intended

/-- Of edits that hit different paragraphs, accepting the changes gives the paragraphs that the edits
ask for exactly if no replacement with further lines has text behind its target; the reader then
recovers their text. -/
theorem final_eq_intended_iff (nfc : Nfc) (author date : Str) (paragraphs : List PlainText)
    (edits : List Edit) {out : Document} {n : ℕ}
    (hhits : (hits (paragraphs.map PlainText.text) edits).reduceOption.Nodup)
    (h : pythonDocxTrackedFallback author date
      (Document.ofTexts (paragraphs.map PlainText.text)) edits = .ok (out, n)) :
    (out.map Paragraph.final = intendedParagraphs (paragraphs.map PlainText.text) edits ↔
        InOrder (paragraphs.map PlainText.text) edits) ∧
      (InOrder (paragraphs.map PlainText.text) edits →
        (reconstructOriginalAndFinal nfc out).2 =
          norm nfc (Str.joinLines (intendedParagraphs (paragraphs.map PlainText.text) edits))) := by
  have hreads := reads_ofTexts fun s (hs : s ∈ paragraphs.map PlainText.text) => plain_of_mem hs
  have hviews : ((paragraphs.map PlainText.text).map Piece.whole).map Piece.view =
      viewsOf (paragraphs.map PlainText.text) := by
    rw [List.map_map]
    rfl
  have hfresh : Fresh (((paragraphs.map PlainText.text).map Piece.whole).map Piece.view) edits := by
    rw [hviews, fresh_viewsOf]
    exact hhits
  have hout := (hreads.foldlM_applyEdit hfresh (foldlM_of_fallback_eq_ok h)).map_final
  rw [← cutPieces] at hout
  have hiff : out.map Paragraph.final = intendedParagraphs (paragraphs.map PlainText.text) edits ↔
      InOrder (paragraphs.map PlainText.text) edits := by
    rw [hout, intendedParagraphs, flatMap_recorded_eq_iff]
    constructor
    · intro hall before new after hmem
      exact hall _ hmem
    · rintro hall (_ | ⟨before, new, after⟩) hmem
      · trivial
      · exact hall before new after hmem
  refine ⟨hiff, fun horder => ?_⟩
  rw [reconstructOriginalAndFinal, hiff.mpr horder]

namespace Sample

/-- An edit of the end of the sample paragraph, with two lines. -/
def lastEdit : Edit := ⟨['b'], some ['x', '\n', 'y']⟩

/-- An edit of its start, with two lines. -/
def firstEdit : Edit := ⟨['a'], some ['x', '\n', 'y']⟩

def outLast : Document :=
  [[.run [], .run ['a', ' '], .del ⟨['K'], [], 0⟩ ['b'], .ins ⟨['K'], [], 1⟩ ['x']],
    [.ins ⟨['K'], [], 0⟩ ['y']]]

def outFirst : Document :=
  [[.run [], .del ⟨['K'], [], 0⟩ ['a'], .ins ⟨['K'], [], 1⟩ ['x'], .run [' ', 'b']],
    [.ins ⟨['K'], [], 0⟩ ['y']]]

theorem final_eq_intended_last :
    outLast.map Paragraph.final = intendedParagraphs [paragraph.text] [lastEdit] := by
  refine (final_eq_intended_iff .ofNormalised ['K'] [] [paragraph] [lastEdit] (n := 1) (by decide)
    rfl).1.mpr ?_
  intro before new after hmem
  have hcut : cutPieces ([paragraph].map PlainText.text) [lastEdit] =
      [.replaced ['a', ' '] ['x', '\n', 'y'] []] := rfl
  rw [hcut, List.mem_singleton] at hmem
  cases hmem
  exact .inr rfl

/-- The text behind the target comes before the second line of the replacement. -/
theorem final_ne_intended_first :
    (hits [paragraph.text] [firstEdit]).reduceOption.Nodup ∧
      pythonDocxTrackedFallback ['K'] [] (Document.ofTexts [paragraph.text]) [firstEdit] =
        .ok (outFirst, 1) ∧
      outFirst.map Paragraph.final = [['x', ' ', 'b'], ['y']] ∧
      intendedParagraphs [paragraph.text] [firstEdit] = [['x'], ['y', ' ', 'b']] := by
  refine ⟨by decide, rfl, rfl, rfl⟩

end Sample

end AxiomGrid.Redline
