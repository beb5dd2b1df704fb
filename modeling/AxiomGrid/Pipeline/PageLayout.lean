import AxiomGrid.Pipeline.Ingestor

/-!
# The layout of texts

`_ingest_text` and `_ingest_docx` of `kernel/sidecar/ingestor.py` invent the place of a paragraph from a
running number of lines. No character is lost but white space, and a paragraph begins below the end of
the one before it, also where the end of a page cuts it off.
-/

namespace AxiomGrid.Pipeline

/-! ### Characters -/

/-- The characters that are not white space. -/
def visible (s : Str) : Str := s.filter fun c => !Str.isSpace c

lemma visible_append (s t : Str) : visible (s ++ t) = visible s ++ visible t :=
  List.filter_append s t

lemma visible_eq_nil {s : Str} (h : ∀ c ∈ s, Str.isSpace c = true) : visible s = [] := by
  rw [visible, List.filter_eq_nil_iff]
  intro c hc
  simp [h c hc]

lemma visible_dropWhile (s : Str) : visible (s.dropWhile Str.isSpace) = visible s := by
  have hsplit : s.takeWhile Str.isSpace ++ s.dropWhile Str.isSpace = s := List.takeWhile_append_dropWhile
  have hfront : visible (s.takeWhile Str.isSpace) = [] :=
    visible_eq_nil fun _ hc => List.mem_takeWhile_imp hc
  calc visible (s.dropWhile Str.isSpace)
      = visible (s.takeWhile Str.isSpace) ++ visible (s.dropWhile Str.isSpace) := by rw [hfront]; rfl
    _ = visible s := by rw [← visible_append, hsplit]

@[simp] lemma visible_strip (s : Str) : visible (Str.strip s) = visible s := by
  have hreverse : ∀ t : Str, visible t.reverse = (visible t).reverse := fun t => List.filter_reverse
  rw [Str.strip, hreverse, visible_dropWhile, hreverse, List.reverse_reverse, visible_dropWhile]

/-- Splitting at white space keeps the other characters in order. -/
lemma visible_pieces {r : Regex.Pattern} (hr : r.Within fun c => Str.isSpace c = true) (fuel : ℕ)
    (before rest : Str) : (Regex.pieces r fuel before rest).flatMap visible = visible rest := by
  induction fuel generalizing before rest with
  | zero => simp [Regex.pieces]
  | succ fuel ih =>
    cases hsearch : Regex.searchFrom r before rest with
    | none => simp [Regex.pieces_succ_of_none hsearch]
    | some m =>
      have hof := Regex.searchFrom_spec hsearch
      have hseparator : visible m.text = [] := visible_eq_nil (hof.within _ hr)
      rw [Regex.pieces_succ_of_some hsearch, List.flatMap_cons, ih, hof.parts, visible_append,
        visible_append, hseparator, List.append_nil]

lemma visible_of_blank {s : Str} (h : Str.strip s = []) : visible s = [] := by
  rw [← visible_strip, h]
  rfl

lemma visible_splitParagraphs (text : Str) : (splitParagraphs text).flatMap visible = visible text := by
  have hfilter : ∀ blocks : List Str,
      (blocks.filter fun b => Str.strip b ≠ []).flatMap visible = blocks.flatMap visible := by
    intro blocks
    induction blocks with
    | nil => rfl
    | cons b blocks ih =>
      rw [List.filter_cons]
      split_ifs with hb
      · rw [List.flatMap_cons, ih, List.flatMap_cons]
      · have hblank : Str.strip b = [] := by simpa using hb
        rw [ih, List.flatMap_cons, visible_of_blank hblank, List.nil_append]
  rw [splitParagraphs, hfilter]
  apply visible_pieces
  refine ⟨?_, fun c hc => hc, ?_⟩ <;>
  · intro c hc
    rw [beq_iff_eq.mp hc]
    rfl

/-! ### Places -/

/-- A chunk stands on the lines from `line` on. -/
structure Occupies (chunk : Chunk) (line paraLines : ℕ) : Prop where
  page : chunk.page = line / linesPerPage + 1
  bbox : chunk.bbox = some (lineBox line paraLines)
  pos : 0 < paraLines

/-- A chunk is on an earlier page than another one, or strictly above it on the same page. -/
structure Above (chunk chunk' : Chunk) : Prop where
  page : chunk.page ≤ chunk'.page
  below : chunk.page = chunk'.page → ∀ box box', chunk.bbox = some box → chunk'.bbox = some box' →
    box.y1.lt box'.y0 = true

/-- The box of a chunk is a strip of its page. -/
def OnPage (chunk : Chunk) : Prop :=
  ∃ box, chunk.bbox = some box ∧ PyFloat.le (.fin 0) box.y0 = true ∧ box.y0.lt box.y1 = true ∧
    box.y1.le (.fin 1) = true

lemma share_le_share {m n : ℕ} : (m : ℚ) * (1 / linesPerPage) < n * (1 / linesPerPage) ↔ m < n := by
  have hpos : (0 : ℚ) < 1 / linesPerPage := by
    simp [linesPerPage]
  rw [mul_lt_mul_iff_left₀ hpos, Nat.cast_lt]

lemma Occupies.onPage {chunk : Chunk} {line paraLines : ℕ} (h : Occupies chunk line paraLines) :
    OnPage chunk := by
  have hoffset : line % linesPerPage < linesPerPage := Nat.mod_lt _ (by decide)
  refine ⟨_, h.bbox, ?_, ?_, ?_⟩
  · simp only [lineBox, PyFloat.le_fin, decide_eq_true_eq]
    positivity
  · simp only [lineBox, PyFloat.lt_fin, decide_eq_true_eq, lt_min_iff]
    constructor
    · rw [mul_one_div, div_lt_one (by simp [linesPerPage])]
      exact_mod_cast hoffset
    · exact share_le_share.mpr (Nat.lt_add_of_pos_right h.pos)
  · simp only [lineBox, PyFloat.le_fin, decide_eq_true_eq]
    exact min_le_left _ _

/-- A paragraph that begins after the end of another one is below it. -/
lemma Occupies.above {chunk chunk' : Chunk} {line paraLines line' paraLines' : ℕ}
    (h : Occupies chunk line paraLines) (h' : Occupies chunk' line' paraLines')
    (hafter : line + paraLines < line') : Above chunk chunk' := by
  refine ⟨?_, ?_⟩
  · rw [h.page, h'.page]
    exact Nat.succ_le_succ (Nat.div_le_div_right (by omega))
  · rintro hpage box box' hbox hbox'
    obtain rfl := Option.some.inj (h.bbox.symm.trans hbox)
    obtain rfl := Option.some.inj (h'.bbox.symm.trans hbox')
    rw [h.page, h'.page, Nat.succ_inj] at hpage
    -- on one page the offsets are in the order of the lines
    have hoffset : line % linesPerPage + paraLines < line' % linesPerPage := by
      have := Nat.div_add_mod line linesPerPage
      have := Nat.div_add_mod line' linesPerPage
      rw [hpage] at *
      omega
    simp only [lineBox, PyFloat.lt_fin, decide_eq_true_eq]
    exact (min_le_right _ _).trans_lt (share_le_share.mpr hoffset)

/-! ### The loop over the paragraphs -/

/-- The state of the loop after paragraphs with these characters. -/
structure Spread (done : Str) (layout : Layout) : Prop where
  text : layout.chunks.flatMap (fun chunk => visible chunk.text) = done
  pageCount : 1 ≤ layout.pageCount
  pages : ∀ chunk ∈ layout.chunks, 1 ≤ chunk.page ∧ chunk.page ≤ layout.pageCount
  occupies : ∀ chunk ∈ layout.chunks, ∃ line paraLines,
    Occupies chunk line paraLines ∧ line + paraLines < layout.currentLine
  above : layout.chunks.Pairwise Above

lemma spread_empty : Spread [] {} where
  text := rfl
  pageCount := le_rfl
  pages := by simp
  occupies := by simp
  above := List.Pairwise.nil

/-- A blank paragraph moves the next one down. -/
lemma Spread.skip {done : Str} {layout : Layout} (h : Spread done layout) {paraText : Str}
    (hblank : Str.strip paraText = []) :
    Spread (done ++ visible paraText) { layout with currentLine := layout.currentLine + 1 } where
  text := by rw [visible_of_blank hblank, List.append_nil]; exact h.text
  pageCount := h.pageCount
  pages := h.pages
  occupies chunk hchunk := by
    obtain ⟨line, paraLines, hoccupies, hlt⟩ := h.occupies chunk hchunk
    exact ⟨line, paraLines, hoccupies, Nat.lt_succ_of_lt hlt⟩
  above := h.above

/-- A paragraph is placed below those before it. -/
lemma Spread.place {done : Str} {layout : Layout} (h : Spread done layout) (sourceType paraText : Str)
    {paraLines : ℕ} (hpos : 0 < paraLines) :
    Spread (done ++ visible paraText) (layout.place sourceType paraText paraLines) := by
  set chunk : Chunk :=
    { chunkId := []
      page := layout.currentLine / linesPerPage + 1
      bbox := some (lineBox layout.currentLine paraLines)
      text := Str.strip paraText
      sourceType } with hchunk
  have hplace : Occupies chunk layout.currentLine paraLines := ⟨rfl, rfl, hpos⟩
  have hchunks : (layout.place sourceType paraText paraLines).chunks = layout.chunks ++ [chunk] := rfl
  refine ⟨?_, ?_, ?_, ?_, ?_⟩
  · rw [hchunks, List.flatMap_append, h.text, List.flatMap_singleton, hchunk, visible_strip]
  · exact h.pageCount.trans (le_max_left _ _)
  · rw [hchunks, List.forall_mem_append, List.forall_mem_singleton]
    exact ⟨fun c hc => ⟨(h.pages c hc).1, (h.pages c hc).2.trans (le_max_left _ _)⟩,
      Nat.le_add_left 1 _, le_max_right _ _⟩
  · rw [hchunks, List.forall_mem_append, List.forall_mem_singleton]
    refine ⟨fun c hc => ?_, _, _, hplace, ?_⟩
    · obtain ⟨line, paraLines', hoccupies, hlt⟩ := h.occupies c hc
      exact ⟨line, paraLines', hoccupies, hlt.trans_le (Nat.le_add_right _ _)⟩
    · exact Nat.add_lt_add_left (Nat.lt_succ_self _) _
  · rw [hchunks, List.pairwise_append]
    refine ⟨h.above, List.pairwise_singleton _ _, fun c hc c' hc' => ?_⟩
    obtain rfl := List.mem_singleton.mp hc'
    obtain ⟨line, paraLines', hoccupies, hlt⟩ := h.occupies c hc
    exact hoccupies.above hplace hlt

lemma spread_foldl_placeText (paragraphs : List Str) {done : Str} {layout : Layout}
    (h : Spread done layout) :
    Spread (done ++ paragraphs.flatMap visible) (paragraphs.foldl Layout.placeText layout) := by
  induction paragraphs generalizing done layout with
  | nil => rwa [List.flatMap_nil, List.append_nil]
  | cons paraText paragraphs ih =>
    rw [List.flatMap_cons, ← List.append_assoc, List.foldl_cons]
    apply ih
    rw [Layout.placeText]
    split_ifs with hblank
    · exact h.skip hblank
    · exact h.place _ _ (Nat.succ_pos _)

/-- The characters that the paragraphs count for the budget. -/
def extractedChars (paragraphs : List Str) : ℕ :=
  ((paragraphs.filter fun paraText => Str.strip paraText ≠ []).map List.length).sum

/-- Within the budget every paragraph of a DOCX is placed. -/
lemma spread_foldlM_placeDocx {limits : Limits} (paragraphs : List Str) {done : Str} {layout : Layout}
    (h : Spread done layout)
    (hlimit : layout.extractedChars + extractedChars paragraphs ≤ limits.maxExtractedChars) :
    ∃ layout', paragraphs.foldlM (Layout.placeDocx limits) layout = .ok layout' ∧
      Spread (done ++ paragraphs.flatMap visible) layout' := by
  induction paragraphs generalizing done layout with
  | nil => exact ⟨layout, rfl, by rwa [List.flatMap_nil, List.append_nil]⟩
  | cons paraText paragraphs ih =>
    rw [List.flatMap_cons, ← List.append_assoc, List.foldlM_cons, Layout.placeDocx]
    by_cases hblank : Str.strip paraText = []
    · have hrest : extractedChars (paraText :: paragraphs) = extractedChars paragraphs := by
        simp [extractedChars, hblank]
      rw [if_pos hblank]
      exact ih (h.skip hblank) (hrest ▸ hlimit)
    · have hrest : extractedChars (paraText :: paragraphs) =
          paraText.length + extractedChars paragraphs := by
        simp [extractedChars, hblank]
      rw [hrest] at hlimit
      rw [if_neg hblank, if_neg (by omega)]
      have hcounted : Spread done
          { layout with extractedChars := layout.extractedChars + paraText.length } :=
        ⟨h.text, h.pageCount, h.pages, h.occupies, h.above⟩
      apply ih (hcounted.place _ _ (lt_of_lt_of_le Nat.one_pos (le_max_left _ _)))
      change layout.extractedChars + paraText.length + extractedChars paragraphs ≤ _
      omega

/-! ### What the parsers return -/

/-- Chunks that hold the characters of a text in order, each in a strip of its own. -/
structure LaidOver (text : Str) (parsed : Parsed) : Prop where
  text : parsed.1.flatMap (fun chunk => visible chunk.text) = visible text
  pages_sorted : (parsed.1.map (·.page)).Pairwise (· ≤ ·)
  pages_listed : parsed.2.2.map (·.index) = (List.range parsed.2.1).map fun p : ℕ => (p : ℤ) + 1
  pages : ∀ chunk ∈ parsed.1, 1 ≤ chunk.page ∧ chunk.page ≤ parsed.2.1
  onPage : ∀ chunk ∈ parsed.1, OnPage chunk
  disjoint : parsed.1.Pairwise fun chunk chunk' => chunk.page = chunk'.page →
    ∀ box box', chunk.bbox = some box → chunk'.bbox = some box' → box.y1.lt box'.y0 = true

lemma Spread.laidOver {text : Str} {layout : Layout} (h : Spread (visible text) layout) :
    LaidOver text (layout.chunks, layout.pageCount, blankPages layout.pageCount) where
  text := h.text
  pages_sorted := List.pairwise_map.mpr (h.above.imp Above.page)
  pages_listed := by simp [blankPages_eq, Function.comp_def]
  pages := h.pages
  onPage chunk hchunk := by
    obtain ⟨line, paraLines, hoccupies, -⟩ := h.occupies chunk hchunk
    exact hoccupies.onPage
  disjoint := h.above.imp Above.below

/-- A text, and the paragraphs of a DOCX within the budget, are laid over the pages. -/
theorem laidOver_ingest :
    (∀ text, LaidOver text (ingestText text)) ∧
    ∀ (limits : Limits) (paragraphs : List Str),
      extractedChars paragraphs ≤ limits.maxExtractedChars →
      ∃ parsed, ingestDocx limits (.ok paragraphs) = .ok parsed ∧ LaidOver paragraphs.flatten parsed := by
  constructor
  · intro text
    apply Spread.laidOver
    rw [← visible_splitParagraphs]
    exact spread_foldl_placeText _ spread_empty
  · intro limits paragraphs hlimit
    obtain ⟨layout, hfold, hspread⟩ :=
      spread_foldlM_placeDocx paragraphs spread_empty (by simpa using hlimit)
    refine ⟨_, by rw [ingestDocx]; simp only [hfold, bind, Except.bind]; rfl, Spread.laidOver ?_⟩
    have hvisible : visible paragraphs.flatten = paragraphs.flatMap visible := by
      rw [visible, List.filter_flatten, List.flatMap_def]
      rfl
    rwa [hvisible]

theorem laidOver_ingest_sample :
    ∃ parsed, ingestDocx {} (.ok ["Lease".toList, " ".toList, "Rent".toList]) = .ok parsed ∧
      LaidOver "Lease Rent".toList parsed :=
  laidOver_ingest.2 {} ["Lease".toList, " ".toList, "Rent".toList] (by decide)

end AxiomGrid.Pipeline
