import AxiomGrid.Lib.PyFloat
import AxiomGrid.Lib.PyStr

/-!
# Chunks of a page

`PdfIngestor._chunk_text` of `kairo/docintel/ingest.py`. The text of a page is cut into overlapping
chunks: each is extended to the end of a word, and the next begins before it ends, unless that would be
no progress.
-/

namespace AxiomGrid.DocIntel.Ingest

/-- A word of `page.extract_words`, with the defaults of its keys. -/
structure Word where
  text : Str := []
  x0 : PyFloat := .fin 0
  top : PyFloat := .fin 0
  x1 : PyFloat := .fin 0
  bottom : PyFloat := .fin 0

/-- The dimensions of a page. The caller puts the ones of a letter in the place of zero. -/
structure PageSize where
  width : PyFloat
  height : PyFloat
  width_ne : width ≠ .fin 0
  height_ne : height ≠ .fin 0

/-- A box: left, top, right and bottom. -/
abbrev Box := PyFloat × PyFloat × PyFloat × PyFloat

/-- `ChunkMeta`. -/
structure ChunkMeta where
  chunkId : String
  page : ℤ
  text : Str
  bbox : Box
  charStart : ℕ := 0
  charEnd : ℕ := 0

/-- `PdfIngestor`, with `CHUNK_SIZE` and `CHUNK_OVERLAP`. -/
structure PdfIngestor where
  chunkSize : ℕ := 500
  chunkOverlap : ℕ := 50
  chunkSize_pos : 0 < chunkSize := by decide

/-! ### The box of a span -/

/-- The extent of the words found so far, and the offset behind the last word. -/
structure Extent where
  minX0 : PyFloat := .inf false
  minY0 : PyFloat := .inf false
  maxX1 : PyFloat := .inf true
  maxY1 : PyFloat := .inf true
  found : Bool := false
  charPos : ℕ := 0

/-- The turn of the loop for a word. -/
def Extent.add (charStart charEnd : ℕ) (text : Str) (extent : Extent) (word : Word) : Extent :=
  let wordEnd := extent.charPos + word.text.length
  let extent :=
    if extent.charPos < charEnd ∧ charStart < wordEnd then
      { extent with
        minX0 := extent.minX0.min word.x0
        minY0 := extent.minY0.min word.top
        maxX1 := extent.maxX1.max word.x1
        maxY1 := extent.maxY1.max word.bottom
        found := true }
    else extent
  { extent with charPos := if text[wordEnd]? = some ' ' then wordEnd + 1 else wordEnd }

/-- `max(0.0, min(x / extent, 1.0))`. -/
def normalized (x extent : PyFloat) : PyFloat := PyFloat.max (.fin 0) ((x.div extent).min (.fin 1))

/-- `_compute_bbox`. -/
def computeBbox (charStart charEnd : ℕ) (text : Str) (words : List Word) (size : PageSize) : Box :=
  if words = [] then (.fin 0, .fin 0, .fin 1, .fin 1)
  else
    let extent := words.foldl (Extent.add charStart charEnd text) {}
    if !extent.found || extent.minX0.eq (.inf false) then (.fin 0, .fin 0, .fin 1, .fin 1)
    else
      (normalized extent.minX0 size.width, normalized extent.minY0 size.height,
        normalized extent.maxX1 size.width, normalized extent.maxY1 size.height)

/-! ### The chunks -/

/-- `c in " \n\t"`. -/
def isWordEnd (c : Char) : Bool := c == ' ' || c == '\n' || c == '\t'

namespace PdfIngestor

variable (self : PdfIngestor)

/-- `end`, extended to the end of a word. -/
def chunkEnd (text : Str) (start : ℕ) : ℕ :=
  let stop := min (start + self.chunkSize) text.length
  if stop < text.length then stop + ((text.drop stop).takeWhile fun c => !isWordEnd c).length
  else stop

/-- The next `start`. -/
def nextStart (start stop : ℕ) : ℕ :=
  if (stop - self.chunkOverlap : ℤ) ≤ start then stop else stop - self.chunkOverlap

variable (text : Str) (page : ℤ) (words : List Word) (size : PageSize)

/-- The chunk between two offsets. -/
def chunk (chunkIdx start stop : ℕ) : ChunkMeta where
  chunkId := toString page ++ "_" ++ toString chunkIdx
  page := page
  text := Str.strip (Str.slice text start stop)
  bbox := computeBbox start stop text words size
  charStart := start
  charEnd := stop

/-- The loop, if it ends within the turns. -/
def chunkLoop : ℕ → ℕ → ℕ → Option (List ChunkMeta)
  | 0, start, _ => if start < text.length then none else some []
  | turns + 1, start, chunkIdx =>
    if start < text.length then
      let stop := self.chunkEnd text start
      let next := self.nextStart start stop
      if Str.strip (Str.slice text start stop) = [] then chunkLoop turns next chunkIdx
      else
        (chunkLoop turns next (chunkIdx + 1)).map
          (chunk text page words size chunkIdx start stop :: ·)
    else some []

/-- `_chunk_text`. -/
def chunkText (turns : ℕ) : Option (List ChunkMeta) :=
  if Str.strip text = [] then some [] else self.chunkLoop text page words size turns 0 0

variable {text page words size}

lemma chunkEnd_spec {start : ℕ} (h : start < text.length) :
    start < self.chunkEnd text start ∧ self.chunkEnd text start ≤ text.length := by
  have hpos := self.chunkSize_pos
  have hword := ((text.drop (min (start + self.chunkSize) text.length)).takeWhile_sublist
    fun c => !isWordEnd c).length_le
  rw [List.length_drop] at hword
  rw [chunkEnd]
  split_ifs
  · omega
  · omega

/-- The next chunk begins behind the start of the last one, and not behind its end. -/
lemma nextStart_spec {start stop : ℕ} (h : start < stop) :
    start < self.nextStart start stop ∧ self.nextStart start stop ≤ stop := by
  rw [nextStart]
  split_ifs
  · omega
  · omega

end PdfIngestor

/-- A text of which nothing is left is white space. -/
lemma isSpace_of_strip_eq_nil {s : Str} (h : Str.strip s = []) : ∀ c ∈ s, Str.isSpace c = true := by
  obtain ⟨left, right, hs, hleft, hright⟩ := Str.exists_strip s
  rw [h, List.append_nil] at hs
  intro c hc
  rw [hs, List.mem_append] at hc
  exact hc.elim (hleft c) (hright c)

lemma getElem?_slice {text : Str} {start stop i : ℕ} (hstart : start ≤ i) (hstop : i < stop) :
    (Str.slice text start stop)[i - start]? = text[i]? := by
  rw [Str.slice, List.getElem?_drop, Nat.add_sub_cancel' hstart, List.getElem?_take_of_lt hstop]

/-- The chunks of a text from an offset on. -/
structure Chunks (text : Str) (start : ℕ) (chunks : List ChunkMeta) : Prop where
  covers : ∀ i c, text[i]? = some c → Str.isSpace c = false → start ≤ i →
    ∃ chunk ∈ chunks, chunk.charStart ≤ i ∧ i < chunk.charEnd
  start_le : ∀ chunk ∈ chunks, start ≤ chunk.charStart
  increasing : chunks.Pairwise fun chunk chunk' => chunk.charStart < chunk'.charStart
  text_eq : ∀ chunk ∈ chunks, chunk.text = Str.strip (Str.slice text chunk.charStart chunk.charEnd)

lemma Chunks.nil {text : Str} {start : ℕ} (h : text.length ≤ start) : Chunks text start [] where
  covers i c hi _ hle := by
    have hlt := (List.getElem?_eq_some_iff.mp hi).1
    omega
  start_le := by simp
  increasing := .nil
  text_eq := by simp

/-- A span of white space is left out. -/
lemma Chunks.skip {text : Str} {start stop next : ℕ} {chunks : List ChunkMeta}
    (h : Chunks text next chunks) (hblank : Str.strip (Str.slice text start stop) = [])
    (hstart : start ≤ next) (hnext : next ≤ stop) : Chunks text start chunks where
  covers i c hi hc hle := by
    by_cases hlt : i < stop
    · have hmem : c ∈ Str.slice text start stop :=
        List.mem_of_getElem? ((getElem?_slice hle hlt).trans hi)
      rw [isSpace_of_strip_eq_nil hblank c hmem] at hc
      cases hc
    · exact h.covers i c hi hc (by omega)
  start_le chunk hchunk := hstart.trans (h.start_le chunk hchunk)
  increasing := h.increasing
  text_eq := h.text_eq

lemma Chunks.cons {text : Str} {start stop next : ℕ} {chunks : List ChunkMeta}
    (h : Chunks text next chunks) (chunk : ChunkMeta)
    (hspan : chunk.charStart = start ∧ chunk.charEnd = stop)
    (htext : chunk.text = Str.strip (Str.slice text start stop)) (hstart : start < next)
    (hnext : next ≤ stop) : Chunks text start (chunk :: chunks) where
  covers i c hi hc hle := by
    by_cases hlt : i < stop
    · exact ⟨chunk, List.mem_cons_self, by omega, by omega⟩
    · obtain ⟨chunk', hmem, hcover⟩ := h.covers i c hi hc (by omega)
      exact ⟨chunk', List.mem_cons_of_mem chunk hmem, hcover⟩
  start_le := by
    rw [List.forall_mem_cons]
    exact ⟨hspan.1.ge, fun chunk' hchunk => hstart.le.trans (h.start_le chunk' hchunk)⟩
  increasing := by
    refine List.pairwise_cons.mpr ⟨fun chunk' hchunk => ?_, h.increasing⟩
    rw [hspan.1]
    exact hstart.trans_le (h.start_le chunk' hchunk)
  text_eq := by
    rw [List.forall_mem_cons, hspan.1, hspan.2]
    exact ⟨htext, h.text_eq⟩

variable (self : PdfIngestor) (text : Str) (page : ℤ) (words : List Word) (size : PageSize)

/-- The loop ends within as many turns as there are characters left. -/
lemma exists_chunkLoop (start chunkIdx : ℕ) : ∃ chunks, Chunks text start chunks ∧
    ∀ turns, text.length - start ≤ turns →
      self.chunkLoop text page words size turns start chunkIdx = some chunks := by
  -- the induction is on the characters that are left
  obtain ⟨left, hleft⟩ : ∃ left, text.length - start = left := ⟨_, rfl⟩
  induction left using Nat.strong_induction_on generalizing start chunkIdx with
  | _ left ih =>
    by_cases hlt : start < text.length
    · obtain ⟨hstart, hstop⟩ := self.chunkEnd_spec hlt
      obtain ⟨hnext, hle⟩ := self.nextStart_spec hstart
      by_cases hblank : Str.strip (Str.slice text start (self.chunkEnd text start)) = []
      · obtain ⟨chunks, hchunks, hloop⟩ :=
          ih _ (by omega) (self.nextStart start (self.chunkEnd text start)) chunkIdx rfl
        refine ⟨chunks, hchunks.skip hblank hnext.le hle, fun turns hturns => ?_⟩
        obtain ⟨turns, rfl⟩ := Nat.exists_eq_succ_of_ne_zero (by omega : turns ≠ 0)
        rw [PdfIngestor.chunkLoop, if_pos hlt, if_pos hblank]
        exact hloop turns (by omega)
      · obtain ⟨chunks, hchunks, hloop⟩ :=
          ih _ (by omega) (self.nextStart start (self.chunkEnd text start)) (chunkIdx + 1) rfl
        refine ⟨_, hchunks.cons (PdfIngestor.chunk text page words size chunkIdx start
          (self.chunkEnd text start)) ⟨rfl, rfl⟩ rfl hnext hle, fun turns hturns => ?_⟩
        obtain ⟨turns, rfl⟩ := Nat.exists_eq_succ_of_ne_zero (by omega : turns ≠ 0)
        rw [PdfIngestor.chunkLoop, if_pos hlt, if_neg hblank, hloop turns (by omega)]
        rfl
    · refine ⟨[], .nil (not_lt.mp hlt), fun turns _ => ?_⟩
      cases turns with
      | zero => rw [PdfIngestor.chunkLoop, if_neg hlt]
      | succ turns => rw [PdfIngestor.chunkLoop, if_neg hlt]

/-- Whatever the sizes are, chunking ends, loses no character but white space, and each chunk is the
stripped text of its span, behind the start of the one before it. -/
theorem chunkText_covers : ∃ chunks,
    (∀ turns, text.length ≤ turns → self.chunkText text page words size turns = some chunks) ∧
    (∀ i c, text[i]? = some c → Str.isSpace c = false →
      ∃ chunk ∈ chunks, chunk.charStart ≤ i ∧ i < chunk.charEnd) ∧
    chunks.Pairwise (fun chunk chunk' => chunk.charStart < chunk'.charStart) ∧
    ∀ chunk ∈ chunks, chunk.text = Str.strip (Str.slice text chunk.charStart chunk.charEnd) := by
  by_cases hblank : Str.strip text = []
  · refine ⟨[], fun turns _ => ?_, fun i c hi hc => ?_, .nil, by simp⟩
    · rw [PdfIngestor.chunkText, if_pos hblank]
    · rw [isSpace_of_strip_eq_nil hblank c (List.mem_of_getElem? hi)] at hc
      cases hc
  · obtain ⟨chunks, hchunks, hloop⟩ := exists_chunkLoop self text page words size 0 0
    refine ⟨chunks, fun turns hturns => ?_, ?_, hchunks.increasing, hchunks.text_eq⟩
    · rw [PdfIngestor.chunkText, if_neg hblank]
      exact hloop turns (by omega)
    · exact fun i c hi hc => hchunks.covers i c hi hc (Nat.zero_le i)

end AxiomGrid.DocIntel.Ingest
