import AxiomGrid.Lib.FloatOrder
import AxiomGrid.Lib.Greedy
import AxiomGrid.Pipeline.DataModel

/-!
# Merging overlapping chunks

`merge_overlapping_chunks` of `kairo/context/compressor.py`: one greedy pass in which a chunk absorbs
the later chunks of its page that overlap it and takes over the box of a larger one.
-/

namespace AxiomGrid.Context

open Pipeline (BBox Chunk)

/-! ### The pass -/

def bboxArea (b : BBox) : PyFloat := .mul (.sub b.x1 b.x0) (.sub b.y1 b.y0)

/-- `_bbox_iou`. -/
def bboxIou (b1 b2 : BBox) : PyFloat :=
  let ix0 := PyFloat.max b1.x0 b2.x0
  let iy0 := PyFloat.max b1.y0 b2.y0
  let ix1 := PyFloat.min b1.x1 b2.x1
  let iy1 := PyFloat.min b1.y1 b2.y1
  let interW := PyFloat.max (.fin 0) (.sub ix1 ix0)
  let interH := PyFloat.max (.fin 0) (.sub iy1 iy0)
  let interArea := PyFloat.mul interW interH
  let union := PyFloat.sub (.add (bboxArea b1) (bboxArea b2)) interArea
  if PyFloat.le union (.fin 0) then .fin 0 else .div interArea union

/-- The test before a merge. -/
def overlaps (iouThreshold : PyFloat) (current other : Chunk) : Bool :=
  match current.bbox, other.bbox with
  | some b, some b' => current.page = other.page && PyFloat.lt iouThreshold (bboxIou b b')
  | _, _ => false

/-- The box of a merged chunk. -/
def largerBBox (current other : Option BBox) : Option BBox :=
  match current, other with
  | some b, some b' => if PyFloat.lt (bboxArea b) (bboxArea b') then some b' else some b
  | b, _ => b

/-- The merge of two chunks. -/
def mergeChunks (current other : Chunk) : Chunk :=
  { current with
    text := current.text ++ '\n' :: other.text
    bbox := largerBBox current.bbox other.bbox }

/-- `merge_overlapping_chunks`. -/
def mergeOverlappingChunks (chunks : List Chunk) (iouThreshold : PyFloat) : List Chunk :=
  Greedy.merge (overlaps iouThreshold) mergeChunks chunks

/-! ### Overlaps -/

variable {iouThreshold : PyFloat} {b b' : BBox} {c c' : Chunk}

lemma overlaps_eq_true_iff :
    overlaps iouThreshold c c' = true ↔ c.page = c'.page ∧ ∃ b b', c.bbox = some b ∧
      c'.bbox = some b' ∧ PyFloat.lt iouThreshold (bboxIou b b') = true := by
  rw [overlaps]
  split
  · rename_i b b' hb hb'
    simp [hb, hb']
  · rename_i hnone
    simp only [Bool.false_eq_true, false_iff]
    rintro ⟨-, b, b', hb, hb', -⟩
    exact hnone b b' hb hb'

/-- Boxes whose overlap is a number have areas that are numbers. -/
lemma bboxArea_ne_nan (h : bboxIou b b' ≠ .nan) : bboxArea b ≠ .nan ∧ bboxArea b' ≠ .nan := by
  constructor
  · intro harea
    apply h
    simp [bboxIou, harea, PyFloat.le]
  · intro harea
    apply h
    simp [bboxIou, harea, PyFloat.le]

lemma coordinates_ne_nan (h : bboxArea b ≠ .nan) :
    b.x0 ≠ .nan ∧ b.y0 ≠ .nan ∧ b.x1 ≠ .nan ∧ b.y1 ≠ .nan := by
  refine ⟨?_, ?_, ?_, ?_⟩
  all_goals
    intro hnan
    apply h
    simp [bboxArea, hnan]

lemma bboxIou_comm_of_ne_nan (h : bboxIou b b' ≠ .nan) : bboxIou b' b = bboxIou b b' := by
  obtain ⟨harea, harea'⟩ := bboxArea_ne_nan h
  obtain ⟨hx0, hy0, hx1, hy1⟩ := coordinates_ne_nan harea
  obtain ⟨hx0', hy0', hx1', hy1'⟩ := coordinates_ne_nan harea'
  simp only [bboxIou, PyFloat.max_comm hx0 hx0', PyFloat.max_comm hy0 hy0',
    PyFloat.min_comm hx1 hx1', PyFloat.min_comm hy1 hy1', PyFloat.add_comm (bboxArea b)]

lemma bboxIou_comm (b b' : BBox) : bboxIou b' b = bboxIou b b' := by
  by_cases h : bboxIou b b' = .nan
  · by_contra h'
    exact h' (bboxIou_comm_of_ne_nan fun hnan => h' (hnan.trans h.symm)).symm
  · exact bboxIou_comm_of_ne_nan h

/-- It does not matter which of two chunks comes first. -/
lemma overlaps_comm : overlaps iouThreshold c' c = overlaps iouThreshold c c' := by
  rw [Bool.eq_iff_iff, overlaps_eq_true_iff, overlaps_eq_true_iff]
  constructor
  · rintro ⟨hpage, b, b', hb, hb', hlt⟩
    exact ⟨hpage.symm, b', b, hb', hb, by rwa [bboxIou_comm]⟩
  · rintro ⟨hpage, b, b', hb, hb', hlt⟩
    exact ⟨hpage.symm, b', b, hb', hb, by rwa [bboxIou_comm]⟩

/-! ### What a group is merged into -/

/-- Both chunks have a box, and the areas of the boxes compare. -/
def AreasCompare (compare : PyFloat → PyFloat → Bool) (c c' : Chunk) : Prop :=
  ∃ b b', c.bbox = some b ∧ c'.bbox = some b' ∧ compare (bboxArea b) (bboxArea b') = true

/-- The merge of some chunks: the texts are joined, the box is that of the earliest of the largest
members, everything else is that of the first member, and a chunk without a box is alone. -/
structure Merged (members : List Chunk) (out : Chunk) : Prop where
  text : out.text = Str.joinLines (members.map Chunk.text)
  first : ∃ first rest, members = first :: rest ∧
    out = { first with text := out.text, bbox := out.bbox }
  bbox : ∃ before largest after, members = before ++ largest :: after ∧ out.bbox = largest.bbox ∧
    (∀ c ∈ before, AreasCompare PyFloat.lt c largest) ∧
    ∀ c ∈ after, AreasCompare PyFloat.le c largest
  alone : ∀ c ∈ members, c.bbox = none → members = [c] ∧ out = c

lemma Merged.single (c : Chunk) : Merged [c] c where
  text := (List.intercalate_singleton).symm
  first := ⟨c, [], rfl, rfl⟩
  bbox := ⟨[], c, [], rfl, rfl, by simp, by simp⟩
  alone d hd _ := by
    rw [List.mem_singleton.mp hd]
    exact ⟨rfl, rfl⟩

lemma AreasCompare.trans {compare compare' compare'' : PyFloat → PyFloat → Bool} {c d e : Chunk}
    (h : AreasCompare compare c d) (h' : AreasCompare compare' d e)
    (htrans : ∀ x y z, compare x y = true → compare' y z = true → compare'' x z = true) :
    AreasCompare compare'' c e := by
  obtain ⟨b, b', hb, hb', hlt⟩ := h
  obtain ⟨b'', b₃, hb'', hb₃, hlt'⟩ := h'
  rw [hb', Option.some.injEq] at hb''
  subst hb''
  exact ⟨b, b₃, hb, hb₃, htrans _ _ _ hlt hlt'⟩

lemma joinLines_concat {ls : List Str} (hls : ls ≠ []) (l : Str) :
    Str.joinLines (ls ++ [l]) = Str.joinLines ls ++ '\n' :: l := by
  rw [Str.joinLines, Str.joinLines]
  induction ls with
  | nil => exact absurd rfl hls
  | cons x ls ih =>
    cases ls with
    | nil => simp [List.intercalate_cons_cons]
    | cons y ls =>
      rw [List.cons_append, List.cons_append, List.intercalate_cons_cons, ← List.cons_append,
        ih (by simp), List.intercalate_cons_cons]
      simp

/-- A merge with a chunk that overlaps adds it to the members. -/
lemma Merged.concat {members : List Chunk} {out : Chunk} (h : Merged members out)
    (hoverlaps : overlaps iouThreshold out c = true) : Merged (members ++ [c]) (mergeChunks out c) := by
  obtain ⟨-, b, b', hb, hb', hlt⟩ := overlaps_eq_true_iff.mp hoverlaps
  obtain ⟨hnan, hnan'⟩ := bboxArea_ne_nan (PyFloat.lt_iff.mp hlt).2.1
  obtain ⟨first, rest, hmembers, hfirst⟩ := h.first
  obtain ⟨before, largest, after, hsplit, hbox, hbefore, hafter⟩ := h.bbox
  have hlargest : largest.bbox = some b := hbox.symm.trans hb
  refine ⟨?_, ?_, ?_, ?_⟩
  · rw [List.map_append, List.map_singleton, joinLines_concat (by simp [hmembers]), ← h.text]
    rfl
  · refine ⟨first, rest ++ [c], by rw [hmembers, List.cons_append], ?_⟩
    rw [mergeChunks, hfirst]
  · by_cases hlarger : PyFloat.lt (bboxArea b) (bboxArea b') = true
    · -- the new chunk is the largest
      have hnew : AreasCompare PyFloat.lt largest c := ⟨b, b', hlargest, hb', hlarger⟩
      refine ⟨members, c, [], rfl, ?_, ?_, by simp⟩
      · simp [mergeChunks, largerBBox, hb, hb', hlarger]
      · rw [hsplit]
        intro d hd
        rcases List.mem_append.mp hd with hd | hd
        · exact (hbefore d hd).trans hnew fun _ _ _ => PyFloat.lt_trans
        · rcases List.mem_cons.mp hd with rfl | hd
          · exact hnew
          · exact (hafter d hd).trans hnew fun _ _ _ => PyFloat.lt_of_le_of_lt
    · refine ⟨before, largest, after ++ [c], by rw [hsplit]; simp, ?_, hbefore, ?_⟩
      · simp [mergeChunks, largerBBox, hb, hb', hlarger, hlargest]
      · intro d hd
        rcases List.mem_append.mp hd with hd | hd
        · exact hafter d hd
        · rw [List.mem_singleton.mp hd]
          exact ⟨b', b, hb', hlargest,
            PyFloat.le_of_not_lt hnan hnan' (Bool.eq_false_iff.mpr hlarger)⟩
  · intro d hd hnone
    rcases List.mem_append.mp hd with hd | hd
    · rw [← (h.alone d hd hnone).2, hb] at hnone
      cases hnone
    · rw [← List.mem_singleton.mp hd, hnone] at hb'
      cases hb'

lemma merged_of_grown {members taken : List Chunk} {current out : Chunk} (h : Merged members current)
    (hgrown : Greedy.Grown (overlaps iouThreshold) mergeChunks current taken out) :
    Merged (members ++ taken) out := by
  induction taken generalizing members current with
  | nil =>
    rw [List.append_nil, show out = current from hgrown]
    exact h
  | cons c taken ih =>
    rw [List.append_cons]
    exact ih (h.concat hgrown.1) hgrown.2

/-- The output of the pass is a fixpoint of it: no two chunks overlap. -/
structure Separated (iouThreshold : PyFloat) (out : List Chunk) : Prop where
  fixpoint : mergeOverlappingChunks out iouThreshold = out
  separate : out.Pairwise fun c c' => overlaps iouThreshold c c' = false

/-- Whenever the pass has completed a chunk, it overlaps none of the chunks that are left over. -/
def LeavesNoOverlap (iouThreshold : PyFloat) (chunks : List Chunk) : Prop :=
  Greedy.Settled (overlaps iouThreshold) mergeChunks chunks

/-- The box of a merge is one of the two boxes. -/
lemma overlaps_mergeChunks {e : Chunk} (h : overlaps iouThreshold c c' = true)
    (hc : overlaps iouThreshold e c = false) (hc' : overlaps iouThreshold e c' = false) :
    overlaps iouThreshold e (mergeChunks c c') = false := by
  obtain ⟨hpage, b, b', hb, hb', -⟩ := overlaps_eq_true_iff.mp h
  by_cases hlarger : PyFloat.lt (bboxArea b) (bboxArea b') = true
  · simpa [overlaps, mergeChunks, largerBBox, hb, hb', hlarger, hpage] using hc'
  · simpa [overlaps, mergeChunks, largerBBox, hb, hb', hlarger] using hc

namespace Sample

lemma not_lt_zero {q : ℚ} (hq : 0 ≤ q) : PyFloat.lt (.fin q) (.fin 0) = false := by
  simpa using hq

/-- A chunk with a square box at the origin. -/
def square (id : String) (side : ℚ) (hside : 0 ≤ side) : Chunk :=
  { chunkId := id.toList
    page := 1
    bbox := some ⟨.fin 0, .fin 0, .fin side, .fin side, not_lt_zero hside, not_lt_zero hside⟩
    text := id.toList }

lemma ten_nonneg : (0 : ℚ) ≤ 10 := by decide

def small : Chunk := square "small" 10 ten_nonneg

def middle : Chunk := square "middle" 11 (by decide)

def large : Chunk := square "large" 12 (by decide)

def threshold : PyFloat := .fin (8 / 10)

end Sample

end AxiomGrid.Context
