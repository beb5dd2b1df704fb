import AxiomGrid.Grounding.Cascade
import AxiomGrid.Lib.PyLower

/-!
# What an exact anchor quotes

The first stage of `GroundingVerifierImpl.verify` finds the lowered target in the lowered text of a
chunk, and takes the offset it finds there and the length of the target as a span of the text itself.
The span is that of the match only when lowering has not moved or changed it: a dotted capital I before
the match shifts it to the right, one inside it makes it too long or too short, and a capital sigma may
take its other form when the span is cut out.
-/

namespace AxiomGrid.Grounding

open Pipeline

section

variable {u : UnicodeData} {emb : Embeddings} {self : GroundingVerifierImpl}
  {target value sourceSpan text : Str} {chunks : List Chunk} {start : ℕ}

/-- The span of the text is the target up to case, and lies inside the text. -/
def Quotes (u : UnicodeData) (target text : Str) (span : ℕ × ℕ) : Prop :=
  Str.lower u (Str.slice text span.1 span.2) = Str.lower u target ∧
    span.1 ≤ span.2 ∧ span.2 ≤ text.length

/-- Every capital sigma in the span has the form that it has when the span is cut out. -/
def SigmasKept (u : UnicodeData) (text : Str) (span : ℕ × ℕ) : Prop :=
  Str.SameSigmas u [] [] (text.take span.1).reverse (text.drop span.2)
    (Str.slice text span.1 span.2)

/-- The span lies inside the text, holds as many dotted capital I as the target, and keeps the form of
its sigmas. -/
structure Undistorted (u : UnicodeData) (target text : Str) (span : ℕ × ℕ) : Prop where
  inside : span.2 ≤ text.length
  dotted : (Str.slice text span.1 span.2).count 'İ' = target.count 'İ'
  sigmas : SigmasKept u text span

/-- A text cut at the two ends of a span. -/
lemma slice_parts (text : Str) (start stop : ℕ) (h : start ≤ stop) :
    text.take start ++ (Str.slice text start stop ++ text.drop stop) = text := by
  have hslice : text.take start ++ Str.slice text start stop = text.take stop := by
    conv_rhs => rw [← List.take_append_drop start (text.take stop), List.take_take, min_eq_left h]
    rfl
  rw [← List.append_assoc, hslice, List.take_append_drop]

/-- When no dotted capital I stands before the match, the lowered target is the beginning of the lowered
rest of the text. -/
lemma exists_lowered_rest (hfind : Str.find? (Str.lower u target) (Str.lower u text) = some start)
    (hbefore : 'İ' ∉ text.take start) :
    start ≤ text.length ∧ ∃ rest, Str.lower.go u (text.take start).reverse (text.drop start) =
      Str.lower u target ++ rest := by
  obtain ⟨a, b, htext, ha⟩ := Str.exists_of_find? hfind
  have hcount : (text.take start).count 'İ' = 0 := List.count_eq_zero.mpr hbefore
  have hstart : start ≤ text.length := by
    by_contra hlt
    -- the whole text stands before the match, so the lowered text is no longer than it
    have hall : text.take start = text := List.take_of_length_le (by omega)
    have hlength := congrArg List.length htext
    rw [Str.length_lower, ← hall, hcount, List.length_append, hall, ha] at hlength
    omega
  refine ⟨hstart, b, ?_⟩
  have hsplit : Str.lower u text = Str.lowerIn u [] (text.take start) (text.drop start) ++
      Str.lower.go u (text.take start).reverse (text.drop start) := by
    rw [← Str.lower_append, List.take_append_drop]
  have hlength : (Str.lowerIn u [] (text.take start) (text.drop start)).length = a.length := by
    rw [Str.length_lowerIn, hcount, List.length_take, ha]
    omega
  exact (List.append_inj (hsplit.symm.trans htext) hlength).2

/-- When no dotted capital I stands before the match, the span quotes the target exactly when it is
undistorted. -/
lemma quotes_iff (hfind : Str.find? (Str.lower u target) (Str.lower u text) = some start)
    (hbefore : 'İ' ∉ text.take start) :
    Quotes u target text (start, start + target.length) ↔
      Undistorted u target text (start, start + target.length) := by
  obtain ⟨hstart, rest, hrest⟩ := exists_lowered_rest hfind hbefore
  set stop := start + target.length with hstop
  set window := Str.slice text start stop with hwindow
  -- the span where it stands, and the rest behind it
  have hspan : Str.lowerIn u (text.take start).reverse window (text.drop stop) ++
      Str.lower.go u (window.reverse ++ (text.take start).reverse) (text.drop stop) =
        Str.lower u target ++ rest := by
    rw [← Str.lower_go_append, ← hrest]
    congr 1
    have hparts := slice_parts text start stop (by omega)
    rw [← hwindow] at hparts
    conv_rhs => rw [← hparts]
    rw [List.drop_append_of_le_length (by rw [List.length_take]; omega)]
    simp
  have hlength : stop ≤ text.length → window.length = target.length := by
    intro hle
    rw [hwindow, Str.slice, List.length_drop, List.length_take]
    omega
  have hin : stop ≤ text.length → window.count 'İ' = target.count 'İ' →
      Str.lowerIn u (text.take start).reverse window (text.drop stop) = Str.lower u target := by
    intro hle hcount
    refine (List.append_inj hspan ?_).1
    rw [Str.length_lowerIn, Str.length_lower, hlength hle, hcount]
  constructor
  · rintro ⟨hquote, -, hle⟩
    have hcount : window.count 'İ' = target.count 'İ' := by
      have hlen : (Str.lower u window).length = (Str.lower u target).length :=
        congrArg List.length hquote
      rw [Str.length_lower, Str.length_lower, hlength hle] at hlen
      omega
    refine ⟨hle, hcount, ?_⟩
    rw [SigmasKept, ← Str.lowerIn_eq_iff, ← Str.lower_eq_lowerIn]
    exact hquote.trans (hin hle hcount).symm
  · rintro ⟨hle, hcount, hsigmas⟩
    refine ⟨?_, by omega, hle⟩
    rw [SigmasKept, ← Str.lowerIn_eq_iff, ← Str.lower_eq_lowerIn] at hsigmas
    exact hsigmas.trans (hin hle hcount)

/-- The anchor of the first stage is where the lowered target was found. -/
lemma exists_of_exactStage {anchor : Anchor} (h : exactStage u target chunks = some anchor) :
    ∃ chunk ∈ chunks, ∃ start,
      Str.find? (Str.lower u target) (Str.lower u chunk.text) = some start ∧
      anchor = anchorAt chunk (start, start + target.length) := by
  obtain ⟨chunk, hchunk, hfound⟩ := List.exists_of_findSome?_eq_some h
  rw [Option.map_eq_some_iff] at hfound
  obtain ⟨start, hfind, rfl⟩ := hfound
  exact ⟨chunk, hchunk, start, hfind, rfl⟩

/-- An exact anchor is where the lowered target was found in the lowered text of a chunk. Unless a dotted
capital I stands before that place in the text, the span quotes the target exactly when it is
undistorted. -/
theorem exact_anchor_quotes_iff {anchors : List Anchor}
    (h : verify u emb self value sourceSpan chunks = (.exact, anchors)) :
    let target := targetOf value sourceSpan
    ∃ chunk ∈ chunks, ∃ start,
      Str.find? (Str.lower u target) (Str.lower u chunk.text) = some start ∧
      anchors = [anchorAt chunk (start, start + target.length)] ∧
      ('İ' ∉ chunk.text.take start →
        (Quotes u target chunk.text (start, start + target.length) ↔
          Undistorted u target chunk.text (start, start + target.length))) := by
  obtain ⟨anchor, rfl, hstage⟩ := stage_of_verify h (by decide)
  have hexact : exactStage u (targetOf value sourceSpan) chunks = some anchor := by
    rcases hstage with h | h | h | h
    · exact h.2
    all_goals exact absurd h.1 (by decide)
  obtain ⟨chunk, hchunk, start, hfind, rfl⟩ := exists_of_exactStage hexact
  exact ⟨chunk, hchunk, start, hfind, rfl, quotes_iff hfind⟩

/-- The embeddings of a verifier that never reaches its third stage. -/
def noEmbeddings : Embeddings where
  getEmbedding _ := []
  cosineSimilarity _ _ := .fin 0

/-- The quote and the letters behind it, with a dotted capital I at the end. -/
def cityChunk : Chunk where
  chunkId := "c1".toList
  text := "Paid in ISTANBUL İ".toList

/-- The capital of the text is quoted in small letters. -/
theorem exact_anchor_quotes_iff_cityChunk :
    verify asciiData noEmbeddings {} "istanbul".toList [] [cityChunk] =
        (.exact, [anchorAt cityChunk (8, 16)]) ∧
      Quotes asciiData "istanbul".toList cityChunk.text (8, 16) := by
  have hverify : verify asciiData noEmbeddings {} "istanbul".toList [] [cityChunk] =
      (.exact, [anchorAt cityChunk (8, 16)]) := by decide +kernel
  refine ⟨hverify, ?_⟩
  obtain ⟨chunk, hchunk, start, -, hspan, hiff⟩ := exact_anchor_quotes_iff hverify
  obtain rfl := List.mem_singleton.mp hchunk
  obtain rfl : 8 = start :=
    congrArg (fun anchor => anchor.charSpan.1) (List.singleton_inj.mp hspan)
  refine (hiff (by decide)).mpr ⟨by decide, by decide, fun x y hxy => ?_⟩
  exact absurd (hxy ▸ List.mem_append_right x List.mem_cons_self) (by decide)

/-- The dotted capital I of the text becomes two characters: the letters `xy` are found one place
further to the right than they stand, and the anchor quotes `yz`. -/
theorem exact_anchor_shifted :
    verify asciiData noEmbeddings {} "xy".toList [] [{ chunkId := [], text := "İxyz".toList }] =
        (.exact, [anchorAt { chunkId := [], text := "İxyz".toList } (2, 4)]) ∧
      Str.slice "İxyz".toList 2 4 = "yz".toList ∧
      ¬Quotes asciiData "xy".toList "İxyz".toList (2, 4) := by
  refine ⟨by decide +kernel, by decide, fun h => ?_⟩
  exact absurd h.1 (by decide)

end

end AxiomGrid.Grounding
