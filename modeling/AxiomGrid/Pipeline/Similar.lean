import AxiomGrid.Lib.TopK
import AxiomGrid.Pipeline.Store
import Mathlib.Data.Char
import Mathlib.Data.List.Lex
import Mathlib.Tactic.NormNum

/-!
# The best corrections

`search_similar_corrections` of `kernel/sidecar/memory_store.py` asks the database for the latest `k`
corrections of a field and ranks only those. The query leaves open how it orders corrections with equal
times, so that its order is given here.
-/

namespace AxiomGrid.Pipeline

variable {store : MemoryStore} {fieldName : Str}

/-- The corrections stored for a field. -/
def MemoryStore.correctionsOf (store : MemoryStore) (fieldName : Str) : List Correction :=
  store.corrections.filter fun c =>
    store.extractions.any fun e => e.extId = c.extId ∧ e.fieldName = fieldName

/-- The rows of the query before its limit: `ORDER BY c.at_time DESC`. -/
structure LatestFirst (store : MemoryStore) (fieldName : Str) where
  rows : List Correction
  perm : rows.Perm (store.correctionsOf fieldName)
  latest : rows.Pairwise fun c c' => c'.atTime ≤ c.atTime

/-- The scores of some rows, and the `k` rows with the best ones. -/
def rankCorrections (u : UnicodeData) (value : Str) (k : ℕ) (rows : List Correction) :
    List Correction :=
  let scored := rows.map fun corr => (MemoryStore.similarityScore u value corr, corr)
  ((scored.mergeSort fun p q => decide (q.1 ≤ p.1)).take k).map Prod.snd

/-- `search_similar_corrections`. -/
def LatestFirst.searchSimilarCorrections (order : LatestFirst store fieldName) (u : UnicodeData)
    (value : Str) (k : ℕ) : List Correction :=
  rankCorrections u value k (order.rows.take k)

/-! ### The order of the table -/

lemma not_lex_iff {s t : Str} : (!s.lex t fun a b => a.toNat < b.toNat) = true ↔ t ≤ s := by
  have hlt : (fun a b : Char => decide (a.toNat < b.toNat)) = fun a b : Char => decide (a < b) := rfl
  rw [hlt, Bool.not_eq_true', List.lex_eq_false_iff_not_lex]
  simp only [decide_eq_true_eq]
  exact @not_lt (List Char) _ s t

/-- Corrections with equal times in the order of the table. -/
def tableOrder (store : MemoryStore) (fieldName : Str) : LatestFirst store fieldName where
  rows := (store.correctionsOf fieldName).mergeSort fun c c' =>
    !c.atTime.lex c'.atTime fun a b => a.toNat < b.toNat
  perm := List.mergeSort_perm _ _
  latest := by
    refine (List.pairwise_mergeSort ?_ ?_ _).imp not_lex_iff.mp
    · intro a b c hab hbc
      exact not_lex_iff.mpr ((not_lex_iff.mp hbc).trans (not_lex_iff.mp hab))
    · intro a b
      rw [Bool.or_eq_true, not_lex_iff, not_lex_iff]
      exact le_total _ _

/-- The search of the store is the one in the order of its table. -/
lemma searchSimilarCorrections_tableOrder (u : UnicodeData) (value : Str) (k : ℕ) :
    (tableOrder store fieldName).searchSimilarCorrections u value k =
      store.searchSimilarCorrections u fieldName value k := rfl

/-! ### What the search finds -/

variable {u : UnicodeData} {value : Str} {k : ℕ}

lemma rankCorrections_perm {rows : List Correction} (h : rows.length ≤ k) :
    (rankCorrections u value k rows).Perm rows := by
  rw [rankCorrections, List.take_of_length_le (by simpa using h)]
  refine ((List.mergeSort_perm _ _).map Prod.snd).trans ?_
  rw [List.map_map]
  simp [Function.comp_def]

lemma searchSimilarCorrections_perm (order : LatestFirst store fieldName) :
    (order.searchSimilarCorrections u value k).Perm (order.rows.take k) :=
  rankCorrections_perm (List.length_take_le k order.rows)

/-- The search finds the best corrections of the field exactly when none that is older than the latest
`k` has a higher score than one of these. -/
theorem searchSimilarCorrections_topK_iff (u : UnicodeData) (value : Str) (k : ℕ)
    (order : LatestFirst store fieldName) :
    TopK (MemoryStore.similarityScore u value) k (store.correctionsOf fieldName)
        (order.searchSimilarCorrections u value k) ↔
      ∀ c ∈ order.rows.take k, ∀ older ∈ order.rows.drop k,
        MemoryStore.similarityScore u value older ≤ MemoryStore.similarityScore u value c :=
  topK_iff_of_perm_take order.perm (searchSimilarCorrections_perm order)

namespace Sample

def extraction : Extraction := { extId := "e".toList, fieldName := "vendor".toList }

/-- An old correction of the value that is asked for, and a late one of another value. -/
def matching : Correction :=
  { corrId := "1".toList, extId := "e".toList, original := "acme".toList, atTime := "2024".toList }

def late : Correction :=
  { corrId := "2".toList, extId := "e".toList, original := "zenith".toList, atTime := "2025".toList }

def flywheel : MemoryStore := { extractions := [extraction], corrections := [matching, late] }

def order : LatestFirst flywheel "vendor".toList where
  rows := [late, matching]
  perm := List.Perm.swap _ _ _
  latest := by decide

lemma similarityScore_matching :
    MemoryStore.similarityScore asciiData "acme".toList matching = 8 / 10 := by
  rw [MemoryStore.similarityScore]
  exact if_pos (by decide)

lemma similarityScore_late : MemoryStore.similarityScore asciiData "acme".toList late = 0 := by
  rw [MemoryStore.similarityScore]
  rw [if_neg (by decide), if_neg (by decide), if_pos (by decide)]

/-- With `k = 1` the search for "acme" finds the late correction. -/
theorem not_topK_order :
    ¬ TopK (MemoryStore.similarityScore asciiData "acme".toList) 1
      (flywheel.correctionsOf "vendor".toList)
      (order.searchSimilarCorrections asciiData "acme".toList 1) := by
  rw [topK_iff_of_perm_take order.perm (searchSimilarCorrections_perm order)]
  intro h
  have hle := h late List.mem_cons_self matching List.mem_cons_self
  rw [similarityScore_matching, similarityScore_late] at hle
  norm_num at hle

end Sample

end AxiomGrid.Pipeline
