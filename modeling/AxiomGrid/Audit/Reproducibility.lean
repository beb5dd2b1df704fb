import AxiomGrid.Audit.SignedLog
import AxiomGrid.Lib.StableSort
import Mathlib.Data.String.Basic

/-!
# Reproducibility receipts

`kernel/core/reproducibility.py`: the two digests by which the receipts of two runs are compared. The
digest of a corpus joins the sorted texts with line breaks, and a text may contain line breaks, so it
binds hardly any corpus. The digest of the results sorts the answers by their query alone, so it
depends on the order of two different answers to one query.
-/

namespace AxiomGrid.Reproducibility

open Audit (Anchor BBox Number)
open Json (dumpsWith sorted sortedItems setItem)
open StableSort

/-! ### The digest of a corpus -/

/-- The bytes `_hash_corpus` hashes. -/
def corpusBytes (corpusTexts : List String) : Bytes :=
  utf8 ("\n".intercalate (sortBy id corpusTexts))

/-- `_hash_corpus`. -/
def hashCorpus (corpusTexts : List String) : String := (sha256 (corpusBytes corpusTexts)).hex

/-- The digest binds a corpus: it is the same in every order of the documents, and a corpus of the same
digest has the same documents, unless the two make SHA-256 collide. -/
def Binds (corpusTexts : List String) : Prop :=
  (∀ corpusTexts', corpusTexts.Perm corpusTexts' → hashCorpus corpusTexts' = hashCorpus corpusTexts) ∧
    ∀ corpusTexts', CollisionFree [corpusBytes corpusTexts, corpusBytes corpusTexts'] →
      hashCorpus corpusTexts = hashCorpus corpusTexts' → corpusTexts.Perm corpusTexts'

lemma hashCorpus_of_perm {corpusTexts corpusTexts' : List String}
    (h : corpusTexts.Perm corpusTexts') : hashCorpus corpusTexts' = hashCorpus corpusTexts := by
  have hsorted : sortBy id corpusTexts' = sortBy id corpusTexts :=
    sortBy_eq_of_perm (fun _ _ _ _ hab => hab) h
  rw [hashCorpus, hashCorpus, corpusBytes, corpusBytes, hsorted]

/-- The digest tells two corpora apart as far as the joined texts do. -/
lemma join_eq_of_hashCorpus_eq {corpusTexts corpusTexts' : List String}
    (hfree : CollisionFree [corpusBytes corpusTexts, corpusBytes corpusTexts'])
    (h : hashCorpus corpusTexts = hashCorpus corpusTexts') :
    "\n".intercalate (sortBy id corpusTexts) = "\n".intercalate (sortBy id corpusTexts') :=
  utf8_injective (hfree (corpusBytes corpusTexts) (by simp) (corpusBytes corpusTexts') (by simp)
    (Bytes.hex_injective h))

lemma hashCorpus_eq_of_join {corpusTexts corpusTexts' : List String}
    (h : "\n".intercalate (sortBy id corpusTexts) = "\n".intercalate (sortBy id corpusTexts')) :
    hashCorpus corpusTexts = hashCorpus corpusTexts' := by
  rw [hashCorpus, hashCorpus, corpusBytes, corpusBytes, h]

lemma collisionFree_of_join {corpusTexts corpusTexts' : List String}
    (h : "\n".intercalate (sortBy id corpusTexts) = "\n".intercalate (sortBy id corpusTexts')) :
    CollisionFree [corpusBytes corpusTexts, corpusBytes corpusTexts'] := by
  have hbytes : corpusBytes corpusTexts = corpusBytes corpusTexts' := by
    rw [corpusBytes, corpusBytes, h]
  intro a ha b hb _
  simp only [hbytes, List.mem_cons, List.not_mem_nil, or_false, or_self] at ha hb
  rw [ha, hb]

/-- A bound corpus is any other one whose joined texts are the same. -/
lemma perm_of_binds {corpusTexts corpusTexts' : List String} (h : Binds corpusTexts)
    (hjoin : "\n".intercalate (sortBy id corpusTexts) = "\n".intercalate (sortBy id corpusTexts')) :
    corpusTexts.Perm corpusTexts' :=
  h.2 corpusTexts' (collisionFree_of_join hjoin) (hashCorpus_eq_of_join hjoin)

lemma sortBy_pair {before after : String} (h : before ≤ after) :
    sortBy id [before, after] = [before, after] :=
  sortBy_eq_self (by simpa using h)

@[simp] lemma sortBy_singleton (text : String) : sortBy id [text] = [text] :=
  sortBy_eq_self (List.pairwise_singleton _ _)

@[simp] lemma sortBy_nil : sortBy id ([] : List String) = [] := sortBy_eq_self .nil

/-- The first of several sorted texts is not behind the others joined. -/
lemma head_le_intercalate {first second : String} {texts : List String} (h : first ≤ second) :
    first ≤ "\n".intercalate (second :: texts) := by
  refine h.trans ?_
  cases texts with
  | nil => simp
  | cons text texts =>
    rw [String.intercalate_cons_cons, String.le_iff_toList_le, String.toList_append,
      String.toList_append, List.append_assoc]
    exact not_lt.mp (List.le_append_left (α := Char))

/-- The digest binds a corpus exactly when it is one document that is not empty and that no line break
cuts into a part and a part that does not come before it. -/
theorem binds_iff (corpusTexts : List String) :
    Binds corpusTexts ↔ ∃ text, corpusTexts = [text] ∧ text ≠ "" ∧
      ∀ before after, text = before ++ "\n" ++ after → ¬before ≤ after := by
  constructor
  · intro h
    have hone : corpusTexts.Perm ["\n".intercalate (sortBy id corpusTexts)] :=
      perm_of_binds h (by simp)
    obtain ⟨text, rfl⟩ : ∃ text, corpusTexts = [text] := ⟨_, List.perm_singleton.mp hone⟩
    refine ⟨text, rfl, ?_, ?_⟩
    · rintro rfl
      exact absurd (@perm_of_binds _ [] h (by simp)).length_eq (by simp)
    · rintro before after rfl hle
      have hcut := @perm_of_binds _ [before, after] h
        (by rw [sortBy_pair hle]; simp)
      exact absurd hcut.length_eq (by simp)
  · rintro ⟨text, rfl, hempty, hcut⟩
    refine ⟨fun _ => hashCorpus_of_perm, fun corpusTexts' hfree h => ?_⟩
    have hjoin := join_eq_of_hashCorpus_eq hfree h
    have hperm : (sortBy id corpusTexts').Perm corpusTexts' := sortBy_perm corpusTexts'
    have hsorted : (sortBy id corpusTexts').Pairwise (· ≤ ·) := pairwise_sortBy corpusTexts'
    rw [sortBy_singleton, String.intercalate_singleton] at hjoin
    match hs : sortBy id corpusTexts' with
    | [] =>
      rw [hs, String.intercalate_nil] at hjoin
      exact absurd hjoin hempty
    | [text'] =>
      rw [hs, String.intercalate_singleton] at hjoin
      rw [hjoin, ← hs]
      exact hperm
    | first :: second :: texts =>
      -- the first text and the others joined are such a cut
      rw [hs, String.intercalate_cons_cons] at hjoin
      rw [hs] at hsorted
      have hle : first ≤ second := List.rel_of_pairwise_cons hsorted (by simp)
      exact absurd (head_le_intercalate hle) (hcut _ _ hjoin)

namespace Sample

/-- Two documents and one document of two lines, which have one digest. -/
theorem hashCorpus_two_documents :
    CollisionFree [corpusBytes ["a", "b"], corpusBytes ["a\nb"]] ∧
      hashCorpus ["a", "b"] = hashCorpus ["a\nb"] ∧ ¬["a", "b"].Perm ["a\nb"] := by
  have hjoin : "\n".intercalate (sortBy id ["a", "b"]) = "\n".intercalate (sortBy id ["a\nb"]) := by
    rw [sortBy_pair (by decide), sortBy_singleton]
    decide
  refine ⟨collisionFree_of_join hjoin, hashCorpus_eq_of_join hjoin, fun h => ?_⟩
  exact absurd h.length_eq (by decide)

end Sample

/-! Documents of one line are told apart. -/

lemma splitOn_intercalate {texts : List String} (hne : texts ≠ [])
    (hline : ∀ text ∈ texts, '\n' ∉ text.toList) :
    ("\n".intercalate texts).toList.splitOn '\n' = texts.map String.toList := by
  rw [String.toList_intercalate]
  refine List.splitOn_intercalate '\n' (fun l hl => ?_) (by simpa using hne)
  obtain ⟨text, htext, rfl⟩ := List.mem_map.mp hl
  exact hline text htext

/-- Two corpora of documents without line breaks have one digest exactly when they are the same
documents. -/
theorem hashCorpus_eq_iff_perm {corpusTexts corpusTexts' : List String} (hne : corpusTexts ≠ [])
    (hne' : corpusTexts' ≠ []) (hline : ∀ text ∈ corpusTexts, '\n' ∉ text.toList)
    (hline' : ∀ text ∈ corpusTexts', '\n' ∉ text.toList)
    (hfree : CollisionFree [corpusBytes corpusTexts, corpusBytes corpusTexts']) :
    hashCorpus corpusTexts = hashCorpus corpusTexts' ↔ corpusTexts.Perm corpusTexts' := by
  refine ⟨fun h => ?_, fun h => (hashCorpus_of_perm h).symm⟩
  have hperm : (sortBy id corpusTexts).Perm corpusTexts := sortBy_perm corpusTexts
  have hperm' : (sortBy id corpusTexts').Perm corpusTexts' := sortBy_perm corpusTexts'
  have hsplit := congrArg (fun text => text.toList.splitOn '\n') (join_eq_of_hashCorpus_eq hfree h)
  rw [splitOn_intercalate (fun h => hne (by simpa [h] using hperm.symm))
      fun text htext => hline text (hperm.mem_iff.mp htext),
    splitOn_intercalate (fun h => hne' (by simpa [h] using hperm'.symm))
      fun text htext => hline' text (hperm'.mem_iff.mp htext)] at hsplit
  have hsorted := List.map_injective_iff.mpr (fun _ _ => String.toList_inj.mp) hsplit
  exact hperm.symm.trans (hsorted ▸ hperm')

/-! ### The digest of the results -/

/-- `Answer`, with the fields the receipt reads. -/
@[ext] structure Answer where
  query : String := ""
  text : String := ""
  citations : List Anchor := []
  grounded : Bool := false
  refused : Bool := false

/-- A citation in `_canonical_answer`. -/
def canonicalCitation (c : Anchor) : List (String × Json) :=
  let cit :=
    [("chunk_id", Json.str c.chunkId), ("char_span", .arr [.int c.charSpan.1, .int c.charSpan.2]),
      ("page", .int c.page)]
  match c.bbox with
  | some bbox =>
    setItem cit "bbox" (.arr [bbox.x0.toJson, bbox.y0.toJson, bbox.x1.toJson, bbox.y1.toJson])
  | none => cit

/-- `_canonical_answer`. -/
def canonicalAnswer (answer : Answer) : List (String × Json) :=
  [("query", .str answer.query), ("text", .str answer.text), ("grounded", .bool answer.grounded),
    ("refused", .bool answer.refused),
    ("citations", .arr (answer.citations.map fun c => .obj (canonicalCitation c)))]

/-- The sort key `x["query"]`; a canonical answer has this member. -/
def queryOf (x : List (String × Json)) : String := ((x.lookup "query").bind Json.str?).getD ""

/-- The bytes `_hash_results` hashes. -/
def resultBytes (answers : List Answer) (refusals : List String) : Bytes :=
  let canonicalAnswers := sortBy queryOf (answers.map canonicalAnswer)
  let payload :=
    [("answers", Json.arr (canonicalAnswers.map Json.obj)),
      ("refusals", .arr ((sortBy id refusals).map Json.str))]
  utf8 (dumpsWith .compact (sorted (.obj payload)))

/-- `_hash_results`. -/
def hashResults (answers : List Answer) (refusals : List String) : String :=
  (sha256 (resultBytes answers refusals)).hex

/-- The messages hashed for the answers in each order. -/
def resultMessages (answers : List Answer) (refusals : List String) : List Bytes :=
  answers.permutations'.map fun answers' => resultBytes answers' refusals

lemma sortBy_canonicalAnswer (answers : List Answer) :
    sortBy queryOf (answers.map canonicalAnswer) =
      (sortBy Answer.query answers).map canonicalAnswer :=
  (map_sortBy (f := canonicalAnswer) answers).symm

/-! The canonical form, even with its members in order, is that of one answer only. -/

lemma toJson_injective : Function.Injective Number.toJson := by
  intro m n h
  cases m <;> cases n <;> simp_all [Number.toJson]

lemma sorted_toJson (n : Number) : sorted n.toJson = n.toJson := by cases n <;> rfl

lemma nodup_canonicalCitation (c : Anchor) : ((canonicalCitation c).map Prod.fst).Nodup := by
  have hcit : ([("chunk_id", Json.str c.chunkId),
      ("char_span", .arr [.int c.charSpan.1, .int c.charSpan.2]),
      ("page", .int c.page)].map Prod.fst).Nodup :=
    show ["chunk_id", "char_span", "page"].Nodup by decide
  rw [canonicalCitation]
  cases c.bbox with
  | none => exact hcit
  | some bbox => exact Json.nodup_setItem hcit _ _

/-- What the sorted citation holds under `bbox`. -/
lemma lookup_bbox (c : Anchor) :
    ((canonicalCitation c).lookup "bbox").map sorted = c.bbox.map fun bbox =>
      .arr [bbox.x0.toJson, bbox.y0.toJson, bbox.x1.toJson, bbox.y1.toJson] := by
  rw [canonicalCitation]
  cases c.bbox with
  | none => rfl
  | some bbox =>
    have hlookup : (setItem [("chunk_id", Json.str c.chunkId),
        ("char_span", .arr [.int c.charSpan.1, .int c.charSpan.2]), ("page", .int c.page)] "bbox"
        (.arr [bbox.x0.toJson, bbox.y0.toJson, bbox.x1.toJson, bbox.y1.toJson])).lookup "bbox" =
        some (.arr [bbox.x0.toJson, bbox.y0.toJson, bbox.x1.toJson, bbox.y1.toJson]) := rfl
    rw [hlookup, Option.map_some, Option.map_some, sorted, Json.sortedItems_eq_map]
    simp only [List.map_cons, List.map_nil, sorted_toJson]

lemma bboxJson_injective {b b' : BBox}
    (h : Json.arr [b.x0.toJson, b.y0.toJson, b.x1.toJson, b.y1.toJson] =
      .arr [b'.x0.toJson, b'.y0.toJson, b'.x1.toJson, b'.y1.toJson]) : b = b' := by
  obtain ⟨x0, y0, x1, y1, hx, hy⟩ := b
  obtain ⟨x0', y0', x1', y1', hx', hy'⟩ := b'
  simp only [Json.arr.injEq, List.cons.injEq, toJson_injective.eq_iff, and_true] at h
  obtain ⟨rfl, rfl, rfl, rfl⟩ := h
  rfl

lemma canonicalCitation_injective {c c' : Anchor}
    (h : sorted (.obj (canonicalCitation c)) = sorted (.obj (canonicalCitation c'))) : c = c' := by
  have hlookup := Json.lookup_map_sorted_of_sorted_eq (nodup_canonicalCitation c)
    (nodup_canonicalCitation c') h
  have hid := hlookup "chunk_id"
  have hspan := hlookup "char_span"
  have hpage := hlookup "page"
  have hbbox := hlookup "bbox"
  rw [lookup_bbox, lookup_bbox] at hbbox
  have hfields : ∀ d : Anchor,
      (canonicalCitation d).lookup "chunk_id" = some (.str d.chunkId) ∧
        (canonicalCitation d).lookup "char_span" =
          some (.arr [.int d.charSpan.1, .int d.charSpan.2]) ∧
        (canonicalCitation d).lookup "page" = some (.int d.page) := by
    intro d
    rw [canonicalCitation]
    cases d.bbox <;> exact ⟨rfl, rfl, rfl⟩
  rw [(hfields c).1, (hfields c').1] at hid
  rw [(hfields c).2.1, (hfields c').2.1] at hspan
  rw [(hfields c).2.2, (hfields c').2.2] at hpage
  obtain ⟨id, ⟨first, last⟩, page, bbox⟩ := c
  obtain ⟨id', ⟨first', last'⟩, page', bbox'⟩ := c'
  simp only [Option.map_some, Option.some.injEq, sorted, sortedItems, Json.str.injEq,
    Json.arr.injEq, List.cons.injEq, Json.int.injEq, and_true] at hid hspan hpage
  obtain ⟨rfl, rfl⟩ := hspan
  have hsame : bbox = bbox' := Option.map_injective (fun _ _ => bboxJson_injective) hbbox
  rw [hid, hpage, hsame]

lemma nodup_canonicalAnswer (answer : Answer) : ((canonicalAnswer answer).map Prod.fst).Nodup :=
  show ["query", "text", "grounded", "refused", "citations"].Nodup by decide

lemma canonicalAnswer_injective {a a' : Answer}
    (h : sorted (.obj (canonicalAnswer a)) = sorted (.obj (canonicalAnswer a'))) : a = a' := by
  have hlookup := Json.lookup_map_sorted_of_sorted_eq (nodup_canonicalAnswer a)
    (nodup_canonicalAnswer a') h
  have hquery : some (Json.str a.query) = some (.str a'.query) := hlookup "query"
  have htext : some (Json.str a.text) = some (.str a'.text) := hlookup "text"
  have hgrounded : some (Json.bool a.grounded) = some (.bool a'.grounded) := hlookup "grounded"
  have hrefused : some (Json.bool a.refused) = some (.bool a'.refused) := hlookup "refused"
  have hcitations :
      some (sorted (.arr (a.citations.map fun c => .obj (canonicalCitation c)))) =
        some (sorted (.arr (a'.citations.map fun c => .obj (canonicalCitation c)))) :=
    hlookup "citations"
  simp only [Option.some.injEq, Json.str.injEq, Json.bool.injEq, sorted, Json.sortedItems_eq_map,
    List.map_map, Json.arr.injEq] at hquery htext hgrounded hrefused hcitations
  have hsame := List.map_injective_iff.mpr (fun _ _ => canonicalCitation_injective) hcitations
  exact Answer.ext hquery htext hsame hgrounded hrefused

/-- The hashed bytes hold the answers in the order they were sorted into. -/
lemma sortBy_query_eq_of_resultBytes_eq {answers answers' : List Answer} {refusals : List String}
    (h : resultBytes answers refusals = resultBytes answers' refusals) :
    sortBy Answer.query answers = sortBy Answer.query answers' := by
  have hsorted := Json.dumpsWith_compact_injective (utf8_injective h)
  have hnodup : ["answers", "refusals"].Nodup := by decide
  have hlookup := Json.lookup_map_sorted_of_sorted_eq (by exact hnodup) (by exact hnodup) hsorted
    "answers"
  have hitems : some (sorted (.arr ((sortBy queryOf (answers.map canonicalAnswer)).map Json.obj))) =
      some (sorted (.arr ((sortBy queryOf (answers'.map canonicalAnswer)).map Json.obj))) := hlookup
  rw [sortBy_canonicalAnswer, sortBy_canonicalAnswer, Option.some.injEq, sorted, sorted,
    Json.sortedItems_eq_map, Json.sortedItems_eq_map, Json.arr.injEq, List.map_map, List.map_map,
    List.map_map, List.map_map] at hitems
  exact List.map_injective_iff.mpr (fun _ _ => canonicalAnswer_injective) hitems

lemma resultBytes_eq_of_perm {answers answers' : List Answer} {refusals refusals' : List String}
    (hanswers : sortBy Answer.query answers' = sortBy Answer.query answers)
    (hrefusals : refusals.Perm refusals') :
    resultBytes answers' refusals' = resultBytes answers refusals := by
  have hsorted : sortBy id refusals' = sortBy id refusals :=
    sortBy_eq_of_perm (fun _ _ _ _ hab => hab) hrefusals
  rw [resultBytes, resultBytes, sortBy_canonicalAnswer, sortBy_canonicalAnswer, hanswers, hsorted]

/-- The digest of the results is that of every order of the answers and of the refusals exactly when no
query has two different answers, where SHA-256 tells the orders of the answers apart. -/
theorem hashResults_perm_iff (answers : List Answer) (refusals : List String)
    (hfree : CollisionFree (resultMessages answers refusals)) :
    (∀ answers' refusals', answers.Perm answers' → refusals.Perm refusals' →
        hashResults answers' refusals' = hashResults answers refusals) ↔
      ∀ a ∈ answers, ∀ b ∈ answers, a.query = b.query → a = b := by
  rw [← forall_perm_sortBy_iff]
  constructor
  · intro h answers' hperm
    have hmem : ∀ as, answers.Perm as → resultBytes as refusals ∈ resultMessages answers refusals :=
      fun as has => List.mem_map.mpr ⟨as, List.mem_permutations'.mpr has.symm, rfl⟩
    exact sortBy_query_eq_of_resultBytes_eq (hfree _ (hmem _ hperm) _ (hmem _ (.refl _))
      (Bytes.hex_injective (h answers' refusals hperm (.refl _))))
  · intro h answers' refusals' hperm hrefusals
    rw [hashResults, hashResults, resultBytes_eq_of_perm (h answers' hperm) hrefusals]

namespace Sample

/-- Two answers to one query. -/
def repeated : List Answer := [{ query := "q", text := "1" }, { query := "q", text := "2" }]

lemma sortBy_repeated : sortBy Answer.query repeated = repeated :=
  sortBy_eq_self (by simp [repeated])

lemma sortBy_repeated_reverse : sortBy Answer.query repeated.reverse = repeated.reverse :=
  sortBy_eq_self (by simp [repeated])

lemma sha256_repeated :
    sha256 (resultBytes repeated []) ≠ sha256 (resultBytes repeated.reverse []) := by
  rw [resultBytes, resultBytes, sortBy_canonicalAnswer, sortBy_canonicalAnswer, sortBy_repeated,
    sortBy_repeated_reverse, sortBy_nil, dumpsWith, dumpsWith, utf8_ofList, utf8_ofList]
  decide +kernel

theorem hashResults_perm_iff_repeated :
    CollisionFree (resultMessages repeated []) ∧
      ((∀ answers' refusals', repeated.Perm answers' → [].Perm refusals' →
          hashResults answers' refusals' = hashResults repeated []) ↔
        ∀ a ∈ repeated, ∀ b ∈ repeated, a.query = b.query → a = b) := by
  have hmessages : resultMessages repeated [] =
      [resultBytes repeated [], resultBytes repeated.reverse []] := rfl
  have hfree : CollisionFree (resultMessages repeated []) := by
    rw [hmessages]
    exact .of_nodup (by simpa using sha256_repeated)
  exact ⟨hfree, hashResults_perm_iff repeated [] hfree⟩

/-- The digest changes with the order of two answers to one query. -/
theorem hashResults_repeated_reverse :
    repeated.Perm repeated.reverse ∧ hashResults repeated.reverse [] ≠ hashResults repeated [] :=
  ⟨(List.reverse_perm repeated).symm, fun h => sha256_repeated (Bytes.hex_injective h.symm)⟩

end Sample

end AxiomGrid.Reproducibility
