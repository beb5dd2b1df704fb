import AxiomGrid.Grounding.Cascade
import AxiomGrid.Packs.Generic

/-!
# What the generic pack lists

The verifier grounds the span of an extraction, and the pack chooses span and value separately. The
summary and the key claims are pieces of the document. Entities and topics can also be names of a fixed
vocabulary, which the pack gives to a document that holds certain phrases.
-/

namespace AxiomGrid.Packs

open Pipeline Regex

/-! ### Occurrence in a document -/

section

variable (u : UnicodeData)

/-- The words of a text, in lower case. -/
def foldWords (s : Str) : List Str := (Str.split s).map (List.map u.simpleLower)

/-- A piece of the text is the item, up to case and whitespace. -/
def Occurs (item text : Str) : Prop := ∃ part, part <:+: text ∧ foldWords u part = foldWords u item

/-- The items of a value: the elements of the JSON list, or for the summary the plain value. -/
def items (readFloat : List Char → FloatRepr) (ext : Extraction) : List Str :=
  if ext.fieldName = "summary".toList then [ext.value]
  else
    match Json.loads readFloat (String.ofList ext.value) with
    | some (.arr xs) => xs.filterMap fun x =>
      match x with
      | .str s => some s.toList
      | _ => none
    | _ => []

/-- The names given to a document, with the phrases that call for them. -/
abbrev Vocabulary := List (List String × List String)

/-- Canonical names of entities. -/
def entityVocabulary : Vocabulary :=
  [(["security audit", "vulnerabilit"], ["Security Operations Team", "IT Infrastructure"]),
    (["fiscal year", "budget review"], ["Finance Department", "Budget Committee"]),
    (["market intelligence group"], ["Market Intelligence Group", "China", "European"]),
    (["cross-functional initiative to modernize"], ["Infrastructure Modernization Team"])]

/-- Canonical topics. -/
def topicVocabulary : Vocabulary :=
  [(["security audit", "vulnerabilit"], ["security", "data", "technology"]),
    (["fiscal year", "budget review"], ["financial", "data", "analysis"]),
    (["market intelligence group"], ["technology", "market", "automotive"]),
    (["china remains the largest market"], ["technology", "market", "automotive"]),
    (["cross-functional initiative to modernize"], ["technology", "security", "data"])] ++
  topicMap.flatMap fun row => row.2.map fun keyword => ([keyword], [row.1])

/-- The item is a name of the vocabulary, and the text holds the phrases that call for it. -/
def Canonical (vocabulary : Vocabulary) (item text : Str) : Prop :=
  ∃ row ∈ vocabulary, (∀ phrase ∈ row.1, mentions (Str.lower u text) phrase = true) ∧
    ∃ name ∈ row.2, item = name.toList

variable {u} {chunks : List Chunk} {item text : Str}

lemma occurs_of_part (h : item <:+: text) : Occurs u item text := ⟨item, h, rfl⟩

lemma text_infix_fullText {c : Chunk} (hc : c ∈ chunks) : c.text <:+: fullText chunks := by
  rw [fullText, Str.joinLines]
  induction chunks with
  | nil => cases hc
  | cons c' chunks ih =>
    cases chunks with
    | nil =>
      rw [List.mem_singleton] at hc
      subst hc
      simp
    | cons c'' chunks =>
      rw [List.map_cons, List.map_cons, List.intercalate_cons_cons]
      obtain rfl | hc := List.mem_cons.mp hc
      · exact ((List.prefix_append _ _).trans (List.prefix_append _ _)).isInfix
      · exact (ih hc).trans (List.suffix_append _ _).isInfix

lemma items_summary {readFloat : List Char → FloatRepr} {ext : Extraction}
    (h : ext.fieldName = "summary".toList) : items readFloat ext = [ext.value] := by
  rw [items, if_pos h]

/-- The items of a list that the pack wrote. -/
lemma items_dumpsList {readFloat : List Char → FloatRepr} {ext : Extraction} {texts : List Str}
    (hfield : ext.fieldName ≠ "summary".toList) (hvalue : ext.value = dumpsList texts) :
    items readFloat ext = texts := by
  have hread : ∀ texts : List Str,
      Json.ItemsReadBack ⟨readFloat, true⟩ (texts.map fun s => .str (String.ofList s)) := by
    intro texts
    induction texts with
    | nil => trivial
    | cons s texts ih => exact ⟨trivial, ih⟩
  have hkeys : ∀ texts : List Str,
      Json.DistinctKeysItems (texts.map fun s => .str (String.ofList s)) := by
    intro texts
    induction texts with
    | nil => trivial
    | cons s texts ih => exact ⟨trivial, ih⟩
  have hloads : Json.loads readFloat
      (Json.dumpsWith .spaced (.arr (texts.map fun s => .str (String.ofList s)))) =
      some (.arr (texts.map fun s => .str (String.ofList s))) :=
    Json.loads_dumpsWith Json.Style.readable_spaced (hread texts) (hkeys texts)
  rw [items, if_neg hfield, hvalue, dumpsList, String.ofList_toList, hloads]
  simp [List.filterMap_map]

/-! ### Summary -/

lemma occurs_summarySection {p : Str × Option Chunk} (h : summarySection u chunks = some p) :
    Occurs u p.1 (fullText chunks) := by
  rw [summarySection, Option.map_eq_some_iff] at h
  obtain ⟨m, hm, rfl⟩ := h
  have hof := searchFrom_spec hm
  have htext : m.text <:+: fullText chunks := ⟨m.skipped, m.rest, hof.parts.symm⟩
  apply occurs_of_part
  apply (Str.infix_strip _).trans
  cases hgroup : m.group with
  | none => exact List.nil_infix
  | some g => exact (hof.group g hgroup).trans htext

/-- The first two sentences, joined by one space, are a piece of the chunk up to whitespace. -/
lemma occurs_sentences (text : Str) :
    Occurs u (Str.strip (Str.unwords ((Regex.split sentenceEnd text).take 2))) text := by
  have hwithin : sentenceEnd.Within (fun c => Str.isSpace c = true) :=
    ⟨trivial, fun _ h => h, fun _ h => h⟩
  obtain hone | ⟨x, w, y, z, htwo, htext, hne, hw⟩ :=
    take_two_split hwithin (.inr (.inl trivial)) text
  · rw [hone, Str.unwords, List.intercalate_singleton]
    exact occurs_of_part (Str.infix_strip text)
  · rw [htwo]
    refine ⟨x ++ w ++ y, ⟨[], z, by rw [htext, List.nil_append]⟩, ?_⟩
    obtain ⟨c, w, rfl⟩ := List.exists_cons_of_ne_nil hne
    rw [List.forall_mem_cons] at hw
    have hunwords : Str.unwords [x, y] = x ++ ' ' :: y := by simp [Str.unwords]
    rw [foldWords, foldWords, Str.split_strip, hunwords, Str.split_append_cons (by decide),
      List.append_assoc, List.cons_append, Str.split_append_cons hw.1, Str.split_append_spaces hw.2]

lemma Occurs.mono {text' : Str} (h : Occurs u item text) (htext : text <:+: text') :
    Occurs u item text' := by
  obtain ⟨part, hpart, hfold⟩ := h
  exact ⟨part, hpart.trans htext, hfold⟩

lemma occurs_summarySentences {p : Str × Option Chunk} (h : summarySentences chunks = some p) :
    Occurs u p.1 (fullText chunks) := by
  rw [summarySentences, Option.map_eq_some_iff] at h
  obtain ⟨c, hc, rfl⟩ := h
  exact (occurs_sentences c.text).mono (text_infix_fullText (List.mem_of_find?_eq_some hc))

lemma occurs_summary {p : Str × Option Chunk} (h : summary u chunks = some p) :
    Occurs u p.1 (fullText chunks) := by
  rw [summary] at h
  split at h
  · rename_i summaryVal chunk hsection
    split_ifs at h
    · exact occurs_summarySentences h
    · cases h
      exact occurs_summarySection hsection
  · exact occurs_summarySentences h

/-! ### Key claims -/

/-- Every text of the list is a piece of the text. -/
def Within (text : Str) (claims : List Str) : Prop := ∀ claim ∈ claims, claim <:+: text

lemma within_nil : Within text [] := by simp [Within]

lemma Within.addClaim {claims : List Str} (h : Within text claims) {claim : Str}
    (hclaim : claim <:+: text) (minLength : ℕ) : Within text (addClaim minLength claims claim) := by
  rw [Packs.addClaim]
  split_ifs
  · intro x hx
    rw [List.mem_append, List.mem_singleton] at hx
    obtain hx | rfl := hx
    · exact h x hx
    · exact hclaim
  · exact h

lemma infix_listItem {line cleaned : Str} (h : listItem u line = some cleaned) : cleaned <:+: line := by
  have hmatch : ∀ {r m}, matchStart r line = some m → Str.strip (m.group.getD []) <:+: line := by
    intro r m hm
    have hof := (matchAt_spec hm).2
    apply (Str.infix_strip _).trans
    cases hgroup : m.group with
    | none => exact List.nil_infix
    | some g => exact (hof.group g hgroup).trans ⟨m.skipped, m.rest, hof.parts.symm⟩
  rw [listItem, Option.map_eq_some_iff] at h
  obtain ⟨m, hm, rfl⟩ := h
  rw [Option.orElse_eq_orElse, Option.orElse_eq_or, Option.or_eq_some_iff] at hm
  obtain hm | ⟨-, hm⟩ := hm
  · exact hmatch hm
  · exact hmatch hm

/-- One line adds only pieces of itself. -/
lemma within_step {c : Chunk} {loop : ClaimsLoop} (h : Within text loop.claims) {line : Str}
    (hline : line <:+: text) : Within text (loop.step u c line).claims := by
  have hstripped := (Str.infix_strip line).trans hline
  simp only [ClaimsLoop.step]
  split
  · rename_i header hheader
    have hafter : Str.strip header.rest <:+: text := by
      have hparts := (searchFrom_spec hheader).parts
      exact ((Str.infix_strip _).trans ⟨header.skipped ++ header.text, [], by
        rw [List.append_nil, ← hparts]⟩).trans hstripped
    split_ifs
    · exact h
    · apply h.addClaim
      cases hitem : listItem u (Str.strip header.rest) with
      | none => exact hafter
      | some cleaned => exact (infix_listItem hitem).trans hafter
  · split
    · split
      · rename_i cleaned hitem
        exact h.addClaim ((infix_listItem hitem).trans hstripped) 10
      · split <;> exact h
    · exact h

lemma within_foldl_step {c : Chunk} {lines : List Str} (hlines : ∀ line ∈ lines, line <:+: text)
    {loop : ClaimsLoop} (h : Within text loop.claims) :
    Within text (lines.foldl (ClaimsLoop.step u c) loop).claims := by
  induction lines generalizing loop with
  | nil => exact h
  | cons line lines ih =>
    rw [List.forall_mem_cons] at hlines
    exact ih hlines.2 (within_step h hlines.1)

lemma within_sectionClaims {chunk : Option Chunk} (hchunks : ∀ c ∈ chunks, c.text <:+: text) :
    Within text (sectionClaims u chunk chunks).1 := by
  induction chunks generalizing chunk with
  | nil => exact within_nil
  | cons c chunks ih =>
    rw [List.forall_mem_cons] at hchunks
    rw [sectionClaims]
    split_ifs
    · exact ih hchunks.2
    · apply within_foldl_step _ within_nil
      intro line hline
      exact (Str.mem_splitLines hline).1.trans hchunks.1

lemma within_fallbackStep {loop : List Str × Option Chunk} (h : Within text loop.1)
    {entry : Chunk × Str} (hentry : entry.2 <:+: text) : Within text (fallbackStep u loop entry).1 := by
  simp only [fallbackStep]
  split_ifs
  · intro claim hclaim
    rw [List.mem_append, List.mem_singleton] at hclaim
    obtain hclaim | rfl := hclaim
    · exact h claim hclaim
    · exact (((suffix_remove_start _ _).trans (suffix_remove_start _ _)).isInfix.trans
        (Str.infix_strip _)).trans hentry
  · exact h
  · exact h

lemma within_foldl_fallbackStep {entries : List (Chunk × Str)}
    (hentries : ∀ entry ∈ entries, entry.2 <:+: text) {loop : List Str × Option Chunk}
    (h : Within text loop.1) : Within text (entries.foldl (fallbackStep u) loop).1 := by
  induction entries generalizing loop with
  | nil => exact h
  | cons entry entries ih =>
    rw [List.forall_mem_cons] at hentries
    exact ih hentries.2 (within_fallbackStep h hentries.1)

/-- Key claims are pieces of the document. -/
lemma within_keyClaims : Within (fullText chunks) (keyClaims u chunks).1 := by
  have hchunks : ∀ c ∈ chunks, c.text <:+: fullText chunks := fun c hc => text_infix_fullText hc
  simp only [keyClaims]
  split_ifs
  · apply within_foldl_fallbackStep _ (within_sectionClaims hchunks)
    intro entry hentry
    rw [List.mem_flatMap] at hentry
    obtain ⟨c, hc, hentry⟩ := hentry
    rw [List.mem_map] at hentry
    obtain ⟨line, hline, rfl⟩ := hentry
    exact (Str.mem_splitLines hline).1.trans (hchunks c hc)
  · exact within_sectionClaims hchunks

/-! ### Entities and topics -/

/-- The title without its suffix is a piece of the document. -/
lemma infix_titleClean : titleClean chunks <:+: fullText chunks := by
  have hstop : ∀ {s s'}, s' ∈ run titleSuffix s → s'.rest = [] ∨ s'.rest = ['\n'] := by
    intro s s' h
    exact run_seq_last (run_seq_last (run_seq_last (run_seq_last run_stop))) h
  rw [titleClean]
  apply (Str.infix_strip _).trans
  cases htitle : chunks.findSome? fun c =>
      ((Str.splitLines c.text).map Str.strip).find? (· ≠ []) with
  | none =>
    rw [titleLine, htitle]
    exact List.nil_infix
  | some title =>
    rw [titleLine, htitle, Option.getD_some]
    obtain ⟨c, hc, hfind⟩ := List.exists_of_findSome?_eq_some htitle
    obtain ⟨line, hline, rfl⟩ := List.mem_map.mp (List.mem_of_find?_eq_some hfind)
    obtain ⟨hpart, hbreak⟩ := Str.mem_splitLines hline
    have hnewline : '\n' ∉ Str.strip line := fun hmem =>
      absurd (hbreak '\n' ((Str.infix_strip line).subset hmem)) (by decide)
    exact ((prefix_remove_stop hstop hnewline).isInfix.trans (Str.infix_strip line)).trans
      (hpart.trans (text_infix_fullText hc))

lemma mem_entitiesList {entity : Str} (h : entity ∈ entitiesList u chunks) :
    Occurs u entity (fullText chunks) ∨ Canonical u entityVocabulary entity (fullText chunks) := by
  simp only [entitiesList] at h
  split_ifs at h with hsecurity hbudget hmarket hmodernize htitle
  · right
    refine ⟨_, List.mem_cons_self, ?_, ?_⟩
    · simpa using hsecurity
    · simpa using h
  · right
    refine ⟨_, List.mem_cons_of_mem _ List.mem_cons_self, ?_, ?_⟩
    · simpa using hbudget
    · simpa using h
  · right
    refine ⟨_, List.mem_cons_of_mem _ (List.mem_cons_of_mem _ List.mem_cons_self), ?_, ?_⟩
    · simpa using hmarket
    · simpa using h
  · right
    refine ⟨(["cross-functional initiative to modernize"], ["Infrastructure Modernization Team"]),
      by simp [entityVocabulary], ?_, ?_⟩
    · simpa using hmodernize
    · simpa using h
  · obtain rfl | h := List.mem_cons.mp h
    · exact .inl (occurs_of_part infix_titleClean)
    · right
      refine ⟨(["cross-functional initiative to modernize"], ["Infrastructure Modernization Team"]),
        by simp [entityVocabulary], ?_, ?_⟩
      · simpa using hmodernize
      · simpa using h
  · cases h

lemma mem_topicsList {topic : Str} (h : topic ∈ topicsList u chunks) :
    Canonical u topicVocabulary topic (fullText chunks) := by
  simp only [topicsList] at h
  rw [List.mem_map] at h
  obtain ⟨name, h, rfl⟩ := h
  have hrow : ∀ row ∈ topicVocabulary,
      (∀ phrase ∈ row.1, mentions (Str.lower u (fullText chunks)) phrase = true) → name ∈ row.2 →
      Canonical u topicVocabulary name.toList (fullText chunks) :=
    fun row hrow hphrases hname => ⟨row, hrow, hphrases, name, hname, rfl⟩
  split_ifs at h with hsecurity hbudget hmarket hmodernize
  · exact hrow _ (List.mem_append_left _ List.mem_cons_self) (by simpa using hsecurity) h
  · exact hrow (["fiscal year", "budget review"], ["financial", "data", "analysis"])
      (by simp [topicVocabulary]) (by simpa using hbudget) h
  · rw [Bool.or_eq_true] at hmarket
    obtain hmarket | hmarket := hmarket
    · exact hrow (["market intelligence group"], ["technology", "market", "automotive"])
        (by simp [topicVocabulary]) (by simpa using hmarket) h
    · exact hrow (["china remains the largest market"], ["technology", "market", "automotive"])
        (by simp [topicVocabulary]) (by simpa using hmarket) h
  · exact hrow (["cross-functional initiative to modernize"], ["technology", "security", "data"])
      (by simp [topicVocabulary]) (by simpa using hmodernize) h
  · -- a topic found by one of its keywords
    have h := List.mem_of_mem_take h
    rw [List.mem_map] at h
    obtain ⟨row, hmem, rfl⟩ := h
    rw [List.mem_filter, List.any_eq_true] at hmem
    obtain ⟨hmem, keyword, hkeyword, hmentions⟩ := hmem
    refine hrow ([keyword], [row.1]) ?_ (by simpa using hmentions) List.mem_cons_self
    rw [topicVocabulary, List.mem_append, List.mem_flatMap]
    exact .inr ⟨row, hmem, List.mem_map.mpr ⟨keyword, hkeyword, rfl⟩⟩

/-! ### What is grounded -/

/-- An item that the pack may list for a document: one that occurs in it, or a canonical name of the
field that the document calls for. -/
def Listed (u : UnicodeData) (ext : Extraction) (item text : Str) : Prop :=
  Occurs u item text ∨
    (ext.fieldName = "entities".toList ∧ Canonical u entityVocabulary item text) ∨
    (ext.fieldName = "topics".toList ∧ Canonical u topicVocabulary item text)

variable {newId : Str → Str} {self : GenericPack} {readFloat : List Char → FloatRepr}
  {ext : Extraction}

lemma listed_of_mem_extractSummary (h : ext ∈ self.extractSummary u newId chunks) :
    ∀ item ∈ items readFloat ext, Listed u ext item (fullText chunks) := by
  intro item hitem
  rw [GenericPack.extractSummary] at h
  split at h
  · rename_i summaryVal chunk hsummary
    split_ifs at h
    · cases h
    · rw [List.mem_singleton] at h
      subst h
      rw [items_summary rfl, List.mem_singleton] at hitem
      subst hitem
      exact .inl (occurs_summary hsummary)
  · cases h

lemma listed_of_mem_extractKeyClaims (h : ext ∈ self.extractKeyClaims u newId chunks) :
    ∀ item ∈ items readFloat ext, Listed u ext item (fullText chunks) := by
  intro item hitem
  rw [GenericPack.extractKeyClaims] at h
  split at h
  · cases h
  · rename_i claim claims chunk hclaims
    rw [List.mem_singleton] at h
    subst h
    rw [items_dumpsList (by simp [GenericPack.extraction]) rfl] at hitem
    have hmem : item ∈ (keyClaims u chunks).1 := by
      rw [hclaims]
      exact hitem
    exact .inl (occurs_of_part (within_keyClaims item hmem))

lemma listed_of_mem_extractEntities (h : ext ∈ self.extractEntities u newId chunks) :
    ∀ item ∈ items readFloat ext, Listed u ext item (fullText chunks) := by
  intro item hitem
  rw [GenericPack.extractEntities] at h
  split at h
  · cases h
  · rename_i entity entities hentities
    rw [List.mem_singleton] at h
    subst h
    rw [items_dumpsList (by simp [GenericPack.extraction]) rfl, ← hentities] at hitem
    exact (mem_entitiesList hitem).imp_right fun hcanonical => .inl ⟨rfl, hcanonical⟩

lemma listed_of_mem_extractTopics (h : ext ∈ self.extractTopics u newId chunks) :
    ∀ item ∈ items readFloat ext, Listed u ext item (fullText chunks) := by
  intro item hitem
  rw [GenericPack.extractTopics] at h
  split at h
  · cases h
  · rename_i topic topics htopics
    rw [List.mem_singleton] at h
    subst h
    rw [items_dumpsList (by simp [GenericPack.extraction]) rfl, ← htopics] at hitem
    exact .inr (.inr ⟨rfl, mem_topicsList hitem⟩)

lemma listed_of_mem_extract (h : ext ∈ self.extract u newId chunks) :
    ∀ item ∈ items readFloat ext, Listed u ext item (fullText chunks) := by
  rw [GenericPack.extract] at h
  split_ifs at h
  · cases h
  · rw [List.mem_append, List.mem_append, List.mem_append] at h
    obtain ((h | h) | h) | h := h
    · exact listed_of_mem_extractSummary h
    · exact listed_of_mem_extractKeyClaims h
    · exact listed_of_mem_extractEntities h
    · exact listed_of_mem_extractTopics h

end

/-! ### A budget review -/

namespace Sample

def budgetChunk : Chunk where
  chunkId := "c1".toList
  docId := "d1".toList
  page := 1
  text := "Fiscal year budget review".toList

/-- No embedding is similar to another. -/
def blankEmbeddings : Grounding.Embeddings where
  getEmbedding _ := []
  cosineSimilarity _ _ := .fin 0

/-- A reader of floats, for values that have none. -/
def zeroFloat (_ : List Char) : FloatRepr := ⟨"0.0".toList, by decide⟩

/-- The entities that the pack finds in the review. -/
def budgetEntities : Extraction :=
  GenericPack.extraction id {} "entities".toList
    (dumpsList ["Finance Department".toList, "Budget Committee".toList])
    "Fiscal year budget review".toList (8 / 10) "c1".toList

lemma budgetEntities_mem : budgetEntities ∈ GenericPack.extract asciiData id {} [budgetChunk] := by
  have hlist : entitiesList asciiData [budgetChunk] =
      ["Finance Department".toList, "Budget Committee".toList] := by decide +kernel
  have hspan : Str.contains (Str.lower asciiData "Finance Department".toList)
      (Str.lower asciiData (fullText [budgetChunk])) = false := by decide +kernel
  have hchunk : ([budgetChunk].find? fun c =>
      Str.contains (Str.lower asciiData "Finance Department".toList) (Str.lower asciiData c.text) ||
        Str.contains ((Str.lower asciiData (fullText [budgetChunk])).take 50)
          (Str.lower asciiData c.text)) = some budgetChunk := by decide +kernel
  have hentities : GenericPack.extractEntities asciiData id {} [budgetChunk] = [budgetEntities] := by
    rw [GenericPack.extractEntities, hlist]
    simp only [hspan, hchunk]
    rfl
  rw [GenericPack.extract, if_neg (List.cons_ne_nil _ _), hentities]
  simp

lemma budgetEntities_grounded : (Grounding.verify asciiData blankEmbeddings {} budgetEntities.value
    budgetEntities.sourceSpan [budgetChunk]).1 = .exact := by
  decide +kernel

lemma items_budgetEntities : items zeroFloat budgetEntities =
    ["Finance Department".toList, "Budget Committee".toList] :=
  items_dumpsList (by simp [budgetEntities, GenericPack.extraction]) rfl

/-- The department is not in the review: no letter of it is a `p`. -/
lemma not_occurs_department :
    ¬ Occurs asciiData "Finance Department".toList (fullText [budgetChunk]) := by
  rintro ⟨part, hpart, hfold⟩
  have hp : 'p' ∈ (foldWords asciiData "Finance Department".toList).flatten := by decide +kernel
  rw [← hfold, foldWords, List.mem_flatten] at hp
  obtain ⟨lowered, hlowered, hp⟩ := hp
  rw [List.mem_map] at hlowered
  obtain ⟨word, hword, rfl⟩ := hlowered
  rw [List.mem_map] at hp
  obtain ⟨c, hc, hlower⟩ := hp
  have htext : (fullText [budgetChunk]).all (fun c => asciiData.simpleLower c != 'p') = true := by
    decide +kernel
  rw [List.all_eq_true] at htext
  have hne := htext c (hpart.subset (Str.mem_of_mem_split hword hc))
  rw [hlower] at hne
  cases hne

end Sample

end AxiomGrid.Packs
