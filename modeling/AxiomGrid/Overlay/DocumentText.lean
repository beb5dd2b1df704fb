import AxiomGrid.Overlay.Registry

/-!
# The text that `/demo` returns

For a file that is not text, `/demo` looks its chunks up under the id of its own document, while the
ingestor registered them under the id of another one. The lookup never finds a chunk, and the text is
put together from the chunks of every document the server has seen. It is the text of the file alone
exactly when no earlier request has registered a chunk.
-/

namespace AxiomGrid.Overlay

open Pipeline

namespace Setting

variable (cfg : Setting)

/-- The chunks of a file, before they get ids. -/
def ownChunks (file : SourceFile) : List Chunk :=
  match file.parse cfg.u cfg.limits with
  | .error _ => []
  | .ok parsed => parsed.1

/-- The texts of a file's own chunks, in order. -/
def ownText (file : SourceFile) : Str := joinTexts (sortChunks (cfg.ownChunks file))

/-- The request registers no chunk. -/
def Chunkless : Request → Prop
  | .demo (some file) _ => cfg.ownChunks file = []
  | _ => True

/-! ### Texts of chunks -/

lemma joinTexts_cons (c : Chunk) (chunks : List Chunk) : joinTexts (c :: chunks) =
    c.text ++ if chunks = [] then [] else '\n' :: '\n' :: joinTexts chunks := by
  cases chunks with
  | nil => simp [joinTexts]
  | cons c' chunks => simp [joinTexts, List.intercalate_cons_cons]

lemma length_joinTexts (chunks : List Chunk) : (joinTexts chunks).length =
    (chunks.map (·.text.length)).sum + 2 * (chunks.length - 1) := by
  induction chunks with
  | nil => rfl
  | cons c chunks ih =>
    rw [joinTexts_cons, List.length_append, List.map_cons, List.sum_cons]
    cases chunks with
    | nil => simp
    | cons c' chunks =>
      rw [if_neg (List.cons_ne_nil _ _), List.length_cons, List.length_cons, ih]
      simp only [List.length_cons]
      omega

lemma length_joinTexts_sortChunks (chunks : List Chunk) :
    (joinTexts (sortChunks chunks)).length = (joinTexts chunks).length := by
  have hperm := List.mergeSort_perm chunks fun c c' => !chunkBefore c' c
  rw [length_joinTexts, length_joinTexts, sortChunks, hperm.length_eq,
    (hperm.map (·.text.length)).sum_eq]

/-- More chunks, each with a text, have a longer text. -/
lemma joinTexts_append_ne {old own : List Chunk} (hne : old ≠ []) (hold : ∀ c ∈ old, c.text ≠ []) :
    joinTexts (sortChunks (old ++ own)) ≠ joinTexts (sortChunks own) := by
  intro heq
  have hlength := congrArg List.length heq
  rw [length_joinTexts_sortChunks, length_joinTexts_sortChunks, length_joinTexts, length_joinTexts,
    List.map_append, List.sum_append, List.length_append] at hlength
  obtain ⟨c, old, rfl⟩ := List.exists_cons_of_ne_nil hne
  have hpos : 0 < c.text.length := List.length_pos_of_ne_nil (hold c List.mem_cons_self)
  rw [List.map_cons, List.sum_cons, List.length_cons] at hlength
  omega

/-- A chunk without its ids. -/
def anonymous (c : Chunk) : Chunk := { c with chunkId := [], docId := [] }

lemma joinTexts_sortChunks_anonymous (chunks : List Chunk) :
    joinTexts (sortChunks (chunks.map anonymous)) = joinTexts (sortChunks chunks) := by
  have hsort : (sortChunks chunks).map anonymous = sortChunks (chunks.map anonymous) :=
    List.map_mergeSort fun _ _ _ _ => rfl
  rw [← hsort, joinTexts, List.map_map]
  rfl

/-- The ids play no role in the text. -/
lemma joinTexts_sortChunks_label (ids : IngestIds) (chunks : List Chunk) :
    joinTexts (sortChunks (ids.label chunks)) = joinTexts (sortChunks chunks) := by
  have hlabel : (ids.label chunks).map anonymous = chunks.map anonymous := by
    conv_rhs => rw [← List.zipIdx_map_fst 0 chunks]
    rw [IngestIds.label, List.map_map, List.map_map]
    rfl
  rw [← joinTexts_sortChunks_anonymous, hlabel, joinTexts_sortChunks_anonymous]

variable {cfg}

lemma ingested_eq_label (n : ℕ) (file : SourceFile) :
    cfg.ingested n file = (cfg.ingestIds n).label (cfg.ownChunks file) := by
  rw [ingested, ownChunks]
  cases file.parse cfg.u cfg.limits <;> rfl

lemma joinTexts_ingested (n : ℕ) (file : SourceFile) :
    joinTexts (sortChunks (cfg.ingested n file)) = cfg.ownText file := by
  rw [ingested_eq_label, joinTexts_sortChunks_label]
  rfl

lemma ingested_eq_nil_iff (n : ℕ) (file : SourceFile) :
    cfg.ingested n file = [] ↔ cfg.ownChunks file = [] := by
  rw [ingested_eq_label]
  simp [IngestIds.label]

/-! ### The text of a request -/

section Fresh

variable {server : Server} (hids : cfg.ids.Fresh) (hknown : Known cfg server)

include hids hknown

/-- The chunks of a request are never found under the id of its document. -/
lemma chunksForDoc_registered (file : SourceFile) (extract : Extract) :
    (cfg.registered server file extract).provenance.chunksForDoc (cfg.ids server.served .document 0) =
      [] := by
  rw [ProvenanceLog.chunksForDoc, List.filter_eq_nil_iff]
  intro c hc hdoc
  rw [List.mem_map] at hc
  obtain ⟨entry, hentry, rfl⟩ := hc
  obtain ⟨-, n, -, -, hdocId⟩ := (known_registered hids hknown).chunkId entry hentry
  rw [decide_eq_true_eq, hdocId] at hdoc
  exact absurd (hids hdoc).2.1 (by decide)

lemma registeredText_registered (file : SourceFile) (extract : Extract) :
    registeredText (cfg.registered server file extract).provenance
      (cfg.ids server.served .document 0) =
      joinTexts (sortChunks (server.services.provenance.allChunks ++
        cfg.ingested server.served file)) := by
  simp only [registeredText, chunksForDoc_registered hids hknown, if_true]
  rw [ProvenanceLog.allChunks, registered_chunks hids hknown, List.map_append,
    List.map_map]
  congr 3
  exact List.map_id _

/-- The text is that of the file exactly when no chunk was registered before. -/
lemma documentText_eq_iff {file : SourceFile} {extract : Extract} {response : DemoResponse}
    {server' : Server} (hfile : file.isText cfg.u = false)
    (h : Demonstrates cfg server file extract response server') :
    response.documentText = cfg.ownText file ↔ server.services.provenance.chunks = [] := by
  rw [h.text, hfile, if_neg (by decide), registeredText_registered hids hknown,
    ← joinTexts_ingested server.served file]
  constructor
  · intro heq
    by_contra hne
    apply joinTexts_append_ne _ _ heq
    · simpa [ProvenanceLog.allChunks] using hne
    · intro c hc
      rw [ProvenanceLog.allChunks, List.mem_map] at hc
      obtain ⟨entry, hentry, rfl⟩ := hc
      exact (hknown.chunk entry hentry).2
  · intro hnil
    rw [ProvenanceLog.allChunks, hnil]
    rfl

/-- A request adds chunks unless it has none. -/
lemma step_chunks_eq_nil_iff (request : Request) :
    (cfg.step server request).services.provenance.chunks = [] ↔
      server.services.provenance.chunks = [] ∧ cfg.Chunkless request := by
  cases request with
  | demo file extract =>
    cases file with
    | none => simp [step, Chunkless]
    | some file =>
      obtain ⟨response, server', hdemo, h⟩ := runDemo_spec file extract hids hknown
      rw [step, hdemo, h.provenance, Chunkless, ← ingested_eq_nil_iff server.served]
      simp only
      rw [registered_chunks hids hknown, List.append_eq_nil_iff, List.map_eq_nil_iff]
  | apply extId accept => simp [step, Chunkless]
  | correct extId original corrected reason atTime => simp [step, Chunkless]

lemma serve_chunks_eq_nil_iff (history : List Request) :
    (cfg.serve server history).services.provenance.chunks = [] ↔
      server.services.provenance.chunks = [] ∧ ∀ request ∈ history, cfg.Chunkless request := by
  induction history generalizing server with
  | nil => simp [serve]
  | cons request history ih =>
    rw [serve, List.foldl_cons, ← serve, ih (known_step hids hknown request),
      step_chunks_eq_nil_iff hids hknown, List.forall_mem_cons, and_assoc]

end Fresh

variable (cfg) in
/-- After a history, the text that `/demo` returns for a file is that of the file's own chunks. -/
def ReturnsOwnText (history : List Request) (file : SourceFile) (extract : Extract) : Prop :=
  ∃ response server', cfg.runDemo (cfg.serve {} history) file extract = (.ok response, server') ∧
    response.documentText = cfg.ownText file

lemma returnsOwnText_iff (hids : cfg.ids.Fresh) (history : List Request) {file : SourceFile}
    (hfile : file.isText cfg.u = false) (extract : Extract) :
    cfg.ReturnsOwnText history file extract ↔ ∀ request ∈ history, cfg.Chunkless request := by
  have hknown := known_serve hids known_init history
  obtain ⟨response, server', hdemo, h⟩ := runDemo_spec file extract hids hknown
  have hserve := serve_chunks_eq_nil_iff hids known_init history
  rw [ReturnsOwnText, hdemo]
  constructor
  · rintro ⟨response', server'', heq, htext⟩
    cases heq
    exact (hserve.mp ((documentText_eq_iff hids hknown hfile h).mp htext)).2
  · intro hchunkless
    exact ⟨response, server', rfl,
      (documentText_eq_iff hids hknown hfile h).mpr (hserve.mpr ⟨rfl, hchunkless⟩)⟩

/-- Isolation of the documents. For a file that is not text and any two histories, `/demo` returns the
same text after both, put together from the file's own chunks only, if and only if no request of
either history registered a chunk. -/
theorem documentText_isolated_iff (cfg : Setting) (hids : cfg.ids.Fresh)
    (history₁ history₂ : List Request) (file : SourceFile) (hfile : file.isText cfg.u = false)
    (extract₁ extract₂ : Extract) :
    (∃ response₁ server₁ response₂ server₂,
      cfg.runDemo (cfg.serve {} history₁) file extract₁ = (.ok response₁, server₁) ∧
      cfg.runDemo (cfg.serve {} history₂) file extract₂ = (.ok response₂, server₂) ∧
      response₁.documentText = response₂.documentText ∧
      response₁.documentText = cfg.ownText file ∧ response₂.documentText = cfg.ownText file) ↔
    (∀ request ∈ history₁, cfg.Chunkless request) ∧ ∀ request ∈ history₂, cfg.Chunkless request := by
  rw [← returnsOwnText_iff hids history₁ hfile extract₁,
    ← returnsOwnText_iff hids history₂ hfile extract₂]
  constructor
  · rintro ⟨response₁, server₁, response₂, server₂, h₁, h₂, -, htext₁, htext₂⟩
    exact ⟨⟨response₁, server₁, h₁, htext₁⟩, response₂, server₂, h₂, htext₂⟩
  · rintro ⟨⟨response₁, server₁, h₁, htext₁⟩, response₂, server₂, h₂, htext₂⟩
    exact ⟨response₁, server₁, response₂, server₂, h₁, h₂, htext₁.trans htext₂.symm, htext₁, htext₂⟩

end Setting

/-! ### Two memos -/

namespace Sample

def noExtractions : Extract := fun _ => .ok []

/-- The first memo is served before. -/
def firstMemo : List Setting.Request := [.demo (some (docxFile "alpha".toList)) noExtractions]

lemma ownChunks_docxFile {paragraph : Str} (hblank : Str.strip paragraph ≠ [])
    (hlimit : paragraph.length ≤ setting.limits.maxExtractedChars) :
    setting.ownChunks (docxFile paragraph) ≠ [] := by
  rw [Setting.ownChunks, parse_docxFile hblank hlimit]
  exact List.cons_ne_nil _ _

/-- After the first memo, the text returned for the second one is not its own. -/
theorem not_returnsOwnText_second :
    ¬ setting.ReturnsOwnText firstMemo (docxFile "beta".toList) noExtractions := by
  rw [Setting.returnsOwnText_iff unaryIds_fresh firstMemo (docxFile_isText _)]
  intro h
  exact ownChunks_docxFile (by decide) (by decide) (h _ List.mem_cons_self)

/-- On a fresh server, a memo gets its own text. -/
theorem documentText_isolated_fresh :
    ∃ response₁ server₁ response₂ server₂,
      setting.runDemo (setting.serve {} []) (docxFile "beta".toList) noExtractions =
        (.ok response₁, server₁) ∧
      setting.runDemo (setting.serve {} []) (docxFile "beta".toList) noExtractions =
        (.ok response₂, server₂) ∧
      response₁.documentText = response₂.documentText ∧
      response₁.documentText = setting.ownText (docxFile "beta".toList) ∧
      response₂.documentText = setting.ownText (docxFile "beta".toList) :=
  (Setting.documentText_isolated_iff setting unaryIds_fresh [] [] (docxFile "beta".toList)
    (docxFile_isText _) noExtractions noExtractions).mpr ⟨by simp, by simp⟩

end Sample

end AxiomGrid.Overlay
