import AxiomGrid.Overlay.Server
import AxiomGrid.Pipeline.RefuseOrCite

/-!
# What the requests register

One request registers the chunks of its document, its extractions and the actions it proposes, each
under an id drawn in that request. So whatever the history, an entry of a registry can be told from
those of every other request, and the chain of a registered chunk is complete.
-/

namespace AxiomGrid.Overlay

open Pipeline Pipeline.OrchestratorImpl

/-- The chain of an extraction, without a look at the actions. -/
def extractionChain (log : ProvenanceLog) (extId : Str) : Chain :=
  (Dict.get? log.extractions extId).elim {} fun extraction => log.chainOf none (some extraction)

lemma getProvenance_eq {log : ProvenanceLog} {extId : Str}
    (h : ∀ entry ∈ log.actions, entry.1 ≠ extId) :
    log.getProvenance extId = extractionChain log extId := by
  rw [ProvenanceLog.getProvenance, Dict.get?_eq_none h, extractionChain]
  cases Dict.get? log.extractions extId <;> rfl

/-- `/demo` shows the extraction: it is not blocked and its chain is complete. -/
def shown (log : ProvenanceLog) (ext : Extraction) : Bool :=
  ext.status ≠ .blocked && (extractionChain log ext.extId).isComplete

namespace Setting

variable (cfg : Setting)

/-! ### One run of the pipeline -/

/-- The chunks that the ingestor returns in a request. -/
def ingested (n : ℕ) (file : SourceFile) : List Chunk :=
  match file.parse cfg.u cfg.limits with
  | .error _ => []
  | .ok parsed => (cfg.ingestIds n).label parsed.1

/-- The extractions of the pack: none when the ingestor or the pack fails or the filter blocks. -/
def extracted (n : ℕ) (file : SourceFile) (extract : Extract) : List Extraction :=
  match file.parse cfg.u cfg.limits with
  | .error _ => []
  | .ok parsed =>
    let chunks := (cfg.ingestIds n).label parsed.1
    if (cfg.scan (List.intercalate ['\n'] (chunks.map (·.text)))).blocked then []
    else
      match extract ((cfg.compressDocumentChunks chunks).elim chunks Prod.fst) with
      | .error _ => []
      | .ok extractions => cfg.label n extractions

/-- The extractions of the pack, after the verifier. -/
def grounded (n : ℕ) (file : SourceFile) (extract : Extract) : List Extraction :=
  (cfg.extracted n file extract).map
    (ground cfg.u cfg.emb (withSourceType (cfg.requestDoc n file) (cfg.ingested n file)))

/-- The document of the ingestor, for what the parser returned. -/
def ingestedDoc (n : ℕ) (file : SourceFile) (parsed : Parsed) : Document where
  docId := (cfg.ingestIds n).docId
  sourcePath := file.path
  sha256 := (sha256 file.content).hex.toList
  pageCount := parsed.2.1

/-- The services once a run has registered the document, the chunks and the extractions. -/
def registered (server : Server) (file : SourceFile) (extract : Extract) : Services :=
  match file.parse cfg.u cfg.limits with
  | .error _ => server.services
  | .ok parsed =>
    let doc := cfg.ingestedDoc server.served file parsed
    let pages := parsed.2.2.map fun page => { page with docId := doc.docId }
    ((server.services.registerDocument doc pages).registerChunks
      (cfg.ingested server.served file)).2.registerExtractions
      (cfg.grounded server.served file extract)

/-- The gate of a run. -/
def check (server : Server) (file : SourceFile) (extract : Extract) : Extraction → GateResult :=
  (cfg.gate (cfg.registered server file extract).memory).check cfg.repr

variable {cfg} {server : Server} {file : SourceFile} {extract : Extract}

lemma ingested_placed (n : ℕ) : ∀ c ∈ cfg.ingested n file, Placed c ∧
    c.docId = cfg.ids n .ingested 0 ∧ ∃ i, c.chunkId = cfg.ids n .chunk i := by
  intro c hc
  rw [ingested] at hc
  split at hc
  · cases hc
  · rename_i parsed hparse
    obtain ⟨chunk, hchunk, i, rfl⟩ := IngestIds.mem_label hc
    have hplaced := SourceFile.parse_placed hparse chunk hchunk
    exact ⟨⟨hplaced.bbox, hplaced.page, hplaced.text⟩, rfl, i, rfl⟩

/-- Chunks with boxes are all registered. -/
lemma registerChunks_of_bbox (services : Services) {chunks : List Chunk}
    (h : ∀ c ∈ chunks, c.bbox ≠ none) :
    ∃ services', services.registerChunks chunks = (.ok (), services') := by
  cases hrun : services.registerChunks chunks with
  | mk outcome services' =>
    cases outcome with
    | ok _ => exact ⟨services', rfl⟩
    | error e =>
      obtain ⟨c, hc, hnone⟩ := Services.registerChunks_error hrun
      exact absurd hnone (h c hc)

variable (server extract) in
/-- What a run registers when the parser succeeds. -/
lemma registered_of_parse {parsed : Parsed} (hparse : file.parse cfg.u cfg.limits = .ok parsed) :
    ∃ services', (server.services.registerDocument (cfg.ingestedDoc server.served file parsed)
        (parsed.2.2.map fun page => { page with docId := (cfg.ingestIds server.served).docId })
        ).registerChunks (cfg.ingested server.served file) = (.ok (), services') ∧
      cfg.registered server file extract =
        services'.registerExtractions (cfg.grounded server.served file extract) := by
  obtain ⟨services', hservices⟩ := registerChunks_of_bbox
    (server.services.registerDocument (cfg.ingestedDoc server.served file parsed)
      (parsed.2.2.map fun page => { page with docId := (cfg.ingestIds server.served).docId }))
    fun c hc => (ingested_placed server.served c hc).1.bbox
  refine ⟨services', hservices, ?_⟩
  simp only [registered, hparse, ingestedDoc] at hservices ⊢
  rw [hservices]

variable (cfg server file extract) in
/-- A run never raises. It registers its records, and its trace lists the grounded extractions as the
gate leaves them; it is halted exactly when the gate blocks one, or before there are any. -/
lemma run_spec : ∃ trace,
    (cfg.orchestrator server.served file extract).run cfg.u cfg.emb cfg.repr server.services
      (cfg.requestDoc server.served file) = (.ok trace, cfg.registered server file extract) ∧
    trace.extractions = (gateLoop cfg.repr (cfg.check server file extract)
      (cfg.grounded server.served file extract)).allExtractions ∧
    ((∃ ext ∈ cfg.grounded server.served file extract,
      (cfg.check server file extract ext).verdict = .block) → trace.halted = true) ∧
    (trace.halted = true → cfg.grounded server.served file extract = [] ∨
      ∃ ext ∈ cfg.grounded server.served file extract,
        (cfg.check server file extract ext).verdict = .block) := by
  have hingest : (cfg.orchestrator server.served file extract).ingest
      (cfg.requestDoc server.served file).sourcePath =
      file.ingest cfg.u cfg.limits (cfg.ingestIds server.served) := rfl
  rw [SourceFile.ingest_eq] at hingest
  cases hparse : file.parse cfg.u cfg.limits with
  | error e =>
    rw [hparse] at hingest
    have hgrounded : cfg.grounded server.served file extract = [] := by
      rw [grounded, extracted, hparse]
      rfl
    simp only [run, hingest, Except.map, registered, hparse, hgrounded]
    exact ⟨_, rfl, rfl, by simp, by simp⟩
  | ok parsed =>
    rw [hparse] at hingest
    have hchunks : (cfg.ingestIds server.served).label parsed.1 = cfg.ingested server.served file := by
      rw [ingested, hparse]
    obtain ⟨services', hservices, hregistered⟩ := registered_of_parse server extract hparse
    simp only [ingestedDoc] at hservices
    simp only [run, hingest, Except.map, hchunks, hservices]
    rw [hregistered]
    cases hblocked : (cfg.scan (List.intercalate ['\n']
        ((cfg.ingested server.served file).map (·.text)))).blocked with
    | true =>
      have hgrounded : cfg.grounded server.served file extract = [] := by
        simp only [grounded, extracted, hparse, hchunks, hblocked]
        rfl
      rw [hgrounded]
      simp only [filterStage, orchestrator, hblocked, if_true]
      exact ⟨_, rfl, rfl, by simp, by simp⟩
    | false =>
      cases hextract : extract ((cfg.compressDocumentChunks (cfg.ingested server.served file)).elim
          (cfg.ingested server.served file) Prod.fst) with
      | error e =>
        have hgrounded : cfg.grounded server.served file extract = [] := by
          simp only [grounded, extracted, hparse, hchunks, hblocked, hextract]
          rfl
        rw [hgrounded]
        simp only [filterStage, orchestrator, hblocked, extractStage, extractionChunks, hextract]
        exact ⟨_, rfl, rfl, by simp, by simp⟩
      | ok extractions =>
        have hgrounded : cfg.grounded server.served file extract =
            (cfg.label server.served extractions).map (ground cfg.u cfg.emb
              (withSourceType (cfg.requestDoc server.served file) (cfg.ingested server.served file))) := by
          simp only [grounded, extracted, hparse, hchunks, hblocked, hextract]
          rfl
        simp only [filterStage, orchestrator, hblocked, extractStage, extractionChunks, hextract,
          Except.map, ← hgrounded, Bool.false_eq_true, if_false]
        refine ⟨_, rfl, ?_, ?_, ?_⟩
        · rw [concludeRun_extractions, check, hregistered]
        · rw [concludeRun_halted, gateLoop_halted, check, hregistered]
          exact id
        · rw [concludeRun_halted, gateLoop_halted, check, hregistered]
          exact .inr

/-! ### Ids of one request -/

section Fresh

variable (hids : cfg.ids.Fresh)

include hids

/-- Records that are numbered within a request have distinct ids. -/
lemma nodup_map_ids {α : Type} (n : ℕ) (kind : IdKind) (xs : List α) :
    (xs.zipIdx.map fun entry => cfg.ids n kind entry.2).Nodup := by
  have hmap : (xs.zipIdx.map fun entry => cfg.ids n kind entry.2) =
      (xs.zipIdx.map Prod.snd).map (cfg.ids n kind) := by
    rw [List.map_map]
    rfl
  rw [hmap, List.zipIdx_map_snd]
  apply List.Nodup.map _ List.nodup_range'
  intro i j hij
  exact (hids hij).2.2

lemma nodup_ingested (n : ℕ) : ((cfg.ingested n file).map (·.chunkId)).Nodup := by
  rw [ingested]
  split
  · exact List.nodup_nil
  · rename_i parsed hparse
    rw [IngestIds.label, List.map_map]
    exact nodup_map_ids hids n .chunk parsed.1

lemma nodup_grounded (n : ℕ) : ((cfg.grounded n file extract).map (·.extId)).Nodup := by
  have hmap : (cfg.grounded n file extract).map (·.extId) =
      (cfg.extracted n file extract).map (·.extId) := by
    rw [grounded, List.map_map]
    rfl
  rw [hmap, extracted]
  split
  · exact List.nodup_nil
  · simp only
    split
    · exact List.nodup_nil
    · split
      · exact List.nodup_nil
      · rename_i extractions hextract
        rw [label, List.map_map]
        exact nodup_map_ids hids n .extraction extractions

end Fresh

lemma grounded_extId (n : ℕ) :
    ∀ ext ∈ cfg.grounded n file extract, ∃ i, ext.extId = cfg.ids n .extraction i := by
  intro ext hext
  rw [grounded, List.mem_map] at hext
  obtain ⟨ext, hext, rfl⟩ := hext
  rw [ground_extId]
  rw [extracted] at hext
  split at hext
  · cases hext
  · simp only at hext
    split at hext
    · cases hext
    · split at hext
      · cases hext
      · rw [label, List.mem_map] at hext
        obtain ⟨⟨ext, i⟩, -, rfl⟩ := hext
        exact ⟨i, rfl⟩

/-! ### The registries after a history -/

variable (cfg) in
/-- What every history leaves in the registries. -/
structure Known (server : Server) : Prop where
  chunkId : ∀ entry ∈ server.services.provenance.chunks, entry.2.chunkId = entry.1 ∧
    ∃ n < server.served, (∃ i, entry.1 = cfg.ids n .chunk i) ∧ entry.2.docId = cfg.ids n .ingested 0
  chunk : ∀ entry ∈ server.services.provenance.chunks, entry.2.bbox ≠ none ∧ entry.2.text ≠ []
  document : ∀ entry ∈ server.services.provenance.chunks, ∃ doc,
    Dict.get? server.services.provenance.documents entry.2.docId = some doc ∧
      doc.docId = entry.2.docId
  extraction : ∀ entry ∈ server.services.provenance.extractions,
    ∃ n < server.served, ∃ i, entry.1 = cfg.ids n .extraction i
  action : ∀ entry ∈ server.services.provenance.actions, ∃ n < server.served,
    (∃ i, entry.1 = cfg.ids n .action i) ∧ ∃ i, entry.2.extId = cfg.ids n .extraction i

lemma known_init : Known cfg {} := by
  constructor <;> simp

lemma registered_documents {parsed : Parsed} (hparse : file.parse cfg.u cfg.limits = .ok parsed) :
    (cfg.registered server file extract).provenance.documents =
      Dict.set server.services.provenance.documents (cfg.ids server.served .ingested 0)
        (cfg.ingestedDoc server.served file parsed) := by
  obtain ⟨services', hservices, hregistered⟩ := registered_of_parse server extract hparse
  rw [hregistered, Services.registerExtractions_provenance, (Services.registerChunks_ok hservices).2]
  rfl

lemma registered_provenance : (cfg.registered server file extract).provenance =
    { documents := (cfg.registered server file extract).provenance.documents
      chunks := Dict.setAll server.services.provenance.chunks (·.chunkId)
        (cfg.ingested server.served file)
      extractions := Dict.setAll server.services.provenance.extractions (·.extId)
        (cfg.grounded server.served file extract)
      actions := server.services.provenance.actions } := by
  cases hparse : file.parse cfg.u cfg.limits with
  | error e =>
    simp only [registered, grounded, extracted, ingested, hparse]
    rfl
  | ok parsed =>
    obtain ⟨services', hservices, hregistered⟩ := registered_of_parse server extract hparse
    rw [hregistered, Services.registerExtractions_provenance,
      (Services.registerChunks_ok hservices).2]
    rfl

section Fresh

variable (hids : cfg.ids.Fresh) (hknown : Known cfg server)

include hids hknown

/-- The chunks of a request are registered after those of the requests before it. -/
lemma registered_chunks : (cfg.registered server file extract).provenance.chunks =
    server.services.provenance.chunks ++
      (cfg.ingested server.served file).map fun c => (c.chunkId, c) := by
  rw [registered_provenance]
  apply Dict.setAll_of_new (nodup_ingested hids server.served)
  intro entry hentry c hc heq
  obtain ⟨-, n, hn, ⟨i, hi⟩, -⟩ := hknown.chunkId entry hentry
  obtain ⟨-, -, j, hj⟩ := ingested_placed server.served c hc
  rw [hi, hj] at heq
  exact absurd (hids heq).1 hn.ne

lemma registered_extractions : (cfg.registered server file extract).provenance.extractions =
    server.services.provenance.extractions ++
      (cfg.grounded server.served file extract).map fun ext => (ext.extId, ext) := by
  rw [registered_provenance]
  apply Dict.setAll_of_new (nodup_grounded hids server.served)
  intro entry hentry ext hext heq
  obtain ⟨n, hn, i, hi⟩ := hknown.extraction entry hentry
  obtain ⟨j, hj⟩ := grounded_extId server.served ext hext
  rw [hi, hj] at heq
  exact absurd (hids heq).1 hn.ne

/-- What a run registers keeps the registries in order. -/
lemma known_registered :
    Known cfg ⟨cfg.registered server file extract, server.served + 1⟩ := by
  have hmem : ∀ entry ∈ (cfg.registered server file extract).provenance.chunks,
      entry ∈ server.services.provenance.chunks ∨
        ∃ c ∈ cfg.ingested server.served file, entry = (c.chunkId, c) := by
    intro entry hentry
    rw [registered_chunks hids hknown, List.mem_append, List.mem_map] at hentry
    exact hentry.imp_right fun ⟨c, hc, heq⟩ => ⟨c, hc, heq.symm⟩
  refine ⟨?_, ?_, ?_, ?_, ?_⟩
  · intro entry hentry
    obtain hentry | ⟨c, hc, rfl⟩ := hmem entry hentry
    · obtain ⟨hkey, n, hn, hid⟩ := hknown.chunkId entry hentry
      exact ⟨hkey, n, Nat.lt_succ_of_lt hn, hid⟩
    · obtain ⟨-, hdoc, hid⟩ := ingested_placed server.served c hc
      exact ⟨rfl, server.served, Nat.lt_succ_self _, hid, hdoc⟩
  · intro entry hentry
    obtain hentry | ⟨c, hc, rfl⟩ := hmem entry hentry
    · exact hknown.chunk entry hentry
    · obtain ⟨hplaced, -⟩ := ingested_placed server.served c hc
      exact ⟨hplaced.bbox, hplaced.text⟩
  · intro entry hentry
    cases hparse : file.parse cfg.u cfg.limits with
    | error e =>
      obtain hentry | ⟨c, hc, rfl⟩ := hmem entry hentry
      · simp only [registered, hparse]
        exact hknown.document entry hentry
      · rw [ingested, hparse] at hc
        cases hc
    | ok parsed =>
      simp only [registered_documents hparse, Dict.get?_set]
      obtain hentry | ⟨c, hc, rfl⟩ := hmem entry hentry
      · obtain ⟨-, n, hn, -, hdoc⟩ := hknown.chunkId entry hentry
        rw [if_neg]
        · exact hknown.document entry hentry
        · rw [hdoc]
          exact fun heq => hn.ne' (hids heq).1
      · obtain ⟨-, hdoc, -⟩ := ingested_placed server.served c hc
        rw [hdoc, if_pos rfl]
        exact ⟨_, rfl, rfl⟩
  · intro entry hentry
    simp only [registered_extractions hids hknown, List.mem_append, List.mem_map] at hentry
    obtain hentry | ⟨ext, hext, rfl⟩ := hentry
    · obtain ⟨n, hn, hid⟩ := hknown.extraction entry hentry
      exact ⟨n, Nat.lt_succ_of_lt hn, hid⟩
    · exact ⟨server.served, Nat.lt_succ_self _, grounded_extId server.served ext hext⟩
  · intro entry hentry
    rw [registered_provenance] at hentry
    obtain ⟨n, hn, hid⟩ := hknown.action entry hentry
    exact ⟨n, Nat.lt_succ_of_lt hn, hid⟩

end Fresh

/-! ### Suggestions -/

section SuggestStep

variable {loop : List Suggestion × ProvenanceLog} {ext : Extraction}
  (hchain : loop.2.getProvenance ext.extId = extractionChain loop.2 ext.extId)
include hchain

lemma suggestStep_of_not_shown (hshown : shown loop.2 ext = false) (n i : ℕ) :
    cfg.suggestStep n loop (ext, i) = loop := by
  simp only [suggestStep, hchain]
  simp only [shown, Bool.and_eq_false_iff, decide_eq_false_iff_not, not_not] at hshown
  obtain hstatus | hcomplete := hshown
  · rw [if_pos hstatus]
  · simp [hcomplete]

lemma suggestStep_of_shown (hshown : shown loop.2 ext = true) (n i : ℕ) :
    cfg.suggestStep n loop (ext, i) =
      (loop.1 ++ [suggestionFor ext (extractionChain loop.2 ext.extId)],
        loop.2.registerAction (actionFor (cfg.ids n .action i) ext)) := by
  simp only [shown, Bool.and_eq_true, decide_eq_true_eq] at hshown
  simp only [suggestStep, hchain, if_neg hshown.1, if_pos hshown.2]

end SuggestStep

/-- The loop suggests what is shown, registers one action for each suggestion, and changes nothing
else. -/
lemma foldl_suggestStep (hids : cfg.ids.Fresh) {n : ℕ} {entries : List (Extraction × ℕ)}
    (loop : List Suggestion × ProvenanceLog)
    (hentries : ∀ entry ∈ entries, ∃ j, entry.1.extId = cfg.ids n .extraction j)
    (hactions : ∀ a ∈ loop.2.actions, ∃ m i, a.1 = cfg.ids m .action i) :
    (entries.foldl (cfg.suggestStep n) loop).1.map (·.extId) =
      loop.1.map (·.extId) ++
        (entries.filter fun entry => shown loop.2 entry.1).map (·.1.extId) ∧
    (entries.foldl (cfg.suggestStep n) loop).2 =
      { loop.2 with actions := (entries.foldl (cfg.suggestStep n) loop).2.actions } ∧
    ∀ a ∈ (entries.foldl (cfg.suggestStep n) loop).2.actions, a ∈ loop.2.actions ∨
      ∃ entry ∈ entries, shown loop.2 entry.1 = true ∧
        a = (cfg.ids n .action entry.2, actionFor (cfg.ids n .action entry.2) entry.1) := by
  induction entries generalizing loop with
  | nil => simp
  | cons entry entries ih =>
    obtain ⟨ext, i⟩ := entry
    rw [List.forall_mem_cons] at hentries
    obtain ⟨⟨j, hj⟩, hentries⟩ := hentries
    have hchain : loop.2.getProvenance ext.extId = extractionChain loop.2 ext.extId := by
      apply getProvenance_eq
      intro a ha heq
      obtain ⟨m, k, hk⟩ := hactions a ha
      rw [hk, hj] at heq
      exact absurd (hids heq).2.1 (by decide)
    rw [List.foldl_cons]
    cases hshown : shown loop.2 ext with
    | false =>
      rw [suggestStep_of_not_shown hchain hshown]
      obtain ⟨hmap, hlog, hmem⟩ := ih loop hentries hactions
      refine ⟨?_, hlog, ?_⟩
      · rw [hmap, List.filter_cons_of_neg (by simp [hshown])]
      · intro a ha
        exact (hmem a ha).imp_right fun ⟨entry, hentry, h⟩ =>
          ⟨entry, List.mem_cons_of_mem _ hentry, h⟩
    | true =>
      have hactions' : ∀ a ∈ (loop.2.registerAction (actionFor (cfg.ids n .action i) ext)).actions,
          ∃ m i, a.1 = cfg.ids m .action i := by
        intro a ha
        obtain rfl | ha := Dict.mem_set ha
        · exact ⟨n, i, rfl⟩
        · exact hactions a ha
      rw [suggestStep_of_shown hchain hshown]
      obtain ⟨hmap, hlog, hmem⟩ := ih (loop.1 ++ [suggestionFor ext (extractionChain loop.2 ext.extId)],
        loop.2.registerAction (actionFor (cfg.ids n .action i) ext)) hentries hactions'
      refine ⟨?_, hlog, ?_⟩
      · rw [hmap, List.filter_cons_of_pos (by simp [hshown]), List.map_append, List.append_assoc]
        rfl
      · intro a ha
        obtain ha | ⟨entry, hentry, h⟩ := hmem a ha
        · obtain rfl | ha := Dict.mem_set ha
          · exact .inr ⟨(ext, i), List.mem_cons_self, hshown, rfl⟩
          · exact .inl ha
        · exact .inr ⟨entry, List.mem_cons_of_mem _ hentry, h⟩

/-! ### One request, and all of them -/

section Fresh

/-- The extractions of the trace: the grounded ones, as the gate leaves them. -/
def settled (cfg : Setting) (server : Server) (file : SourceFile) (extract : Extract) :
    List Extraction :=
  (cfg.grounded server.served file extract).map (settle (cfg.check server file extract))

/-- What `/demo` does: it always succeeds on a file that can be read, suggests the extractions that
are shown, and registers an action for each of them. -/
structure Demonstrates (cfg : Setting) (server : Server) (file : SourceFile) (extract : Extract)
    (response : DemoResponse) (server' : Server) : Prop where
  extractions : response.trace.extractions = settled cfg server file extract
  halts : (∃ ext ∈ cfg.grounded server.served file extract,
    (cfg.check server file extract ext).verdict = .block) → response.trace.halted = true
  halted : response.trace.halted = true → cfg.grounded server.served file extract = [] ∨
    ∃ ext ∈ cfg.grounded server.served file extract,
      (cfg.check server file extract ext).verdict = .block
  text : response.documentText = if file.isText cfg.u then file.decoded else
    registeredText (cfg.registered server file extract).provenance (cfg.ids server.served .document 0)
  suggestions : response.suggestions.map (·.extId) =
    ((settled cfg server file extract).filter
      (shown (cfg.registered server file extract).provenance)).map (·.extId)
  served : server'.served = server.served + 1
  memory : server'.services.memory = (cfg.registered server file extract).memory
  provenance : server'.services.provenance =
    { (cfg.registered server file extract).provenance with
      actions := server'.services.provenance.actions }
  actions : ∀ a ∈ server'.services.provenance.actions, a ∈ server.services.provenance.actions ∨
    (∃ i, a.1 = cfg.ids server.served .action i) ∧ a.2.extId ∈ response.suggestions.map (·.extId)

variable (hids : cfg.ids.Fresh) (hknown : Known cfg server)

include hids hknown

variable (file extract) in
lemma runDemo_spec : ∃ response server', cfg.runDemo server file extract = (.ok response, server') ∧
    Demonstrates cfg server file extract response server' := by
  obtain ⟨trace, hrun, hextractions, hhalts, hhalted⟩ := run_spec cfg server file extract
  rw [gateLoop_all] at hextractions
  have hentries : ∀ entry ∈ trace.extractions.zipIdx,
      ∃ j, entry.1.extId = cfg.ids server.served .extraction j := by
    intro entry hentry
    have hmem := List.fst_mem_of_mem_zipIdx hentry
    rw [hextractions, List.mem_map] at hmem
    obtain ⟨ext, hext, heq⟩ := hmem
    rw [← heq, settle_extId]
    exact grounded_extId server.served ext hext
  have hactions : ∀ a ∈ (cfg.registered server file extract).provenance.actions,
      ∃ n i, a.1 = cfg.ids n .action i := by
    intro a ha
    obtain ⟨n, -, ⟨i, hi⟩, -⟩ := (known_registered hids hknown).action a ha
    exact ⟨n, i, hi⟩
  obtain ⟨hmap, hlog, hmem⟩ := foldl_suggestStep hids
    ([], (cfg.registered server file extract).provenance) hentries hactions
  have hsuggestions : (trace.extractions.zipIdx.filter fun entry =>
      shown (cfg.registered server file extract).provenance entry.1).map (·.1.extId) =
      ((settled cfg server file extract).filter
        (shown (cfg.registered server file extract).provenance)).map (·.extId) := by
    rw [settled, ← hextractions]
    conv_rhs => rw [← List.zipIdx_map_fst 0 trace.extractions, List.filter_map, List.map_map]
    rfl
  rw [List.map_nil, List.nil_append, hsuggestions] at hmap
  simp only [runDemo, hrun]
  refine ⟨_, _, rfl, hextractions, hhalts, hhalted, rfl, hmap, rfl, rfl, hlog, ?_⟩
  intro a ha
  obtain ha | ⟨entry, hentry, hshown, rfl⟩ := hmem a ha
  · left
    rw [registered_provenance] at ha
    exact ha
  · right
    refine ⟨⟨entry.2, rfl⟩, ?_⟩
    rw [hmap, ← hsuggestions, List.mem_map]
    exact ⟨entry, List.mem_filter.mpr ⟨hentry, hshown⟩, rfl⟩

/-- A request keeps the registries in order. -/
lemma known_runDemo : Known cfg (cfg.runDemo server file extract).2 := by
  obtain ⟨response, server', hdemo, h⟩ := runDemo_spec file extract hids hknown
  rw [hdemo]
  have hregistered : Known cfg ⟨cfg.registered server file extract, server.served + 1⟩ :=
    known_registered hids hknown
  refine ⟨?_, ?_, ?_, ?_, ?_⟩
  · rw [h.provenance, h.served]
    exact hregistered.chunkId
  · rw [h.provenance]
    exact hregistered.chunk
  · rw [h.provenance]
    exact hregistered.document
  · rw [h.provenance, h.served]
    exact hregistered.extraction
  · intro a ha
    rw [h.served]
    obtain ha | ⟨hid, hsuggested⟩ := h.actions a ha
    · obtain ⟨n, hn, hid⟩ := hknown.action a ha
      exact ⟨n, Nat.lt_succ_of_lt hn, hid⟩
    · refine ⟨server.served, Nat.lt_succ_self _, hid, ?_⟩
      rw [h.suggestions, List.mem_map] at hsuggested
      obtain ⟨settledExt, hsettled, heq⟩ := hsuggested
      obtain ⟨ext, hext, rfl⟩ := List.mem_map.mp (List.mem_of_mem_filter hsettled)
      rw [← heq, settle_extId]
      exact grounded_extId server.served ext hext

omit hids in
lemma Known.mono {n : ℕ} (hn : server.served ≤ n) : Known cfg { server with served := n } where
  chunkId entry hentry := by
    obtain ⟨hkey, m, hm, hid⟩ := hknown.chunkId entry hentry
    exact ⟨hkey, m, hm.trans_le hn, hid⟩
  chunk := hknown.chunk
  document := hknown.document
  extraction entry hentry := by
    obtain ⟨m, hm, hid⟩ := hknown.extraction entry hentry
    exact ⟨m, hm.trans_le hn, hid⟩
  action entry hentry := by
    obtain ⟨m, hm, hid⟩ := hknown.action entry hentry
    exact ⟨m, hm.trans_le hn, hid⟩

lemma known_step (request : Request) : Known cfg (cfg.step server request) := by
  have hmono := hknown.mono (Nat.le_succ server.served)
  cases request with
  | demo file extract =>
    cases file with
    | none => exact hmono
    | some file => exact known_runDemo hids hknown
  | apply extId accept => exact hmono
  | correct extId original corrected reason atTime =>
    exact ⟨hmono.chunkId, hmono.chunk, hmono.document, hmono.extraction, hmono.action⟩

lemma known_serve (history : List Request) : Known cfg (cfg.serve server history) := by
  induction history generalizing server with
  | nil => exact hknown
  | cons request history ih => exact ih (known_step hids hknown request)

end Fresh

end Setting

/-! ### A small server -/

namespace Sample

def letter : IdKind → Char
  | .document => 'd'
  | .ingested => 'g'
  | .chunk => 'c'
  | .extraction => 'e'
  | .action => 'a'
  | .correction => 'k'

/-- Ids in unary: the request, the kind and the number of the record. -/
def unaryIds : IdSupply := fun n kind i => List.replicate n '+' ++ letter kind :: List.replicate i '-'

lemma unaryIds_fresh : unaryIds.Fresh := by
  have hplus : ∀ n k i, (unaryIds n k i).count '+' = n := by
    intro n k i
    cases k <;> simp [unaryIds, letter, List.count_replicate]
  have hminus : ∀ n k i, (unaryIds n k i).count '-' = i := by
    intro n k i
    cases k <;> simp [unaryIds, letter, List.count_replicate]
  intro n n' k k' i i' h
  obtain rfl : n = n' := by rw [← hplus n k i, h, hplus]
  obtain rfl : i = i' := by rw [← hminus n k i, h, hminus]
  refine ⟨rfl, ?_, rfl⟩
  have hletter : letter k = letter k' := (List.cons.inj (List.append_cancel_left h)).1
  cases k <;> cases k' <;> first | rfl | exact absurd hletter (by decide)

/-- A server in ASCII whose filter lets every text pass. -/
def setting : Setting where
  u := asciiData
  emb := ⟨fun _ => [], fun _ _ => .fin 0⟩
  repr := ⟨fun _ => "0.2", fun s => "'" ++ s ++ "'"⟩
  ids := unaryIds
  limits := {}
  scan _ := { blocked := false }
  packName := "GenericPack"
  packFields := []
  compressDocumentChunks _ := none

/-- A DOCX file of one paragraph. -/
def docxFile (paragraph : Str) : SourceFile where
  path := "/tmp/memo.docx".toList
  content := []
  decoded := []
  pdf := .error ""
  docx := .ok [paragraph]

lemma suffix_docxFile (paragraph : Str) :
    Str.lower asciiData (suffix (docxFile paragraph).path) = ".docx".toList := by
  have hpath : Str.lower asciiData (suffix "/tmp/memo.docx".toList) = ".docx".toList := by
    decide +kernel
  exact hpath

lemma docxFile_isText (paragraph : Str) : (docxFile paragraph).isText setting.u = false := by
  simp only [SourceFile.isText, setting, suffix_docxFile]
  decide +kernel

/-- The chunk of the paragraph, before it gets its ids. -/
def paragraphChunk (paragraph : Str) : Chunk where
  chunkId := []
  page := 1
  bbox := some (lineBox 0 (max 1 (paragraph.length / charsPerLine + 1)))
  text := Str.strip paragraph
  sourceType := "docx_paragraph".toList

/-- The chunk of the paragraph in a request. -/
def memoChunk (n : ℕ) (paragraph : Str) : Chunk :=
  { paragraphChunk paragraph with
    chunkId := unaryIds n .chunk 0
    docId := unaryIds n .ingested 0 }

lemma parse_docxFile {paragraph : Str} (hblank : Str.strip paragraph ≠ [])
    (hlimit : paragraph.length ≤ setting.limits.maxExtractedChars) :
    (docxFile paragraph).parse setting.u setting.limits =
      .ok ([paragraphChunk paragraph], 1, blankPages 1) := by
  have hparse : (docxFile paragraph).parse setting.u setting.limits =
      ingestDocx setting.limits (.ok [paragraph]) := by
    have hdocx : (docxFile paragraph).docx = .ok [paragraph] := rfl
    simp only [SourceFile.parse, docxFile_isText]
    simp only [setting, suffix_docxFile, hdocx]
    rfl
  have hplace : Layout.placeDocx setting.limits {} paragraph =
      .ok (Layout.place "docx_paragraph".toList { extractedChars := paragraph.length }
        paragraph (max 1 (paragraph.length / charsPerLine + 1))) := by
    rw [Layout.placeDocx, if_neg hblank]
    simp only [Nat.zero_add]
    rw [if_neg (Nat.not_lt.mpr hlimit)]
  rw [hparse, ingestDocx]
  simp only [Except.ok_bind, List.foldlM_cons, List.foldlM_nil, hplace, Except.pure_eq]
  simp [Layout.place, paragraphChunk]

lemma ingested_docxFile (n : ℕ) {paragraph : Str} (hblank : Str.strip paragraph ≠ [])
    (hlimit : paragraph.length ≤ setting.limits.maxExtractedChars) :
    setting.ingested n (docxFile paragraph) = [memoChunk n paragraph] := by
  rw [Setting.ingested, parse_docxFile hblank hlimit]
  rfl

end Sample

end AxiomGrid.Overlay
