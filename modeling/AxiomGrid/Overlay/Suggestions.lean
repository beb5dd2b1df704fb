import AxiomGrid.Overlay.Registry

/-!
# What `/demo` suggests

`/demo` skips the extractions of the trace with the status `BLOCKED`, a status that the orchestrator
never gives: an extraction that the gate blocks is pending review. What keeps it from being suggested is
its chain alone, and the chain is complete as soon as the chunk id that the pack chose names a registered
chunk. The same holds for every other extraction of a halted run.
-/

namespace AxiomGrid.Overlay

open Pipeline Pipeline.OrchestratorImpl

namespace Setting

/-! ### When an extraction is shown -/

/-- The extraction is not grounded, and the chunk id that the pack gave it names no chunk of an earlier
request and none of this document. -/
structure Dangling (cfg : Setting) (server : Server) (file : SourceFile) (ext : Extraction) : Prop where
  method : ext.method = .block
  earlier : ∀ entry ∈ server.services.provenance.chunks, entry.1 ≠ ext.chunkId
  own : ∀ c ∈ cfg.ingested server.served file, c.chunkId ≠ ext.chunkId

/-- The extraction passes the gate with the status that the pack gave it, which is `BLOCKED`. -/
def Withheld (check : Extraction → GateResult) (ext : Extraction) : Prop :=
  (check ext).verdict = .pass ∧ ext.status = .blocked

lemma settle_status_eq_blocked {check : Extraction → GateResult} {ext : Extraction} :
    (settle check ext).status = .blocked ↔ Withheld check ext := by
  rw [settle, Withheld]
  split_ifs with hpass
  · simp [calibrate, hpass]
  · simp [hpass]

variable {cfg : Setting} {server : Server} {file : SourceFile} {extract : Extract}

section Fresh

variable (hids : cfg.ids.Fresh) (hknown : Known cfg server)

include hids hknown

/-- The chain of an extraction of the run is complete exactly when its chunk is registered. -/
lemma isComplete_extractionChain {ext : Extraction}
    (hext : ext ∈ cfg.grounded server.served file extract) :
    (extractionChain (cfg.registered server file extract).provenance ext.extId).isComplete = true ↔
      ∃ entry ∈ (cfg.registered server file extract).provenance.chunks, entry.1 = ext.chunkId := by
  have hget : Dict.get? (cfg.registered server file extract).provenance.extractions ext.extId =
      some ext := by
    rw [registered_provenance]
    exact Dict.get?_setAll_of_nodup _ _ (nodup_grounded hids server.served) hext
  rw [extractionChain, hget]
  simp only [Option.elim_some, ProvenanceLog.chainOf, Option.bind_some]
  cases hchunk : Dict.get? (cfg.registered server file extract).provenance.chunks ext.chunkId with
  | none =>
    constructor
    · intro h
      cases h
    · rintro ⟨entry, hentry, hkey⟩
      obtain ⟨c, hc⟩ := Dict.exists_get?_of_mem hentry
      rw [hkey, hchunk] at hc
      cases hc
  | some chunk =>
    have hmem := Dict.mem_of_get? hchunk
    have hregistered : Known cfg ⟨cfg.registered server file extract, server.served + 1⟩ :=
      known_registered hids hknown
    obtain ⟨hkey, -⟩ := hregistered.chunkId _ hmem
    obtain ⟨hbbox, -⟩ := hregistered.chunk _ hmem
    obtain ⟨doc, hdoc, hdocId⟩ := hregistered.document _ hmem
    constructor
    · intro _
      exact ⟨_, hmem, rfl⟩
    · intro _
      simp only at hkey hbbox hdoc hdocId
      simp [Chain.isComplete, hdoc, hdocId, hkey, hbbox]

/-- A registered chunk id is one of an earlier request or of this document. -/
lemma exists_registered_chunk_iff (chunkId : Str) :
    (∃ entry ∈ (cfg.registered server file extract).provenance.chunks, entry.1 = chunkId) ↔
      (∃ entry ∈ server.services.provenance.chunks, entry.1 = chunkId) ∨
        ∃ c ∈ cfg.ingested server.served file, c.chunkId = chunkId := by
  rw [registered_chunks hids hknown]
  simp only [List.mem_append, List.mem_map]
  constructor
  · rintro ⟨entry, hentry | ⟨c, hc, rfl⟩, hkey⟩
    · exact .inl ⟨entry, hentry, hkey⟩
    · exact .inr ⟨c, hc, hkey⟩
  · rintro (⟨entry, hentry, hkey⟩ | ⟨c, hc, hkey⟩)
    · exact ⟨entry, .inl hentry, hkey⟩
    · exact ⟨_, .inr ⟨c, hc, rfl⟩, hkey⟩

/-- An extraction of the run is shown unless it is dangling or withheld. -/
lemma shown_settle_iff {ext : Extraction} (hext : ext ∈ cfg.grounded server.served file extract) :
    shown (cfg.registered server file extract).provenance
        (settle (cfg.check server file extract) ext) = true ↔
      ¬ (Dangling cfg server file ext ∨ Withheld (cfg.check server file extract) ext) := by
  rw [shown, Bool.and_eq_true, decide_eq_true_eq, ne_eq, settle_status_eq_blocked, settle_extId,
    isComplete_extractionChain hids hknown hext, exists_registered_chunk_iff hids hknown, not_or,
    and_comm]
  refine and_congr_left fun _ => ?_
  constructor
  · rintro hchunk ⟨-, hearlier, hown⟩
    obtain ⟨entry, hentry, hkey⟩ | ⟨c, hc, hkey⟩ := hchunk
    · exact hearlier entry hentry hkey
    · exact hown c hc hkey
  · intro hdangling
    rw [grounded, List.mem_map] at hext
    obtain ⟨packExt, -, rfl⟩ := hext
    obtain ⟨hmethod, -⟩ | ⟨anchor, ⟨c, hc, charSpan, rfl⟩, -, -, hchunkId⟩ :=
      ground_cases cfg.u cfg.emb (cfg.requestDoc server.served file) (cfg.ingested server.served file)
        packExt
    · by_contra hnone
      rw [not_or] at hnone
      exact hdangling ⟨hmethod, fun entry hentry hkey => hnone.1 ⟨entry, hentry, hkey⟩,
        fun c hc hkey => hnone.2 ⟨c, hc, hkey⟩⟩
    · exact .inr ⟨c, hc, hchunkId.symm⟩

/-- The suggestions are those of the extractions that are neither dangling nor withheld. -/
lemma mem_suggestions_iff {response : DemoResponse} {server' : Server}
    (h : Demonstrates cfg server file extract response server') (extId : Str) :
    extId ∈ response.suggestions.map (·.extId) ↔ ∃ ext ∈ cfg.grounded server.served file extract,
      ext.extId = extId ∧
        ¬ (Dangling cfg server file ext ∨ Withheld (cfg.check server file extract) ext) := by
  rw [h.suggestions, List.mem_map]
  constructor
  · rintro ⟨settledExt, hmem, rfl⟩
    rw [List.mem_filter] at hmem
    obtain ⟨ext, hext, rfl⟩ := List.mem_map.mp hmem.1
    exact ⟨ext, hext, (settle_extId _ ext).symm, (shown_settle_iff hids hknown hext).mp hmem.2⟩
  · rintro ⟨ext, hext, rfl, hshown⟩
    refine ⟨settle _ ext, List.mem_filter.mpr ⟨List.mem_map_of_mem hext, ?_⟩, settle_extId _ ext⟩
    exact (shown_settle_iff hids hknown hext).mpr hshown

/-! ### Actions of later requests -/

/-- The actions that a request adds are for its own extractions. -/
lemma step_actions (request : Request) :
    ∀ a ∈ (cfg.step server request).services.provenance.actions,
      a ∈ server.services.provenance.actions ∨
        ∃ i, a.2.extId = cfg.ids server.served .extraction i := by
  intro a ha
  cases request with
  | demo file extract =>
    cases file with
    | none => exact .inl ha
    | some file =>
      obtain ⟨response, server', hdemo, h⟩ := runDemo_spec file extract hids hknown
      rw [step, hdemo] at ha
      obtain ha | ⟨-, hsuggested⟩ := h.actions a ha
      · exact .inl ha
      · rw [mem_suggestions_iff hids hknown h] at hsuggested
        obtain ⟨ext, hext, heq, -⟩ := hsuggested
        rw [← heq]
        exact .inr (grounded_extId server.served ext hext)
  | apply extId accept => exact .inl ha
  | correct extId original corrected reason atTime => exact .inl ha

lemma served_step (request : Request) : (cfg.step server request).served = server.served + 1 := by
  cases request with
  | demo file extract =>
    cases file with
    | none => rfl
    | some file =>
      obtain ⟨response, server', hdemo, h⟩ := runDemo_spec file extract hids hknown
      rw [step, hdemo]
      exact h.served
  | apply extId accept => rfl
  | correct extId original corrected reason atTime => rfl

lemma serve_actions (later : List Request) :
    ∀ a ∈ (cfg.serve server later).services.provenance.actions,
      a ∈ server.services.provenance.actions ∨
        ∃ m, server.served ≤ m ∧ ∃ i, a.2.extId = cfg.ids m .extraction i := by
  induction later generalizing server with
  | nil => exact fun a ha => .inl ha
  | cons request later ih =>
    intro a ha
    obtain ha | ⟨m, hm, hid⟩ := ih (known_step hids hknown request) a ha
    · obtain ha | hid := step_actions hids hknown request a ha
      · exact .inl ha
      · exact .inr ⟨server.served, le_rfl, hid⟩
    · rw [served_step hids hknown] at hm
      exact .inr ⟨m, Nat.le_of_succ_le hm, hid⟩

/-- An extraction that is not suggested has no action after any later requests, and is not applied. -/
lemma applyCua_of_not_suggested {response : DemoResponse} {server' : Server}
    (hdemo : cfg.runDemo server file extract = (.ok response, server'))
    (h : Demonstrates cfg server file extract response server') {ext : Extraction}
    (hext : ext ∈ response.trace.extractions)
    (hnot : ext.extId ∉ response.suggestions.map (·.extId)) (later : List Request) (accept : Bool)
    (now : Str) :
    (cfg.applyCua (cfg.serve server' later).services.provenance ext.extId accept now).success =
      false := by
  rw [h.extractions, settled, List.mem_map] at hext
  obtain ⟨ext, hext, rfl⟩ := hext
  rw [settle_extId] at hnot ⊢
  obtain ⟨j, hj⟩ := grounded_extId server.served ext hext
  have hknown' : Known cfg server' := by
    have hrun : Known cfg (cfg.runDemo server file extract).2 := known_runDemo hids hknown
    rwa [hdemo] at hrun
  have hnone : (cfg.serve server' later).services.provenance.actions.find?
      (fun entry => entry.2.extId = ext.extId) = none := by
    rw [List.find?_eq_none]
    intro a ha heq
    rw [decide_eq_true_eq] at heq
    obtain ha | ⟨m, hm, i, hi⟩ := serve_actions hids hknown' later a ha
    · obtain ha | ⟨-, hsuggested⟩ := h.actions a ha
      · obtain ⟨n, hn, -, i, hi⟩ := hknown.action a ha
        rw [hi, hj] at heq
        exact hn.ne (hids heq).1
      · exact hnot (heq ▸ hsuggested)
    · rw [hi, hj] at heq
      rw [h.served, (hids heq).1] at hm
      exact absurd hm (Nat.not_succ_le_self _)
  rw [applyCua, hnone]

end Fresh

/-! ### Suggestions that are allowed -/

/-- What `/demo` should ensure: it suggests only extractions that are grounded with an anchor and that
the gate did not block, none when the trace is halted, and no later `/apply` for another extraction of
the trace succeeds. -/
def SuggestsOnlyAllowed (cfg : Setting) (server : Server) (file : SourceFile) (extract : Extract) :
    Prop :=
  ∀ response server', cfg.runDemo server file extract = (.ok response, server') →
    (∀ s ∈ response.suggestions, ∃ ext ∈ cfg.grounded server.served file extract,
      ext.extId = s.extId ∧ ext.method ≠ .block ∧ ext.anchors ≠ [] ∧
      (cfg.check server file extract ext).verdict ≠ .block) ∧
    (response.trace.halted = true → response.suggestions = []) ∧
    ∀ ext ∈ response.trace.extractions, ext.extId ∉ response.suggestions.map (·.extId) →
      ∀ later accept now, (cfg.applyCua (cfg.serve server' later).services.provenance ext.extId accept
        now).success = false

/-- Every extraction that does not ground is dangling or withheld, and once the gate blocks one, all
of them are. -/
def NothingResolves (cfg : Setting) (server : Server) (file : SourceFile) (extract : Extract) : Prop :=
  (∀ ext ∈ cfg.grounded server.served file extract, ext.method = .block →
    Dangling cfg server file ext ∨ Withheld (cfg.check server file extract) ext) ∧
  ((∃ ext ∈ cfg.grounded server.served file extract,
      (cfg.check server file extract ext).verdict = .block) →
    ∀ ext ∈ cfg.grounded server.served file extract,
      Dangling cfg server file ext ∨ Withheld (cfg.check server file extract) ext)

lemma grounded_cases {n : ℕ} {ext : Extraction} (hext : ext ∈ cfg.grounded n file extract) :
    ext.method = .block ∨ ext.method ≠ .block ∧ ext.anchors ≠ [] := by
  rw [grounded, List.mem_map] at hext
  obtain ⟨packExt, -, rfl⟩ := hext
  obtain ⟨hmethod, -⟩ | ⟨anchor, -, hmethod, hanchors, -⟩ :=
    ground_cases cfg.u cfg.emb (cfg.requestDoc n file) (cfg.ingested n file) packExt
  · exact .inl hmethod
  · exact .inr ⟨hmethod, by rw [hanchors]; exact List.cons_ne_nil _ _⟩

/-- After any history, `/demo` ensures this exactly when nothing that should not be shown resolves. -/
lemma suggestsOnlyAllowed_iff_of_known (hids : cfg.ids.Fresh) (hknown : Known cfg server) :
    SuggestsOnlyAllowed cfg server file extract ↔ NothingResolves cfg server file extract := by
  obtain ⟨response, server', hdemo, h⟩ := runDemo_spec file extract hids hknown
  have hmem := mem_suggestions_iff hids hknown h
  constructor
  · intro hsafe
    obtain ⟨hallowed, hhalted, -⟩ := hsafe response server' hdemo
    constructor
    · intro ext hext hmethod
      by_contra hshown
      obtain ⟨s, hs, hid⟩ := List.mem_map.mp ((hmem ext.extId).mpr ⟨ext, hext, rfl, hshown⟩)
      obtain ⟨other, hother, hotherId, hgrounded, -⟩ := hallowed s hs
      rw [List.inj_on_of_nodup_map (nodup_grounded hids server.served) hother hext
        (hotherId.trans hid)] at hgrounded
      exact hgrounded hmethod
    · intro hblock ext hext
      by_contra hshown
      have hsuggested := (hmem ext.extId).mpr ⟨ext, hext, rfl, hshown⟩
      rw [hhalted (h.halts hblock)] at hsuggested
      cases hsuggested
  · rintro ⟨hungrounded, hblocked⟩ response' server'' heq
    rw [hdemo] at heq
    cases heq
    refine ⟨?_, ?_, ?_⟩
    · intro s hs
      obtain ⟨ext, hext, hid, hshown⟩ := (hmem s.extId).mp (List.mem_map_of_mem hs)
      obtain hmethod | ⟨hmethod, hanchors⟩ := grounded_cases hext
      · exact absurd (hungrounded ext hext hmethod) hshown
      · exact ⟨ext, hext, hid, hmethod, hanchors,
          fun hverdict => hshown (hblocked ⟨ext, hext, hverdict⟩ ext hext)⟩
    · intro hhalted
      rw [List.eq_nil_iff_forall_not_mem]
      intro s hs
      obtain ⟨ext, hext, -, hshown⟩ := (hmem s.extId).mp (List.mem_map_of_mem hs)
      obtain hnil | hblock := h.halted hhalted
      · rw [hnil] at hext
        cases hext
      · exact hshown (hblocked hblock ext hext)
    · intro ext hext hnot later accept now
      exact applyCua_of_not_suggested hids hknown hdemo h hext hnot later accept now

/-- After any history of requests, for any file and any list of extractions that the pack returns,
`/demo` suggests only what is allowed if and only if nothing that should not be shown resolves. -/
theorem suggestsOnlyAllowed_iff (cfg : Setting) (hids : cfg.ids.Fresh) (history : List Request)
    (file : SourceFile) (extract : Extract) :
    SuggestsOnlyAllowed cfg (cfg.serve {} history) file extract ↔
      NothingResolves cfg (cfg.serve {} history) file extract :=
  suggestsOnlyAllowed_iff_of_known hids (known_serve hids known_init history)

end Setting

/-! ### A memo -/

namespace Sample

/-- An extraction of a title from a chunk. -/
def titleExtraction (extId value chunkId : Str) : Extraction where
  extId := extId
  fieldName := "title".toList
  value := value
  sourceSpan := value
  confidence := .fin (9 / 10)
  chunkId := chunkId

/-- A pack that finds a title in every chunk. -/
def findTitle (value : Str) : Extract := fun chunks =>
  .ok (chunks.map fun c => titleExtraction [] value c.chunkId)

/-- The title, as it is grounded in the memo. -/
def memoTitle (value : Str) : Extraction :=
  ground asciiData setting.emb
    (withSourceType (setting.requestDoc 0 (docxFile "alpha".toList)) [memoChunk 0 "alpha".toList])
    (titleExtraction (unaryIds 0 .extraction 0) value (unaryIds 0 .chunk 0))

lemma ingested_memo : setting.ingested 0 (docxFile "alpha".toList) = [memoChunk 0 "alpha".toList] :=
  ingested_docxFile 0 (by decide) (by decide)

lemma grounded_memo (value : Str) :
    setting.grounded 0 (docxFile "alpha".toList) (findTitle value) = [memoTitle value] := by
  have hparse : (docxFile "alpha".toList).parse setting.u setting.limits =
      .ok ([paragraphChunk "alpha".toList], 1, blankPages 1) :=
    parse_docxFile (by decide) (by decide)
  have hextracted : setting.extracted 0 (docxFile "alpha".toList) (findTitle value) =
      [titleExtraction (unaryIds 0 .extraction 0) value (unaryIds 0 .chunk 0)] := by
    rw [Setting.extracted, hparse]
    rfl
  rw [Setting.grounded, hextracted, ingested_memo]
  rfl

/-- A title that is not in the memo is suggested: the pack gave it the id of the memo's chunk. -/
theorem not_suggestsOnlyAllowed_absent_title :
    ¬ Setting.SuggestsOnlyAllowed setting {} (docxFile "alpha".toList) (findTitle "gamma".toList) := by
  rw [Setting.suggestsOnlyAllowed_iff_of_known unaryIds_fresh Setting.known_init]
  rintro ⟨hungrounded, -⟩
  have hmem : memoTitle "gamma".toList ∈
      setting.grounded 0 (docxFile "alpha".toList) (findTitle "gamma".toList) := by
    rw [grounded_memo]
    exact List.mem_singleton_self _
  have hmethod : (memoTitle "gamma".toList).method = .block := by decide +kernel
  obtain hdangling | ⟨-, hstatus⟩ := hungrounded _ hmem hmethod
  · have hchunk : memoChunk 0 "alpha".toList ∈ setting.ingested 0 (docxFile "alpha".toList) := by
      rw [ingested_memo]
      exact List.mem_singleton_self _
    exact hdangling.own _ hchunk (by decide +kernel)
  · cases hstatus

/-- The title of the memo is suggested, and only allowed suggestions are made. -/
theorem suggestsOnlyAllowed_title : Setting.SuggestsOnlyAllowed setting (setting.serve {} [])
    (docxFile "alpha".toList) (findTitle "alpha".toList) := by
  rw [Setting.suggestsOnlyAllowed_iff setting unaryIds_fresh []]
  have hmethod : (memoTitle "alpha".toList).method ≠ .block := by decide +kernel
  have hverdict : (setting.check (setting.serve {} []) (docxFile "alpha".toList)
      (findTitle "alpha".toList) (memoTitle "alpha".toList)).verdict ≠ .block := by decide +kernel
  have hgrounded : ∀ ext ∈ setting.grounded (setting.serve {} []).served (docxFile "alpha".toList)
      (findTitle "alpha".toList), ext = memoTitle "alpha".toList := by
    intro ext hext
    exact List.mem_singleton.mp (grounded_memo "alpha".toList ▸ hext)
  constructor
  · intro ext hext hblock
    rw [hgrounded ext hext] at hblock
    exact absurd hblock hmethod
  · rintro ⟨ext, hext, hblock⟩
    rw [hgrounded ext hext] at hblock
    exact absurd hblock hverdict

end Sample

end AxiomGrid.Overlay
