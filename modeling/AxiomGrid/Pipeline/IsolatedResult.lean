import Mathlib.Data.List.Perm.Subperm
import AxiomGrid.Lib.JsonSorted
import AxiomGrid.Lib.JsonStrict
import AxiomGrid.Pipeline.IsolatedIngest

/-!
# Results of isolated ingestion

The result file between the child and the parent, and the two directions of the boundary: a payload
that is accepted holds a consistent graph, and the graph that the ingestor makes of a text or a DOCX
comes back unchanged.
-/

namespace AxiomGrid.Pipeline.Isolated

/-! ### The payload of the child -/

/-- `asdict(page)`. -/
def pagePayload (page : Page) : Json :=
  .obj [("doc_id", .str (String.ofList page.docId)), ("index", .int page.index),
    ("width_px", .int page.widthPx), ("height_px", .int page.heightPx),
    ("image_sha256", .str (String.ofList page.imageSha256))]

section

variable {Time : Type} (rt : Runtime Time)

/-- `asdict(chunk.bbox)`. -/
def boxPayload : Option BBox → Json
  | none => .null
  | some bbox => .obj [("x0", .float (rt.repr bbox.x0)), ("y0", .float (rt.repr bbox.y0)),
      ("x1", .float (rt.repr bbox.x1)), ("y1", .float (rt.repr bbox.y1))]

/-- `asdict(chunk)`. -/
def chunkPayload (chunk : Chunk) : Json :=
  .obj [("chunk_id", .str (String.ofList chunk.chunkId)), ("doc_id", .str (String.ofList chunk.docId)),
    ("page", .int chunk.page), ("bbox", boxPayload rt chunk.bbox),
    ("text", .str (String.ofList chunk.text)),
    ("source_type", .str (String.ofList chunk.sourceType)),
    ("embedding", .arr (chunk.embedding.map fun x => .float (rt.repr x)))]

/-- The payload of `_child_entry`. -/
def Graph.payload (graph : Graph Time) : Json :=
  .obj [("version", .int 1), ("status", .str "ok"),
    ("document", .obj [("doc_id", .str (String.ofList graph.document.docId)),
      ("source_path", .str (String.ofList graph.document.sourcePath)),
      ("sha256", .str (String.ofList graph.document.sha256)),
      ("page_count", .int graph.document.pageCount),
      ("ingested_at", .str (rt.isoformat graph.ingestedAt))]),
    ("chunks", .arr (graph.chunks.map (chunkPayload rt))),
    ("pages", .arr (graph.pages.map pagePayload))]

end

def rejectPayload : Json := .obj [("version", .int 1), ("status", .str "reject")]

/-! ### The result file -/

/-- `_write_result`: the bytes that are published. -/
def writeResult (payload : Json) (maximum : ℕ) : Except String Bytes := do
  let _ ← check payload.isStrict "Out of range float values are not JSON compliant"
  let data := utf8 (Json.dumpsWith .compact payload)
  let _ ← check (data.length ≤ maximum) "Isolated ingest output byte cap exceeded"
  return data

/-- What the parent finds under the name of the result. -/
inductive ResultFile where
  | missing
  /-- The file cannot be opened without following a link. -/
  | unreadable
  | opened (regular : Bool) (links : ℕ) (content : Bytes)

/-- `_read_result`; what the hooks of the JSON reader refuse is malformed too. -/
def readResult (readFloat : List Char → FloatRepr) (file : ResultFile) (maximum : ℕ) :
    Except String Json :=
  match file with
  | .missing => .error "Isolated ingest child produced no result"
  | .unreadable => .error "Malformed isolated ingest result"
  | .opened regular links content => do
    let _ ← check (regular && content.length ≤ maximum && links = 1)
      "Invalid isolated ingest result file"
    match (utf8Decode? content).bind (Json.loadsStrict readFloat) with
    | none => .error "Malformed isolated ingest result"
    | some payload =>
      let _ ← check (!payload.pyEq rejectPayload) "Document parser rejected input"
      return payload

/-- `_child_entry` after its limits are set: what it publishes for the result of the ingestor. -/
def childEntry {Time : Type} (rt : Runtime Time) (maximum : ℕ) (result : Except String (Graph Time)) :
    ResultFile :=
  match result.bind fun graph => writeResult (graph.payload rt) maximum with
  | .ok content => .opened true 1 content
  | .error _ =>
    match writeResult rejectPayload maximum with
    | .ok content => .opened true 1 content
    | .error _ => .missing

/-- What a child writes is what the parent reads, unless it is the rejection. -/
lemma readResult_writeResult {readFloat : List Char → FloatRepr} {payload : Json} {maximum : ℕ}
    {content : Bytes} (hread : payload.ReadsBack ⟨readFloat, false⟩)
    (h : writeResult payload maximum = .ok content) :
    readResult readFloat (.opened true 1 content) maximum =
      if payload.pyEq rejectPayload then .error "Document parser rejected input" else .ok payload := by
  simp only [writeResult, Except.bind_eq_ok_iff, check_ok_iff, decide_eq_true_eq, Except.pure_eq,
    Except.ok.injEq] at h
  obtain ⟨-, hstrict, -, hlength, rfl⟩ := h
  have hload := Json.loadsStrict_dumpsWith Json.Style.readable_compact hread hstrict
  cases hreject : payload.pyEq rejectPayload <;>
    simp [readResult, check, hlength, hload, hreject]

/-- A document that the ingestor refuses is reported as rejected, when there is room for the report. -/
lemma readResult_childEntry_error {Time : Type} {rt : Runtime Time} {maximum : ℕ} {message : String}
    (hmaximum : 31 ≤ maximum) :
    readResult rt.readFloat (childEntry rt maximum (.error message)) maximum =
      .error "Document parser rejected input" := by
  have hlength : (utf8 (Json.dumpsWith .compact rejectPayload)).length = 31 := by decide +kernel
  have hwrite : writeResult rejectPayload maximum =
      .ok (utf8 (Json.dumpsWith .compact rejectPayload)) := by
    have hstrict : rejectPayload.isStrict = true := by decide
    simp [writeResult, check, hstrict, hlength, hmaximum]
  have hread : rejectPayload.ReadsBack ⟨rt.readFloat, false⟩ := ⟨trivial, trivial, trivial⟩
  have hreject : rejectPayload.pyEq rejectPayload = true := by decide +kernel
  have hchild : childEntry rt maximum (.error message) =
      .opened true 1 (utf8 (Json.dumpsWith .compact rejectPayload)) := by
    simp [childEntry, Except.bind, hwrite]
  rw [hchild, readResult_writeResult hread hwrite, if_pos hreject]

/-! ### What is accepted -/

lemma isShare_iff {x : PyFloat} : isShare x = true ↔ ∃ q, x = .fin q ∧ 0 ≤ q ∧ q ≤ 1 := by
  cases x with
  | fin q => simp [isShare]
  | inf negative => cases negative <;> simp [isShare, PyFloat.le]
  | nan => simp [isShare, PyFloat.le]

/-- The box is ordered and lies in the unit square. -/
def Normalized (bbox : BBox) : Prop :=
  ∃ x0 y0 x1 y1 : ℚ, bbox.x0 = .fin x0 ∧ bbox.y0 = .fin y0 ∧ bbox.x1 = .fin x1 ∧ bbox.y1 = .fin y1 ∧
    (0 ≤ x0 ∧ x0 ≤ x1 ∧ x1 ≤ 1) ∧ 0 ≤ y0 ∧ y0 ≤ y1 ∧ y1 ≤ 1

lemma normalized_of_isShare {bbox : BBox} (h : ∀ x ∈ coords bbox, isShare x = true) :
    Normalized bbox := by
  obtain ⟨x0, y0, x1, y1, hx, hy⟩ := bbox
  simp only [coords, List.forall_mem_cons, List.not_mem_nil, false_implies, implies_true, and_true,
    isShare_iff] at h
  obtain ⟨⟨x0, rfl, hx0, -⟩, ⟨y0, rfl, hy0, -⟩, ⟨x1, rfl, -, hx1⟩, y1, rfl, -, hy1⟩ := h
  rw [PyFloat.lt_fin, decide_eq_false_iff_not, not_lt] at hx hy
  exact ⟨x0, y0, x1, y1, rfl, rfl, rfl, rfl, ⟨hx0, hx, hx1⟩, hy0, hy, hy1⟩

lemma isSpace_of_isIdentifierChar {c : Char} (h : isIdentifierChar c = true) :
    Str.isSpace c = false := by
  have hascii : ∀ n < 128, isIdentifierChar (Char.ofNat n) = true →
      Str.isSpace (Char.ofNat n) = false := by decide +kernel
  have hc : c.toNat < 128 := by
    simp only [isIdentifierChar, Bool.and_eq_true, decide_eq_true_eq] at h
    exact h.1
  have hback := hascii c.toNat hc
  rw [Char.ofNat_toNat] at hback
  exact hback h

/-- An identifier is not blank. -/
lemma IsIdentifier.strip_ne_nil {s : Str} (h : IsIdentifier s) : Str.strip s ≠ [] := by
  intro hnil
  obtain ⟨l, r, hs, hl, hr⟩ := Str.exists_strip s
  obtain ⟨c, hc⟩ := List.exists_mem_of_ne_nil s h.nonempty
  have hspace : Str.isSpace c = true := by
    rw [hs, hnil, List.append_nil, List.mem_append] at hc
    exact hc.elim (hl c) (hr c)
  rw [isSpace_of_isIdentifierChar (h.chars c hc)] at hspace
  cases hspace

/-- Distinct numbers from 1 to `n`, as many as there are, are all of them. -/
lemma perm_of_nodup {l : List ℤ} {n : ℕ} (hnodup : l.Nodup) (hbounds : ∀ x ∈ l, 1 ≤ x ∧ x ≤ n)
    (hlength : l.length = n) : l.Perm ((List.range n).map fun p : ℕ => (p : ℤ) + 1) := by
  apply (List.subperm_of_subset hnodup ?_).perm_of_length_le
  · simp [hlength]
  · intro x hx
    obtain ⟨hone, hn⟩ := hbounds x hx
    rw [List.mem_map]
    exact ⟨(x - 1).toNat, by rw [List.mem_range]; omega, by omega⟩

/-- The pages of a valid graph are numbered from 1 to the page count. -/
lemma Graph.Valid.numbered {Time : Type} {snapshot digest : Str} {limits : Configuration}
    {graph : Graph Time} (h : graph.Valid snapshot digest limits) :
    (graph.pages.map (·.index)).Perm
      ((List.range graph.document.pageCount.toNat).map fun p : ℕ => (p : ℤ) + 1) := by
  have hcount := h.pages_length
  apply perm_of_nodup h.pages_nodup
  · intro index hindex
    obtain ⟨page, hpage, rfl⟩ := List.mem_map.mp hindex
    have hbounds := (h.pages page hpage).index
    omega
  · rw [List.length_map]
    omega

/-! ### What the child writes is described by it -/

section

variable {Time : Type} {rt : Runtime Time}

variable (rt) in
/-- `float(repr(x))` is `x`, and the text is that of a number. -/
structure RoundTrips (x : PyFloat) : Prop where
  finite : x.isFinite = true
  read : Json.ReadBack ⟨rt.readFloat, false⟩ (rt.repr x)
  value : rt.float (rt.repr x) = x

/-- The floats of a chunk. -/
def floats (chunk : Chunk) : List PyFloat := (chunk.bbox.elim [] coords) ++ chunk.embedding

lemma RoundTrips.denotes {x : PyFloat} (h : RoundTrips rt x) : Denotes rt (.float (rt.repr x)) x := by
  obtain ⟨hfinite, -, hvalue⟩ := h
  cases x with
  | fin q => exact .float hvalue
  | inf negative => cases hfinite
  | nan => cases hfinite

lemma describesPage_pagePayload (page : Page) : DescribesPage (pagePayload page) page :=
  ⟨rfl, rfl, rfl, rfl, rfl, rfl⟩

lemma describesChunk_chunkPayload {chunk : Chunk} (hbbox : chunk.bbox ≠ none)
    (h : ∀ x ∈ floats chunk, RoundTrips rt x) : DescribesChunk rt (chunkPayload rt chunk) chunk := by
  obtain ⟨chunkId, docId, page, _ | bbox, text, sourceType, embedding⟩ := chunk
  · exact absurd rfl hbbox
  · simp only [floats, Option.elim_some, List.forall_mem_append, coords, List.forall_mem_cons,
      List.not_mem_nil, false_implies, implies_true, and_true] at h
    obtain ⟨⟨hx0, hy0, hx1, hy1⟩, hembedding⟩ := h
    refine ⟨rfl, rfl, rfl, rfl,
      ⟨bbox, rfl, rfl, hx0.denotes, hy0.denotes, hx1.denotes, hy1.denotes⟩, rfl, rfl, _, rfl, ?_⟩
    rw [List.forall₂_map_left_iff, List.forall₂_same]
    exact fun x hx => (hembedding x hx).denotes

variable (rt) in
/-- The time is aware, and `isoformat` and `fromisoformat` agree on it. -/
structure Aware (time : Time) : Prop where
  length : (rt.isoformat time).toList.length ≤ 128
  nonempty : (rt.isoformat time).toList ≠ []
  read : rt.fromisoformat (rt.isoformat time) = some time
  utcoffset : (rt.utcoffset time).isSome = true

lemma timestamp_isoformat {time : Time} (h : Aware rt time) :
    timestamp rt (.str (rt.isoformat time)) = .ok time := by
  rw [timestamp_ok_iff]
  refine ⟨(rt.isoformat time).toList, ?_, h.length, h.nonempty, ?_, h.utcoffset⟩
  · rw [String.ofList_toList]
  · rw [String.ofList_toList, h.read]

variable (rt) in
/-- A graph that is read from its payload as it is. -/
structure Graph.Readable (graph : Graph Time) : Prop where
  ingestedAt : Aware rt graph.ingestedAt
  bbox : ∀ chunk ∈ graph.chunks, chunk.bbox ≠ none
  floats : ∀ chunk ∈ graph.chunks, ∀ x ∈ floats chunk, RoundTrips rt x

lemma Graph.Readable.describes {graph : Graph Time} (h : graph.Readable rt) :
    Describes rt (graph.payload rt) graph := by
  refine ⟨rfl, rfl, rfl, rfl, rfl, rfl, rfl, rfl, timestamp_isoformat h.ingestedAt, ⟨_, rfl, ?_⟩,
    ⟨_, rfl, ?_⟩⟩
  · rw [List.forall₂_map_left_iff, List.forall₂_same]
    exact fun page _ => describesPage_pagePayload page
  · rw [List.forall₂_map_left_iff, List.forall₂_same]
    exact fun chunk hchunk => describesChunk_chunkPayload (h.bbox chunk hchunk) (h.floats chunk hchunk)

lemma readsBack_chunkPayload {chunk : Chunk} (h : ∀ x ∈ floats chunk, RoundTrips rt x) :
    (chunkPayload rt chunk).ReadsBack ⟨rt.readFloat, false⟩ := by
  obtain ⟨chunkId, docId, page, bbox, text, sourceType, embedding⟩ := chunk
  rw [floats, List.forall_mem_append] at h
  have hbox : (boxPayload rt bbox).ReadsBack ⟨rt.readFloat, false⟩ := by
    cases bbox with
    | none => trivial
    | some bbox =>
      have hread : ∀ x ∈ coords bbox, Json.ReadBack ⟨rt.readFloat, false⟩ (rt.repr x) :=
        fun x hx => (h.1 x hx).read
      simpa [coords, boxPayload, Json.ReadsBack, Json.MembersReadBack] using hread
  have hembedding : Json.ItemsReadBack ⟨rt.readFloat, false⟩
      (embedding.map fun x => .float (rt.repr x)) := by
    rw [Json.itemsReadBack_iff, List.forall_mem_map]
    exact fun x hx => (h.2 x hx).read
  exact ⟨trivial, trivial, trivial, hbox, trivial, trivial, hembedding, trivial⟩

lemma isStrict_chunkPayload {chunk : Chunk} (h : ∀ x ∈ floats chunk, RoundTrips rt x) :
    (chunkPayload rt chunk).isStrict = true := by
  obtain ⟨chunkId, docId, page, bbox, text, sourceType, embedding⟩ := chunk
  rw [floats, List.forall_mem_append] at h
  have hbox : (boxPayload rt bbox).isStrict = true := by
    cases bbox with
    | none => rfl
    | some bbox =>
      have hfinite : ∀ x ∈ coords bbox, (rt.repr x).isFinite = true :=
        fun x hx => Json.isFinite_of_readBack (h.1 x hx).read
      simpa [coords, boxPayload, Json.isStrict, Json.isStrictMembers] using hfinite
  have hembedding : Json.isStrictItems (embedding.map fun x => .float (rt.repr x)) = true := by
    rw [Json.isStrictItems_iff, List.forall_mem_map]
    exact fun x hx => Json.isFinite_of_readBack (h.2 x hx).read
  simp [chunkPayload, Json.isStrict, Json.isStrictMembers, hbox, hembedding]

lemma Graph.Readable.readsBack {graph : Graph Time} (h : graph.Readable rt) :
    (graph.payload rt).ReadsBack ⟨rt.readFloat, false⟩ := by
  have hchunks : Json.ItemsReadBack ⟨rt.readFloat, false⟩ (graph.chunks.map (chunkPayload rt)) := by
    rw [Json.itemsReadBack_iff, List.forall_mem_map]
    exact fun chunk hchunk => readsBack_chunkPayload (h.floats chunk hchunk)
  have hpages : Json.ItemsReadBack ⟨rt.readFloat, false⟩ (graph.pages.map pagePayload) := by
    rw [Json.itemsReadBack_iff, List.forall_mem_map]
    exact fun page _ => ⟨trivial, trivial, trivial, trivial, trivial, trivial⟩
  exact ⟨trivial, trivial, ⟨trivial, trivial, trivial, trivial, trivial, trivial⟩, hchunks, hpages,
    trivial⟩

lemma Graph.Readable.isStrict {graph : Graph Time} (h : graph.Readable rt) :
    (graph.payload rt).isStrict = true := by
  have hchunks : Json.isStrictItems (graph.chunks.map (chunkPayload rt)) = true := by
    rw [Json.isStrictItems_iff, List.forall_mem_map]
    exact fun chunk hchunk => isStrict_chunkPayload (h.floats chunk hchunk)
  have hpages : Json.isStrictItems (graph.pages.map pagePayload) = true := by
    rw [Json.isStrictItems_iff, List.forall_mem_map]
    exact fun page _ => by simp [pagePayload, Json.isStrict, Json.isStrictMembers]
  simp [Graph.payload, Json.isStrict, Json.isStrictMembers, hchunks, hpages]

/-- A graph that is valid and readable survives the way through the result file. -/
lemma Graph.Readable.roundTrip {graph : Graph Time} {snapshot digest : Str} {limits : Configuration}
    (h : graph.Readable rt) (hvalid : graph.Valid snapshot digest limits)
    (hlength : (utf8 (Json.dumpsWith .compact (graph.payload rt))).length ≤ limits.output) :
    (do
      let content ← writeResult (graph.payload rt) limits.output
      let payload ← readResult rt.readFloat (.opened true 1 content) limits.output
      validate rt payload snapshot digest limits) = .ok graph := by
  have hwrite : writeResult (graph.payload rt) limits.output =
      .ok (utf8 (Json.dumpsWith .compact (graph.payload rt))) := by
    simp [writeResult, check, h.isStrict, hlength]
  have hread := readResult_writeResult h.readsBack hwrite
  rw [if_neg (by simp [Graph.payload, rejectPayload, Json.pyEq])] at hread
  simp only [hwrite, hread, Except.ok_bind]
  exact validate_ok_iff.mpr ⟨h.describes, hvalid⟩

end

/-! ### The graphs of the ingestor -/

/-- The digest of the ingestor is one that `_hash` accepts. -/
lemma isDigest_sha256 (content : Bytes) : isDigest (sha256 content).hex.toList = true := by
  have hdigit : ∀ n < 16, "0123456789abcdef".toList.contains (Nat.digitChar n) = true := by decide
  have hlength : ∀ bs : Bytes, (bs.flatMap hexByte).length = 2 * bs.length := by
    intro bs
    induction bs with
    | nil => rfl
    | cons b bs ih =>
      rw [List.flatMap_cons, List.length_append, ih, hexByte, List.length_cons, List.length_cons,
        List.length_nil, List.length_cons]
      omega
  simp only [isDigest, Bytes.hex, String.toList_ofList, decide_eq_true_eq, List.all_eq_true]
  refine ⟨by rw [hlength, sha256_length], fun c hc => ?_⟩
  obtain ⟨b, -, hc⟩ := List.mem_flatMap.mp hc
  have hb : b.toNat < 256 := b.toNat_lt
  rw [hexByte, List.mem_cons, List.mem_singleton] at hc
  obtain rfl | rfl := hc
  · exact hdigit _ (by omega)
  · exact hdigit _ (by omega)

/-- A chunk of a text or a DOCX of so many pages. -/
structure Laid (pageCount : ℕ) (chunk : Chunk) : Prop where
  page : 1 ≤ chunk.page ∧ chunk.page ≤ pageCount
  bbox : ∃ line paraLines, chunk.bbox = some (lineBox line paraLines)
  sourceType : chunk.sourceType = "text".toList ∨ chunk.sourceType = "docx_paragraph".toList
  embedding : chunk.embedding = []

/-- The invariant of the loop over the paragraphs. -/
structure LaidOut (layout : Layout) : Prop where
  pageCount : 1 ≤ layout.pageCount
  chunks : ∀ chunk ∈ layout.chunks, Laid layout.pageCount chunk

lemma LaidOut.place {sourceType : Str} {layout : Layout} {paraText : Str} {paraLines : ℕ}
    (h : LaidOut layout)
    (hsource : sourceType = "text".toList ∨ sourceType = "docx_paragraph".toList) :
    LaidOut (layout.place sourceType paraText paraLines) := by
  refine ⟨h.pageCount.trans (le_max_left _ _), fun chunk hchunk => ?_⟩
  rw [Layout.place, List.mem_append, List.mem_singleton] at hchunk
  obtain hchunk | rfl := hchunk
  · obtain ⟨⟨hone, hcount⟩, hbbox, hsource, hembedding⟩ := h.chunks chunk hchunk
    exact ⟨⟨hone, hcount.trans (le_max_left _ _)⟩, hbbox, hsource, hembedding⟩
  · exact ⟨⟨Nat.le_add_left 1 _, le_max_right _ _⟩, ⟨_, _, rfl⟩, hsource, rfl⟩

lemma laidOut_foldl_placeText (paragraphs : List Str) {layout : Layout} (h : LaidOut layout) :
    LaidOut (paragraphs.foldl Layout.placeText layout) := by
  induction paragraphs generalizing layout with
  | nil => exact h
  | cons paraText paragraphs ih =>
    apply ih
    rw [Layout.placeText]
    split_ifs
    · exact ⟨h.pageCount, h.chunks⟩
    · exact h.place (.inl rfl)

lemma LaidOut.placeDocx {budget : Limits} {layout layout' : Layout} {paraText : Str}
    (h : LaidOut layout) (hstep : layout.placeDocx budget paraText = .ok layout') : LaidOut layout' := by
  simp only [Layout.placeDocx] at hstep
  split_ifs at hstep
  · cases hstep
    exact ⟨h.pageCount, h.chunks⟩
  · cases hstep
    apply LaidOut.place
    · exact ⟨h.pageCount, h.chunks⟩
    · exact .inr rfl

/-- A text or a DOCX is laid out on blank pages. -/
lemma parse_laidOut {u : UnicodeData} {budget : Limits} {file : SourceFile} {parsed : Parsed}
    (hsuffix : Str.lower u (suffix file.path) ∈ [".txt".toList, ".md".toList, ".docx".toList])
    (h : file.parse u budget = .ok parsed) :
    ∃ layout, LaidOut layout ∧
      parsed = (layout.chunks, layout.pageCount, blankPages layout.pageCount) := by
  have hempty : LaidOut {} := ⟨le_rfl, by simp⟩
  simp only [SourceFile.parse] at h
  split_ifs at h with htext hpdf hdocx
  · cases h
    exact ⟨_, laidOut_foldl_placeText _ hempty, rfl⟩
  · rw [hpdf] at hsuffix
    exact absurd hsuffix (by decide)
  · simp only [ingestDocx] at h
    obtain ⟨paragraphs, -, h⟩ := Except.of_bind_eq_ok h
    obtain ⟨layout, hfold, h⟩ := Except.of_bind_eq_ok h
    cases h
    exact ⟨layout, List.invariant_of_foldlM_ok (fun _ _ _ => LaidOut.placeDocx) hempty hfold, rfl⟩

lemma isShare_lineBox (line paraLines : ℕ) : ∀ x ∈ coords (lineBox line paraLines), isShare x = true := by
  have hlines : ((line % linesPerPage : ℕ) : ℚ) * (1 / linesPerPage) ≤ 1 := by
    rw [mul_one_div]
    apply div_le_one_of_le₀
    · exact_mod_cast (Nat.mod_lt line (by decide : 0 < linesPerPage)).le
    · positivity
  simp only [coords, lineBox, List.forall_mem_cons, List.not_mem_nil, false_implies, implies_true,
    and_true, isShare_iff]
  exact ⟨⟨0, rfl, le_rfl, zero_le_one⟩, ⟨_, rfl, by positivity, hlines⟩, ⟨1, rfl, zero_le_one, le_rfl⟩,
    _, rfl, le_min zero_le_one (by positivity), min_le_left _ _⟩

/-- The text of a UUID. -/
def isUuid (s : Str) : Bool := s.length = 36 ∧ s.all ("0123456789abcdef-".toList.contains ·)

lemma isIdentifier_of_isUuid {s : Str} (h : isUuid s = true) : IsIdentifier s := by
  have hchars : "0123456789abcdef-".toList.all isIdentifierChar = true := by decide
  simp only [isUuid, decide_eq_true_eq, List.all_eq_true, List.contains_iff_mem] at h
  refine ⟨?_, ?_, fun c hc => List.all_eq_true.mp hchars c (h.2 c hc)⟩
  · rw [h.1]
    decide
  · rintro rfl
    exact absurd h.1 (by decide)

/-- New ids for a document with so many chunks: UUIDs, and no two chunks get the same one. -/
structure Fresh (ids : IngestIds) (count : ℕ) : Prop where
  docId : isUuid ids.docId = true
  chunkId : ∀ i < count, isUuid (ids.chunkId i) = true
  distinct : ∀ i < count, ∀ j < count, ids.chunkId i = ids.chunkId j → i = j

lemma chunkId_label (ids : IngestIds) (chunks : List Chunk) :
    (ids.label chunks).map (·.chunkId) = (List.range chunks.length).map ids.chunkId := by
  rw [IngestIds.label, List.map_map, List.range_eq_range', ← List.zipIdx_map_snd 0 chunks, List.map_map]
  rfl

lemma length_label (ids : IngestIds) (chunks : List Chunk) :
    (ids.label chunks).length = chunks.length := by
  rw [IngestIds.label, List.length_map, List.length_zipIdx]

section

variable {Time : Type} {rt : Runtime Time}

variable (rt) in
/-- The graph is within the limits on results. -/
structure Graph.Within (limits : Configuration) (graph : Graph Time) : Prop where
  path : graph.document.sourcePath.length ≤ 4096
  pages : graph.document.pageCount ≤ limits.pages
  chunks : graph.chunks.length ≤ limits.chunks
  text : (graph.chunks.map (·.text.length)).sum ≤ limits.text
  output : (utf8 (Json.dumpsWith .compact (graph.payload rt))).length ≤ limits.output

variable {u : UnicodeData} {budget : Limits} {ids : IngestIds} {file : SourceFile}
  {chunks : List Chunk} {doc : Document} {pages : List Page}

/-- What the ingestor returns for a text or a DOCX. -/
lemma ingest_laidOut
    (hsuffix : Str.lower u (suffix file.path) ∈ [".txt".toList, ".md".toList, ".docx".toList])
    (h : file.ingest u budget ids = .ok (chunks, doc, pages)) :
    ∃ layout, LaidOut layout ∧ chunks = ids.label layout.chunks ∧
      doc = ⟨ids.docId, file.path, (sha256 file.content).hex.toList, layout.pageCount⟩ ∧
      pages = (blankPages layout.pageCount).map fun page => { page with docId := ids.docId } := by
  rw [SourceFile.ingest_eq] at h
  cases hparse : file.parse u budget with
  | error e =>
    rw [hparse] at h
    cases h
  | ok parsed =>
    obtain ⟨layout, hlayout, rfl⟩ := parse_laidOut hsuffix hparse
    rw [hparse] at h
    cases h
    exact ⟨layout, hlayout, rfl, rfl, rfl⟩

/-- The pages the ingestor makes have the numbers from 1 on. -/
lemma index_blankPages (docId : Str) (count : ℕ) :
    ((blankPages count).map fun page => { page with docId := docId }).map (·.index) =
      (List.range count).map fun p : ℕ => (p : ℤ) + 1 := by
  simp [blankPages_eq, Function.comp_def]

lemma validPage_blankPages {docId : Str} {count : ℕ} {page : Page}
    (hpage : page ∈ (blankPages count).map fun page => { page with docId := docId }) :
    ValidPage docId count page := by
  simp only [blankPages_eq, List.map_map, List.mem_map, List.mem_range, Function.comp_apply] at hpage
  obtain ⟨p, hp, rfl⟩ := hpage
  exact
    { docId := rfl
      index := ⟨Int.le_add_of_nonneg_left (Int.natCast_nonneg p), Int.ofNat_le.mpr hp⟩
      widthPx := ⟨show (1 : ℤ) ≤ 800 by decide, show (800 : ℤ) ≤ 1000000 by decide⟩
      heightPx := ⟨show (1 : ℤ) ≤ 1000 by decide, show (1000 : ℤ) ≤ 1000000 by decide⟩
      imageSha256 := .inl rfl }

lemma validChunk_label {layout : Layout} (hlayout : LaidOut layout)
    (hids : Fresh ids layout.chunks.length) {chunk : Chunk} (hchunk : chunk ∈ ids.label layout.chunks) :
    ValidChunk ids.docId layout.pageCount
      ((List.range layout.pageCount).map fun p : ℕ => (p : ℤ) + 1) chunk := by
  have hid : chunk.chunkId ∈ (ids.label layout.chunks).map (·.chunkId) := List.mem_map_of_mem hchunk
  rw [chunkId_label, List.mem_map] at hid
  obtain ⟨i, hi, hid⟩ := hid
  obtain ⟨raw, hraw, j, rfl⟩ := IngestIds.mem_label hchunk
  obtain ⟨⟨hone, hcount⟩, ⟨line, paraLines, hbbox⟩, hsource, hembedding⟩ := hlayout.chunks raw hraw
  refine
    { chunkId := hid ▸ isIdentifier_of_isUuid (hids.chunkId i (List.mem_range.mp hi))
      docId := rfl
      page := ⟨Int.ofNat_le.mpr hone, Int.ofNat_le.mpr hcount⟩
      seen := ?_
      bbox := ⟨_, hbbox, isShare_lineBox line paraLines⟩
      sourceType := ?_
      embedding := ?_ }
  · rw [List.mem_map]
    exact ⟨raw.page - 1, List.mem_range.mpr (by omega), by simp only; omega⟩
  · obtain hsource | hsource := hsource <;> rw [hsource] <;> decide
  · simp only [hembedding]
    exact Nat.zero_le _

lemma valid_of_ingest {limits : Configuration} {now : Time}
    (hsuffix : Str.lower u (suffix file.path) ∈ [".txt".toList, ".md".toList, ".docx".toList])
    (h : file.ingest u budget ids = .ok (chunks, doc, pages)) (hids : Fresh ids chunks.length)
    (hlimits : Graph.Within rt limits ⟨chunks, doc, now, pages⟩) :
    Graph.Valid file.path (sha256 file.content).hex.toList limits
      (⟨chunks, doc, now, pages⟩ : Graph Time) := by
  obtain ⟨layout, hlayout, rfl, rfl, rfl⟩ := ingest_laidOut hsuffix h
  rw [length_label] at hids
  refine
    { docId := isIdentifier_of_isUuid hids.docId
      sourcePath := rfl
      pathLength := hlimits.path
      sha256 := rfl
      digest := isDigest_sha256 file.content
      pageCount := ⟨Int.ofNat_le.mpr hlayout.pageCount, hlimits.pages⟩
      pages_length := by simp [blankPages_eq]
      pages := fun page hpage => validPage_blankPages hpage
      pages_nodup := ?_
      chunks_length := hlimits.chunks
      chunks := fun chunk hchunk => ?_
      chunks_nodup := ?_
      text := hlimits.text }
  · rw [index_blankPages]
    exact List.nodup_range.map fun a b hab => by simpa using hab
  · rw [index_blankPages]
    exact validChunk_label hlayout hids hchunk
  · rw [chunkId_label]
    refine List.Nodup.map_on (fun i hi j hj hij => ?_) List.nodup_range
    exact hids.distinct i (List.mem_range.mp hi) j (List.mem_range.mp hj) hij

lemma readable_of_ingest {now : Time}
    (hsuffix : Str.lower u (suffix file.path) ∈ [".txt".toList, ".md".toList, ".docx".toList])
    (h : file.ingest u budget ids = .ok (chunks, doc, pages)) (hnow : Aware rt now)
    (hfloats : ∀ chunk ∈ chunks, ∀ x ∈ floats chunk, RoundTrips rt x) :
    Graph.Readable rt ⟨chunks, doc, now, pages⟩ := by
  refine ⟨hnow, fun chunk hchunk => ?_, hfloats⟩
  obtain ⟨layout, hlayout, rfl, -, -⟩ := ingest_laidOut hsuffix h
  obtain ⟨raw, hraw, i, rfl⟩ := IngestIds.mem_label hchunk
  obtain ⟨line, paraLines, hbbox⟩ := (hlayout.chunks raw hraw).bbox
  simp only [hbbox]
  exact Option.some_ne_none _

end

/-! ### Both directions of the boundary -/

/-- What `_validate` accepts is a consistent graph within the limits; and what the ingestor makes of a
text or a DOCX within the limits is accepted, and is reproduced as it was. -/
theorem isolated_ingest_exact {Time : Type} (rt : Runtime Time) :
    (∀ (payload : Json) (snapshot digest : Str) (limits : Configuration) (graph : Graph Time),
      validate rt payload snapshot digest limits = .ok graph →
        Describes rt payload graph ∧
        (graph.pages.map (·.index)).Perm
          ((List.range graph.document.pageCount.toNat).map fun p : ℕ => (p : ℤ) + 1) ∧
        (graph.chunks.map (·.chunkId)).Nodup ∧
        (∀ chunk ∈ graph.chunks, Str.strip chunk.chunkId ≠ [] ∧
          chunk.docId = graph.document.docId ∧ (∃ page ∈ graph.pages, page.index = chunk.page) ∧
          ∃ bbox, chunk.bbox = some bbox ∧ Normalized bbox) ∧
        (∀ page ∈ graph.pages, page.docId = graph.document.docId) ∧
        (graph.chunks.map (·.text.length)).sum ≤ limits.text ∧
        graph.document.sha256 = digest) ∧
    ∀ (u : UnicodeData) (budget : Limits) (ids : IngestIds) (now : Time) (file : SourceFile)
      (chunks : List Chunk) (doc : Document) (pages : List Page) (limits : Configuration),
      Str.lower u (suffix file.path) ∈ [".txt".toList, ".md".toList, ".docx".toList] →
      file.ingest u budget ids = .ok (chunks, doc, pages) →
      Fresh ids chunks.length → Aware rt now →
      (∀ chunk ∈ chunks, ∀ x ∈ floats chunk, RoundTrips rt x) →
      Graph.Within rt limits ⟨chunks, doc, now, pages⟩ →
        (do
          let content ← writeResult (Graph.payload rt ⟨chunks, doc, now, pages⟩) limits.output
          let payload ← readResult rt.readFloat (.opened true 1 content) limits.output
          validate rt payload file.path (sha256 file.content).hex.toList limits) =
        .ok ⟨chunks, doc, now, pages⟩ := by
  constructor
  · intro payload snapshot digest limits graph h
    obtain ⟨hdescribes, hvalid⟩ := validate_ok_iff.mp h
    refine ⟨hdescribes, hvalid.numbered, hvalid.chunks_nodup, fun chunk hchunk => ?_,
      fun page hpage => (hvalid.pages page hpage).docId, hvalid.text, hvalid.sha256⟩
    have hc := hvalid.chunks chunk hchunk
    obtain ⟨bbox, hbbox, hshare⟩ := hc.bbox
    exact ⟨hc.chunkId.strip_ne_nil, hc.docId, List.mem_map.mp hc.seen, bbox, hbbox,
      normalized_of_isShare hshare⟩
  · intro u budget ids now file chunks doc pages limits hsuffix h hids hnow hfloats hlimits
    apply Graph.Readable.roundTrip
    · exact readable_of_ingest hsuffix h hnow hfloats
    · exact valid_of_ingest hsuffix h hids hlimits
    · exact hlimits.output

/-- The texts of the floats on the first line of a page, and times that are their ISO texts. -/
def noteRuntime : Runtime String where
  repr x :=
    if x = .fin 0 then ⟨"0.0".toList, rfl⟩
    else if x = .fin 1 then ⟨"1.0".toList, rfl⟩
    else ⟨"0.016666666666666666".toList, rfl⟩
  float x := if x.text = "0.016666666666666666".toList then .fin (1 / 60) else x.value
  readFloat text := if h : isFloatText text = true then ⟨text, h⟩ else ⟨"7.5".toList, rfl⟩
  isoformat time := time
  fromisoformat text := some text
  utcoffset _ := some 0

/-- A snapshot with one paragraph. -/
def note : SourceFile where
  path := "/tmp/axiom-ingest-7/source.txt".toList
  content := utf8 "Total due"
  decoded := "Total due".toList
  pdf := .error ""
  docx := .error ""

def noteIds : IngestIds where
  chunkId _ := "7c9e6679-7425-40de-944b-e07fc1f90ae7".toList
  docId := "f47ac10b-58cc-4372-a567-0e02b2c3d479".toList

def noteChunk : Chunk where
  chunkId := noteIds.chunkId 0
  docId := noteIds.docId
  page := 1
  bbox := some (lineBox 0 1)
  text := "Total due".toList
  sourceType := "text".toList

def noteGraph : Graph String where
  chunks := [noteChunk]
  document := ⟨noteIds.docId, note.path, (sha256 note.content).hex.toList, 1⟩
  ingestedAt := "2026-07-01T09:30:00.250000+00:00"
  pages := [⟨noteIds.docId, 1, 800, 1000, []⟩]

lemma ingest_note :
    note.ingest asciiData {} noteIds = .ok (noteGraph.chunks, noteGraph.document, noteGraph.pages) := by
  rw [SourceFile.ingest_eq]
  rfl

/-- The output limit is the size of the result. -/
def noteLimits : Configuration where
  output := (utf8 (Json.dumpsWith .compact (noteGraph.payload noteRuntime))).length

lemma within_note : Graph.Within noteRuntime noteLimits noteGraph := by
  refine ⟨?_, ?_, ?_, ?_, ?_⟩
  · decide
  · decide
  · decide
  · decide
  · simp only [noteLimits, le_refl]

lemma roundTrips_note : ∀ chunk ∈ noteGraph.chunks, ∀ x ∈ floats chunk, RoundTrips noteRuntime x := by
  have hthin : noteRuntime.repr (.fin (1 / 60)) = ⟨"0.016666666666666666".toList, rfl⟩ := by
    decide +kernel
  have hread : ∀ x ∈ [PyFloat.fin 0, .fin 1, .fin (1 / 60)], RoundTrips noteRuntime x := by
    intro x hx
    simp only [List.mem_cons, List.not_mem_nil, or_false] at hx
    obtain rfl | rfl | rfl := hx
    · exact ⟨rfl, .inr ⟨⟨['0'], ['.', '0'], []⟩, rfl, rfl, rfl⟩, by decide +kernel⟩
    · exact ⟨rfl, .inr ⟨⟨['1'], ['.', '0'], []⟩, rfl, rfl, rfl⟩, by decide +kernel⟩
    · refine ⟨rfl, ?_, by decide +kernel⟩
      rw [hthin]
      exact .inr ⟨⟨['0'], ".016666666666666666".toList, []⟩, rfl, rfl, rfl⟩
  have hcoords : coords (lineBox 0 1) = [.fin 0, .fin 0, .fin 1, .fin (1 / 60)] := by decide +kernel
  intro chunk hchunk x hx
  obtain rfl := List.mem_singleton.mp hchunk
  apply hread
  simpa [floats, noteChunk, hcoords] using hx

theorem isolated_ingest_exact_note :
    (do
      let content ← writeResult (noteGraph.payload noteRuntime) noteLimits.output
      let payload ← readResult noteRuntime.readFloat (.opened true 1 content) noteLimits.output
      validate noteRuntime payload note.path (sha256 note.content).hex.toList noteLimits) =
        .ok noteGraph ∧
    (noteGraph.pages.map (·.index)).Perm [1] := by
  have hids : Fresh noteIds noteGraph.chunks.length := by
    have huuid : isUuid (noteIds.chunkId 0) = true := by decide
    refine ⟨by decide, fun _ _ => huuid, fun i hi j hj _ => ?_⟩
    rw [Nat.lt_one_iff.mp hi, Nat.lt_one_iff.mp hj]
  have hnow : Aware noteRuntime noteGraph.ingestedAt := ⟨by decide, by decide, rfl, rfl⟩
  have hround := (isolated_ingest_exact noteRuntime).2 asciiData {} noteIds noteGraph.ingestedAt note
    noteGraph.chunks noteGraph.document noteGraph.pages noteLimits (by decide) ingest_note hids hnow
    roundTrips_note within_note
  refine ⟨hround, ?_⟩
  obtain ⟨content, -, h⟩ := Except.of_bind_eq_ok hround
  obtain ⟨payload, -, h⟩ := Except.of_bind_eq_ok h
  exact ((isolated_ingest_exact noteRuntime).1 payload _ _ _ _ h).2.1

end AxiomGrid.Pipeline.Isolated
