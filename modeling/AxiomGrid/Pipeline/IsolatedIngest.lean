import AxiomGrid.Lib.Collect
import AxiomGrid.Lib.Json
import AxiomGrid.Pipeline.Ingestor

/-!
# Isolated ingestion

`kernel/sidecar/isolated_ingest.py`: a child process ingests a snapshot of the document and writes the
graph as JSON into a file, and the parent reads the file and validates every field before it trusts
the graph. The child is not trusted, so what is read is any JSON value.

`validate_ok_iff` says what is accepted: the payloads that describe a graph whose parts fit together.
Both directions of the boundary follow from it: what an accepted payload says, and that the graph of an
honest child comes back as it was.

Boxes are computed in exact arithmetic, where a sixtieth has no decimal text. What `repr` writes for a
float and what the text stands for are parameters, and so are the times.
-/

namespace AxiomGrid.Pipeline.Isolated

/-- The limits of `_configuration` on a result. -/
structure Configuration where
  output : ℕ := 32 * 1024 * 1024
  chunks : ℕ := 20000
  pages : ℕ := 10000
  text : ℕ := 4 * 1024 * 1024

/-- `MAX_EMBEDDING_VALUES`. -/
def maxEmbeddingValues : ℕ := 4096

/-- How floats and times are written and read. A float in JSON is given by its `repr`. -/
structure Runtime (Time : Type) where
  repr : PyFloat → FloatRepr
  float : FloatRepr → PyFloat
  readFloat : List Char → FloatRepr
  isoformat : Time → String
  fromisoformat : String → Option Time
  utcoffset : Time → Option ℤ

/-- What a parser invocation returns; `ingestedAt` is a field of the document. -/
structure Graph (Time : Type) where
  chunks : List Chunk
  document : Document
  ingestedAt : Time
  pages : List Page

/-! ### Fields -/

/-- `if not condition: raise ValueError(message)`. -/
def check (condition : Bool) (message : String) : Except String Unit :=
  if condition then .ok () else .error message

/-- A dictionary with exactly these keys. -/
def hasKeys (value : Json) (names : List String) : Bool :=
  match value with
  | .obj members =>
    (members.map Prod.fst).all (names.contains ·) && names.all ((members.map Prod.fst).contains ·)
  | _ => false

/-- `_keys`. -/
def keys (value : Json) (names : List String) : Except String Unit :=
  check (hasKeys value names) "Invalid isolated ingest object schema"

/-- `value[k]`, for a key that `_keys` has found. -/
def item (value : Json) (k : String) : Json := (value.get? k).getD .null

/-- `_string`. -/
def string (value : Json) (maximum : ℕ) (nonempty : Bool) : Except String Str :=
  match value with
  | .str s =>
    if maximum < s.toList.length ∨ nonempty = true ∧ s.toList = [] then
      .error "Invalid isolated ingest string"
    else .ok s.toList
  | _ => .error "Invalid isolated ingest string"

/-- The characters of an identifier. -/
def isIdentifierChar (c : Char) : Bool :=
  c.toNat < 128 && (c.isAlphanum || c == '_' || c == '-')

/-- `_identifier`. -/
def identifier (value : Json) : Except String Str := do
  let value ← string value 256 true
  let _ ← check (value.all isIdentifierChar) "Invalid isolated ingest route identifier"
  return value

/-- `_integer`. -/
def integer (value : Json) (minimum maximum : ℤ) : Except String ℤ :=
  match value with
  | .int n =>
    if minimum ≤ n ∧ n ≤ maximum then .ok n else .error "Invalid isolated ingest integer"
  | _ => .error "Invalid isolated ingest integer"

/-- The least integer that rounds out of the range of floats. -/
def floatOverflow : ℕ := 2 ^ 1024 - 2 ^ 970

/-- The digits of `_hash`. -/
def isDigest (value : Str) : Bool :=
  value.length = 64 ∧ value.all ("0123456789abcdef".toList.contains ·)

/-- `_hash`. -/
def hash (value : Json) (empty : Bool) : Except String Str := do
  let value ← string value 64 false
  let _ ← check ((empty && value = []) || isDigest value) "Invalid isolated ingest digest"
  return value

/-- A list, when its length is as it should be. -/
def items (value : Json) (fits : ℕ → Bool) (message : String) : Except String (List Json) :=
  match value with
  | .arr xs => if fits xs.length then .ok xs else .error message
  | _ => .error message

section

variable {Time : Type} (rt : Runtime Time)

/-- `_number`. -/
def number (value : Json) : Except String PyFloat :=
  match value with
  | .int n =>
    if n.natAbs < floatOverflow then .ok (.fin n)
    else .error "Invalid isolated ingest finite number"
  | .float x =>
    if (rt.float x).isFinite then .ok (rt.float x)
    else .error "Invalid isolated ingest finite number"
  | _ => .error "Invalid isolated ingest finite number"

/-- The timestamp of the document, which has to be aware. -/
def timestamp (value : Json) : Except String Time :=
  match string value 128 true with
  | .error _ => .error "Invalid isolated ingest timestamp"
  | .ok s =>
    match rt.fromisoformat (String.ofList s) with
    | none => .error "Invalid isolated ingest timestamp"
    | some time =>
      if (rt.utcoffset time).isSome then .ok time else .error "Invalid isolated ingest timestamp"

/-! ### `_validate` -/

/-- The variables of the loop over the pages. -/
structure PageLoop where
  pages : List Page := []
  seenPages : List ℤ := []

/-- A page that has passed its checks. -/
def PageLoop.add (loop : PageLoop) (page : Page) : PageLoop :=
  ⟨loop.pages ++ [page], loop.seenPages ++ [page.index]⟩

def pageKeys : List String := ["doc_id", "index", "width_px", "height_px", "image_sha256"]

/-- One page of the payload. -/
def PageLoop.step (docId : Str) (count : ℤ) (loop : PageLoop) (p : Json) :
    Except String PageLoop := do
  let _ ← keys p pageKeys
  let _ ← check ((item p "doc_id").pyEq (.str (String.ofList docId)))
    "Isolated ingest page document reference mismatch"
  let index ← integer (item p "index") 1 count
  let _ ← check (index ∉ loop.seenPages) "Duplicate isolated ingest page"
  let widthPx ← integer (item p "width_px") 1 1000000
  let heightPx ← integer (item p "height_px") 1 1000000
  let imageSha256 ← hash (item p "image_sha256") true
  return loop.add ⟨docId, index, widthPx, heightPx, imageSha256⟩

def boxKeys : List String := ["x0", "y0", "x1", "y1"]

/-- `not 0 <= v <= 1` does not hold. -/
def isShare (x : PyFloat) : Bool := PyFloat.le (.fin 0) x && PyFloat.le x (.fin 1)

/-- The box of a chunk. -/
def box (b : Json) : Except String BBox := do
  let _ ← keys b boxKeys
  let x0 ← number rt (item b "x0")
  let y0 ← number rt (item b "y0")
  let x1 ← number rt (item b "x1")
  let y1 ← number rt (item b "y1")
  let _ ← check ([x0, y0, x1, y1].all isShare) "Isolated ingest bbox outside normalized page"
  match BBox.mk? x0 y0 x1 y1 with
  | some bbox => .ok bbox
  | none =>
    let text (x : PyFloat) := String.ofList (rt.repr x).text
    .error ("Invalid bbox: (" ++ text x0 ++ "," ++ text y0 ++ ") to (" ++ text x1 ++ "," ++ text y1 ++
      ")")

/-- The variables of the loop over the chunks. -/
structure ChunkLoop where
  chunks : List Chunk := []
  seenChunks : List Str := []
  textCount : ℕ := 0

/-- A chunk that has passed its checks. -/
def ChunkLoop.add (loop : ChunkLoop) (chunk : Chunk) : ChunkLoop :=
  ⟨loop.chunks ++ [chunk], loop.seenChunks ++ [chunk.chunkId], loop.textCount + chunk.text.length⟩

def chunkKeys : List String :=
  ["chunk_id", "doc_id", "page", "bbox", "text", "source_type", "embedding"]

/-- One chunk of the payload. -/
def ChunkLoop.step (limits : Configuration) (docId : Str) (count : ℤ) (seenPages : List ℤ)
    (loop : ChunkLoop) (c : Json) : Except String ChunkLoop := do
  let _ ← keys c chunkKeys
  let chunkId ← identifier (item c "chunk_id")
  let _ ← check (chunkId ∉ loop.seenChunks && (item c "doc_id").pyEq (.str (String.ofList docId)))
    "Duplicate chunk ID or document reference mismatch"
  let page ← integer (item c "page") 1 count
  let _ ← check (page ∈ seenPages) "Invalid isolated ingest page reference"
  let bbox ← box rt (item c "bbox")
  let text ← string (item c "text") limits.text false
  let _ ← check (loop.textCount + text.length ≤ limits.text) "Isolated ingest total text exceeded"
  let embedding ← items (item c "embedding") (· ≤ maxEmbeddingValues)
    "Invalid isolated ingest embedding"
  let sourceType ← string (item c "source_type") 128 true
  let embedding ← embedding.mapM (number rt)
  return loop.add ⟨chunkId, docId, page.toNat, some bbox, text, sourceType, embedding⟩

def payloadKeys : List String := ["version", "status", "document", "chunks", "pages"]

def documentKeys : List String := ["doc_id", "source_path", "sha256", "page_count", "ingested_at"]

/-- `_validate`. -/
def validate (payload : Json) (snapshot digest : Str) (limits : Configuration) :
    Except String (Graph Time) := do
  let _ ← keys payload payloadKeys
  let _ ← check ((item payload "version").int? = some 1 && (item payload "status").pyEq (.str "ok"))
    "Invalid isolated ingest protocol"
  let d := item payload "document"
  let _ ← keys d documentKeys
  let docId ← identifier (item d "doc_id")
  let sourcePath ← string (item d "source_path") 4096 false
  let _ ← check (sourcePath = snapshot) "Isolated ingest source/digest mismatch"
  let sha256 ← hash (item d "sha256") false
  let _ ← check (sha256 = digest) "Isolated ingest source/digest mismatch"
  let count ← integer (item d "page_count") 1 limits.pages
  let ingestedAt ← timestamp rt (item d "ingested_at")
  let rawPages ← items (item payload "pages") (fun n => (n : ℤ) = count)
    "Isolated ingest page count mismatch"
  let rawChunks ← items (item payload "chunks") (· ≤ limits.chunks)
    "Isolated ingest chunk count exceeded"
  let pageLoop ← rawPages.foldlM (PageLoop.step docId count) {}
  let chunkLoop ← rawChunks.foldlM (ChunkLoop.step rt limits docId count pageLoop.seenPages) {}
  return ⟨chunkLoop.chunks, ⟨docId, snapshot, digest, count⟩, ingestedAt, pageLoop.pages⟩

end

/-! ### What the checks on a field accept -/

lemma check_ok_iff {condition : Bool} {message : String} {u : Unit} :
    check condition message = .ok u ↔ condition = true := by
  cases condition <;> simp [check]

lemma keys_ok_iff {value : Json} {names : List String} {u : Unit} :
    keys value names = .ok u ↔ hasKeys value names = true :=
  check_ok_iff

lemma string_ok_iff {value : Json} {maximum : ℕ} {nonempty : Bool} {s : Str} :
    string value maximum nonempty = .ok s ↔
      value = .str (String.ofList s) ∧ s.length ≤ maximum ∧ (nonempty = true → s ≠ []) := by
  cases value with
  | str t =>
    simp only [string, Json.str.injEq, ← String.toList_inj, String.toList_ofList]
    split_ifs with h
    · simp only [false_iff]
      rintro ⟨rfl, hlength, hne⟩
      obtain h | ⟨hnonempty, hnil⟩ := h
      · exact absurd hlength (Nat.not_le.mpr h)
      · exact hne hnonempty hnil
    · rw [Except.ok.injEq]
      constructor
      · rintro rfl
        rw [not_or, not_lt, not_and] at h
        exact ⟨rfl, h⟩
      · exact And.left
  | _ => simp [string]

/-- A text that `_identifier` returns. -/
structure IsIdentifier (s : Str) : Prop where
  length : s.length ≤ 256
  nonempty : s ≠ []
  chars : ∀ c ∈ s, isIdentifierChar c = true

lemma identifier_ok_iff {value : Json} {s : Str} :
    identifier value = .ok s ↔ value = .str (String.ofList s) ∧ IsIdentifier s := by
  simp only [identifier, Except.bind_eq_ok_iff, string_ok_iff, check_ok_iff, List.all_eq_true,
    Except.pure_eq, Except.ok.injEq]
  constructor
  · rintro ⟨t, ⟨rfl, hlength, hne⟩, -, hchars, rfl⟩
    exact ⟨rfl, hlength, hne trivial, hchars⟩
  · rintro ⟨rfl, h⟩
    exact ⟨s, ⟨rfl, h.length, fun _ => h.nonempty⟩, (), h.chars, rfl⟩

lemma integer_ok_iff {value : Json} {minimum maximum n : ℤ} :
    integer value minimum maximum = .ok n ↔ value = .int n ∧ minimum ≤ n ∧ n ≤ maximum := by
  cases value with
  | int m =>
    simp only [integer, Json.int.injEq]
    split_ifs with h
    · rw [Except.ok.injEq]
      constructor
      · rintro rfl
        exact ⟨rfl, h⟩
      · exact And.left
    · simp only [false_iff]
      rintro ⟨rfl, hbounds⟩
      exact h hbounds
  | _ => simp [integer]

lemma hash_ok_iff {value : Json} {empty : Bool} {s : Str} :
    hash value empty = .ok s ↔
      value = .str (String.ofList s) ∧ (empty = true ∧ s = [] ∨ isDigest s = true) := by
  simp only [hash, Except.bind_eq_ok_iff, string_ok_iff, check_ok_iff, Except.pure_eq,
    Except.ok.injEq, Bool.or_eq_true, Bool.and_eq_true, decide_eq_true_eq]
  constructor
  · rintro ⟨t, ⟨rfl, -, -⟩, -, h, rfl⟩
    exact ⟨rfl, h⟩
  · rintro ⟨rfl, h⟩
    refine ⟨s, ⟨rfl, ?_, fun h => by cases h⟩, (), h, rfl⟩
    obtain ⟨-, rfl⟩ | h := h
    · exact Nat.zero_le _
    · simp only [isDigest, decide_eq_true_eq] at h
      exact h.1.le

lemma items_ok_iff {value : Json} {fits : ℕ → Bool} {message : String} {xs : List Json} :
    items value fits message = .ok xs ↔ value = .arr xs ∧ fits xs.length = true := by
  cases value with
  | arr ys =>
    simp only [items, Json.arr.injEq]
    split_ifs with h
    · rw [Except.ok.injEq]
      constructor
      · rintro rfl
        exact ⟨rfl, h⟩
      · exact And.left
    · simp only [false_iff]
      rintro ⟨rfl, hfits⟩
      exact h hfits
  | _ => simp [items]

section

variable {Time : Type} {rt : Runtime Time}

variable (rt) in
/-- The value is this finite number. -/
inductive Denotes : Json → PyFloat → Prop
  | int {n : ℤ} : n.natAbs < floatOverflow → Denotes (.int n) (.fin n)
  | float {x : FloatRepr} {q : ℚ} : rt.float x = .fin q → Denotes (.float x) (.fin q)

lemma number_ok_iff {value : Json} {x : PyFloat} : number rt value = .ok x ↔ Denotes rt value x := by
  constructor
  · intro h
    cases value with
    | int n =>
      simp only [number] at h
      split_ifs at h with hn
      cases h
      exact .int hn
    | float y =>
      simp only [number] at h
      split_ifs at h with hy
      cases h
      cases hq : rt.float y with
      | fin q => exact .float hq
      | inf negative => simp [hq, PyFloat.isFinite] at hy
      | nan => simp [hq, PyFloat.isFinite] at hy
    | _ => cases h
  · rintro (hn | hq)
    · rw [number, if_pos hn]
    · simp [number, hq, PyFloat.isFinite]

lemma timestamp_ok_iff {value : Json} {time : Time} :
    timestamp rt value = .ok time ↔ ∃ s : Str, value = .str (String.ofList s) ∧ s.length ≤ 128 ∧ s ≠ [] ∧
      rt.fromisoformat (String.ofList s) = some time ∧ (rt.utcoffset time).isSome = true := by
  unfold timestamp
  constructor
  · intro h
    split at h
    · cases h
    · rename_i s hs
      rw [string_ok_iff] at hs
      split at h
      · cases h
      · rename_i time' htime
        split_ifs at h with haware
        cases h
        exact ⟨s, hs.1, hs.2.1, hs.2.2 rfl, htime, haware⟩
  · rintro ⟨s, rfl, hlength, hne, htime, haware⟩
    have hs : string (.str (String.ofList s)) 128 true = .ok s :=
      string_ok_iff.mpr ⟨rfl, hlength, fun _ => hne⟩
    simp [hs, htime, haware]

/-! ### What a page, a box and a chunk describe -/

/-- The dictionary of a page. -/
structure DescribesPage (p : Json) (page : Page) : Prop where
  keys : hasKeys p pageKeys = true
  docId : item p "doc_id" = .str (String.ofList page.docId)
  index : item p "index" = .int page.index
  widthPx : item p "width_px" = .int page.widthPx
  heightPx : item p "height_px" = .int page.heightPx
  imageSha256 : item p "image_sha256" = .str (String.ofList page.imageSha256)

/-- A page that is accepted on its own. -/
structure ValidPage (docId : Str) (count : ℤ) (page : Page) : Prop where
  docId : page.docId = docId
  index : 1 ≤ page.index ∧ page.index ≤ count
  widthPx : 1 ≤ page.widthPx ∧ page.widthPx ≤ 1000000
  heightPx : 1 ≤ page.heightPx ∧ page.heightPx ≤ 1000000
  imageSha256 : page.imageSha256 = [] ∨ isDigest page.imageSha256 = true

lemma PageLoop.step_ok_iff {docId : Str} {count : ℤ} {loop loop' : PageLoop} {p : Json} :
    loop.step docId count p = .ok loop' ↔ ∃ page, DescribesPage p page ∧
      (ValidPage docId count page ∧ page.index ∉ loop.seenPages) ∧ loop' = loop.add page := by
  simp only [PageLoop.step, Except.bind_eq_ok_iff, keys_ok_iff, check_ok_iff, Json.pyEq_str_right,
    integer_ok_iff, hash_ok_iff, decide_eq_true_eq, true_and, Except.pure_eq, Except.ok.injEq]
  constructor
  · rintro ⟨-, hkeys, -, hdoc, index, ⟨hindex, hbounds⟩, -, hnew, width, ⟨hwidth, hwidth'⟩, height,
      ⟨hheight, hheight'⟩, image, ⟨himage, himage'⟩, rfl⟩
    exact ⟨⟨docId, index, width, height, image⟩, ⟨hkeys, hdoc, hindex, hwidth, hheight, himage⟩,
      ⟨⟨rfl, hbounds, hwidth', hheight', himage'⟩, hnew⟩, rfl⟩
  · rintro ⟨⟨docId', index, width, height, image⟩, hp, ⟨hvalid, hnew⟩, rfl⟩
    obtain rfl : docId' = docId := hvalid.docId
    exact ⟨(), hp.keys, (), hp.docId, index, ⟨hp.index, hvalid.index⟩, (), hnew, width,
      ⟨hp.widthPx, hvalid.widthPx⟩, height, ⟨hp.heightPx, hvalid.heightPx⟩, image,
      ⟨hp.imageSha256, hvalid.imageSha256⟩, rfl⟩

lemma PageLoop.foldl_add (loop : PageLoop) (pages : List Page) :
    pages.foldl PageLoop.add loop =
      ⟨loop.pages ++ pages, loop.seenPages ++ pages.map (·.index)⟩ := by
  induction pages generalizing loop with
  | nil => simp
  | cons page pages ih => simp [ih, PageLoop.add]

/-- The loop over the pages accepts valid pages with distinct numbers. -/
lemma PageLoop.run_ok_iff {docId : Str} {count : ℤ} {raw : List Json} {loop : PageLoop} :
    raw.foldlM (PageLoop.step docId count) {} = .ok loop ↔
      ∃ pages, List.Forall₂ DescribesPage raw pages ∧ (∀ page ∈ pages, ValidPage docId count page) ∧
        (pages.map (·.index)).Nodup ∧ loop = ⟨pages, pages.map (·.index)⟩ := by
  rw [List.foldlM_ok_iff (f := PageLoop.step docId count) fun _ _ _ => PageLoop.step_ok_iff]
  refine exists_congr fun pages => and_congr_right fun _ => ?_
  rw [List.accepted_and, List.accepted_const,
    List.accepted_not_mem (fun _ _ => rfl : ∀ (loop : PageLoop) (page : Page),
      (loop.add page).seenPages = loop.seenPages ++ [page.index]), PageLoop.foldl_add]
  simp [and_assoc]

variable (rt) in
/-- The dictionary of a box. -/
structure DescribesBox (b : Json) (bbox : BBox) : Prop where
  keys : hasKeys b boxKeys = true
  x0 : Denotes rt (item b "x0") bbox.x0
  y0 : Denotes rt (item b "y0") bbox.y0
  x1 : Denotes rt (item b "x1") bbox.x1
  y1 : Denotes rt (item b "y1") bbox.y1

/-- The coordinates of a box. -/
def coords (bbox : BBox) : List PyFloat := [bbox.x0, bbox.y0, bbox.x1, bbox.y1]

lemma mk?_eq_some_iff {x0 y0 x1 y1 : PyFloat} {bbox : BBox} :
    BBox.mk? x0 y0 x1 y1 = some bbox ↔
      x0 = bbox.x0 ∧ y0 = bbox.y0 ∧ x1 = bbox.x1 ∧ y1 = bbox.y1 := by
  unfold BBox.mk?
  constructor
  · intro h
    split_ifs at h
    cases h
    exact ⟨rfl, rfl, rfl, rfl⟩
  · rintro ⟨rfl, rfl, rfl, rfl⟩
    rw [dif_pos ⟨bbox.x_ordered, bbox.y_ordered⟩]

lemma box_ok_iff {b : Json} {bbox : BBox} :
    box rt b = .ok bbox ↔ DescribesBox rt b bbox ∧ ∀ x ∈ coords bbox, isShare x = true := by
  simp only [box, Except.bind_eq_ok_iff, keys_ok_iff, number_ok_iff, check_ok_iff, List.all_eq_true]
  constructor
  · rintro ⟨-, hkeys, x0, hx0, y0, hy0, x1, hx1, y1, hy1, -, hshare, h⟩
    split at h
    · rename_i bbox' hmk
      cases h
      obtain ⟨rfl, rfl, rfl, rfl⟩ := mk?_eq_some_iff.mp hmk
      exact ⟨⟨hkeys, hx0, hy0, hx1, hy1⟩, hshare⟩
    · cases h
  · rintro ⟨hb, hshare⟩
    refine ⟨(), hb.keys, _, hb.x0, _, hb.y0, _, hb.x1, _, hb.y1, (), hshare, ?_⟩
    rw [mk?_eq_some_iff.mpr ⟨rfl, rfl, rfl, rfl⟩]

variable (rt) in
/-- The dictionary of a chunk. -/
structure DescribesChunk (c : Json) (chunk : Chunk) : Prop where
  keys : hasKeys c chunkKeys = true
  chunkId : item c "chunk_id" = .str (String.ofList chunk.chunkId)
  docId : item c "doc_id" = .str (String.ofList chunk.docId)
  page : item c "page" = .int chunk.page
  bbox : ∃ bbox, chunk.bbox = some bbox ∧ DescribesBox rt (item c "bbox") bbox
  text : item c "text" = .str (String.ofList chunk.text)
  sourceType : item c "source_type" = .str (String.ofList chunk.sourceType)
  embedding : ∃ xs, item c "embedding" = .arr xs ∧ List.Forall₂ (Denotes rt) xs chunk.embedding

/-- A chunk that is accepted on its own. -/
structure ValidChunk (docId : Str) (count : ℤ) (seenPages : List ℤ) (chunk : Chunk) : Prop where
  chunkId : IsIdentifier chunk.chunkId
  docId : chunk.docId = docId
  page : 1 ≤ (chunk.page : ℤ) ∧ (chunk.page : ℤ) ≤ count
  seen : (chunk.page : ℤ) ∈ seenPages
  bbox : ∃ bbox, chunk.bbox = some bbox ∧ ∀ x ∈ coords bbox, isShare x = true
  sourceType : chunk.sourceType.length ≤ 128 ∧ chunk.sourceType ≠ []
  embedding : chunk.embedding.length ≤ maxEmbeddingValues

lemma ChunkLoop.step_ok_iff {limits : Configuration} {docId : Str} {count : ℤ} {seenPages : List ℤ}
    {loop loop' : ChunkLoop} {c : Json} :
    loop.step rt limits docId count seenPages c = .ok loop' ↔ ∃ chunk, DescribesChunk rt c chunk ∧
      (ValidChunk docId count seenPages chunk ∧ chunk.chunkId ∉ loop.seenChunks ∧
        loop.textCount + chunk.text.length ≤ limits.text) ∧ loop' = loop.add chunk := by
  simp only [ChunkLoop.step, Except.bind_eq_ok_iff, keys_ok_iff, check_ok_iff, Json.pyEq_str_right,
    identifier_ok_iff, integer_ok_iff, string_ok_iff, box_ok_iff, items_ok_iff, Bool.and_eq_true,
    List.mapM_eq_ok_iff, number_ok_iff, decide_eq_true_eq, Except.pure_eq, Except.ok.injEq]
  constructor
  · rintro ⟨-, hkeys, chunkId, ⟨hid, hid'⟩, -, ⟨hnew, hdoc⟩, page, ⟨hpage, hbounds⟩, -, hseen, bbox,
      ⟨hbox, hshare⟩, text, ⟨htext, -, -⟩, -, htotal, xs, ⟨hxs, hlength⟩, sourceType,
      ⟨hsource, hsource', hsource''⟩, embedding, hembedding, rfl⟩
    have hpositive : 0 ≤ page := by omega
    obtain ⟨page, rfl⟩ := Int.eq_ofNat_of_zero_le hpositive
    refine ⟨⟨chunkId, docId, page, some bbox, text, sourceType, embedding⟩,
      ⟨hkeys, hid, hdoc, hpage, ⟨bbox, rfl, hbox⟩, htext, hsource, xs, hxs, hembedding⟩,
      ⟨⟨hid', rfl, hbounds, hseen, ⟨bbox, rfl, hshare⟩, ⟨hsource', hsource'' trivial⟩, ?_⟩, hnew, htotal⟩,
      rfl⟩
    exact hembedding.length_eq ▸ hlength
  · rintro ⟨⟨chunkId, docId', page, _, text, sourceType, embedding⟩, hc, ⟨hvalid, hnew, htotal⟩, rfl⟩
    obtain rfl : docId' = docId := hvalid.docId
    obtain ⟨bbox, rfl, hbox⟩ := hc.bbox
    obtain ⟨_, ⟨⟩, hshare⟩ := hvalid.bbox
    obtain ⟨xs, hxs, hembedding⟩ := hc.embedding
    refine ⟨(), hc.keys, chunkId, ⟨hc.chunkId, hvalid.chunkId⟩, (), ⟨hnew, hc.docId⟩, page,
      ⟨hc.page, hvalid.page⟩, (), hvalid.seen, bbox, ⟨hbox, hshare⟩, text,
      ⟨hc.text, (Nat.le_add_left _ _).trans htotal, fun h => by cases h⟩, (), htotal, xs, ⟨hxs, ?_⟩,
      sourceType, ⟨hc.sourceType, hvalid.sourceType.1, fun _ => hvalid.sourceType.2⟩, embedding,
      hembedding, rfl⟩
    exact hembedding.length_eq ▸ hvalid.embedding

lemma ChunkLoop.foldl_add (loop : ChunkLoop) (chunks : List Chunk) :
    chunks.foldl ChunkLoop.add loop =
      ⟨loop.chunks ++ chunks, loop.seenChunks ++ chunks.map (·.chunkId),
        loop.textCount + (chunks.map (·.text.length)).sum⟩ := by
  induction chunks generalizing loop with
  | nil => simp
  | cons chunk chunks ih => simp [ih, ChunkLoop.add, Nat.add_assoc]

/-- The loop over the chunks accepts valid chunks with distinct ids and not too much text. -/
lemma ChunkLoop.run_ok_iff {limits : Configuration} {docId : Str} {count : ℤ} {seenPages : List ℤ}
    {raw : List Json} {loop : ChunkLoop} :
    raw.foldlM (ChunkLoop.step rt limits docId count seenPages) {} = .ok loop ↔
      ∃ chunks, List.Forall₂ (DescribesChunk rt) raw chunks ∧
        (∀ chunk ∈ chunks, ValidChunk docId count seenPages chunk) ∧
        (chunks.map (·.chunkId)).Nodup ∧ (chunks.map (·.text.length)).sum ≤ limits.text ∧
        loop = chunks.foldl ChunkLoop.add {} := by
  rw [List.foldlM_ok_iff (f := ChunkLoop.step rt limits docId count seenPages)
    fun _ _ _ => ChunkLoop.step_ok_iff]
  refine exists_congr fun chunks => and_congr_right fun _ => ?_
  rw [List.accepted_and, List.accepted_and, List.accepted_const,
    List.accepted_not_mem (fun _ _ => rfl : ∀ (loop : ChunkLoop) (chunk : Chunk),
      (loop.add chunk).seenChunks = loop.seenChunks ++ [chunk.chunkId]),
    List.accepted_total (fun _ _ => rfl : ∀ (loop : ChunkLoop) (chunk : Chunk),
      (loop.add chunk).textCount = loop.textCount + chunk.text.length) (Nat.zero_le _)]
  simp [and_assoc]

/-! ### What a payload describes -/

variable (rt) in
/-- The payload holds this graph. -/
structure Describes (payload : Json) (graph : Graph Time) : Prop where
  keys : hasKeys payload payloadKeys = true
  version : item payload "version" = .int 1
  status : item payload "status" = .str "ok"
  documentKeys : hasKeys (item payload "document") documentKeys = true
  docId : item (item payload "document") "doc_id" = .str (String.ofList graph.document.docId)
  sourcePath : item (item payload "document") "source_path" =
    .str (String.ofList graph.document.sourcePath)
  sha256 : item (item payload "document") "sha256" = .str (String.ofList graph.document.sha256)
  pageCount : item (item payload "document") "page_count" = .int graph.document.pageCount
  ingestedAt : timestamp rt (item (item payload "document") "ingested_at") = .ok graph.ingestedAt
  pages : ∃ raw, item payload "pages" = .arr raw ∧ List.Forall₂ DescribesPage raw graph.pages
  chunks : ∃ raw, item payload "chunks" = .arr raw ∧
    List.Forall₂ (DescribesChunk rt) raw graph.chunks

/-- The parts of the graph fit together, and it is within the limits. -/
structure Graph.Valid (snapshot digest : Str) (limits : Configuration) (graph : Graph Time) :
    Prop where
  docId : IsIdentifier graph.document.docId
  sourcePath : graph.document.sourcePath = snapshot
  pathLength : snapshot.length ≤ 4096
  sha256 : graph.document.sha256 = digest
  digest : isDigest digest = true
  pageCount : 1 ≤ graph.document.pageCount ∧ graph.document.pageCount ≤ limits.pages
  pages_length : (graph.pages.length : ℤ) = graph.document.pageCount
  pages : ∀ page ∈ graph.pages, ValidPage graph.document.docId graph.document.pageCount page
  pages_nodup : (graph.pages.map (·.index)).Nodup
  chunks_length : graph.chunks.length ≤ limits.chunks
  chunks : ∀ chunk ∈ graph.chunks,
    ValidChunk graph.document.docId graph.document.pageCount (graph.pages.map (·.index)) chunk
  chunks_nodup : (graph.chunks.map (·.chunkId)).Nodup
  text : (graph.chunks.map (·.text.length)).sum ≤ limits.text

lemma int?_eq_some_iff {value : Json} {n : ℤ} : value.int? = some n ↔ value = .int n := by
  cases value <;> simp [Json.int?]

/-- `_validate` accepts the payloads that describe a valid graph, and returns the graph. -/
theorem validate_ok_iff {payload : Json} {snapshot digest : Str} {limits : Configuration}
    {graph : Graph Time} :
    validate rt payload snapshot digest limits = .ok graph ↔
      Describes rt payload graph ∧ graph.Valid snapshot digest limits := by
  simp only [validate, Except.bind_eq_ok_iff, keys_ok_iff, check_ok_iff, Bool.and_eq_true,
    decide_eq_true_eq, Json.pyEq_str_right, int?_eq_some_iff, identifier_ok_iff, string_ok_iff,
    hash_ok_iff, integer_ok_iff, items_ok_iff, PageLoop.run_ok_iff, ChunkLoop.run_ok_iff,
    Except.pure_eq, Except.ok.injEq]
  constructor
  · rintro ⟨-, hkeys, -, ⟨hversion, hstatus⟩, -, hdoc, docId, ⟨hid, hid'⟩, _, ⟨hpath, hpath', -⟩, -, rfl,
      _, ⟨hsha, hsha'⟩, -, rfl, count, ⟨hcount, hcount'⟩, time, htime, rawPages, ⟨hpages, hlength⟩,
      rawChunks, ⟨hchunks, hlength'⟩, _, ⟨pages, hraw, hvalid, hnodup, rfl⟩, _,
      ⟨chunks, hraw', hvalid', hnodup', htext, rfl⟩, rfl⟩
    rw [ChunkLoop.foldl_add]
    refine ⟨⟨hkeys, hversion, hstatus, hdoc, hid, hpath, hsha, hcount, htime, ⟨rawPages, hpages, hraw⟩,
      rawChunks, hchunks, hraw'⟩, ⟨hid', rfl, hpath', rfl, by simpa using hsha', hcount', ?_, hvalid,
      hnodup, ?_, hvalid', hnodup', htext⟩⟩
    · rw [← hraw.length_eq]
      exact hlength
    · exact hraw'.length_eq ▸ hlength'
  · rintro ⟨hd, hv⟩
    obtain ⟨chunks, ⟨docId, path, sha, count⟩, time, pages⟩ := graph
    obtain rfl : path = snapshot := hv.sourcePath
    obtain rfl : sha = digest := hv.sha256
    obtain ⟨rawPages, hpages, hraw⟩ := hd.pages
    obtain ⟨rawChunks, hchunks, hraw'⟩ := hd.chunks
    refine ⟨(), hd.keys, (), ⟨hd.version, hd.status⟩, (), hd.documentKeys, docId, ⟨hd.docId, hv.docId⟩,
      path, ⟨hd.sourcePath, hv.pathLength, fun h => by cases h⟩, (), rfl, sha,
      ⟨hd.sha256, .inr hv.digest⟩, (), rfl, count, ⟨hd.pageCount, hv.pageCount⟩, time, hd.ingestedAt,
      rawPages, ⟨hpages, ?_⟩, rawChunks, ⟨hchunks, ?_⟩, _, ⟨pages, hraw, hv.pages, hv.pages_nodup, rfl⟩,
      _, ⟨chunks, hraw', hv.chunks, hv.chunks_nodup, hv.text, rfl⟩, ?_⟩
    · rw [hraw.length_eq]
      exact hv.pages_length
    · exact hraw'.length_eq ▸ hv.chunks_length
    · rw [ChunkLoop.foldl_add]
      rfl

end

end AxiomGrid.Pipeline.Isolated
