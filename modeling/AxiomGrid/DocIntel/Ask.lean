import AxiomGrid.Audit.SignedLog
import AxiomGrid.Lib.Regex
import Mathlib.Data.List.Sort

/-!
# Asking the documents

`DocIntelSession.ask` of `kairo/docintel/ask.py`, with the index of `kairo/docintel/retrieval.py`: a
question is scanned, the chunks closest to it are retrieved, the sentence that shares most words with
it is quoted with a citation, and every result goes to the signed log.

The embedding is a parameter of the index, and what the local model says is given with each call.
`round` is the rounding of the float format.
-/

namespace AxiomGrid.DocIntel

open Audit (Number)

/-! ### The index -/

/-- `ChunkMeta`, without the offsets, which are not read. -/
structure ChunkMeta where
  chunkId : String
  page : ℤ
  text : String
  bbox : Number × Number × Number × Number
  deriving DecidableEq

/-- `RetrievalResult`. -/
structure RetrievalResult where
  chunk : ChunkMeta
  score : ℚ
  rank : ℕ

/-- `RetrievalIndex`, with the similarity of two texts under its embedding. -/
structure RetrievalIndex where
  chunks : List ChunkMeta
  similarity : String → String → ℚ
  embedBackend : String

/-- `add_document`. -/
def RetrievalIndex.addDocument (index : RetrievalIndex) (chunks : List ChunkMeta) : RetrievalIndex :=
  { index with chunks := index.chunks ++ chunks }

/-- `retrieve`: the sort is stable. -/
def RetrievalIndex.retrieve (index : RetrievalIndex) (question : String) (topK : ℕ) :
    List RetrievalResult :=
  let scores := index.chunks.map fun chunk => (index.similarity question chunk.text, chunk)
  let sorted := scores.insertionSort fun a b => b.1 ≤ a.1
  (sorted.take topK).zipIdx.map fun hit => ⟨hit.1.2, hit.1.1, hit.2 + 1⟩

/-! ### The shield -/

/-- `PromptShield`: its patterns, each with its search in a text. -/
structure PromptShield where
  patterns : List (String × (Str → Bool))

/-- `matched_patterns` of `scan_detailed`; the text is safe when there are none. -/
def PromptShield.scanDetailed (shield : PromptShield) (text : Str) : List String :=
  if Str.strip text = [] then []
  else (shield.patterns.filter fun pattern => pattern.2 text).map Prod.fst

/-! ### Sentences -/

/-- The abbreviations of `_split_sentences`. -/
def abbreviations : List String :=
  ["Dr", "Mr", "Ms", "Mrs", "Prof", "Sr", "Jr", "vs", "etc", "Inc", "Ltd", "Corp"]

section

open Regex (Pattern)

/-- The pattern of a line break. -/
def newlines : Pattern := .many1 true (· == '\n')

/-- The pattern of a character class, `\w`. -/
def isWordChar (u : UnicodeData) (c : Char) : Bool := u.isAlnum c || c == '_'

/-- The pattern of an abbreviation. A word boundary before a letter is the start of the text or has no
word character before it. -/
def abbreviation (u : UnicodeData) : Pattern :=
  .seq (.alt .start (.lookbehind fun c => !isWordChar u c))
    (.seq (.capture (.oneOf (abbreviations.map fun word =>
      .concat (word.toList.map fun letter => .char (· == letter))))) (.char (· == '.')))

/-- The pattern between two sentences. -/
def sentenceGap : Pattern :=
  .seq (.lookbehind fun c => c == '.' || c == '!' || c == '?') (.many1 true Str.isSpace)

/-- The placeholder for a dot. -/
def dotMark : Str := ['<', 'D', 'O', 'T', '>']

/-- `normalized`. -/
def normalize (text : Str) : Str := Regex.sub newlines (fun _ => [' ']) text

/-- `protected`. -/
def protect (u : UnicodeData) (text : Str) : Str :=
  Regex.sub (abbreviation u) (fun m => m.group.getD [] ++ dotMark) text

/-- `s.replace('<DOT>', '.')`. -/
def restore : Str → Str
  | '<' :: 'D' :: 'O' :: 'T' :: '>' :: cs => '.' :: restore cs
  | c :: cs => c :: restore cs
  | [] => []

/-- `_split_sentences`. -/
def splitSentences (u : UnicodeData) (text : Str) : List Str :=
  ((Regex.split sentenceGap (protect u (normalize text))).map fun s => restore (Str.strip s)).filter
    (· ≠ [])

end

/-! ### Extraction -/

/-- `Citation`. -/
structure Citation where
  page : ℤ
  bbox : Number × Number × Number × Number
  chunkId : String
  sourceText : String
  deriving DecidableEq

/-- The citation of a chunk. -/
def ChunkMeta.cite (chunk : ChunkMeta) (sourceText : Str) : Citation :=
  ⟨chunk.page, chunk.bbox, chunk.chunkId, String.ofList sourceText⟩

/-- The characters that are stripped from a word. -/
def punctuation : Str := ".,!?;:\"'()[]\x7b\x7d".toList

/-- `w.lower().strip(…)`. -/
def bareWord (u : UnicodeData) (word : Str) : Str :=
  (((Str.lower u word).dropWhile (· ∈ punctuation)).reverse.dropWhile (· ∈ punctuation)).reverse

def stopWords : List String :=
  ["the", "and", "for", "are", "but", "not", "you", "all", "can", "her", "was", "one", "our", "out",
    "has", "have", "had", "what", "who", "when", "where", "why", "how", "which", "that", "this", "with",
    "from", "they", "been", "said", "each", "make", "like", "does", "will", "would", "could", "should",
    "into", "your", "about", "there", "their", "them", "these", "those", "then", "many", "people",
    "work", "there"]

/-- `q_keywords`. -/
def keywords (u : UnicodeData) (question : Str) : List Str :=
  ((((Str.split question).filter fun w => 2 < w.length).map (bareWord u)).filter
    (· ∉ stopWords.map String.toList)).dedup

/-- The score of a sentence. -/
def sentenceScore (u : UnicodeData) (round : ℚ → ℚ) (question sentence : Str) : ℚ :=
  let words := (Str.split sentence).map (bareWord u)
  let overlap := ((keywords u question).filter (· ∈ words)).length
  round (overlap - round ((sentence.length - 300 : ℕ) / 300))

/-- `best_score`, and `best_sentence` with `best_chunk`. -/
structure Best where
  score : ℚ := -1
  choice : Option (Str × ChunkMeta) := none

/-- The body of the loop over the sentences. -/
def Best.consider (u : UnicodeData) (round : ℚ → ℚ) (question : Str) (best : Best)
    (candidate : Str × ChunkMeta) : Best :=
  let score := sentenceScore u round question candidate.1
  if best.score < score then ⟨score, some (Str.strip candidate.1, candidate.2)⟩ else best

/-- The sentences of the hits, each with its chunk. -/
def candidates (u : UnicodeData) (hits : List RetrievalResult) : List (Str × ChunkMeta) :=
  hits.flatMap fun hit => (splitSentences u hit.chunk.text.toList).map fun s => (s, hit.chunk)

/-- The start of the first chunk, when no sentence is chosen. -/
def leadingText (hits : List RetrievalResult) : Option (Str × Citation) :=
  match hits with
  | [] => none
  | hit :: _ =>
    let text := Str.strip (hit.chunk.text.toList.take 500)
    if text = [] then none else some (text, hit.chunk.cite text)

/-- `_extract_answer`. -/
def extractAnswer (u : UnicodeData) (round : ℚ → ℚ) (question : Str) (hits : List RetrievalResult) :
    Option (Str × Citation) :=
  let best := (candidates u hits).foldl (Best.consider u round question) {}
  match best.choice with
  | none => leadingText hits
  | some (sentence, chunk) =>
    if best.score ≤ 0 then leadingText hits else some (sentence, chunk.cite sentence)

/-! ### The session -/

/-- `refusal_reason`, with what its text shows. -/
inductive Refusal where
  | injection (patterns : List String)
  | noDocuments
  | noMatch (bestScore : ℚ)
  | noText

/-- `AskResult`; `refused` holds when there is a reason. -/
structure AskResult where
  question : String
  answer : String := ""
  citation : Option Citation := none
  refusal : Option Refusal := none
  retrievalScores : List ℚ := []
  auditEntryId : String := ""
  auditSignature : String := ""
  injectionDetectedInChunks : Bool := false
  embedBackend : String := ""

/-- `result.refused`. -/
def AskResult.refused (result : AskResult) : Bool := result.refusal.isSome

/-- `AskError`. -/
inductive AskError where
  | emptyQuestion
  | auditRequired
  | auditFailed
  deriving DecidableEq

/-- `DocIntelSession`. -/
structure Session where
  index : RetrievalIndex
  pageTexts : List (ℤ × String) := []
  auditLog : Option Audit.SignedAuditLog
  secureMode : Bool := true
  promptShield : Option PromptShield

/-- A call of `ask`, with what the local model says to a prompt (`none` when it is not asked or
raises), and the identifier and the time of the entry that is logged. -/
structure Call where
  question : String
  complete : String → Option String
  entryId : String
  timestamp : String

/-- `MIN_SIMILARITY`: the float 0.01. -/
def minSimilarity : ℚ := 5764607523034235 / 576460752303423488

/-- The prompt of `_try_llm_augment`. -/
def prompt (question : String) (hits : List RetrievalResult) : String :=
  let context := "\n\n".intercalate ((hits.take 3).map fun hit =>
    "[Page " ++ toString hit.chunk.page ++ "] " ++ hit.chunk.text)
  "Based on the following source text, answer the question.\nSource:\n" ++ context ++
    "\n\nQuestion: " ++ question ++ "\nAnswer concisely based only on the source text above:"

/-- `_try_llm_augment`. -/
def tryLlmAugment (call : Call) (hits : List RetrievalResult) : Option Str :=
  match call.complete (prompt call.question hits) with
  | none => none
  | some text =>
    if text ≠ "" ∧ ¬"[TEST_MODE]".toList <+: text.toList then some (Str.strip text.toList) else none

/-- `llm_answer if llm_answer else answer_text`. -/
def finalAnswer (llmAnswer : Option Str) (answerText : Str) : Str :=
  match llmAnswer with
  | some text => if text = [] then answerText else text
  | none => answerText

/-- The patterns that the shield finds. -/
def Session.scan (session : Session) (text : String) : List String :=
  match session.promptShield with
  | some shield => shield.scanDetailed text.toList
  | none => []

section

variable (u : UnicodeData) (round : ℚ → ℚ)

/-- The steps of `ask` on what was retrieved. -/
def Session.answerFrom (session : Session) (call : Call) (hits : List RetrievalResult) : AskResult :=
  match hits with
  | [] =>
    { question := call.question, refusal := some .noDocuments,
      embedBackend := session.index.embedBackend }
  | best :: _ =>
    let scores := hits.map RetrievalResult.score
    if best.score < minSimilarity then
      { question := call.question, refusal := some (.noMatch best.score), retrievalScores := scores,
        embedBackend := session.index.embedBackend }
    else
      let injection := hits.any fun hit => session.scan hit.chunk.text ≠ []
      match extractAnswer u round call.question.toList hits with
      | none =>
        { question := call.question, refusal := some .noText, retrievalScores := scores,
          injectionDetectedInChunks := injection, embedBackend := session.index.embedBackend }
      | some (answerText, citation) =>
        { question := call.question
          answer := String.ofList (finalAnswer (tryLlmAugment call hits) answerText)
          citation := some citation
          retrievalScores := scores
          injectionDetectedInChunks := injection
          embedBackend := session.index.embedBackend }

/-- What `ask` hands to `_audit`. -/
def Session.result (session : Session) (call : Call) : AskResult :=
  if session.scan call.question ≠ [] then
    { question := call.question, refusal := some (.injection (session.scan call.question)) }
  else session.answerFrom u round call (session.index.retrieve call.question 5)

/-- `doc_hash`. -/
def documentHash (pageTexts : List (ℤ × String)) : String :=
  if pageTexts = [] then "" else (sha256 (utf8 (String.join (pageTexts.map Prod.snd)))).hex

/-- The citations of the answer that is logged; `none` is the error of `BBox`. -/
def AskResult.anchors (result : AskResult) : Option (List Audit.Anchor) :=
  match result.citation with
  | none => some []
  | some citation =>
    let (x0, y0, x1, y1) := citation.bbox
    (Audit.BBox.mk? x0 y0 x1 y1).map fun bbox =>
      [{ chunkId := citation.chunkId, page := citation.page, bbox := some bbox }]

/-- The call of the log. -/
def Session.auditEvent (session : Session) (call : Call) (result : AskResult)
    (anchors : List Audit.Anchor) : Audit.Event where
  entryId := call.entryId
  timestamp := call.timestamp
  call :=
    .logAnswer { query := result.question, citations := anchors, grounded := result.citation.isSome }
      (documentHash session.pageTexts) ("docintel-extractive-v1-" ++ result.embedBackend)

/-- `_audit`, and the result that `ask` then returns. -/
def Session.audit (session : Session) (call : Call) (result : AskResult) :
    Session × Except AskError AskResult :=
  match session.auditLog, result.anchors with
  | none, _ => (session, if session.secureMode then .error .auditRequired else .ok result)
  | some _, none => (session, if session.secureMode then .error .auditFailed else .ok result)
  | some log, some anchors =>
    let event := session.auditEvent call result anchors
    ({ session with auditLog := some (log.log event) },
      .ok { result with
        auditEntryId := call.entryId
        auditSignature :=
          Audit.sign log.sessionKey (event.unsigned log.lastSignature).contentBytes })

/-- `ask`. -/
def Session.ask (session : Session) (call : Call) : Session × Except AskError AskResult :=
  if Str.strip call.question.toList = [] then (session, .error .emptyQuestion)
  else session.audit call (session.result u round call)

end

end AxiomGrid.DocIntel
