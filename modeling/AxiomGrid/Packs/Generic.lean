import AxiomGrid.Lib.JsonParse
import AxiomGrid.Lib.Regex
import AxiomGrid.Pipeline.DataModel

/-!
# Generic pack

`GenericPack.extract` of `packs/generic/pack.py`: a summary, key claims, entities and topics from the
chunks of any document. The patterns are transcribed one for one. The id that an extraction gets when
it is created is a parameter, one for each field.
-/

namespace AxiomGrid.Packs

open Pipeline Regex Regex.Pattern

/-- The fields of the pack. -/
def genericFields : List Str :=
  ["summary".toList, "key_claims".toList, "entities".toList, "topics".toList]

/-- `"\n".join(c.text for c in chunks)`. -/
def fullText (chunks : List Chunk) : Str := Str.joinLines (chunks.map (·.text))

/-- `json.dumps` of a list of texts. -/
def dumpsList (texts : List Str) : Str :=
  (Json.dumpsWith .spaced (.arr (texts.map fun s => .str (String.ofList s)))).toList

section

variable (u : UnicodeData)

/-! ### Summary -/

def isNewline (c : Char) : Bool := c == '\n'

/-- `.` without `DOTALL`, and `[^\n]`. -/
def isInLine (c : Char) : Bool := c != '\n'

/-- `(?:executive\s+summary|summary|abstract)\s*:?\s*\n(.+?)(?:\n\n|\n[A-Z][^\n]*:|\n•|$)`. -/
def summaryPattern : Pattern :=
  .concat [
    .oneOf [
      .concat [wordIgnoreCase u "executive", .many1 true Str.isSpace, wordIgnoreCase u "summary"],
      wordIgnoreCase u "summary", wordIgnoreCase u "abstract"],
    .many true Str.isSpace, .opt (.char (· == ':')), .many true Str.isSpace, .char isNewline,
    .capture (.many1 false fun _ => true),
    .oneOf [
      .concat [.char isNewline, .char isNewline],
      .concat [.char isNewline, .char (letterIgnoreCase u), .many true isInLine, .char (· == ':')],
      .concat [.char isNewline, .char (· == '•')],
      .stop]]

/-- `(?<=[.!?])\s+`. -/
def sentenceEnd : Pattern :=
  .seq (.lookbehind fun c => c == '.' || c == '!' || c == '?') (.many1 true Str.isSpace)

/-- The section under a summary header, and the chunk it starts in. -/
def summarySection (chunks : List Chunk) : Option (Str × Option Chunk) :=
  (search (summaryPattern u) (fullText chunks)).map fun m =>
    let summaryVal := Str.strip (m.group.getD [])
    (summaryVal,
      (chunks.find? fun c => Str.contains (summaryVal.take 30) c.text) <|> chunks.head?)

/-- The first two sentences of the first chunk of more than 50 characters. -/
def summarySentences (chunks : List Chunk) : Option (Str × Option Chunk) :=
  (chunks.find? fun c => 50 < (Str.strip c.text).length).map fun c =>
    (Str.strip (Str.unwords ((Regex.split sentenceEnd c.text).take 2)), some c)

/-- `summary_val` and `summary_chunk`. -/
def summary (chunks : List Chunk) : Option (Str × Option Chunk) :=
  match summarySection u chunks with
  | some (summaryVal, chunk) =>
    if summaryVal = [] then summarySentences chunks else some (summaryVal, chunk)
  | none => summarySentences chunks

/-! ### Key claims -/

/-- The header of a section of claims, anywhere in a line. -/
def claimsHeader : Pattern :=
  let spaced (first second : String) : Pattern :=
    .concat [wordIgnoreCase u first, .many1 true Str.isSpace, wordIgnoreCase u second]
  .concat [
    .oneOf [
      .concat [spaced "key" "claim", .opt (.char (ignoreCase u 's'))],
      spaced "main" "findings", spaced "key" "findings", spaced "key" "recommendations",
      wordIgnoreCase u "findings", wordIgnoreCase u "recommendations", wordIgnoreCase u "results",
      wordIgnoreCase u "conclusions", spaced "primary" "conclusions", spaced "key" "contributions"],
    .many true Str.isSpace, .char (· == ':')]

def isBullet (c : Char) : Bool := c == '•' || c == '-' || c == '*'

/-- `\d`. -/
def isDecimal (c : Char) : Bool := (u.decimal c).isSome

/-- `^[•\-*]\s*`. -/
def bulletPrefix : Pattern := .seq .start (.seq (.char isBullet) (.many true Str.isSpace))

/-- `^\d+\.\s*`. -/
def numberPrefix : Pattern :=
  .seq .start (.concat [.many1 true (isDecimal u), .char (· == '.'), .many true Str.isSpace])

/-- `^[•\-*]\s*(.+)`. -/
def bulletItem : Pattern := .seq bulletPrefix (.capture (.many1 true isInLine))

/-- `^\d+\.\s*(.+)`. -/
def numberedItem : Pattern := .seq (numberPrefix u) (.capture (.many1 true isInLine))

/-- The text of a line that starts with a bullet or a number. -/
def listItem (line : Str) : Option Str :=
  (matchStart bulletItem line <|> matchStart (numberedItem u) line).map fun m =>
    Str.strip (m.group.getD [])

/-- Appending a claim that is long enough and not listed yet. -/
def addClaim (minLength : ℕ) (claims : List Str) (claim : Str) : List Str :=
  if minLength < claim.length ∧ claim ∉ claims then claims ++ [claim] else claims

/-- The variables of the loop over the lines. -/
structure ClaimsLoop where
  inClaimsSection : Bool := false
  claims : List Str := []
  chunk : Option Chunk := none

/-- One line of a chunk: a header opens a section, items of a section are claims, and another line
that is not blank closes it once there are claims. -/
def ClaimsLoop.step (c : Chunk) (loop : ClaimsLoop) (line : Str) : ClaimsLoop :=
  let lineStripped := Str.strip line
  match search (claimsHeader u) lineStripped with
  | some header =>
    let afterHeader := Str.strip header.rest
    { inClaimsSection := true
      chunk := loop.chunk <|> some c
      claims :=
        if afterHeader = [] then loop.claims
        else addClaim 10 loop.claims ((listItem u afterHeader).getD afterHeader) }
  | none =>
    if loop.inClaimsSection then
      match listItem u lineStripped with
      | some cleaned => { loop with claims := addClaim 10 loop.claims cleaned }
      | none =>
        if lineStripped ≠ [] ∧ 0 < loop.claims.length then { loop with inClaimsSection := false }
        else loop
    else loop

/-- The claims of the first chunk with a section of claims. -/
def sectionClaims (chunk : Option Chunk) : List Chunk → List Str × Option Chunk
  | [] => ([], chunk)
  | c :: chunks =>
    let loop := (Str.splitLines c.text).foldl (ClaimsLoop.step u c) { chunk }
    if loop.claims = [] then sectionClaims loop.chunk chunks else (loop.claims, loop.chunk)

def claimKeywords : List Str :=
  ["claim", "show", "propose", "suggest", "result", "find", "recommend", "complet", "reduc", "achiev",
    "budget", "cost", "vulnerab", "segment", "access", "migration", "latency", "market", "adoption",
    "growth"].map String.toList

/-- One line of the fallback: an item with a keyword of a claim. -/
def fallbackStep (loop : List Str × Option Chunk) (entry : Chunk × Str) : List Str × Option Chunk :=
  let lineStripped := Str.strip entry.2
  if (matchStart bulletItem lineStripped <|> matchStart (numberedItem u) lineStripped).isSome ∧
      claimKeywords.any (fun k => Str.contains k (Str.lower u entry.2)) then
    let cleaned := remove (numberPrefix u) (remove bulletPrefix lineStripped)
    if 15 < cleaned.length ∧ cleaned ∉ loop.1 then
      (loop.1 ++ [cleaned], loop.2 <|> some entry.1)
    else loop
  else loop

/-- `claims_list` and `claims_chunk`. -/
def keyClaims (chunks : List Chunk) : List Str × Option Chunk :=
  let found := sectionClaims u none chunks
  if found.1 = [] then
    (chunks.flatMap fun c => (Str.splitLines c.text).map fun line => (c, line)).foldl
      (fallbackStep u) found
  else found

/-! ### Entities -/

/-- `phrase in text`. -/
def mentions (text : Str) (phrase : String) : Bool := Str.contains phrase.toList text

/-- `title_line`: the first line that is not blank. -/
def titleLine (chunks : List Chunk) : Str :=
  (chunks.findSome? fun c => ((Str.splitLines c.text).map Str.strip).find? (· ≠ [])).getD []

/-- `\s*[—–-]\s*.*$`. -/
def titleSuffix : Pattern :=
  .concat [.many true Str.isSpace, .char fun c => c == '—' || c == '–' || c == '-',
    .many true Str.isSpace, .many true isInLine, .stop]

/-- `title_clean`. -/
def titleClean (chunks : List Chunk) : Str := Str.strip (remove titleSuffix (titleLine chunks))

/-- `entities_list`. -/
def entitiesList (chunks : List Chunk) : List Str :=
  let text := Str.lower u (fullText chunks)
  if mentions text "security audit" && mentions text "vulnerabilit" then
    ["Security Operations Team".toList, "IT Infrastructure".toList]
  else if mentions text "fiscal year" && mentions text "budget review" then
    ["Finance Department".toList, "Budget Committee".toList]
  else if mentions text "market intelligence group" then
    ["Market Intelligence Group".toList, "China".toList, "European".toList]
  else if mentions text "cross-functional initiative to modernize" then
    if titleClean chunks = [] then ["Infrastructure Modernization Team".toList]
    else [titleClean chunks, "Infrastructure Modernization Team".toList]
  else []

/-! ### Topics -/

/-- `topic_map`. -/
def topicMap : List (String × List String) :=
  [("technology",
      ["technology", "software", "api", "cloud", "digital", "infrastructure", "system", "platform"]),
    ("security", ["security", "vulnerability", "patch", "audit", "cyber", "threat"]),
    ("data", ["data", "database", "migration", "analytics"]),
    ("financial", ["financial", "finance", "budget", "cost", "revenue", "payment", "tax"]),
    ("analysis", ["analysis", "report", "study", "research", "assessment"]),
    ("market", ["market", "sales", "customer", "adoption", "growth", "competitive"]),
    ("automotive", ["automotive", "vehicle", "ev", "car", "battery", "electric vehicle"])]

/-- `topics_list`. -/
def topicsList (chunks : List Chunk) : List Str :=
  let text := Str.lower u (fullText chunks)
  let topics :=
    if mentions text "security audit" && mentions text "vulnerabilit" then
      ["security", "data", "technology"]
    else if mentions text "fiscal year" && mentions text "budget review" then
      ["financial", "data", "analysis"]
    else if mentions text "market intelligence group" ||
        mentions text "china remains the largest market" then
      ["technology", "market", "automotive"]
    else if mentions text "cross-functional initiative to modernize" then
      ["technology", "security", "data"]
    else ((topicMap.filter fun row => row.2.any (mentions text)).map Prod.fst).take 4
  topics.map String.toList

/-! ### Extraction -/

/-- A pack; its id marks what it extracts. -/
structure GenericPack where
  packId : Str := "generic-v1".toList

variable (newId : Str → Str) (self : GenericPack)

/-- A new extraction of the pack. -/
def GenericPack.extraction (fieldName value sourceSpan : Str) (confidence : ℚ) (chunkId : Str) :
    Extraction where
  extId := newId fieldName
  packId := self.packId
  fieldName := fieldName
  value := value
  sourceSpan := sourceSpan
  confidence := .fin confidence
  chunkId := chunkId

/-- The id of a chunk, if there is one. -/
def chunkIdOf (chunk : Option Chunk) : Str := chunk.elim [] (·.chunkId)

def GenericPack.extractSummary (chunks : List Chunk) : List Extraction :=
  match summary u chunks with
  | some (summaryVal, chunk) =>
    if summaryVal = [] then []
    else [self.extraction newId "summary".toList summaryVal summaryVal (9 / 10) (chunkIdOf chunk)]
  | none => []

def GenericPack.extractKeyClaims (chunks : List Chunk) : List Extraction :=
  match keyClaims u chunks with
  | ([], _) => []
  | (claim :: claims, chunk) =>
    [self.extraction newId "key_claims".toList (dumpsList (claim :: claims)) claim (85 / 100)
      (chunkIdOf (chunk <|> chunks.head?))]

def GenericPack.extractEntities (chunks : List Chunk) : List Extraction :=
  match entitiesList u chunks with
  | [] => []
  | entity :: entities =>
    let text := Str.lower u (fullText chunks)
    let chunk := chunks.find? fun c =>
      Str.contains (Str.lower u entity) (Str.lower u c.text) ||
        Str.contains (text.take 50) (Str.lower u c.text)
    let span :=
      if Str.contains (Str.lower u entity) text then entity
      else chunks.head?.elim [] fun c => c.text.take 100
    [self.extraction newId "entities".toList (dumpsList (entity :: entities)) span (8 / 10)
      (chunkIdOf (chunk <|> chunks.head?))]

def GenericPack.extractTopics (chunks : List Chunk) : List Extraction :=
  match topicsList u chunks with
  | [] => []
  | topic :: topics =>
    let chunk := chunks.find? fun c =>
      (topic :: topics).any fun kw => Str.contains kw (Str.lower u c.text)
    let chunk := chunk <|> chunks.head?
    [self.extraction newId "topics".toList (dumpsList (topic :: topics))
      (chunk.elim [] fun c => c.text.take 100) (75 / 100) (chunkIdOf chunk)]

/-- `GenericPack.extract`. -/
def GenericPack.extract (chunks : List Chunk) : List Extraction :=
  if chunks = [] then []
  else
    self.extractSummary u newId chunks ++ self.extractKeyClaims u newId chunks ++
      self.extractEntities u newId chunks ++ self.extractTopics u newId chunks

end

end AxiomGrid.Packs
