import AxiomGrid.Lib.PrefixTable
import AxiomGrid.Lib.Trim
import AxiomGrid.Receipts.Log

/-!
# The command protocol

`CommandMode::from_prompt` of `phantom-core/src/command_protocol.rs`. A prompt is compared with the
commands in order, and what it begins with is stripped. A keyword phrase ends at white space or at a
colon, which the parser of the prompt removes afterwards.
-/

namespace AxiomGrid.Phantom

open Receipts (isWhiteSpace)

inductive CommandMode where
  | ghostWrite
  | urgent
  | query
  | think
  | design
  | check
  | write
  | learn
  | read
  | explain
  | health
  | kamiPdf
  | kamiRevealJs
  | kamiEmail
  | kamiLinkedin
  | kamiPressRelease
  | kamiEpub
  | kamiSlides
  | kamiBook
  | kamiPodcast
  | kamiPodcastLocal
  | kamiSubtitles
  | kamiQuiz
  | kamiFlashcards
  | kamiMindmap
  | kamiHtml
  | kamiTweet
  | kamiAll
  | kami
  | redline
  | trackChanges
  | voice
  | screenContext
  | speak
  | none
  deriving DecidableEq

namespace CommandMode

/-- A branch: what the prompt is tested for, what is stripped, and the mode. -/
structure Command where
  tested : Str
  stripped : Str
  mode : CommandMode

/-- A branch that strips what it tests for. -/
def command (text : String) (mode : CommandMode) : Command := ⟨text.toList, text.toList, mode⟩

/-- The branches of the keyword phrases. That of the tweets has two tests, of which the second one is
stripped. -/
def keywords : List Command :=
  [command "// think" think, command "// design" design, command "// check" check,
    command "// write" write, command "// learn" learn, command "// read" read,
    command "// explain" explain, command "// health" health, command "// kami pdf" kamiPdf,
    command "// kami revealjs" kamiRevealJs, command "// kami email" kamiEmail,
    command "// kami linkedin" kamiLinkedin, command "// kami press-release" kamiPressRelease,
    command "// kami epub" kamiEpub, command "// kami slides" kamiSlides,
    command "// kami book" kamiBook, command "// kami podcast --local" kamiPodcastLocal,
    command "// kami podcast" kamiPodcast, command "// kami subtitles" kamiSubtitles,
    command "// kami quiz" kamiQuiz, command "// kami flashcards" kamiFlashcards,
    command "// kami mindmap" kamiMindmap, command "// kami html" kamiHtml,
    ⟨"// kami tweet-thread".toList, "// kami tweet".toList, kamiTweet⟩,
    command "// kami tweet" kamiTweet, command "// kami all" kamiAll, command "// kami" kami,
    command "// redline" redline, command "// track" trackChanges, command "// voice" voice,
    command "// screen" screenContext, command "// speak" speak]

/-- All branches in their order. -/
def commands : List Command :=
  [command "//!" urgent, command "//?" query] ++ keywords ++ [command "//" ghostWrite]

/-- `strip_prefix(..).unwrap_or("").trim()`. -/
def rest (stripped p : Str) : Str :=
  if stripped.isPrefixOf p then (p.drop stripped.length).trim isWhiteSpace else []

/-- `from_prompt`. -/
def fromPrompt (prompt : Str) : CommandMode × Str :=
  let p := prompt.trim isWhiteSpace
  match PrefixTable.first Command.tested commands p with
  | some c => (c.mode, rest c.stripped p)
  | .none => (.none, p)

/-! ### The grammar -/

/-- The text after a phrase is empty or begins with white space. -/
def endsAtSpace (after : Str) : Bool := after.head?.all isWhiteSpace

/-- The text after a phrase is empty or begins with white space or a colon. -/
def endsAtColon (after : Str) : Bool := after.head?.all fun c => isWhiteSpace c || c == ':'

variable (ends : Str → Bool)

/-- The prompt begins with the phrase, which ends there. -/
def hasPhrase (p phrase : Str) : Bool := phrase.isPrefixOf p && ends (p.drop phrase.length)

/-- The longest phrase with which the prompt begins. -/
def longestPhrase (p : Str) : Option Command :=
  (keywords.filter fun c => hasPhrase ends p c.tested).argmax fun c => c.tested.length

/-- The mode and the instruction of a trimmed prompt. -/
def grammar (p : Str) : CommandMode × Str :=
  if "//!".toList.isPrefixOf p then (urgent, (p.drop 3).trim isWhiteSpace)
  else if "//?".toList.isPrefixOf p then (query, (p.drop 3).trim isWhiteSpace)
  else
    match longestPhrase ends p with
    | some c => (c.mode, (p.drop c.tested.length).trim isWhiteSpace)
    | .none =>
      if "//".toList.isPrefixOf p then (ghostWrite, (p.drop 2).trim isWhiteSpace) else (.none, p)

/-- No phrase with which the prompt begins runs on into other text. -/
def PhrasesEnd (p : Str) : Prop :=
  ∀ c ∈ keywords, c.tested <+: p → ends (p.drop c.tested.length) = true

instance (p : Str) : Decidable (PhrasesEnd ends p) :=
  inferInstanceAs (Decidable (∀ c ∈ keywords, _))

variable {ends}

/-! ### The branches follow the grammar -/

/-- No phrase is the beginning of a later one. -/
lemma longestFirst_keywords : PrefixTable.LongestFirst Command.tested keywords := by decide +kernel

/-- A branch strips its phrase, or the phrase is one that runs on into a hyphen. -/
lemma stripped_eq_or : ∀ c ∈ keywords,
    c.stripped = c.tested ∨ ∃ c' ∈ keywords, c'.tested ++ ['-'] <+: c.tested := by decide +kernel

lemma rest_of_prefix {stripped p : Str} (h : stripped <+: p) :
    rest stripped p = (p.drop stripped.length).trim isWhiteSpace :=
  if_pos (List.isPrefixOf_iff_prefix.mpr h)

lemma stripped_eq (hhyphen : ∀ after, ends ('-' :: after) = false) {p : Str}
    (hends : PhrasesEnd ends p) {c : Command} (hc : c ∈ keywords) (hbegins : c.tested <+: p) :
    c.stripped = c.tested := by
  refine (stripped_eq_or c hc).resolve_right ?_
  rintro ⟨c', hc', hrun⟩
  obtain ⟨after, rfl⟩ := hrun.trans hbegins
  have h := hends c' hc' (by rw [List.append_assoc]; exact List.prefix_append _ _)
  rw [List.append_assoc, List.drop_left, List.singleton_append, hhyphen] at h
  cases h

/-- The longest phrase is the one of the first branch. -/
lemma longestPhrase_eq {p : Str} (hends : PhrasesEnd ends p) :
    longestPhrase ends p = PrefixTable.first Command.tested keywords p := by
  cases hfirst : PrefixTable.first Command.tested keywords p with
  | some c =>
    obtain ⟨hc, hbegins⟩ := PrefixTable.of_first hfirst
    exact @PrefixTable.argmax_of_first _ _ _ _ _ _ _ longestFirst_keywords hfirst
      (fun c => ends (p.drop c.tested.length)) (hends c hc hbegins)
  | none =>
    rw [longestPhrase, List.argmax_eq_none, List.filter_eq_nil_iff]
    intro c hc
    have hno := PrefixTable.first_eq_none.mp hfirst c hc
    rw [hasPhrase, Bool.and_eq_true, List.isPrefixOf_iff_prefix]
    exact fun h => hno h.1

lemma first_commands (p : Str) :
    PrefixTable.first Command.tested commands p =
      if "//!".toList.isPrefixOf p then some (command "//!" urgent)
      else if "//?".toList.isPrefixOf p then some (command "//?" query)
      else (PrefixTable.first Command.tested keywords p).or
        (if "//".toList.isPrefixOf p then some (command "//" ghostWrite) else Option.none) := by
  have hcons : ∀ (c : Command) cs, PrefixTable.first Command.tested (c :: cs) p =
      if c.tested.isPrefixOf p then some c else PrefixTable.first Command.tested cs p := by
    intro c cs
    rw [PrefixTable.first, List.find?_cons]
    cases c.tested.isPrefixOf p <;> rfl
  rw [commands, List.append_assoc, List.cons_append, List.singleton_append, hcons, hcons]
  simp only [PrefixTable.first, List.find?_append, List.find?_singleton]
  rfl

/-- Where no phrase runs on into other text, the branches recognise the grammar: an urgent command, a
query, the longest phrase with the trimmed text after it, and otherwise everything after the slashes. -/
theorem fromPrompt_eq_grammar {prompt : Str}
    (hends : PhrasesEnd endsAtColon (prompt.trim isWhiteSpace)) :
    fromPrompt prompt = grammar endsAtColon (prompt.trim isWhiteSpace) := by
  have hhyphen : ∀ after, endsAtColon ('-' :: after) = false := by
    intro after
    rw [endsAtColon, List.head?_cons, Option.all_some]
    decide
  rw [fromPrompt]
  generalize prompt.trim isWhiteSpace = p at hends
  rw [grammar, longestPhrase_eq hends]
  simp only [first_commands]
  have hrest : ∀ {text : String}, text.toList.isPrefixOf p = true →
      rest text.toList p = (p.drop text.toList.length).trim isWhiteSpace :=
    fun h => rest_of_prefix (List.isPrefixOf_iff_prefix.mp h)
  cases hfirst : PrefixTable.first Command.tested keywords p with
  | some c =>
    obtain ⟨hc, hbegins⟩ := PrefixTable.of_first hfirst
    simp only [Option.some_or]
    split_ifs with hurgent hquery
    · exact congrArg (urgent, ·) (hrest hurgent)
    · exact congrArg (query, ·) (hrest hquery)
    · simp only
      rw [stripped_eq hhyphen hends hc hbegins, rest_of_prefix hbegins]
  | none =>
    simp only [Option.none_or]
    split_ifs with hurgent hquery hslashes
    · exact congrArg (urgent, ·) (hrest hurgent)
    · exact congrArg (query, ·) (hrest hquery)
    · exact congrArg (ghostWrite, ·) (hrest hslashes)
    · rfl

theorem fromPrompt_eq_grammar_slides :
    fromPrompt "// kami slides: Create a pitch".toList =
      grammar endsAtColon ("// kami slides: Create a pitch".toList.trim isWhiteSpace) :=
  fromPrompt_eq_grammar (by decide +kernel)

/-- If only white space ended a phrase, then the phrase before a colon would be a shorter one. -/
theorem slides_before_colon :
    fromPrompt "// kami slides: Create a pitch".toList = (kamiSlides, ": Create a pitch".toList) ∧
      grammar endsAtSpace ("// kami slides: Create a pitch".toList.trim isWhiteSpace) =
        (kami, "slides: Create a pitch".toList) := by
  decide +kernel

end CommandMode

end AxiomGrid.Phantom
