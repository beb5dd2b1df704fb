import AxiomGrid.Lib.Blocks
import AxiomGrid.Lib.Latin1
import AxiomGrid.Receipts.Log
import Mathlib.Data.List.Forall2

/-!
# The sentinel sanitizer

`SentinelSanitizer` of `phantom-core/src/sentinel.rs`. Tags are deleted one kind after the other, and then the
`[MCP:` blocks, in a loop over the bytes of the text. The loop pushes every byte that it keeps as a character of
its own, so only ASCII is kept; and what stands around something deleted may be a tag that was looked for
before.
-/

namespace AxiomGrid.Phantom

open Receipts (isWhiteSpace)

/-! ### Leak patterns -/

/-- A word that is looked for, in any case or as it is. -/
structure LeakPattern where
  caseless : Bool
  text : Str

namespace LeakPattern

/-- `(?i)c` matches `d`, for an ASCII character `c`. Two characters that are not ASCII fold to a letter. -/
def foldsTo (c d : Char) : Bool :=
  c.toLower == d.toLower || (c.toLower == 's' && d == '\u017f') || (c.toLower == 'k' && d == '\u212a')

/-- One character of the pattern matches. -/
def same (pattern : LeakPattern) (c d : Char) : Bool :=
  if pattern.caseless then foldsTo c d else c == d

/-- The text begins with a match of the word. -/
def begins (same : Char → Char → Bool) : Str → Str → Bool
  | [], _ => true
  | _ :: _, [] => false
  | c :: word, d :: s => same c d && begins same word s

/-- `pattern.is_match(&s)`. -/
def isMatch (pattern : LeakPattern) (s : Str) : Bool := s.tails.any (begins pattern.same pattern.text)

lemma begins_iff {same : Char → Char → Bool} {word s : Str} :
    begins same word s = true ↔ ∃ m, m <+: s ∧ List.Forall₂ (fun c d => same c d = true) word m := by
  induction word generalizing s with
  | nil => exact ⟨fun _ => ⟨[], List.nil_prefix, .nil⟩, fun _ => by cases s <;> rfl⟩
  | cons c word ih =>
    cases s with
    | nil =>
      constructor
      · intro h
        cases h
      · rintro ⟨m, hm, hsame⟩
        rw [List.prefix_nil.mp hm] at hsame
        cases hsame
    | cons d s =>
      rw [begins, Bool.and_eq_true, ih]
      constructor
      · rintro ⟨hc, m, hm, hsame⟩
        exact ⟨d :: m, List.cons_prefix_cons.mpr ⟨rfl, hm⟩, .cons hc hsame⟩
      · rintro ⟨m, hm, hsame⟩
        cases hsame with
        | cons hc hsame =>
          obtain ⟨rfl, htail⟩ := List.cons_prefix_cons.mp hm
          exact ⟨hc, _, htail, hsame⟩

lemma isMatch_iff {pattern : LeakPattern} {s : Str} : pattern.isMatch s = true ↔
    ∃ m, m <:+: s ∧ List.Forall₂ (fun c d => pattern.same c d = true) pattern.text m := by
  simp only [isMatch, List.any_eq_true, List.mem_tails, begins_iff]
  constructor
  · rintro ⟨tail, htail, m, hm, hsame⟩
    exact ⟨m, hm.isInfix.trans htail.isInfix, hsame⟩
  · rintro ⟨m, hm, hsame⟩
    obtain ⟨tail, hm, htail⟩ := List.infix_iff_prefix_suffix.mp hm
    exact ⟨tail, htail, m, hm, hsame⟩

lemma isMatch_of_infix {pattern : LeakPattern} {s t : Str} (h : t <:+: s)
    (ht : pattern.isMatch t = true) : pattern.isMatch s = true := by
  obtain ⟨m, hm, hsame⟩ := isMatch_iff.mp ht
  exact isMatch_iff.mpr ⟨m, hm.trans h, hsame⟩

/-- A pattern that minds the case is looked for as it is. -/
lemma isMatch_exact {word s : Str} : isMatch ⟨false, word⟩ s = true ↔ word <:+: s := by
  have hsame : (fun c d => (same ⟨false, word⟩ c d) = true) = Eq := by
    funext c d
    simp [same]
  rw [isMatch_iff, hsame]
  simp

end LeakPattern

/-! ### The sanitizer -/

structure SentinelSanitizer where
  leakPatterns : List LeakPattern
  sentinel : Str

/-- `SentinelSanitizer::new`, given the identifier that is the sentinel. -/
def SentinelSanitizer.new (sentinel : Str) : SentinelSanitizer where
  leakPatterns :=
    ["ignore prev", "system prompt", "you are an ai", "output exactly", "as an ai model",
      "instruction leakage", "<system>", "</system>", "editor.accessibilityMode",
      "screen-reader-optimized", "workbench.action", "vscode-token", "Content Agent", "Swarm Role",
      "Swarm Brain", "internal hash", "sentinel hash"].map (fun word => ⟨true, word.toList⟩) ++
    [⟨false, "[MCP:".toList⟩]
  sentinel

/-- What a blocked response is replaced by. -/
def blocked : Str := "[BLOCKED: SECURITY POLICY VIOLATION]".toList

/-- The tags, in the order in which they are deleted. -/
def tags : List Str :=
  ["<output>", "</output>", "<thought>", "</thought>", "<SWARM_ROLE>", "</SWARM_ROLE>",
    "[DOCUMENT CONTEXT]", "[DOCUMENT INTELLIGENCE]"].map String.toList

/-- The first step of `sanitize`. -/
def removeTags (content : Str) : Str := tags.foldl (fun s tag => List.eraseWord tag s) content

/-- The blocks of the loop over the bytes. -/
def commandBytes : Blocks UInt8 := ⟨[91, 77, 67, 80, 58], 91, 93, by decide, by decide⟩

/-- The second step of `sanitize`: every byte that is kept is pushed as a character. The depth is an `i32`
there. -/
def stripCommands (s : Str) : Str :=
  Latin1.decode (commandBytes.strip (s.flatMap String.utf8EncodeChar))

namespace SentinelSanitizer

variable (self : SentinelSanitizer)

/-- The third and the fourth step of `sanitize`. -/
def leaks (s : Str) : Bool :=
  self.leakPatterns.any (fun pattern => pattern.isMatch s) || Str.contains self.sentinel s

/-- `sanitize`. -/
def sanitize (content : Str) : Str :=
  let sanitized := stripCommands (removeTags content)
  if self.leaks sanitized then blocked else sanitized.trim isWhiteSpace

end SentinelSanitizer

/-! ### What is to be deleted -/

/-- The blocks of a text. -/
def commands : Blocks Char := ⟨"[MCP:".toList, '[', ']', by decide, by decide⟩

/-- The content without its tags and its blocks. -/
def stripped (content : Str) : Str := commands.strip (removeTags content)

/-- The result is the marker, or the content without its tags and its blocks, trimmed. -/
def Deletes (content result : Str) : Prop :=
  result = blocked ∨ ∃ t, commands.Strips (removeTags content) t ∧ result = t.trim isWhiteSpace

/-- There is nothing in the result that is deleted or that would block it. -/
structure Clean (sanitizer : SentinelSanitizer) (result : Str) : Prop where
  tags : ∀ tag ∈ tags, ¬ tag <:+: result
  command : ¬ commands.marker <:+: result
  patterns : ∀ pattern ∈ sanitizer.leakPatterns, pattern.isMatch result = false
  sentinel : ¬ sanitizer.sentinel <:+: result

/-- A result that is not the marker is clean, and sanitizing it again changes nothing. -/
def Settled (self : SentinelSanitizer) (result : Str) : Prop :=
  result ≠ blocked → Clean self result ∧ self.sanitize result = result

lemma encodes_commands : commands.Encodes String.utf8EncodeChar commandBytes where
  opening := by decide
  closing := by decide
  other := by
    intro c hopening hclosing
    by_cases hwide : 128 ≤ c.toNat
    · obtain ⟨first, rest, hcode, hfirst, hrest, -⟩ := Latin1.utf8EncodeChar_of_wide hwide
      have hbytes : ∀ byte ∈ String.utf8EncodeChar c, 128 ≤ byte.toNat := by
        rw [hcode, List.forall_mem_cons]
        exact ⟨by omega, fun byte hbyte => (hrest byte hbyte).1⟩
      exact ⟨fun h => absurd (hbytes _ h) (by decide), fun h => absurd (hbytes _ h) (by decide)⟩
    · have hascii : c.toNat < 128 := not_le.mp hwide
      have hbyte : ∀ d : Char, c ≠ d → d.toNat < 256 → UInt8.ofNat d.toNat ∉ String.utf8EncodeChar c := by
        intro d hd hlt hmem
        rw [Latin1.utf8EncodeChar_of_ascii hascii, List.mem_singleton] at hmem
        have hnat := congrArg UInt8.toNat hmem
        rw [UInt8.toNat_ofNat_of_lt' hlt, UInt8.toNat_ofNat_of_lt' (hascii.trans (by decide))] at hnat
        exact hd (by rw [← Char.ofNat_toNat c, ← hnat, Char.ofNat_toNat])
      exact ⟨hbyte '[' hopening (by decide), hbyte ']' hclosing (by decide)⟩
  head := rfl
  marker := by decide
  marker_prefix := by
    intro s
    have hmarker : commandBytes.marker = commands.marker.flatMap String.utf8EncodeChar := by decide
    rw [hmarker]
    exact Latin1.utf8_prefix_iff (List.forall_iff_forall_mem.mp (by decide))

/-- The loop over the bytes leaves the bytes of the text without its blocks. -/
lemma stripCommands_eq (s : Str) : stripCommands s = Latin1.reread (commands.strip s) := by
  rw [stripCommands, encodes_commands.strip_flatMap, Latin1.decode_utf8]

/-! ### One run -/

lemma isWhiteSpace_of_isLead {c : Char} (h : Latin1.isLead c = true) : isWhiteSpace c = false := by
  simp only [Latin1.isLead, Bool.and_eq_true, decide_eq_true_eq] at h
  rw [← Bool.not_eq_true]
  intro hspace
  simp only [isWhiteSpace, Str.isSpace, Bool.and_eq_true, Bool.or_eq_true, decide_eq_true_eq,
    beq_iff_eq] at hspace
  omega

lemma foldl_eraseWord_eq_self {words : List Str} {s : Str} (h : ∀ word ∈ words, ¬ word <:+: s) :
    words.foldl (fun s word => List.eraseWord word s) s = s := by
  induction words with
  | nil => rfl
  | cons word words ih =>
    rw [List.forall_mem_cons] at h
    rw [List.foldl_cons, List.eraseWord_eq_self h.1, ih h.2]

/-- Nothing is deleted from a text without tags and blocks. -/
lemma stripped_eq_self {s : Str} (htags : ∀ tag ∈ tags, ¬ tag <:+: s)
    (hcommand : ¬ commands.marker <:+: s) : stripped s = s := by
  rw [stripped, removeTags, foldl_eraseWord_eq_self htags, Blocks.strip_eq_self hcommand]

/-- Tags do not begin or end with white space, so they are not cut by trimming. -/
lemma tag_infix_trim {tag s : Str} (htag : tag ∈ tags) :
    tag <:+: s.trim isWhiteSpace ↔ tag <:+: s := by
  have hends : tags.all (fun tag => !tag.isEmpty && tag.head?.all (fun c => !isWhiteSpace c) &&
      tag.getLast?.all (fun c => !isWhiteSpace c)) = true := by decide +kernel
  have htag := List.all_eq_true.mp hends tag htag
  simp only [Bool.and_eq_true, Bool.not_eq_true', List.isEmpty_eq_false_iff, Option.all_eq_true] at htag
  obtain ⟨⟨hne, hhead⟩, hlast⟩ := htag
  exact ⟨fun h => h.trans (List.trim_infix s), List.infix_trim hne hhead hlast⟩

namespace SentinelSanitizer

lemma leaks_of_infix {self : SentinelSanitizer} {s t : Str} (h : t <:+: s) (ht : self.leaks t = true) :
    self.leaks s = true := by
  simp only [leaks, Bool.or_eq_true, List.any_eq_true, Str.contains_iff] at ht ⊢
  rcases ht with ⟨pattern, hpattern, hmatch⟩ | hsentinel
  · exact .inl ⟨pattern, hpattern, LeakPattern.isMatch_of_infix h hmatch⟩
  · exact .inr (hsentinel.trans h)

lemma sanitize_eq (self : SentinelSanitizer) (content : Str) : self.sanitize content =
    if self.leaks (Latin1.reread (stripped content)) then blocked
    else (Latin1.reread (stripped content)).trim isWhiteSpace := by
  rw [sanitize, stripCommands_eq]
  rfl

/-- If what is returned is ASCII, the stripped content is. -/
lemma ascii_of_trim {content : Str}
    (h : ∀ c ∈ (Latin1.reread (stripped content)).trim isWhiteSpace, c.toNat < 128) :
    ∀ c ∈ stripped content, c.toNat < 128 :=
  Latin1.ascii_of_trim_reread (fun _ => isWhiteSpace_of_isLead) h

lemma ascii_blocked : ∀ c ∈ blocked, c.toNat < 128 := List.forall_iff_forall_mem.mp (by decide)

/-- A text that does not leak has no match of a pattern, no marker of a block and not the sentinel. -/
lemma clean_of_not_leaks {sentinel s : Str} (hleaks : (new sentinel).leaks s = false)
    (htags : ∀ tag ∈ tags, ¬ tag <:+: s) : Clean (new sentinel) s := by
  simp only [leaks, Bool.or_eq_false_iff, List.any_eq_false, Bool.not_eq_true] at hleaks
  refine ⟨htags, fun hcommand => ?_, hleaks.1, fun hsentinel => ?_⟩
  · have hnone := hleaks.1 ⟨false, "[MCP:".toList⟩ (List.mem_append_right _ List.mem_cons_self)
    rw [← Bool.not_eq_true, LeakPattern.isMatch_exact] at hnone
    exact hnone hcommand
  · rw [Str.contains_iff.mpr hsentinel] at hleaks
    cases hleaks.2

/-- A clean text that is trimmed is what is left of its bytes, read as characters, unless it leaks. -/
lemma sanitize_of_clean {self : SentinelSanitizer} {s : Str} (h : Clean self s) :
    self.sanitize s =
      if self.leaks (Latin1.reread s) then blocked else (Latin1.reread s).trim isWhiteSpace := by
  rw [sanitize_eq, stripped_eq_self h.tags h.command]

end SentinelSanitizer

end AxiomGrid.Phantom
