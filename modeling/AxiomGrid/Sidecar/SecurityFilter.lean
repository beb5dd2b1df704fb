import AxiomGrid.Lib.Redaction

/-!
# Personal data in the text a model sees

`redact_pii` and `_detect_pii` of `kernel/sidecar/security_filter.py`. Four patterns are replaced one
after the other; a redacted text has none of them, so redacting it again changes nothing.
-/

namespace AxiomGrid.SecurityFilter

open Regex Regex.Pattern

variable (u : UnicodeData)

/-! ### The patterns -/

/-- `\w`. -/
def isWord (c : Char) : Bool := u.isAlnum c || c == '_'

/-- `\d`. -/
def isDecimal (c : Char) : Bool := (u.decimal c).isSome

/-- `[A-Z]`. -/
def isUpper (c : Char) : Bool := 'A' ≤ c && c ≤ 'Z'

/-- `[a-z]`. -/
def isLower (c : Char) : Bool := 'a' ≤ c && c ≤ 'z'

/-- `[A-Za-z]`. -/
def isLetter (c : Char) : Bool := isUpper c || isLower c

/-- `[A-Za-z0-9.\-]`. -/
def isDomain (c : Char) : Bool := isLetter c || ('0' ≤ c && c ≤ '9') || c == '.' || c == '-'

/-- `[A-Za-z0-9._%+\-]`. -/
def isMailbox (c : Char) : Bool := isDomain c || c == '_' || c == '%' || c == '+'

/-- `[-.\s]`. -/
def isSeparator (c : Char) : Bool := c == '-' || c == '.' || Str.isSpace c

/-- `\b`. -/
def wordBoundary : Pattern := .boundary (isWord u)

/-- `\d{n}`. -/
def decimals (n : ℕ) : Pattern := times n (.char (isDecimal u))

/-- One given character. -/
def literal (c : Char) : Pattern := .char (· == c)

/-- `[A-Z][a-z]{1,20}`. -/
def capitalized : Pattern := .seq (.char isUpper) (between 1 20 isLower)

/-- `_SSN_RE`. -/
def ssnRe : Pattern :=
  .concat [wordBoundary u, decimals u 3, literal '-', decimals u 2, literal '-', decimals u 4,
    wordBoundary u]

/-- `_EMAIL_RE`. -/
def emailRe : Pattern :=
  .concat [wordBoundary u, many1 true isMailbox, literal '@', many1 true isDomain, literal '.',
    atLeast 2 isLetter, wordBoundary u]

/-- `_PHONE_RE`. -/
def phoneRe : Pattern :=
  .concat [opt (literal '('), wordBoundary u, decimals u 3, opt (literal ')'),
    opt (.char isSeparator), decimals u 3, opt (.char isSeparator), decimals u 4, wordBoundary u]

/-- `_NAME_RE`. -/
def nameRe : Pattern :=
  .concat [wordBoundary u, capitalized, .char Str.isSpace, capitalized, wordBoundary u]

/-- A replacement: a name in brackets. -/
def bracketed (name : String) : Placeholder := ⟨'[', name.toList, ']'⟩

/-- `_PII_PATTERNS`. -/
def piiPatterns : List (String × Pattern × Placeholder) :=
  [("ssn", ssnRe u, bracketed "SSN_REDACTED"), ("email", emailRe u, bracketed "EMAIL_REDACTED"),
    ("phone", phoneRe u, bracketed "PHONE_REDACTED"), ("name", nameRe u, bracketed "NAME_REDACTED")]

/-- `redact_pii`. -/
def redactPii (text : Str) : Str :=
  (piiPatterns u).foldl (fun result entry => sub entry.2.1 (fun _ => entry.2.2.toStr) result) text

/-- `_detect_pii`. -/
def detectPii (text : Str) : List String :=
  (piiPatterns u).filterMap fun entry =>
    let found := findall entry.2.1 text
    if found = [] then none
    else some ("PII_DETECTED: " ++ entry.1 ++ " (" ++ toString found.length ++ " occurrence(s))")

lemma redactPii_eq_redact (text : Str) :
    redactPii u text = redact ((piiPatterns u).map Prod.snd) text := by
  rw [redactPii, redact, List.foldl_map]

/-! ### The tables -/

/-- What every version of the Unicode tables says: the ASCII part, and that decimal digits are
alphanumeric. -/
structure AsciiTables : Prop where
  isAlnum : ∀ c : Char, c.toNat < 128 → u.isAlnum c = asciiData.isAlnum c
  decimal : ∀ c : Char, c.toNat < 128 → u.decimal c = asciiData.decimal c
  isAlnum_of_decimal : ∀ c, (u.decimal c).isSome → u.isAlnum c = true

lemma asciiTables_asciiData : AsciiTables asciiData := by
  refine ⟨fun _ _ => rfl, fun _ _ => rfl, fun c hc => ?_⟩
  simp only [asciiData] at hc ⊢
  split_ifs at hc with hdigit
  · simp [Char.isAlphanum, hdigit]
  · cases hc

variable {u}

lemma asciiAlnum_of_isLetter {c : Char} (hc : isLetter c = true) :
    c.toNat < 128 ∧ asciiData.isAlnum c = true := by
  simp only [isLetter, isUpper, isLower, Bool.or_eq_true, Bool.and_eq_true, decide_eq_true_eq,
    Char.le_def, UInt32.le_iff_toNat_le] at hc
  have halnum : asciiData.isAlnum c =
      ((decide (c.val ≥ 'A'.val ∧ c.val ≤ 'Z'.val) || c.val ≥ 'a'.val && c.val ≤ 'z'.val) ||
        c.isDigit) := rfl
  simp only [halnum, Bool.or_eq_true, Bool.and_eq_true, decide_eq_true_eq, ge_iff_le,
    UInt32.le_iff_toNat_le]
  have hval : c.toNat = c.val.toNat := rfl
  have hbounds : 'A'.val.toNat = 65 ∧ 'Z'.val.toNat = 90 ∧ 'a'.val.toNat = 97 ∧
    'z'.val.toNat = 122 := by decide
  omega

/-- The characters of the replacements: ASCII, and none that a pattern cannot do without. -/
def isReplacement (c : Char) : Bool := c.toNat < 128 && !c.isDigit && c != '@' && !isLower c

section

variable (hu : AsciiTables u)
include hu

lemma isWord_of_isDecimal {c : Char} (hc : isDecimal u c = true) : isWord u c = true := by
  rw [isWord, hu.isAlnum_of_decimal c hc, Bool.true_or]

lemma isWord_of_isLetter {c : Char} (hc : isLetter c = true) : isWord u c = true := by
  obtain ⟨hascii, halnum⟩ := asciiAlnum_of_isLetter hc
  rw [isWord, hu.isAlnum c hascii, halnum, Bool.true_or]

lemma isWord_of_isLower {c : Char} (hc : isLower c = true) : isWord u c = true :=
  isWord_of_isLetter hu (by rw [isLetter, hc, Bool.or_true])

lemma isWord_mark {c : Char} (hc : c ∈ ['[', ']', '(']) : isWord u c = false := by
  have hmarks : ∀ c ∈ ['[', ']', '('],
      c.toNat < 128 ∧ (asciiData.isAlnum c || c == '_') = false :=
    List.forall_iff_forall_mem.mp (by decide)
  rw [isWord, hu.isAlnum c (hmarks c hc).1, (hmarks c hc).2]

lemma isDecimal_mark : isDecimal u '[' = false ∧ isDecimal u ']' = false := by
  rw [isDecimal, isDecimal, hu.decimal _ (by decide), hu.decimal _ (by decide)]
  decide

/-! ### The patterns are set off -/

lemma setOff_ssnRe : SetOff (isWord u) (ssnRe u) := by
  apply setOff_boundary
  · simp [wordBoundary, decimals, literal, times, concat, Pattern.Local]
  · exact endsIn_concat_boundary [decimals u 3, literal '-', decimals u 2, literal '-']
      (endsIn_times 3 fun _ => isWord_of_isDecimal hu)
  · exact endsAtBoundary_concat [decimals u 3, literal '-', decimals u 2, literal '-', decimals u 4]

lemma setOff_emailRe : SetOff (isWord u) (emailRe u) := by
  apply setOff_boundary
  · simp [wordBoundary, literal, times, atLeast, many1, concat, Pattern.Local]
  · exact endsIn_concat_boundary
      [many1 true isMailbox, literal '@', many1 true isDomain, literal '.']
      (.inr ⟨endsIn_times 1 fun _ => isWord_of_isLetter hu, fun _ => isWord_of_isLetter hu⟩)
  · exact endsAtBoundary_concat
      [many1 true isMailbox, literal '@', many1 true isDomain, literal '.', atLeast 2 isLetter]

lemma setOff_phoneRe : SetOff (isWord u) (phoneRe u) := by
  refine SetOff.opt (setOff_boundary ?_ ?_ ?_) ?_
  · simp [wordBoundary, decimals, literal, times, opt, concat, Pattern.Local]
  · exact endsIn_concat_boundary
      [decimals u 3, opt (literal ')'), opt (.char isSeparator), decimals u 3,
        opt (.char isSeparator)]
      (endsIn_times 3 fun _ => isWord_of_isDecimal hu)
  · exact endsAtBoundary_concat
      [decimals u 3, opt (literal ')'), opt (.char isSeparator), decimals u 3,
        opt (.char isSeparator), decimals u 4]
  · intro c hc
    rw [eq_of_beq hc]
    exact isWord_mark hu (by simp)

lemma setOff_nameRe : SetOff (isWord u) (nameRe u) := by
  apply setOff_boundary
  · simp [wordBoundary, capitalized, between, times, concat, Pattern.Local, local_upTo]
  · exact endsIn_concat_boundary [capitalized, .char Str.isSpace]
      (.inl (.inr ⟨fun _ => isWord_of_isLower hu, within_upTo 19 fun _ => isWord_of_isLower hu⟩))
  · exact endsAtBoundary_concat [capitalized, .char Str.isSpace, capitalized]

/-! ### The placeholders have no matches -/

lemma not_isDecimal_of_isReplacement {c : Char} (hc : isReplacement c = true) :
    ¬isDecimal u c = true := by
  simp only [isReplacement, Bool.and_eq_true, decide_eq_true_eq, Bool.not_eq_true'] at hc
  rw [isDecimal, hu.decimal c hc.1.1.1]
  simp [asciiData, hc.1.1.2]

lemma inert_of_needs {q : Pattern} (need : Char → Prop)
    (hwithin : q.Within fun c => ¬c = '[' ∧ ¬c = ']') (hneeds : q.Needs need)
    (hnone : ∀ c, isReplacement c = true → ¬need c) :
    ∀ entry ∈ piiPatterns u, entry.2.2.Inert (isWord u) q := by
  have hbracketed : ∀ name : String, name.toList.all isReplacement = true →
      (bracketed name).Inert (isWord u) q := fun name h =>
    ⟨isWord_mark hu (by simp [bracketed]), isWord_mark hu (by simp [bracketed]), hwithin, need,
      hneeds, fun c hc => hnone c (List.all_eq_true.mp h c hc)⟩
  simp only [piiPatterns, List.forall_mem_cons]
  exact ⟨hbracketed _ (by decide), hbracketed _ (by decide), hbracketed _ (by decide),
    hbracketed _ (by decide), by simp⟩

lemma inert_ssnRe : ∀ entry ∈ piiPatterns u, entry.2.2.Inert (isWord u) (ssnRe u) := by
  have hdecimal : ∀ c, isDecimal u c = true → ¬c = '[' ∧ ¬c = ']' :=
    fun _ => avoids (isDecimal_mark hu)
  refine inert_of_needs hu (fun c => isDecimal u c = true) ?_ ?_ fun _ =>
    not_isDecimal_of_isReplacement hu
  · simpa [ssnRe, wordBoundary, decimals, literal, times, concat, List.replicate, Within]
      using hdecimal
  · simp [ssnRe, wordBoundary, decimals, times, concat, List.replicate, Needs]

lemma inert_emailRe : ∀ entry ∈ piiPatterns u, entry.2.2.Inert (isWord u) (emailRe u) := by
  have hclasses : (∀ c, isMailbox c = true → ¬c = '[' ∧ ¬c = ']') ∧
      (∀ c, isDomain c = true → ¬c = '[' ∧ ¬c = ']') ∧
      ∀ c, isLetter c = true → ¬c = '[' ∧ ¬c = ']' :=
    ⟨fun _ => avoids (by decide), fun _ => avoids (by decide), fun _ => avoids (by decide)⟩
  refine inert_of_needs hu (· = '@') ?_ ?_ ?_
  · simpa [emailRe, wordBoundary, literal, times, atLeast, many1, concat, List.replicate, Within]
      using hclasses
  · simp [emailRe, wordBoundary, literal, many1, concat, Needs]
  · rintro c hc rfl
    cases hc

lemma inert_phoneRe : ∀ entry ∈ piiPatterns u, entry.2.2.Inert (isWord u) (phoneRe u) := by
  have hdecimal : ∀ c, isDecimal u c = true → ¬c = '[' ∧ ¬c = ']' :=
    fun _ => avoids (isDecimal_mark hu)
  have hseparator : ∀ c, isSeparator c = true → ¬c = '[' ∧ ¬c = ']' := fun _ => avoids (by decide)
  refine inert_of_needs hu (fun c => isDecimal u c = true) ?_ ?_ fun _ =>
    not_isDecimal_of_isReplacement hu
  · simpa [phoneRe, wordBoundary, decimals, literal, times, opt, concat, List.replicate, Within]
      using ⟨hdecimal, hseparator, hdecimal, hseparator, hdecimal⟩
  · simp [phoneRe, wordBoundary, decimals, times, concat, List.replicate, Needs]

lemma inert_nameRe : ∀ entry ∈ piiPatterns u, entry.2.2.Inert (isWord u) (nameRe u) := by
  have hupper : ∀ c, isUpper c = true → ¬c = '[' ∧ ¬c = ']' := fun _ => avoids (by decide)
  have hlower : ∀ c, isLower c = true → ¬c = '[' ∧ ¬c = ']' := fun _ => avoids (by decide)
  have hspace : ∀ c, Str.isSpace c = true → ¬c = '[' ∧ ¬c = ']' := fun _ => avoids (by decide)
  refine inert_of_needs hu (fun c => isLower c = true) ?_ ?_ ?_
  · simpa [nameRe, wordBoundary, capitalized, between, times, concat, List.replicate, Within,
      within_upTo 19 hlower] using ⟨⟨hupper, hlower⟩, hspace, hupper, hlower⟩
  · simp [nameRe, wordBoundary, capitalized, between, times, concat, List.replicate, Needs]
  · intro c hc hlower
    simp [isReplacement, hlower] at hc

/-- The redacted text has no match of any pattern. -/
lemma noMatch_redactPii (text : Str) :
    ∀ entry ∈ piiPatterns u, NoMatch entry.2.1 [] (redactPii u text) := by
  have hsetOff : ∀ rule ∈ (piiPatterns u).map Prod.snd, SetOff (isWord u) rule.1 := by
    simp only [piiPatterns, List.map_cons, List.map_nil, List.forall_mem_cons]
    exact ⟨setOff_ssnRe hu, setOff_emailRe hu, setOff_phoneRe hu, setOff_nameRe hu, by simp⟩
  have hinert : ∀ entry ∈ piiPatterns u, ∀ entry' ∈ piiPatterns u,
      entry'.2.2.Inert (isWord u) entry.2.1 := by
    intro entry hentry
    rw [piiPatterns] at hentry
    simp only [List.mem_cons, List.not_mem_nil, or_false] at hentry
    obtain rfl | rfl | rfl | rfl := hentry
    · exact inert_ssnRe hu
    · exact inert_emailRe hu
    · exact inert_phoneRe hu
    · exact inert_nameRe hu
  intro entry hentry
  have hmem := List.mem_map_of_mem (f := Prod.snd) hentry
  rw [redactPii_eq_redact]
  refine noMatch_redact hsetOff (hsetOff _ hmem) ?_ (.inl ⟨_, hmem, rfl⟩)
  simpa only [List.forall_mem_map] using hinert entry hentry

end

/-- A redacted text has no personal data that is detected, and redacting it again changes nothing. -/
theorem detectPii_redactPii (hu : AsciiTables u) (text : Str) :
    detectPii u (redactPii u text) = [] ∧ redactPii u (redactPii u text) = redactPii u text := by
  have hnone := noMatch_redactPii hu text
  constructor
  · rw [detectPii, List.filterMap_eq_nil_iff]
    intro entry hentry
    simp only [findall_of_noMatch (hnone entry hentry), if_true]
  · rw [redactPii_eq_redact u (redactPii u text)]
    refine redact_of_noMatch fun rule hrule => ?_
    obtain ⟨entry, hentry, rfl⟩ := List.mem_map.mp hrule
    exact hnone entry hentry

theorem detectPii_redactPii_ascii :
    AsciiTables asciiData ∧
      detectPii asciiData (redactPii asciiData "Ann Lee (555) 010-1234 a@b.co".toList) = [] ∧
      redactPii asciiData (redactPii asciiData "Ann Lee (555) 010-1234 a@b.co".toList) =
        redactPii asciiData "Ann Lee (555) 010-1234 a@b.co".toList :=
  ⟨asciiTables_asciiData, detectPii_redactPii asciiTables_asciiData _⟩

end AxiomGrid.SecurityFilter
