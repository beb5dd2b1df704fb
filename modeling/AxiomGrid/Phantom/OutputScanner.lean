import AxiomGrid.Lib.PyLower
import AxiomGrid.Lib.Redaction
import AxiomGrid.Lib.RustStr
import AxiomGrid.Runtime.Server

/-!
# The output scanner

`OutputScanner` of `phantom-core/src/prompt_injection_firewall.rs`. Personal data is looked for in the
lower case of the whole output, but only the first `sk-` of the output itself is cut out, at a byte
offset that may lie inside a character. The main result says which outputs are sanitized all the same.
-/

namespace AxiomGrid.Phantom.OutputScanner

open Regex Regex.Pattern
open AxiomGrid.Runtime (isWhiteSpace)

variable (u : UnicodeData) (isWord : Char → Bool)

/-! ### The patterns -/

/-- `[a-z]`. -/
def isLower (c : Char) : Bool := 'a' ≤ c && c ≤ 'z'

/-- `[a-z0-9.\-]`. -/
def isDomain (c : Char) : Bool := isLower c || ('0' ≤ c && c ≤ '9') || c == '.' || c == '-'

/-- `[a-z0-9._%+\-]`. -/
def isMailbox (c : Char) : Bool := isDomain c || c == '_' || c == '%' || c == '+'

/-- `[-\s]`. -/
def isSeparator (c : Char) : Bool := c == '-' || isWhiteSpace c

/-- `\d`. -/
def isDecimal (c : Char) : Bool := (u.decimal c).isSome

/-- `[a-z0-9._%+\-]+@[a-z0-9.\-]+\.[a-z]{2,}`. -/
def emailPattern : Pattern :=
  .concat [many1 true isMailbox, .char (· == '@'), many1 true isDomain, .char (· == '.'),
    atLeast 2 isLower]

/-- `\b\d{3}[-\s]?\d{2}[-\s]?\d{4}\b`. -/
def ssnPattern : Pattern :=
  .concat [.boundary isWord, times 3 (.char (isDecimal u)), opt (.char isSeparator),
    times 2 (.char (isDecimal u)), opt (.char isSeparator), times 4 (.char (isDecimal u)),
    .boundary isWord]

/-- `contains_pii`. -/
def containsPii (text : Str) : Bool :=
  isMatch emailPattern text || isMatch (ssnPattern u isWord) text ||
    (Str.contains "sk-".toList text && 20 < text.byteLength) ||
    (Str.contains "Bearer ".toList text && 30 < text.byteLength)

/-- `redact_pii`; `none` is a panic. -/
def redactPii (text : Str) : Option Str :=
  match Str.find? "sk-".toList text with
  | none => some text
  | some i =>
    let pos := Str.byteLength (text.take i)
    let stop := min (pos + 40) text.byteLength
    text.replaceRange pos stop "[REDACTED_API_KEY]".toList

/-! ### Scanning -/

/-- `SYSTEM_LEAK_INDICATORS`. -/
def systemLeakIndicators : List String :=
  ["my system prompt is", "my instructions are", "i was instructed to", "i am programmed to",
    "critical: never repeat", "security_sentinel:", "the sentinel value", "[security_sentinel",
    "you must never tell", "confidential system"]

/-- `EXFIL_INDICATORS`. -/
def exfilIndicators : List String :=
  ["send this to", "forward this to", "upload the following", "post this data to", "curl http",
    "wget http", "base64 encode and send"]

/-- `ESCALATION_INDICATORS`. -/
def escalationIndicators : List String :=
  ["i can now access", "i now have permission", "my restrictions have been lifted",
    "i am no longer limited", "you have successfully jailbroken", "i am now in developer mode",
    "i am now dan"]

/-- The first indicator that the text contains. -/
def found (indicators : List String) (low : Str) : Option String :=
  indicators.find? fun indicator => Str.contains indicator.toList low

structure ScanResult where
  safe : Bool
  reason : Option String
  sanitized : Str

/-- `sanitized` behind category 2. -/
def sanitize (low output : Str) : Option Str :=
  if containsPii u isWord low then redactPii output else some output

/-- `scan`; `none` is a panic. -/
def scan (output : Str) : Option ScanResult := do
  let low := Str.lower u output
  match found systemLeakIndicators low with
  | some indicator => some ⟨false, some ("System prompt leakage: '" ++ indicator ++ "'"), output⟩
  | none =>
    let sanitized ← sanitize u isWord low output
    match found exfilIndicators low with
    | some indicator =>
      some ⟨false, some ("Exfiltration pattern detected: '" ++ indicator ++ "'"), sanitized⟩
    | none =>
      match found escalationIndicators low with
      | some indicator => some ⟨false, some ("Escalation pattern: '" ++ indicator ++ "'"), sanitized⟩
      | none => some ⟨true, none, sanitized⟩

/-- `scan` returns, and what it calls safe has no personal data left. -/
def Sanitizes (output : Str) : Prop :=
  ∃ result, scan u isWord output = some result ∧
    (result.safe = true → containsPii u isWord (Str.lower u result.sanitized) = false)

/-! ### Which outputs are sanitized -/

/-- A text without an address, a number or the start of a key, in lower case. -/
def PiiFree (text : Str) : Prop :=
  isMatch emailPattern (Str.lower u text) = false ∧
    isMatch (ssnPattern u isWord) (Str.lower u text) = false ∧
    Str.contains "sk-".toList (Str.lower u text) = false

/-- The text has a hint of exfiltration or escalation. -/
def Hints (low : Str) : Prop :=
  (found exfilIndicators low).isSome = true ∨ (found escalationIndicators low).isSome = true

/-- The 40 bytes from the first `sk-` on, or what there is of them, end at a character boundary; and
there is a hint, or no personal data before and behind them. An output without `sk-` has a hint. -/
def Redactable (output : Str) : Prop :=
  match Str.find? "sk-".toList output with
  | none => Hints (Str.lower u output)
  | some i => ∃ after,
    Str.dropBytes (output.drop i) (min 40 (Str.byteLength (output.drop i))) = some after ∧
      (Hints (Str.lower u output) ∨ PiiFree u isWord (output.take i) ∧ PiiFree u isWord after)

/-- What every version of the Unicode tables says of ASCII, and of lower case. -/
structure TextTables : Prop where
  lower : Str.LowerStable u
  simpleLower : ∀ c : Char, c.toNat < 128 → u.simpleLower c = asciiData.simpleLower c
  isCased : ∀ c : Char, c.toNat < 128 → u.isCased c = asciiData.isCased c
  isCaseIgnorable : ∀ c : Char, c.toNat < 128 → u.isCaseIgnorable c = asciiData.isCaseIgnorable c
  decimal : ∀ c : Char, c.toNat < 128 → u.decimal c = asciiData.decimal c
  isWord : ∀ c : Char, c.toNat < 128 → isWord c = (c.isAlphanum || c == '_')

/-- What a redaction leaves in lower case. -/
def keyPlaceholder : Placeholder := ⟨'[', "redacted_api_key".toList, ']'⟩

variable {u isWord}

lemma redactPii_of_find? {text : Str} {i : ℕ} (h : Str.find? "sk-".toList text = some i) :
    redactPii text =
      (Str.dropBytes (text.drop i) (min 40 (Str.byteLength (text.drop i)))).map fun after =>
        text.take i ++ "[REDACTED_API_KEY]".toList ++ after := by
  have htext : text.take i ++ text.drop i = text := List.take_append_drop i text
  have hlength : Str.byteLength text =
      Str.byteLength (text.take i) + Str.byteLength (text.drop i) := by
    rw [← Str.byteLength_append, htext]
  have hreplace := Str.replaceRange_append (text.take i) (text.drop i)
    "[REDACTED_API_KEY]".toList (min 40 (Str.byteLength (text.drop i)))
  rw [htext] at hreplace
  simp only [redactPii, h]
  rw [hlength, Nat.add_min_add_left]
  exact hreplace

/-- A key beside the placeholder is long enough to be one. -/
lemma contains_key_redacted (s s' : Str) :
    (Str.contains "sk-".toList (s ++ (keyPlaceholder.toStr ++ s')) &&
        decide (20 < Str.byteLength (s ++ (keyPlaceholder.toStr ++ s')))) = false ↔
      Str.contains "sk-".toList s = false ∧ Str.contains "sk-".toList s' = false := by
  have hpieces : Str.contains "sk-".toList (s ++ (keyPlaceholder.toStr ++ s')) = true ↔
      Str.contains "sk-".toList s = true ∨ Str.contains "sk-".toList s' = true := by
    simp only [Str.contains_iff]
    exact infix_placeholder_iff (List.forall_iff_forall_mem.mp (by decide)) (by decide)
  have hlong : Str.contains "sk-".toList (s ++ (keyPlaceholder.toStr ++ s')) = true →
      20 < Str.byteLength (s ++ (keyPlaceholder.toStr ++ s')) := by
    intro h
    have hlength := Str.length_le_byteLength (s ++ (keyPlaceholder.toStr ++ s'))
    have hkey : keyPlaceholder.toStr.length = 18 := rfl
    rw [List.length_append, List.length_append, hkey] at hlength
    have hpiece : 3 ≤ s.length ∨ 3 ≤ s'.length := by
      rw [hpieces, Str.contains_iff, Str.contains_iff] at h
      exact h.imp List.IsInfix.length_le List.IsInfix.length_le
    omega
  rw [Bool.and_eq_false_iff, decide_eq_false_iff_not, ← Bool.not_eq_true, ← Bool.not_eq_true,
    ← Bool.not_eq_true, ← not_or, ← hpieces]
  exact ⟨fun h => h.elim id fun hshort hkey => hshort (hlong hkey), .inl⟩

section

variable (hu : TextTables u isWord)
include hu

/-- Brackets are no part of a word, and no sigma looks at them or beyond. -/
lemma bracket {c : Char} (hc : c ∈ ['[', ']']) :
    isWord c = false ∧ u.isCased c = false ∧ u.isCaseIgnorable c = false ∧ Str.IsLowered u c := by
  have hascii : ∀ c ∈ ['[', ']'], c.toNat < 128 ∧ (c.isAlphanum || c == '_') = false ∧
      asciiData.isCased c = false ∧ asciiData.isCaseIgnorable c = false ∧ c ≠ 'Σ' ∧ c ≠ 'İ' ∧
      asciiData.simpleLower c = c :=
    List.forall_iff_forall_mem.mp (by decide)
  obtain ⟨hlt, hword, hcased, hignorable, hsigma, hdotted, hlower⟩ := hascii c hc
  exact ⟨by rw [hu.isWord c hlt, hword], by rw [hu.isCased c hlt, hcased],
    by rw [hu.isCaseIgnorable c hlt, hignorable], hsigma, hdotted,
    by rw [hu.simpleLower c hlt, hlower]⟩

lemma lower_redacted (before after : Str) :
    Str.lower u (before ++ "[REDACTED_API_KEY]".toList ++ after) =
      Str.lower u before ++ (keyPlaceholder.toStr ++ Str.lower u after) := by
  have hkey : Str.lower u "REDACTED_API_KEY".toList = "redacted_api_key".toList := by
    have hascii : ∀ c ∈ "REDACTED_API_KEY".toList, c.toNat < 128 :=
      List.forall_iff_forall_mem.mp (by decide)
    rw [Str.lower_eq_map (List.forall_iff_forall_mem.mp (by decide)),
      List.map_congr_left fun c hc => hu.simpleLower c (hascii c hc)]
    decide
  have hopening := bracket hu (c := '[') (by simp)
  have hclosing := bracket hu (c := ']') (by simp)
  have htext : before ++ "[REDACTED_API_KEY]".toList ++ after =
      before ++ '[' :: ("REDACTED_API_KEY".toList ++ ']' :: after) := by simp
  rw [htext, Str.lower_append_cons hopening.2.1 hopening.2.2.1 hopening.2.2.2,
    Str.lower_append_cons hclosing.2.1 hclosing.2.2.1 hclosing.2.2.2, hkey]
  simp [keyPlaceholder, Placeholder.toStr]

/-- The placeholder is inert for a pattern without brackets that needs what it does not have. -/
lemma inert_keyPlaceholder {q : Pattern} (need : Char → Prop)
    (hwithin : q.Within fun c => ¬c = '[' ∧ ¬c = ']') (hneeds : q.Needs need)
    (hnone : ∀ c ∈ "redacted_api_key".toList, ¬need c) : keyPlaceholder.Inert isWord q :=
  ⟨(bracket hu (by simp [keyPlaceholder])).1, (bracket hu (by simp [keyPlaceholder])).1, hwithin, need,
    hneeds, hnone⟩

lemma inert_emailPattern : keyPlaceholder.Inert isWord emailPattern := by
  have hmailbox : ∀ c, isMailbox c = true → ¬c = '[' ∧ ¬c = ']' := fun _ => avoids (by decide)
  have hdomain : ∀ c, isDomain c = true → ¬c = '[' ∧ ¬c = ']' := fun _ => avoids (by decide)
  have hlower : ∀ c, isLower c = true → ¬c = '[' ∧ ¬c = ']' := fun _ => avoids (by decide)
  refine inert_keyPlaceholder hu (· = '@') ?_ ?_ (List.forall_iff_forall_mem.mp (by decide))
  · simpa [emailPattern, times, atLeast, many1, concat, List.replicate, Within]
      using ⟨hmailbox, hdomain, hlower⟩
  · simp [emailPattern, many1, concat, Needs]

lemma inert_ssnPattern : keyPlaceholder.Inert isWord (ssnPattern u isWord) := by
  have hnone : ∀ c : Char, c.toNat < 128 → asciiData.decimal c = none → isDecimal u c = false := by
    intro c hlt hc
    rw [isDecimal, hu.decimal c hlt, hc]
    rfl
  have hdecimal : ∀ c, isDecimal u c = true → ¬c = '[' ∧ ¬c = ']' :=
    fun _ => avoids ⟨hnone _ (by decide) (by decide), hnone _ (by decide) (by decide)⟩
  have hseparator : ∀ c, isSeparator c = true → ¬c = '[' ∧ ¬c = ']' := fun _ => avoids (by decide)
  have hascii : ∀ c ∈ "redacted_api_key".toList, c.toNat < 128 ∧ asciiData.decimal c = none :=
    List.forall_iff_forall_mem.mp (by decide)
  refine inert_keyPlaceholder hu (fun c => isDecimal u c = true) ?_ ?_ fun c hc => ?_
  · simpa [ssnPattern, times, opt, concat, List.replicate, Within]
      using ⟨hdecimal, hseparator, hdecimal, hseparator, hdecimal⟩
  · simp [ssnPattern, times, concat, List.replicate, Needs]
  · rw [hnone c (hascii c hc).1 (hascii c hc).2]
    exact Bool.false_ne_true

/-- No lower case has the word `Bearer`. -/
lemma contains_bearer (s : Str) : Str.contains "Bearer ".toList (Str.lower u s) = false := by
  rw [← Bool.not_eq_true, Str.contains_iff]
  intro h
  have hlowered := hu.lower.of_mem_lower (h.subset (show 'B' ∈ "Bearer ".toList by simp))
  rw [Str.IsLowered, hu.simpleLower 'B' (by decide)] at hlowered
  exact absurd hlowered.2.2 (by decide)

/-- The redacted text has no personal data exactly when there is none before and behind the key. -/
lemma containsPii_redacted (before after : Str) :
    containsPii u isWord (Str.lower u (before ++ "[REDACTED_API_KEY]".toList ++ after)) = false ↔
      PiiFree u isWord before ∧ PiiFree u isWord after := by
  have hemail : emailPattern.Local isWord := by
    simp [emailPattern, times, atLeast, many1, concat, Pattern.Local]
  have hssn : (ssnPattern u isWord).Local isWord := by
    simp [ssnPattern, times, opt, concat, Pattern.Local]
  have hbearer := contains_bearer hu (before ++ "[REDACTED_API_KEY]".toList ++ after)
  rw [containsPii, hbearer, lower_redacted hu, Bool.false_and, Bool.or_false,
    Bool.or_eq_false_iff, Bool.or_eq_false_iff, contains_key_redacted, isMatch_eq_false_iff,
    isMatch_eq_false_iff, noMatch_placeholder_iff hemail (inert_emailPattern hu),
    noMatch_placeholder_iff hssn (inert_ssnPattern hu)]
  simp only [PiiFree, isMatch_eq_false_iff]
  tauto

end

/-! ### Which outputs are sanitized -/

lemma sanitizes_of_leak {output : Str} {indicator : String}
    (h : found systemLeakIndicators (Str.lower u output) = some indicator) :
    Sanitizes u isWord output :=
  ⟨_, by rw [scan, h], by simp⟩

/-- Behind the first category the result depends on what is sanitized. -/
lemma sanitizes_of_not_leak {output : Str}
    (h : found systemLeakIndicators (Str.lower u output) = none) :
    Sanitizes u isWord output ↔ ∃ sanitized,
      sanitize u isWord (Str.lower u output) output = some sanitized ∧
        (Hints (Str.lower u output) ∨ containsPii u isWord (Str.lower u sanitized) = false) := by
  rw [Sanitizes, scan, h]
  cases sanitize u isWord (Str.lower u output) output with
  | none => simp
  | some sanitized =>
    cases hexfil : found exfilIndicators (Str.lower u output) with
    | some indicator => simp [Hints, hexfil]
    | none =>
      cases hescalation : found escalationIndicators (Str.lower u output) with
      | some indicator => simp [Hints, hexfil, hescalation]
      | none => simp [Hints, hexfil, hescalation]

/-- What redacting has to achieve where personal data was found. -/
lemma redactable_iff (hu : TextTables u isWord) {output : Str}
    (h : containsPii u isWord (Str.lower u output) = true) :
    (∃ sanitized, redactPii output = some sanitized ∧
        (Hints (Str.lower u output) ∨ containsPii u isWord (Str.lower u sanitized) = false)) ↔
      Redactable u isWord output := by
  rw [Redactable]
  cases hfind : Str.find? "sk-".toList output with
  | none =>
    have hredact : redactPii output = some output := by simp only [redactPii, hfind]
    simp [hredact, h]
  | some i =>
    simp only [redactPii_of_find? hfind, Option.map_eq_some_iff]
    constructor
    · rintro ⟨_, ⟨after, hafter, rfl⟩, hrest⟩
      exact ⟨after, hafter, hrest.imp_right (containsPii_redacted hu _ _).mp⟩
    · rintro ⟨after, hafter, hrest⟩
      exact ⟨_, ⟨after, hafter, rfl⟩, hrest.imp_right (containsPii_redacted hu _ _).mpr⟩

/-- An output is sanitized exactly when it has a leak, when it has no personal data, or when its first
key can be cut out and there is a hint or nothing else is left. -/
theorem sanitizes_iff (hu : TextTables u isWord) (output : Str) :
    Sanitizes u isWord output ↔
      (found systemLeakIndicators (Str.lower u output)).isSome = true ∨
        containsPii u isWord (Str.lower u output) = false ∨ Redactable u isWord output := by
  cases hleak : found systemLeakIndicators (Str.lower u output) with
  | some indicator => exact iff_of_true (sanitizes_of_leak hleak) (.inl rfl)
  | none =>
    rw [sanitizes_of_not_leak hleak]
    cases hpii : containsPii u isWord (Str.lower u output) with
    | false =>
      exact iff_of_true ⟨output, by simp [sanitize, hpii], .inr hpii⟩ (.inr (.inl rfl))
    | true =>
      simp only [sanitize, hpii, if_true, redactable_iff hu hpii, Option.isSome_none,
        Bool.false_eq_true, Bool.true_eq_false, false_or]

namespace Sample

/-- The characters of words, in ASCII. -/
def isAsciiWord (c : Char) : Bool := c.isAlphanum || c == '_'

lemma textTables_asciiData : TextTables asciiData isAsciiWord :=
  ⟨Str.lowerStable_asciiData, fun _ _ => rfl, fun _ _ => rfl, fun _ _ => rfl, fun _ _ => rfl,
    fun _ _ => rfl⟩

theorem sanitizes_iff_key :
    TextTables asciiData isAsciiWord ∧
      (Sanitizes asciiData isAsciiWord "key sk-0123456789abcdef0123456789abcdef01234 ok".toList ↔
        (found systemLeakIndicators (Str.lower asciiData
            "key sk-0123456789abcdef0123456789abcdef01234 ok".toList)).isSome = true ∨
          containsPii asciiData isAsciiWord (Str.lower asciiData
            "key sk-0123456789abcdef0123456789abcdef01234 ok".toList) = false ∨
          Redactable asciiData isAsciiWord
            "key sk-0123456789abcdef0123456789abcdef01234 ok".toList) :=
  ⟨textTables_asciiData, sanitizes_iff textTables_asciiData _⟩

/-- A key before a letter of two bytes panics, and an address is not removed. -/
theorem not_sanitizes :
    ¬Sanitizes asciiData isAsciiWord "sk-0123456789abcdef0123456789abcdef0123é".toList ∧
      ¬Sanitizes asciiData isAsciiWord "write to ann@example.com".toList := by
  constructor
  · rintro ⟨result, hscan, -⟩
    have hnone : (scan asciiData isAsciiWord
        "sk-0123456789abcdef0123456789abcdef0123é".toList).isNone = true := by decide +kernel
    rw [hscan] at hnone
    cases hnone
  · rintro ⟨result, hscan, hsafe⟩
    have hleft : ((scan asciiData isAsciiWord "write to ann@example.com".toList).any fun result =>
        result.safe && containsPii asciiData isAsciiWord (Str.lower asciiData result.sanitized)) =
          true := by decide +kernel
    rw [hscan, Option.any_some, Bool.and_eq_true] at hleft
    rw [hsafe hleft.1] at hleft
    cases hleft.2

end Sample

end AxiomGrid.Phantom.OutputScanner
