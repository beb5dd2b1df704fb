import AxiomGrid.Lib.Redaction
import AxiomGrid.Receipts.Log

/-!
# The guard for personal data

`PiiGuard` of `phantom-core/src/pii_guard.rs`. Six patterns are replaced one after the other. A number is
looked for between boundaries of words, and an API key anywhere, last: where a key follows a number with
nothing between them, the number ends at a boundary only after the key is replaced.
-/

namespace AxiomGrid.Phantom

open Regex Regex.Pattern
open Receipts (isWhiteSpace)

inductive PiiKind where
  | email
  | phoneUs
  | creditCard
  | ssnUs
  | ipAddress
  | apiKey
  deriving DecidableEq

namespace PiiKind

/-- `placeholder`. -/
def placeholder : PiiKind → Placeholder
  | email => ⟨'[', "EMAIL REDACTED".toList, ']'⟩
  | phoneUs => ⟨'[', "PHONE REDACTED".toList, ']'⟩
  | creditCard => ⟨'[', "CARD REDACTED".toList, ']'⟩
  | ssnUs => ⟨'[', "SSN REDACTED".toList, ']'⟩
  | ipAddress => ⟨'[', "IP REDACTED".toList, ']'⟩
  | apiKey => ⟨'[', "KEY REDACTED".toList, ']'⟩

/-- `format!("{kind:?}")`. -/
def shown : PiiKind → String
  | email => "Email"
  | phoneUs => "PhoneUs"
  | creditCard => "CreditCard"
  | ssnUs => "SsnUs"
  | ipAddress => "IpAddress"
  | apiKey => "ApiKey"

end PiiKind

namespace PiiGuard

variable (u : UnicodeData) (isWord : Char → Bool)

/-! ### The patterns -/

/-- `(?i)[a-z]`; two characters that are not ASCII fold to a letter. -/
def isLetter (c : Char) : Bool := c.isAlpha || c == '\u017f' || c == '\u212a'

/-- `(?i)[a-z0-9.\-]`. -/
def isDomain (c : Char) : Bool := isLetter c || c.isDigit || c == '.' || c == '-'

/-- `(?i)[a-z0-9._%+\-]`. -/
def isMailbox (c : Char) : Bool := isDomain c || c == '_' || c == '%' || c == '+'

/-- `\d`. -/
def isDecimal (c : Char) : Bool := (u.decimal c).isSome

/-- `[\s\-.]`. -/
def isSeparator (c : Char) : Bool := isWhiteSpace c || c == '-' || c == '.'

/-- `[- ]`. -/
def isDash (c : Char) : Bool := c == '-' || c == ' '

/-- `[A-Za-z0-9_\-]`. -/
def isKeyChar (c : Char) : Bool := c.isAlphanum || c == '_' || c == '-'

/-- One given character. -/
def literal (c : Char) : Pattern := .char (· == c)

/-- A given text. -/
def word (text : String) : Pattern := .concat (text.toList.map literal)

/-- `\d{n}`. -/
def decimals (n : ℕ) : Pattern := times n (.char (isDecimal u))

/-- `r{0,n}`. -/
def optTimes (r : Pattern) : ℕ → Pattern
  | 0 => .empty
  | n + 1 => opt (.seq r (optTimes r n))

def emailPattern : Pattern :=
  .concat [many1 true isMailbox, literal '@', many1 true isDomain, literal '.', atLeast 2 isLetter]

def phonePattern : Pattern :=
  .concat [opt (.concat [literal '+', literal '1', opt (.char isSeparator)]), opt (literal '('),
    decimals u 3, opt (literal ')'), opt (.char isSeparator), decimals u 3, opt (.char isSeparator),
    decimals u 4]

/-- `\d[ \-]?`. -/
def cardDigit : Pattern := .seq (.char (isDecimal u)) (opt (.char isDash))

def cardPattern : Pattern :=
  .concat [.boundary isWord, times 13 (cardDigit u), optTimes (cardDigit u) 6, .boundary isWord]

def ssnPattern : Pattern :=
  .concat [.boundary isWord, decimals u 3, .char isDash, decimals u 2, .char isDash, decimals u 4,
    .boundary isWord]

def ipPattern : Pattern :=
  .concat [.boundary isWord, times 3 (.seq (between 1 3 (isDecimal u)) (literal '.')),
    between 1 3 (isDecimal u), .boundary isWord]

def keyPattern : Pattern :=
  .seq (oneOf [word "sk-", .seq (word "Bearer") (many1 true isWhiteSpace), word "ghp_", word "gho_",
      word "glpat-", word "xoxb-", word "xoxp-"])
    (atLeast 8 isKeyChar)

/-- The patterns with boundaries of words. -/
def numberPatterns : List (PiiKind × Pattern) :=
  [(.creditCard, cardPattern u isWord), (.ssnUs, ssnPattern u isWord), (.ipAddress, ipPattern u isWord)]

/-- `PiiGuard::new`. -/
def patterns : List (PiiKind × Pattern) :=
  [(.email, emailPattern), (.phoneUs, phonePattern u)] ++ numberPatterns u isWord ++
    [(.apiKey, keyPattern)]

/-! ### Redaction -/

/-- The loop of `redact`. -/
def redactAll (patterns : List (PiiKind × Pattern)) (text : Str) : Str × Bool :=
  patterns.foldl (fun state entry =>
    if isMatch entry.2 state.1 then (sub entry.2 (fun _ => entry.1.placeholder.toStr) state.1, true)
    else state) (text, false)

/-- `redact`. -/
def redact (text : Str) : Str × Bool := redactAll (patterns u isWord) text

/-- `scan_output`. -/
def scanOutput (text : Str) : List String :=
  (patterns u isWord).filterMap fun entry => if isMatch entry.2 text then some entry.1.shown else none

/-- `is_safe`. -/
def isSafe (text : Str) : Bool := (scanOutput u isWord text).isEmpty

/-- The text before the last pattern, that of the keys, is replaced. -/
def beforeKeys (text : Str) : Str := (redactAll (patterns u isWord).dropLast text).1

/-- What every version of the Unicode tables says of ASCII. -/
structure Tables : Prop where
  decimal : ∀ c : Char, c.toNat < 128 → u.decimal c = asciiData.decimal c
  isWord : ∀ c : Char, c.toNat < 128 → isWord c = (c.isAlphanum || c == '_')

variable {u isWord}

/-- The flag aside, the patterns are replaced in order. -/
lemma redactAll_eq (patterns : List (PiiKind × Pattern)) (text : Str) :
    (redactAll patterns text).1 =
      Regex.redact (patterns.map fun entry => (entry.2, entry.1.placeholder)) text := by
  suffices hall : ∀ state : Str × Bool, (patterns.foldl (fun state entry =>
      if isMatch entry.2 state.1 then (sub entry.2 (fun _ => entry.1.placeholder.toStr) state.1, true)
      else state) state).1 =
        Regex.redact (patterns.map fun entry => (entry.2, entry.1.placeholder)) state.1 from
    hall (text, false)
  induction patterns with
  | nil => exact fun _ => rfl
  | cons entry patterns ih =>
    intro state
    rw [List.foldl_cons, ih, List.map_cons, Regex.redact, Regex.redact, List.foldl_cons]
    cases hmatch : isMatch entry.2 state.1 with
    | true => rfl
    | false =>
      rw [sub_of_noMatch (isMatch_eq_false_iff.mp hmatch)]
      rfl

lemma isSafe_iff {text : Str} :
    isSafe u isWord text = true ↔ ∀ entry ∈ patterns u isWord, NoMatch entry.2 [] text := by
  rw [isSafe, List.isEmpty_iff, scanOutput, List.filterMap_eq_nil_iff]
  refine forall₂_congr fun entry _ => ?_
  rw [← isMatch_eq_false_iff]
  cases isMatch entry.2 text <;> simp

/-! ### Shapes of the patterns -/

lemma free_word (text : String) : (word text).Free := by
  rw [word, free_concat, List.forall_mem_map]
  exact fun _ _ => trivial

lemma free_decimals (n : ℕ) : (decimals u n).Free := free_times n trivial

lemma free_emailPattern : emailPattern.Free := by
  simp [emailPattern, literal, many1, atLeast, times, concat, List.replicate, Free]

lemma free_phonePattern : (phonePattern u).Free := by
  simp [phonePattern, free_concat, free_decimals, literal, opt, Free]

lemma free_keyPattern : keyPattern.Free := by
  refine ⟨free_oneOf ?_, ⟨free_times 8 trivial, trivial⟩⟩
  simp [free_word, many1, Free]

lemma consuming_emailPattern : emailPattern.Consuming := .inl (.inl trivial)

lemma consuming_decimals (n : ℕ) : (decimals u (n + 1)).Consuming := consuming_times n trivial

lemma consuming_phonePattern : (phonePattern u).Consuming :=
  consuming_concat (r := decimals u 3) (by simp) (consuming_decimals 2)

lemma consuming_keyPattern : keyPattern.Consuming :=
  .inr (.inl (consuming_times 7 trivial))

/-- A pattern between two boundaries. -/
lemma bounded_concat (rs : List Pattern) {r : Pattern} (hlocal : ∀ r ∈ rs, r.Local isWord) (hr : r ∈ rs)
    (hconsuming : r.Consuming) :
    Bounded isWord (.seq (.boundary isWord) (concat (rs ++ [.boundary isWord]))) ∧
      Local isWord (.seq (.boundary isWord) (concat (rs ++ [.boundary isWord]))) := by
  have hrest : (concat (rs ++ [.boundary isWord])).Local isWord := by
    rw [local_concat, List.forall_mem_append]
    exact ⟨hlocal, by simp [Local]⟩
  exact ⟨bounded_boundary hrest (consuming_concat (List.mem_append_left _ hr) hconsuming)
    (endsAtBoundary_concat rs), rfl, hrest⟩

lemma local_optTimes {r : Pattern} (n : ℕ) (h : r.Local isWord) : (optTimes r n).Local isWord := by
  induction n with
  | zero => trivial
  | succ n ih => exact ⟨⟨h, ih⟩, trivial⟩

lemma within_optTimes {r : Pattern} {q : Char → Prop} (n : ℕ) (h : r.Within q) :
    (optTimes r n).Within q := by
  induction n with
  | zero => trivial
  | succ n ih => exact ⟨⟨h, ih⟩, trivial⟩

lemma bounded_cardPattern :
    Bounded isWord (cardPattern u isWord) ∧ (cardPattern u isWord).Local isWord := by
  have hdigit : (cardDigit u).Local isWord := by simp [cardDigit, opt, Local]
  refine bounded_concat [times 13 (cardDigit u), optTimes (cardDigit u) 6]
    (r := times 13 (cardDigit u)) ?_ (by simp)
    (consuming_times 12 (.inl trivial))
  simpa using ⟨local_times 13 hdigit, local_optTimes 6 hdigit⟩

lemma bounded_ssnPattern :
    Bounded isWord (ssnPattern u isWord) ∧ (ssnPattern u isWord).Local isWord := by
  refine bounded_concat [decimals u 3, .char isDash, decimals u 2, .char isDash, decimals u 4]
    (r := decimals u 3) ?_ (by simp) (consuming_decimals 2)
  simp [(free_decimals _).local, Local]

lemma bounded_ipPattern :
    Bounded isWord (ipPattern u isWord) ∧ (ipPattern u isWord).Local isWord := by
  have hpart : (between 1 3 (isDecimal u)).Local isWord := ⟨trivial, local_upTo 2⟩
  refine bounded_concat
    [times 3 (.seq (between 1 3 (isDecimal u)) (literal '.')), between 1 3 (isDecimal u)]
    (r := between 1 3 (isDecimal u)) ?_ (by simp) (.inl trivial)
  simpa using ⟨local_times 3 ⟨hpart, trivial⟩, hpart⟩

lemma bounded_numberPatterns : ∀ entry ∈ numberPatterns u isWord,
    Bounded isWord entry.2 ∧ entry.2.Local isWord := by
  simp only [numberPatterns, List.forall_mem_cons]
  exact ⟨bounded_cardPattern, bounded_ssnPattern, bounded_ipPattern, List.forall_mem_nil _⟩

/-! ### The placeholders -/

/-- The characters that a placeholder has between its brackets. -/
def isReplacement (c : Char) : Bool := c.isUpper || c == ' '

lemma toNat_of_isReplacement {c : Char} (h : isReplacement c = true) :
    c.toNat = 32 ∨ 65 ≤ c.toNat ∧ c.toNat ≤ 90 := by
  rw [isReplacement, Bool.or_eq_true, beq_iff_eq] at h
  rcases h with hupper | rfl
  · have hbounds : 'A'.val ≤ c.val ∧ c.val ≤ 'Z'.val := of_decide_eq_true hupper
    rw [UInt32.le_iff_toNat_le, UInt32.le_iff_toNat_le] at hbounds
    exact .inr hbounds
  · exact .inl rfl

section

variable (hu : Tables u isWord)
include hu

lemma inert_of_needs {q : Pattern} (need : Char → Prop)
    (hwithin : q.Within fun c => ¬c = '[' ∧ ¬c = ']') (hneeds : q.Needs need)
    (hnone : ∀ c, isReplacement c = true → ¬need c) (kind : PiiKind) :
    kind.placeholder.Inert isWord q := by
  have hopening : isWord '[' = false := by
    rw [hu.isWord _ (by decide)]
    rfl
  have hclosing : isWord ']' = false := by
    rw [hu.isWord _ (by decide)]
    rfl
  cases kind <;> exact ⟨hopening, hclosing, hwithin, need, hneeds, fun c hc => hnone c
    (List.all_eq_true.mp (by decide : List.all _ isReplacement = true) c hc)⟩

lemma inert_emailPattern (kind : PiiKind) : kind.placeholder.Inert isWord emailPattern := by
  have hclasses : (∀ c, isMailbox c = true → ¬c = '[' ∧ ¬c = ']') ∧
      (∀ c, isDomain c = true → ¬c = '[' ∧ ¬c = ']') ∧
      ∀ c, isLetter c = true → ¬c = '[' ∧ ¬c = ']' :=
    ⟨fun _ => avoids (by decide), fun _ => avoids (by decide), fun _ => avoids (by decide)⟩
  refine inert_of_needs hu (· = '@') ?_ ?_ ?_ kind
  · simpa [emailPattern, literal, times, atLeast, many1, concat, List.replicate, Within] using hclasses
  · exact needs_concat (r := literal '@') (by simp) fun c hc => eq_of_beq hc
  · rintro c hc rfl
    cases hc

lemma inert_keyPattern (kind : PiiKind) : kind.placeholder.Inert isWord keyPattern := by
  have hwithin : ∀ text : String, text.toList.all (fun c => c != '[' && c != ']') = true →
      (word text).Within fun c => ¬c = '[' ∧ ¬c = ']' := by
    intro text htext
    rw [word, within_concat, List.forall_mem_map]
    intro c hc d hd
    obtain rfl := eq_of_beq hd
    simpa using List.all_eq_true.mp htext d hc
  have hneeds : ∀ text : String, text.toList.any Char.isLower = true →
      (word text).Needs fun c => c.isLower = true := by
    intro text htext
    obtain ⟨c, hc, hlower⟩ := List.any_eq_true.mp htext
    exact needs_concat (List.mem_map_of_mem hc) fun d hd => (eq_of_beq hd).symm ▸ hlower
  have hspace : (many1 true isWhiteSpace).Within fun c => ¬c = '[' ∧ ¬c = ']' :=
    ⟨fun _ => avoids (by decide), fun _ => avoids (by decide)⟩
  have hkey : ∀ c, isKeyChar c = true → ¬c = '[' ∧ ¬c = ']' := fun _ => avoids (by decide)
  refine inert_of_needs hu (q := keyPattern) (fun c => c.isLower = true) ⟨within_oneOf ?_, ?_⟩
    (.inl (needs_oneOf ?_)) ?_ kind
  · simp only [List.forall_mem_cons]
    exact ⟨hwithin _ (by decide), ⟨hwithin _ (by decide), hspace⟩, hwithin _ (by decide),
      hwithin _ (by decide), hwithin _ (by decide), hwithin _ (by decide), hwithin _ (by decide),
      List.forall_mem_nil _⟩
  · exact ⟨within_times 8 hkey, hkey⟩
  · simp only [List.forall_mem_cons]
    exact ⟨hneeds _ (by decide), .inl (hneeds _ (by decide)), hneeds _ (by decide), hneeds _ (by decide),
      hneeds _ (by decide), hneeds _ (by decide), hneeds _ (by decide), List.forall_mem_nil _⟩
  · intro c hc hlower
    have hnumber := toNat_of_isReplacement hc
    have hbounds : (decide ('a'.val ≤ c.val) && decide (c.val ≤ 'z'.val)) = true := hlower
    rw [Bool.and_eq_true, decide_eq_true_eq, UInt32.le_iff_toNat_le] at hbounds
    have hfirst : 97 ≤ c.toNat := hbounds.1
    omega

/-- A pattern of decimal digits and of characters that are not brackets. -/
lemma inert_of_decimal {q : Pattern} (hwithin : (∀ c, isDecimal u c = true → ¬c = '[' ∧ ¬c = ']') →
      q.Within fun c => ¬c = '[' ∧ ¬c = ']')
    (hneeds : q.Needs fun c => isDecimal u c = true) (kind : PiiKind) :
    kind.placeholder.Inert isWord q := by
  have hmark : isDecimal u '[' = false ∧ isDecimal u ']' = false := by
    rw [isDecimal, isDecimal, hu.decimal _ (by decide), hu.decimal _ (by decide)]
    decide
  refine inert_of_needs hu _ (hwithin fun _ => avoids hmark) hneeds (fun c hc hdecimal => ?_) kind
  have hnumber := toNat_of_isReplacement hc
  have hdigit : c.isDigit = true := by
    rw [isDecimal, hu.decimal c (by omega)] at hdecimal
    by_contra hdigit
    simp [asciiData, hdigit] at hdecimal
  simp only [Char.isDigit, Bool.and_eq_true, decide_eq_true_eq, ge_iff_le,
    UInt32.le_iff_toNat_le] at hdigit
  have hbounds : 48 ≤ c.toNat ∧ c.toNat ≤ 57 := hdigit
  omega

lemma inert_phonePattern (kind : PiiKind) : kind.placeholder.Inert isWord (phonePattern u) := by
  have hliteral : ∀ d, ¬d = '[' ∧ ¬d = ']' → (literal d).Within fun c => ¬c = '[' ∧ ¬c = ']' :=
    fun d hd c hc => (eq_of_beq hc).symm ▸ hd
  have hseparator : ∀ c, isSeparator c = true → ¬c = '[' ∧ ¬c = ']' := fun _ => avoids (by decide)
  refine inert_of_decimal hu (q := phonePattern u) (fun hdecimal => ?_)
    (needs_concat (r := decimals u 3) (by simp) (needs_times 2 fun _ => id)) kind
  have hdecimals : ∀ n, (decimals u n).Within fun c => ¬c = '[' ∧ ¬c = ']' := fun n =>
    within_times n hdecimal
  rw [phonePattern, within_concat]
  simp only [List.forall_mem_cons]
  exact ⟨⟨⟨hliteral _ (by decide), hliteral _ (by decide), hseparator, trivial⟩, trivial⟩,
    ⟨hliteral _ (by decide), trivial⟩, hdecimals 3, ⟨hliteral _ (by decide), trivial⟩,
    ⟨hseparator, trivial⟩, hdecimals 3, ⟨hseparator, trivial⟩, hdecimals 4, List.forall_mem_nil _⟩

lemma inert_numberPatterns : ∀ entry ∈ numberPatterns u isWord, ∀ kind : PiiKind,
    kind.placeholder.Inert isWord entry.2 := by
  have hdash : ∀ c, isDash c = true → ¬c = '[' ∧ ¬c = ']' := fun _ => avoids (by decide)
  have hdot : (literal '.').Within fun c => ¬c = '[' ∧ ¬c = ']' :=
    fun c hc => (eq_of_beq hc).symm ▸ (by decide)
  simp only [numberPatterns, List.forall_mem_cons]
  refine ⟨inert_of_decimal hu (fun hdecimal => ?_) ?_, inert_of_decimal hu (fun hdecimal => ?_) ?_,
    inert_of_decimal hu (fun hdecimal => ?_) ?_, List.forall_mem_nil _⟩
  · have hdigit : (cardDigit u).Within fun c => ¬c = '[' ∧ ¬c = ']' := ⟨hdecimal, hdash, trivial⟩
    exact ⟨trivial, within_times 13 hdigit, within_optTimes 6 hdigit, trivial⟩
  · exact .inr (.inl (needs_times 12 (.inl fun _ => id)))
  · exact ⟨trivial, within_times 3 hdecimal, hdash, within_times 2 hdecimal, hdash,
      within_times 4 hdecimal, trivial⟩
  · exact .inr (.inl (needs_times 2 fun _ => id))
  · have hpart : (between 1 3 (isDecimal u)).Within fun c => ¬c = '[' ∧ ¬c = ']' :=
      ⟨hdecimal, within_upTo 2 hdecimal⟩
    exact ⟨trivial, within_times 3 ⟨hpart, hdot⟩, hpart, trivial⟩
  · exact .inr (.inr (.inl (.inl fun _ => id)))

end

/-! ### What is left -/

/-- The patterns without boundaries are gone, whatever is replaced after them. -/
lemma noMatch_redactAll_of_free {rules : List (PiiKind × Pattern)} {q : Pattern} (hq : q.Free)
    (hconsuming : q.Consuming) (hinert : ∀ kind : PiiKind, kind.placeholder.Inert isWord q)
    (hmem : q ∈ rules.map Prod.snd) (text : Str) : NoMatch q [] (redactAll rules text).1 := by
  have hinert' : ∀ rule ∈ rules.map fun entry => (entry.2, entry.1.placeholder),
      rule.2.Inert isWord q := List.forall_mem_map.mpr fun entry _ => hinert entry.1
  obtain ⟨entry, hentry, rfl⟩ := List.mem_map.mp hmem
  rw [redactAll_eq]
  exact noMatch_redact_of_free hq hconsuming hinert' (.inl ⟨_, List.mem_map_of_mem hentry, rfl⟩)

/-- The keys are replaced last. -/
lemma redact_fst (text : Str) : (redact u isWord text).1 =
    sub keyPattern (fun _ => PiiKind.apiKey.placeholder.toStr) (beforeKeys u isWord text) := by
  have hpatterns : patterns u isWord = (patterns u isWord).dropLast ++ [(.apiKey, keyPattern)] := rfl
  rw [redact, beforeKeys, redactAll_eq, redactAll_eq]
  conv_lhs => rw [hpatterns, List.map_append, Regex.redact, List.foldl_append]
  rfl

section

variable (hu : Tables u isWord)
include hu

/-- Before the keys are replaced, there is no match of the other patterns. -/
lemma noMatch_beforeKeys (text : Str) :
    ∀ entry ∈ (patterns u isWord).dropLast, NoMatch entry.2 [] (beforeKeys u isWord text) := by
  have hdrop : (patterns u isWord).dropLast =
      [(.email, emailPattern), (.phoneUs, phonePattern u)] ++ numberPatterns u isWord := rfl
  rw [beforeKeys, hdrop, List.forall_mem_append]
  constructor
  · simp only [List.forall_mem_cons]
    exact ⟨noMatch_redactAll_of_free free_emailPattern consuming_emailPattern (inert_emailPattern hu)
        (by simp) text,
      noMatch_redactAll_of_free free_phonePattern consuming_phonePattern (inert_phonePattern hu)
        (by simp) text, List.forall_mem_nil _⟩
  · intro entry hentry
    rw [redactAll_eq, List.map_append, Regex.redact, List.foldl_append]
    refine noMatch_redact_of_bounded (List.forall_mem_map.mpr fun entry' hentry' => ?_)
      (bounded_numberPatterns entry hentry).1 (List.forall_mem_map.mpr fun entry' _ => ?_)
      (.inl ⟨_, List.mem_map_of_mem hentry, rfl⟩)
    · exact (bounded_numberPatterns entry' hentry').1
    · exact inert_numberPatterns hu entry hentry entry'.1

/-- A redacted text is safe if there is no number in a piece between two keys by itself. -/
lemma isSafe_redact_iff (text : Str) : isSafe u isWord (redact u isWord text).1 = true ↔
    ∀ entry ∈ numberPatterns u isWord, ∀ piece ∈ split keyPattern (beforeKeys u isWord text),
      NoMatch entry.2 [] piece := by
  have hnumbers : (∀ entry ∈ numberPatterns u isWord, NoMatch entry.2 [] (redact u isWord text).1) ↔
      ∀ entry ∈ numberPatterns u isWord, ∀ piece ∈ split keyPattern (beforeKeys u isWord text),
        NoMatch entry.2 [] piece := by
    rw [redact_fst]
    exact forall₂_congr fun entry hentry => noMatch_sub_iff (bounded_numberPatterns entry hentry).2
      (inert_numberPatterns hu entry hentry .apiKey)
  rw [← hnumbers, isSafe_iff]
  refine ⟨fun h entry hentry => h entry (by simp [patterns, hentry]), fun h => ?_⟩
  rw [patterns, List.forall_mem_append, List.forall_mem_append]
  simp only [List.forall_mem_cons]
  exact ⟨⟨⟨noMatch_redactAll_of_free free_emailPattern consuming_emailPattern (inert_emailPattern hu)
      (by simp [patterns]) text,
    noMatch_redactAll_of_free free_phonePattern consuming_phonePattern (inert_phonePattern hu)
      (by simp [patterns]) text, List.forall_mem_nil _⟩, h⟩,
    noMatch_redactAll_of_free free_keyPattern consuming_keyPattern (inert_keyPattern hu)
      (by simp [patterns]) text, List.forall_mem_nil _⟩

end

namespace Sample

/-- `\w` of ASCII. -/
def asciiWord (c : Char) : Bool := c.isAlphanum || c == '_'

lemma tables : Tables asciiData asciiWord := ⟨fun _ _ => rfl, fun _ _ => rfl⟩

end Sample

end PiiGuard

end AxiomGrid.Phantom
