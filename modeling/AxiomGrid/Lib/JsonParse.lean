import Mathlib.Data.List.TakeWhile
import AxiomGrid.Lib.JsonText

/-!
# Reading JSON

A reader for JSON texts, with the number grammar and the string escapes of the standard. What
differs between readers is a parameter `Reader`: the float that a literal with a fraction or an
exponent stands for, and whether `NaN` and the infinities are values. Members are kept as they are
written, duplicates included.

A text written in a readable style is read back (`Json.parse_renderWith`), if each float is the one
its text is read as.
-/

namespace Json

/-- The choices of a reader. -/
structure Reader where
  float : List Char → FloatRepr
  constants : Bool

/-! ### Blanks and tokens -/

/-- White space between tokens. -/
def isBlank (c : Char) : Bool := c == ' ' || c == '\t' || c == '\n' || c == '\r'

def skipBlank (cs : List Char) : List Char := cs.dropWhile isBlank

/-- The text without the white space around it. -/
def trimBlank (cs : List Char) : List Char := (skipBlank (skipBlank cs).reverse).reverse

/-- One or more digits. -/
def scanDigits (cs : List Char) : Option (List Char × List Char) :=
  if cs.takeWhile Char.isDigit = [] then none
  else some (cs.takeWhile Char.isDigit, cs.dropWhile Char.isDigit)

/-- `0`, or digits that do not start with a zero. -/
def scanNatural : List Char → Option (List Char × List Char)
  | [] => none
  | c :: cs => if c = '0' then some (['0'], cs) else scanDigits (c :: cs)

/-- A natural number after an optional sign. -/
def scanInteger : List Char → Option (List Char × List Char)
  | [] => none
  | c :: cs =>
    if c = '-' then (scanNatural cs).map fun p => ('-' :: p.1, p.2) else scanNatural (c :: cs)

/-- A point with digits, if there is one. -/
def scanFraction : List Char → List Char × List Char
  | [] => ([], [])
  | c :: cs =>
    if c = '.' then
      match scanDigits cs with
      | some (ds, rest) => (c :: ds, rest)
      | none => ([], c :: cs)
    else ([], c :: cs)

/-- An optional sign. -/
def scanSign : List Char → List Char × List Char
  | [] => ([], [])
  | c :: cs => if c = '+' ∨ c = '-' then ([c], cs) else ([], c :: cs)

/-- An exponent, if there is one. -/
def scanExponent : List Char → List Char × List Char
  | [] => ([], [])
  | c :: cs =>
    if c = 'e' ∨ c = 'E' then
      match scanDigits (scanSign cs).2 with
      | some (ds, rest) => (c :: ((scanSign cs).1 ++ ds), rest)
      | none => ([], c :: cs)
    else ([], c :: cs)

/-- The parts of a number. -/
structure NumberText where
  whole : List Char
  fraction : List Char
  exponent : List Char
  deriving DecidableEq

def NumberText.text (t : NumberText) : List Char := t.whole ++ t.fraction ++ t.exponent

/-- Whether a number is written as an integer. -/
def NumberText.isInteger (t : NumberText) : Bool := t.fraction.isEmpty && t.exponent.isEmpty

def scanNumber (cs : List Char) : Option (NumberText × List Char) :=
  (scanInteger cs).map fun p =>
    let fraction := scanFraction p.2
    let exponent := scanExponent fraction.2
    (⟨p.1, fraction.1, exponent.1⟩, exponent.2)

/-- The value of the digits after an optional sign. -/
def integerValue : List Char → ℤ
  | [] => 0
  | c :: cs =>
    if c = '-' then -(Nat.ofDigitChars 10 cs 0 : ℤ) else (Nat.ofDigitChars 10 (c :: cs) 0 : ℤ)

/-- The values that are not in the standard. -/
def constants : List (List Char × Json) :=
  [("NaN".toList, float ⟨"NaN".toList, rfl⟩), ("Infinity".toList, float ⟨"Infinity".toList, rfl⟩),
    ("-Infinity".toList, float ⟨"-Infinity".toList, rfl⟩)]

section Reader

variable (r : Reader)

def readNumber (cs : List Char) : Option (Json × List Char) :=
  (scanNumber cs).map fun p =>
    if p.1.isInteger then (int (integerValue p.1.whole), p.2) else (float (r.float p.1.text), p.2)

/-- The keywords with their values. -/
def keywords : List (List Char × Json) :=
  [("null".toList, null), ("true".toList, bool true), ("false".toList, bool false)] ++
    if r.constants then constants else []

def readKeyword (cs : List Char) : Option (Json × List Char) :=
  (keywords r).findSome? fun p =>
    if p.1.isPrefixOf cs then some (p.2, cs.drop p.1.length) else none

def readToken (cs : List Char) : Option (Json × List Char) :=
  (readKeyword r cs).or (readNumber r cs)

/-! ### Values -/

/-- A key with its colon and the blanks around it. -/
def readKey : List Char → Option (String × List Char)
  | [] => none
  | c :: cs =>
    if c = '"' then
      (readString (cs.length + 1) cs).bind fun p =>
        if (skipBlank p.2).head? = some ':' then
          some (String.ofList p.1, skipBlank (skipBlank p.2).tail)
        else none
    else none

mutual

/-- The value at the start of a text and the text behind it; the first argument bounds the number of
steps. -/
def readValue : ℕ → List Char → Option (Json × List Char)
  | 0, _ => none
  | _ + 1, [] => none
  | n + 1, c :: cs =>
    if c = '"' then (readString (cs.length + 1) cs).map fun p => (str (String.ofList p.1), p.2)
    else if c = '[' then
      if (skipBlank cs).head? = some ']' then some (arr [], (skipBlank cs).tail)
      else (readItems n (skipBlank cs)).map fun p => (arr p.1, p.2)
    else if c = '{' then
      if (skipBlank cs).head? = some '}' then some (obj [], (skipBlank cs).tail)
      else (readMembers n (skipBlank cs)).map fun p => (obj p.1, p.2)
    else readToken r (c :: cs)

/-- Items separated by commas, up to the closing bracket. -/
def readItems : ℕ → List Char → Option (List Json × List Char)
  | 0, _ => none
  | n + 1, cs =>
    (readValue n cs).bind fun p => (readMoreItems n p.2).map fun q => (p.1 :: q.1, q.2)

/-- The closing bracket, or a comma and further items. -/
def readMoreItems : ℕ → List Char → Option (List Json × List Char)
  | 0, _ => none
  | n + 1, cs =>
    if (skipBlank cs).head? = some ']' then some ([], (skipBlank cs).tail)
    else if (skipBlank cs).head? = some ',' then readItems n (skipBlank (skipBlank cs).tail)
    else none

/-- Members separated by commas, up to the closing brace. -/
def readMembers : ℕ → List Char → Option (List (String × Json) × List Char)
  | 0, _ => none
  | n + 1, cs =>
    (readKey cs).bind fun k =>
      (readValue n k.2).bind fun p =>
        (readMoreMembers n p.2).map fun q => ((k.1, p.1) :: q.1, q.2)

/-- The closing brace, or a comma and further members. -/
def readMoreMembers : ℕ → List Char → Option (List (String × Json) × List Char)
  | 0, _ => none
  | n + 1, cs =>
    if (skipBlank cs).head? = some '}' then some ([], (skipBlank cs).tail)
    else if (skipBlank cs).head? = some ',' then readMembers n (skipBlank (skipBlank cs).tail)
    else none

end

/-- The value of a whole text. -/
def parse (text : List Char) : Option Json :=
  (readValue r (2 * (trimBlank text).length) (trimBlank text)).bind fun p =>
    if p.2 = [] then some p.1 else none

end Reader

/-! ### Dictionaries -/

mutual

/-- The value with every object as a dictionary: of the members with one key the last value stays, at
the place of the first. -/
def asDicts : Json → Json
  | arr xs => arr (asDictsItems xs)
  | obj kvs => obj ((asDictsMembers kvs).foldl (fun d p => setItem d p.1 p.2) [])
  | v => v

def asDictsItems : List Json → List Json
  | [] => []
  | x :: xs => asDicts x :: asDictsItems xs

def asDictsMembers : List (String × Json) → List (String × Json)
  | [] => []
  | (k, v) :: kvs => (k, asDicts v) :: asDictsMembers kvs

end

/-- `json.loads(text)`; `none` is the `JSONDecodeError`. -/
def loads (readFloat : List Char → FloatRepr) (text : String) : Option Json :=
  (parse ⟨readFloat, true⟩ text.toList).map asDicts

/-! ### Numbers are read back -/

/-- A text that a number may be followed by. -/
def Ends (rest : List Char) : Prop :=
  ∀ c ∈ rest.head?, c.isDigit = false ∧ c ≠ '.' ∧ c ≠ 'e' ∧ c ≠ 'E' ∧ c ≠ '+' ∧ c ≠ '-'

lemma ends_nil : Ends [] := by simp [Ends]

lemma ends_cons {c : Char} {rest : List Char} (hdigit : c.isDigit = false)
    (hc : c ≠ '.' ∧ c ≠ 'e' ∧ c ≠ 'E' ∧ c ≠ '+' ∧ c ≠ '-') : Ends (c :: rest) := by
  intro d hd
  obtain rfl : c = d := by simpa using hd
  exact ⟨hdigit, hc⟩

section Scan

variable {cs rest : List Char}

lemma takeWhile_append_of_ends (h : Ends rest) :
    (cs ++ rest).takeWhile Char.isDigit = cs.takeWhile Char.isDigit ∧
      (cs ++ rest).dropWhile Char.isDigit = cs.dropWhile Char.isDigit ++ rest := by
  induction cs with
  | nil =>
    cases rest with
    | nil => exact ⟨rfl, rfl⟩
    | cons c rest =>
      have hc : c.isDigit = false := (h c rfl).1
      simp [hc]
  | cons c cs ih =>
    by_cases hc : c.isDigit = true
    · simp [hc, ih.1, ih.2]
    · simp [hc]

lemma scanDigits_append (h : Ends rest) :
    scanDigits (cs ++ rest) = (scanDigits cs).map fun p => (p.1, p.2 ++ rest) := by
  rw [scanDigits, scanDigits, (takeWhile_append_of_ends h).1, (takeWhile_append_of_ends h).2]
  split_ifs <;> rfl

lemma scanNatural_append (h : Ends rest) {p : List Char × List Char} (hp : scanNatural cs = some p) :
    scanNatural (cs ++ rest) = some (p.1, p.2 ++ rest) := by
  cases cs with
  | nil => cases hp
  | cons c cs =>
    rw [scanNatural] at hp
    rw [List.cons_append, scanNatural]
    split_ifs at hp ⊢ with hc
    · cases hp
      rfl
    · rw [← List.cons_append, scanDigits_append h, hp]
      rfl

lemma scanInteger_append (h : Ends rest) {p : List Char × List Char}
    (hp : scanInteger cs = some p) : scanInteger (cs ++ rest) = some (p.1, p.2 ++ rest) := by
  cases cs with
  | nil => cases hp
  | cons c cs =>
    rw [scanInteger] at hp
    rw [List.cons_append, scanInteger]
    split_ifs at hp ⊢ with hc
    · obtain ⟨q, hq, rfl⟩ := Option.map_eq_some_iff.mp hp
      rw [scanNatural_append h hq]
      rfl
    · exact scanNatural_append h hp

lemma scanFraction_append (h : Ends rest) :
    scanFraction (cs ++ rest) = ((scanFraction cs).1, (scanFraction cs).2 ++ rest) := by
  cases cs with
  | nil =>
    cases rest with
    | nil => rfl
    | cons c rest =>
      have hc : c ≠ '.' := (h c rfl).2.1
      simp [scanFraction, hc]
  | cons c cs =>
    rw [List.cons_append, scanFraction, scanFraction, scanDigits_append h]
    split_ifs
    · cases scanDigits cs <;> rfl
    · rfl

lemma scanSign_append (h : Ends rest) :
    scanSign (cs ++ rest) = ((scanSign cs).1, (scanSign cs).2 ++ rest) := by
  cases cs with
  | nil =>
    cases rest with
    | nil => rfl
    | cons c rest =>
      have hc : ¬(c = '+' ∨ c = '-') := by
        have := (h c rfl).2
        tauto
      simp only [List.nil_append, scanSign, if_neg hc]
  | cons c cs =>
    rw [List.cons_append, scanSign, scanSign]
    split_ifs <;> rfl

lemma scanExponent_append (h : Ends rest) :
    scanExponent (cs ++ rest) = ((scanExponent cs).1, (scanExponent cs).2 ++ rest) := by
  cases cs with
  | nil =>
    cases rest with
    | nil => rfl
    | cons c rest =>
      have hc : ¬(c = 'e' ∨ c = 'E') := by
        have := (h c rfl).2
        tauto
      simp only [List.nil_append, scanExponent, if_neg hc]
  | cons c cs =>
    rw [List.cons_append, scanExponent, scanExponent, scanSign_append h, scanDigits_append h]
    split_ifs
    · cases scanDigits (scanSign cs).2 <;> rfl
    · rfl

/-- A number that is the whole text is read off a longer one too. -/
lemma scanNumber_append (h : Ends rest) {p : NumberText × List Char} (hp : scanNumber cs = some p) :
    scanNumber (cs ++ rest) = some (p.1, p.2 ++ rest) := by
  obtain ⟨q, hq, rfl⟩ := Option.map_eq_some_iff.mp hp
  rw [scanNumber, scanInteger_append h hq]
  simp only [Option.map_some, scanFraction_append h, scanExponent_append h]

end Scan

/-- The digits of a number that is not zero do not start with one. -/
lemma toDigits_eq_cons {n : ℕ} (hn : n ≠ 0) :
    ∃ c cs, Nat.toDigits 10 n = c :: cs ∧ c ≠ '0' := by
  induction n using Nat.strong_induction_on with
  | _ n ih =>
    by_cases hlt : n < 10
    · have hne : ∀ m < 10, m ≠ 0 → Nat.digitChar m ≠ '0' := by decide
      exact ⟨_, [], Nat.toDigits_of_lt_base hlt, hne n hlt hn⟩
    · obtain ⟨c, cs, hcs, hc⟩ := ih (n / 10) (by omega) (by omega)
      refine ⟨c, cs ++ [Nat.digitChar (n % 10)], ?_, hc⟩
      rw [Nat.toDigits_of_base_le (by decide) (by omega), hcs]
      rfl

lemma toDigits_eq_cons_digit (n : ℕ) : ∃ c cs, Nat.toDigits 10 n = c :: cs ∧ c ≠ '-' := by
  cases hd : Nat.toDigits 10 n with
  | nil => exact absurd hd Nat.toDigits_ne_nil
  | cons c cs =>
    refine ⟨c, cs, rfl, ?_⟩
    rintro rfl
    have hmem : '-' ∈ Nat.toDigits 10 n := by
      rw [hd]
      exact List.mem_cons_self
    have := Nat.isDigit_of_mem_toDigits (by decide) (by decide) hmem
    revert this
    decide

lemma scanNatural_toDigits (n : ℕ) : scanNatural (Nat.toDigits 10 n) = some (Nat.toDigits 10 n, []) := by
  by_cases hn : n = 0
  · subst hn
    rfl
  · obtain ⟨c, cs, hcs, hc⟩ := toDigits_eq_cons hn
    have hall : ∀ d ∈ c :: cs, d.isDigit = true := by
      intro d hd
      rw [← hcs] at hd
      exact Nat.isDigit_of_mem_toDigits (by decide) (by decide) hd
    rw [hcs, scanNatural, if_neg hc, scanDigits, List.takeWhile_eq_self_iff.mpr hall,
      List.dropWhile_eq_nil_iff.mpr hall, if_neg (List.cons_ne_nil _ _)]

lemma intText_ne_nil (n : ℤ) : intText n ≠ [] := by
  cases n with
  | ofNat n => exact Nat.toDigits_ne_nil
  | negSucc n => exact List.cons_ne_nil _ _

lemma scanNumber_intText (n : ℤ) : scanNumber (intText n) = some (⟨intText n, [], []⟩, []) := by
  have hint : scanInteger (intText n) = some (intText n, []) := by
    cases n with
    | ofNat n =>
      rw [intText]
      obtain ⟨c, cs, hcs, hc⟩ := toDigits_eq_cons_digit n
      rw [hcs, scanInteger, if_neg hc, ← hcs, scanNatural_toDigits]
    | negSucc n => rw [intText, scanInteger, if_pos rfl, scanNatural_toDigits, Option.map_some]
  rw [scanNumber, hint]
  rfl

lemma integerValue_intText (n : ℤ) : integerValue (intText n) = n := by
  cases n with
  | ofNat n =>
    rw [intText]
    obtain ⟨c, cs, hcs, hc⟩ := toDigits_eq_cons_digit n
    rw [hcs, integerValue, if_neg hc, ← hcs, Nat.ofDigitChars_ten_toDigits]
    simp
  | negSucc n =>
    rw [intText, integerValue, if_pos rfl, Nat.ofDigitChars_ten_toDigits]
    simp [Int.negSucc_eq]

/-! ### Tokens are read back -/

variable {r : Reader}

/-- The float is the one that its text is read as. -/
def ReadBack (r : Reader) (x : FloatRepr) : Prop :=
  (∃ p ∈ keywords r, p = (x.text, float x)) ∨
    ∃ t, scanNumber x.text = some (t, []) ∧ t.isInteger = false ∧ r.float t.text = x

lemma mem_keywords {p : List Char × Json} (hp : p ∈ keywords r) :
    (p = ("null".toList, null) ∨ p = ("true".toList, bool true) ∨ p = ("false".toList, bool false)) ∨
      r.constants = true ∧ (p = ("NaN".toList, float ⟨"NaN".toList, rfl⟩) ∨
        p = ("Infinity".toList, float ⟨"Infinity".toList, rfl⟩) ∨
        p = ("-Infinity".toList, float ⟨"-Infinity".toList, rfl⟩)) := by
  rcases List.mem_append.mp hp with hp | hp
  · exact .inl (by simpa using hp)
  · split_ifs at hp with hconst
    · exact .inr ⟨hconst, by simpa [constants] using hp⟩
    · cases hp

lemma null_mem_keywords : ("null".toList, null) ∈ keywords r :=
  List.mem_append_left _ List.mem_cons_self

lemma true_mem_keywords : ("true".toList, bool true) ∈ keywords r :=
  List.mem_append_left _ (List.mem_cons_of_mem _ List.mem_cons_self)

lemma false_mem_keywords : ("false".toList, bool false) ∈ keywords r :=
  List.mem_append_left _ (List.mem_cons_of_mem _ (List.mem_cons_of_mem _ List.mem_cons_self))

/-- A keyword is not a number. -/
lemma scanNumber_keyword {p : List Char × Json} (hp : p ∈ keywords r) (cs : List Char) :
    scanNumber (p.1 ++ cs) = none := by
  rcases mem_keywords hp with (rfl | rfl | rfl) | ⟨-, rfl | rfl | rfl⟩ <;>
    simp [scanNumber, scanInteger, scanNatural, scanDigits]

/-- No keyword starts with another one. -/
lemma readKeyword_append {p : List Char × Json} (hp : p ∈ keywords r) (cs : List Char) :
    readKeyword r (p.1 ++ cs) = some (p.2, cs) := by
  rcases mem_keywords hp with (rfl | rfl | rfl) | ⟨hconst, rfl | rfl | rfl⟩
  · rfl
  · rfl
  · rfl
  all_goals
    rw [readKeyword, keywords, if_pos hconst]
    rfl

lemma readKeyword_of_scanNumber {cs : List Char} {p : NumberText × List Char}
    (h : scanNumber cs = some p) : readKeyword r cs = none := by
  rw [readKeyword, List.findSome?_eq_none_iff]
  intro q hq
  split_ifs with hpre
  · obtain ⟨rest, rfl⟩ := List.isPrefixOf_iff_prefix.mp hpre
    rw [scanNumber_keyword hq] at h
    cases h
  · rfl

lemma readToken_keyword {p : List Char × Json} (hp : p ∈ keywords r) (cs : List Char) :
    readToken r (p.1 ++ cs) = some (p.2, cs) := by
  rw [readToken, readKeyword_append hp, Option.some_or]

lemma readToken_int (n : ℤ) {rest : List Char} (h : Ends rest) :
    readToken r (intText n ++ rest) = some (int n, rest) := by
  have hscan := scanNumber_append h (scanNumber_intText n)
  rw [readToken, readKeyword_of_scanNumber hscan, Option.none_or, readNumber, hscan]
  simp [NumberText.isInteger, integerValue_intText]

lemma readToken_float {x : FloatRepr} (hx : ReadBack r x) {rest : List Char} (h : Ends rest) :
    readToken r (x.text ++ rest) = some (float x, rest) := by
  rcases hx with ⟨p, hp, rfl⟩ | ⟨t, ht, hint, hfloat⟩
  · exact readToken_keyword hp rest
  · have hscan := scanNumber_append h ht
    rw [readToken, readKeyword_of_scanNumber hscan, Option.none_or, readNumber, hscan]
    simp [hint, hfloat]

/-- Strings, arrays and objects are not tokens. -/
lemma readToken_opening {c : Char} (hc : c = '"' ∨ c = '[' ∨ c = '{') (cs : List Char) :
    readToken r (c :: cs) = none := by
  have hkeyword : readKeyword r (c :: cs) = none := by
    rw [readKeyword, List.findSome?_eq_none_iff]
    intro q hq
    split_ifs with hpre
    · obtain ⟨rest, hrest⟩ := List.isPrefixOf_iff_prefix.mp hpre
      rcases mem_keywords hq with (rfl | rfl | rfl) | ⟨-, rfl | rfl | rfl⟩ <;>
        rcases hc with rfl | rfl | rfl <;> simp at hrest
    · rfl
  have hnumber : readNumber r (c :: cs) = none := by
    rcases hc with rfl | rfl | rfl <;>
      simp [readNumber, scanNumber, scanInteger, scanNatural, scanDigits]
  rw [readToken, hkeyword, hnumber, Option.none_or]

lemma readValue_of_token {cs : List Char} {p : Json × List Char} (h : readToken r cs = some p)
    (n : ℕ) : readValue r (n + 1) cs = some p := by
  cases cs with
  | nil =>
    obtain ⟨f, constants⟩ := r
    cases constants <;> cases h
  | cons c cs =>
    have hopen : ¬(c = '"' ∨ c = '[' ∨ c = '{') := by
      intro hc
      rw [readToken_opening hc] at h
      cases h
    rw [not_or, not_or] at hopen
    rw [readValue, if_neg hopen.1, if_neg hopen.2.1, if_neg hopen.2.2, h]

/-! ### Blanks are skipped -/

lemma skipBlank_append {blank cs : List Char} (hblank : ∀ c ∈ blank, c = ' ' ∨ c = '\n') {c : Char}
    (hc : isBlank c = false) : skipBlank (blank ++ c :: cs) = c :: cs := by
  induction blank with
  | nil => simp [skipBlank, hc]
  | cons b blank ih =>
    have hb : isBlank b = true := by
      rcases hblank b List.mem_cons_self with rfl | rfl <;> rfl
    have hrest := ih fun d hd => hblank d (List.mem_cons_of_mem b hd)
    rw [List.cons_append, skipBlank, List.dropWhile_cons_of_pos hb]
    exact hrest

lemma skipBlank_cons {c : Char} {cs : List Char} (hc : isBlank c = false) :
    skipBlank (c :: cs) = c :: cs :=
  List.dropWhile_cons_of_neg (by rw [hc]; exact Bool.false_ne_true)

/-! ### Values are read back -/

mutual

/-- All floats of the value are read back. -/
def ReadsBack (r : Reader) : Json → Prop
  | float x => ReadBack r x
  | arr xs => ItemsReadBack r xs
  | obj kvs => MembersReadBack r kvs
  | _ => True

def ItemsReadBack (r : Reader) : List Json → Prop
  | [] => True
  | x :: xs => ReadsBack r x ∧ ItemsReadBack r xs

def MembersReadBack (r : Reader) : List (String × Json) → Prop
  | [] => True
  | (_, v) :: kvs => ReadsBack r v ∧ MembersReadBack r kvs

end

/-- A character that neither is blank nor closes an array or an object. -/
def IsInner (c : Char) : Prop := isBlank c = false ∧ c ≠ ']' ∧ c ≠ '}'

instance (c : Char) : Decidable (IsInner c) := inferInstanceAs (Decidable (_ ∧ _))

lemma isInner_of_isNumberChar {c : Char} (hc : isNumberChar c = true) : IsInner c := by
  refine ⟨?_, ?_, ?_⟩
  · by_contra hblank
    simp only [isBlank, Bool.not_eq_false, Bool.or_eq_true, beq_iff_eq] at hblank
    rcases hblank with ((rfl | rfl) | rfl) | rfl <;> revert hc <;> decide
  · rintro rfl
    revert hc
    decide
  · rintro rfl
    revert hc
    decide

lemma isInner_of_mem_intText {n : ℤ} {c : Char} (hc : c ∈ intText n) : IsInner c := by
  have hdigit : ∀ m, c ∈ Nat.toDigits 10 m → isNumberChar c = true := by
    intro m hm
    simp [isNumberChar, Nat.isDigit_of_mem_toDigits (by decide) (by decide) hm]
  cases n with
  | ofNat m => exact isInner_of_isNumberChar (hdigit m hc)
  | negSucc m =>
    rcases List.mem_cons.mp hc with rfl | hc
    · decide
    · exact isInner_of_isNumberChar (hdigit _ hc)

lemma isInner_of_mem_float {x : FloatRepr} {c : Char} (hc : c ∈ x.text) : IsInner c := by
  have hconst : ∀ t ∈ ["NaN".toList, "Infinity".toList, "-Infinity".toList], ∀ c ∈ t, IsInner c := by
    simp [IsInner, isBlank]
  have hx := x.valid
  simp only [isFloatText, Bool.or_eq_true, beq_iff_eq, Bool.and_eq_true, List.all_eq_true] at hx
  rcases hx with ((hx | hx) | hx) | ⟨hall, -⟩
  · exact hconst _ (by simp) c (hx ▸ hc)
  · exact hconst _ (by simp) c (hx ▸ hc)
  · exact hconst _ (by simp) c (hx ▸ hc)
  · exact isInner_of_isNumberChar (hall c hc)

lemma float_text_ne_nil (x : FloatRepr) : x.text ≠ [] := by
  intro hnil
  have hx := x.valid
  rw [hnil] at hx
  cases hx

/-- The text of a value starts with a character that is neither blank nor a closing bracket. -/
lemma renderWith_eq_cons (style : Style) (depth : ℕ) (v : Json) :
    ∃ c cs, renderWith style depth v = c :: cs ∧ IsInner c := by
  have hfirst : ∀ {t : List Char}, t ≠ [] → (∀ c ∈ t, IsInner c) →
      ∃ c cs, t = c :: cs ∧ IsInner c := by
    intro t hne ht
    obtain ⟨c, cs, rfl⟩ := List.exists_cons_of_ne_nil hne
    exact ⟨c, cs, rfl, ht c List.mem_cons_self⟩
  match v with
  | null | bool true | bool false | arr [] | obj [] => exact ⟨_, _, rfl, by decide⟩
  | str s => exact ⟨_, _, by rw [renderWith, quoteWith], by decide⟩
  | arr (x :: xs) => exact ⟨_, _, by rw [renderWith], by decide⟩
  | obj ((k, v) :: kvs) => exact ⟨_, _, by rw [renderWith], by decide⟩
  | int n =>
    rw [renderWith]
    exact hfirst (intText_ne_nil n) fun c hc => isInner_of_mem_intText hc
  | float x =>
    rw [renderWith]
    exact hfirst (float_text_ne_nil x) fun c hc => isInner_of_mem_float hc

lemma renderItemsWith_eq_concat (style : Style) (depth : ℕ) (xs : List Json) :
    ∃ cs, renderItemsWith style depth xs = cs ++ [']'] := by
  induction xs with
  | nil => exact ⟨_, by rw [renderItemsWith]⟩
  | cons x xs ih =>
    obtain ⟨cs, hcs⟩ := ih
    exact ⟨_, by rw [renderItemsWith, hcs, ← List.append_assoc, ← List.cons_append]⟩

lemma renderMembersWith_eq_concat (style : Style) (depth : ℕ) (kvs : List (String × Json)) :
    ∃ cs, renderMembersWith style depth kvs = cs ++ ['}'] := by
  induction kvs with
  | nil => exact ⟨_, by rw [renderMembersWith]⟩
  | cons p kvs ih =>
    obtain ⟨cs, hcs⟩ := ih
    exact ⟨_, by rw [renderMembersWith, hcs, ← List.append_assoc, ← List.cons_append]⟩

/-- The text of a value ends with a character that is not blank. -/
lemma renderWith_eq_concat (style : Style) (depth : ℕ) (v : Json) :
    ∃ cs c, renderWith style depth v = cs ++ [c] ∧ isBlank c = false := by
  have hlast : ∀ {t : List Char}, t ≠ [] → (∀ c ∈ t, IsInner c) →
      ∃ cs c, t = cs ++ [c] ∧ isBlank c = false := by
    intro t hne ht
    refine ⟨t.dropLast, t.getLast hne, (List.dropLast_append_getLast hne).symm, ?_⟩
    exact (ht _ (List.getLast_mem hne)).1
  match v with
  | null => exact ⟨['n', 'u', 'l'], 'l', rfl, rfl⟩
  | bool true => exact ⟨['t', 'r', 'u'], 'e', rfl, rfl⟩
  | bool false => exact ⟨['f', 'a', 'l', 's'], 'e', rfl, rfl⟩
  | arr [] => exact ⟨['['], ']', rfl, rfl⟩
  | obj [] => exact ⟨['{'], '}', rfl, rfl⟩
  | str s => exact ⟨_, '"', by rw [renderWith, quoteWith, ← List.cons_append], by decide⟩
  | arr (x :: xs) =>
    obtain ⟨cs, hcs⟩ := renderItemsWith_eq_concat style depth xs
    exact ⟨_, ']', by rw [renderWith, hcs, ← List.append_assoc, ← List.cons_append], by decide⟩
  | obj ((k, v) :: kvs) =>
    obtain ⟨cs, hcs⟩ := renderMembersWith_eq_concat style depth kvs
    exact ⟨_, '}', by rw [renderWith, hcs, ← List.append_assoc, ← List.cons_append], by decide⟩
  | int n =>
    rw [renderWith]
    exact hlast (intText_ne_nil n) fun c hc => isInner_of_mem_intText hc
  | float x =>
    rw [renderWith]
    exact hlast (float_text_ne_nil x) fun c hc => isInner_of_mem_float hc

variable {style : Style}

lemma readString_append (hstyle : style.Readable) (s : String) (rest : List Char) {n : ℕ}
    (hn : (s.toList.flatMap style.escape).length < n) :
    readString n (s.toList.flatMap style.escape ++ ['"'] ++ rest) = some (s.toList, rest) := by
  rw [List.append_assoc]
  exact readString_quoteWith hstyle s.toList rest hn

lemma readKey_append (hstyle : style.Readable) (k : String) {c : Char} {cs : List Char}
    (hc : isBlank c = false) :
    readKey (quoteWith style k ++ ':' :: (style.colonGap ++ c :: cs)) = some (k, c :: cs) := by
  have hread := readString_append hstyle k (':' :: (style.colonGap ++ c :: cs))
    (n := (k.toList.flatMap style.escape ++ ['"'] ++ ':' :: (style.colonGap ++ c :: cs)).length + 1)
    (by simp only [List.length_append]; omega)
  have hgap : ∀ d ∈ style.colonGap, d = ' ' ∨ d = '\n' := fun d hd => .inl (hstyle.colonGap d hd)
  rw [quoteWith, List.cons_append, readKey, if_pos rfl, hread]
  simp only [Option.bind_some]
  rw [skipBlank_cons (by rfl), List.head?_cons, if_pos rfl, List.tail_cons,
    skipBlank_append hgap hc, String.ofList_toList]

/-- What follows an item or a member ends a number. -/
lemma ends_newline (hstyle : style.Readable) (depth : ℕ) {c : Char} (hc : c = ']' ∨ c = '}')
    (rest : List Char) : Ends (style.newline depth ++ [c] ++ rest) := by
  cases hline : style.newline depth with
  | nil => rcases hc with rfl | rfl <;> exact ends_cons (by decide) (by decide)
  | cons d ds =>
    have hd := hstyle.newline depth d (by rw [hline]; exact List.mem_cons_self)
    rcases hd with rfl | rfl <;> exact ends_cons (by decide) (by decide)

lemma ends_renderItemsWith (hstyle : style.Readable) (depth : ℕ) (xs : List Json)
    (rest : List Char) : Ends (renderItemsWith style depth xs ++ rest) := by
  cases xs with
  | nil =>
    rw [renderItemsWith]
    exact ends_newline hstyle depth (.inl rfl) rest
  | cons x xs =>
    rw [renderItemsWith]
    exact ends_cons (by decide) (by decide)

lemma ends_renderMembersWith (hstyle : style.Readable) (depth : ℕ) (kvs : List (String × Json))
    (rest : List Char) : Ends (renderMembersWith style depth kvs ++ rest) := by
  cases kvs with
  | nil =>
    rw [renderMembersWith]
    exact ends_newline hstyle depth (.inr rfl) rest
  | cons p kvs =>
    rw [renderMembersWith]
    exact ends_cons (by decide) (by decide)

/-- The blanks before the text of a value are skipped. -/
lemma skipBlank_renderWith {blank : List Char} (hblank : ∀ c ∈ blank, c = ' ' ∨ c = '\n')
    (style : Style) (depth : ℕ) (v : Json) (cs : List Char) :
    skipBlank (blank ++ (renderWith style depth v ++ cs)) = renderWith style depth v ++ cs := by
  obtain ⟨c, ds, hv, hc, -⟩ := renderWith_eq_cons style depth v
  rw [hv, List.cons_append, skipBlank_append hblank hc]

lemma readItems_of {m : ℕ} {cs ds rest : List Char} {x : Json} {xs : List Json}
    (hx : readValue r m cs = some (x, ds)) (hxs : readMoreItems r m ds = some (xs, rest)) :
    readItems r (m + 1) cs = some (x :: xs, rest) := by
  rw [readItems, hx, Option.bind_some, hxs, Option.map_some]

lemma readMembers_of {m : ℕ} {cs ds es rest : List Char} {k : String} {v : Json}
    {kvs : List (String × Json)} (hk : readKey cs = some (k, ds))
    (hv : readValue r m ds = some (v, es)) (hkvs : readMoreMembers r m es = some (kvs, rest)) :
    readMembers r (m + 1) cs = some ((k, v) :: kvs, rest) := by
  rw [readMembers, hk, Option.bind_some, hv, Option.bind_some, hkvs, Option.map_some]

lemma blank_gap_newline (hstyle : style.Readable) (depth : ℕ) :
    ∀ c ∈ style.commaGap ++ style.newline depth, c = ' ' ∨ c = '\n' := by
  intro c hc
  rcases List.mem_append.mp hc with hc | hc
  · exact .inl (hstyle.commaGap c hc)
  · exact hstyle.newline depth c hc

lemma skipBlank_quoteWith {blank : List Char} (hblank : ∀ c ∈ blank, c = ' ' ∨ c = '\n')
    (style : Style) (k : String) (cs : List Char) :
    skipBlank (blank ++ (quoteWith style k ++ cs)) = quoteWith style k ++ cs :=
  skipBlank_append hblank (by rfl)

lemma readKey_renderWith (hstyle : style.Readable) (depth : ℕ) (k : String) (v : Json)
    (cs : List Char) :
    readKey (quoteWith style k ++ ':' :: (style.colonGap ++ (renderWith style depth v ++ cs))) =
      some (k, renderWith style depth v ++ cs) := by
  obtain ⟨c, ds, hv, hc, -⟩ := renderWith_eq_cons style depth v
  rw [hv]
  exact readKey_append hstyle k hc

mutual

/-- A value is read back from its text, if the text goes on so that a number ends. -/
theorem readValue_renderWith (hstyle : style.Readable) (depth : ℕ) (v : Json)
    (hv : ReadsBack r v) {n : ℕ} (hn : 2 * (renderWith style depth v).length ≤ n)
    {rest : List Char} (hrest : Ends rest) :
    readValue r n (renderWith style depth v ++ rest) = some (v, rest) := by
  obtain ⟨m, rfl⟩ : ∃ m, n = m + 1 := by
    obtain ⟨c, cs, hcons, -⟩ := renderWith_eq_cons style depth v
    rw [hcons, List.length_cons] at hn
    exact ⟨n - 1, by omega⟩
  match v with
  | null =>
    rw [renderWith]
    exact readValue_of_token (readToken_keyword null_mem_keywords rest) m
  | bool true =>
    rw [renderWith]
    exact readValue_of_token (readToken_keyword true_mem_keywords rest) m
  | bool false =>
    rw [renderWith]
    exact readValue_of_token (readToken_keyword false_mem_keywords rest) m
  | int k =>
    rw [renderWith]
    exact readValue_of_token (readToken_int k hrest) m
  | float x =>
    rw [renderWith]
    exact readValue_of_token (readToken_float hv hrest) m
  | str s =>
    have hread := readString_append hstyle s rest
      (n := (s.toList.flatMap style.escape ++ ['"'] ++ rest).length + 1)
      (by simp only [List.length_append]; omega)
    rw [renderWith, quoteWith, List.cons_append, readValue, if_pos rfl, hread, Option.map_some,
      String.ofList_toList]
  | arr [] => rfl
  | arr (x :: xs) =>
    have htext : renderWith style depth (arr (x :: xs)) ++ rest =
        '[' :: (style.newline (depth + 1) ++
          (renderWith style (depth + 1) x ++ (renderItemsWith style depth xs ++ rest))) := by
      rw [renderWith]
      simp [List.append_assoc]
    rw [renderWith] at hn
    simp only [List.length_cons, List.length_append] at hn
    obtain ⟨k, rfl⟩ : ∃ k, m = k + 1 := ⟨m - 1, by omega⟩
    have hx := readValue_renderWith hstyle (depth + 1) x hv.1 (show _ ≤ k by omega)
      (ends_renderItemsWith hstyle depth xs rest)
    have hmore := readMoreItems_renderWith hstyle depth xs hv.2 (show _ ≤ k by omega) rest
    obtain ⟨c, cs, hcons, -, hc, -⟩ := renderWith_eq_cons style (depth + 1) x
    have hhead : (renderWith style (depth + 1) x ++
        (renderItemsWith style depth xs ++ rest)).head? ≠ some ']' := by
      rw [hcons, List.cons_append, List.head?_cons]
      exact fun h => hc (Option.some.inj h)
    rw [htext, readValue, if_neg (by decide), if_pos rfl,
      skipBlank_renderWith (hstyle.newline (depth + 1)), if_neg hhead, readItems_of hx hmore,
      Option.map_some]
  | obj [] => rfl
  | obj ((key, v) :: kvs) =>
    have htext : renderWith style depth (obj ((key, v) :: kvs)) ++ rest =
        '{' :: (style.newline (depth + 1) ++ (quoteWith style key ++ ':' :: (style.colonGap ++
          (renderWith style (depth + 1) v ++ (renderMembersWith style depth kvs ++ rest))))) := by
      rw [renderWith]
      simp [List.append_assoc]
    rw [renderWith] at hn
    simp only [List.length_cons, List.length_append] at hn
    obtain ⟨k, rfl⟩ : ∃ k, m = k + 1 := ⟨m - 1, by omega⟩
    have hvalue := readValue_renderWith hstyle (depth + 1) v hv.1 (show _ ≤ k by omega)
      (ends_renderMembersWith hstyle depth kvs rest)
    have hmore := readMoreMembers_renderWith hstyle depth kvs hv.2 (show _ ≤ k by omega) rest
    have hkey := readKey_renderWith hstyle (depth + 1) key v
      (renderMembersWith style depth kvs ++ rest)
    rw [htext, readValue, if_neg (by decide), if_neg (by decide), if_pos rfl,
      skipBlank_quoteWith (hstyle.newline (depth + 1)), if_neg (by simp [quoteWith]),
      readMembers_of hkey hvalue hmore, Option.map_some]

theorem readMoreItems_renderWith (hstyle : style.Readable) (depth : ℕ) (xs : List Json)
    (hxs : ItemsReadBack r xs) {n : ℕ} (hn : 2 * (renderItemsWith style depth xs).length ≤ n)
    (rest : List Char) :
    readMoreItems r n (renderItemsWith style depth xs ++ rest) = some (xs, rest) := by
  match xs with
  | [] =>
    rw [renderItemsWith] at hn ⊢
    rw [List.length_append, List.length_singleton] at hn
    obtain ⟨m, rfl⟩ : ∃ m, n = m + 1 := ⟨n - 1, by omega⟩
    have hskip : skipBlank (style.newline depth ++ [']'] ++ rest) = ']' :: rest := by
      rw [List.append_assoc]
      exact skipBlank_append (hstyle.newline depth) (by rfl)
    rw [readMoreItems, hskip]
    rfl
  | x :: xs =>
    have htext : renderItemsWith style depth (x :: xs) ++ rest =
        ',' :: ((style.commaGap ++ style.newline (depth + 1)) ++
          (renderWith style (depth + 1) x ++ (renderItemsWith style depth xs ++ rest))) := by
      rw [renderItemsWith]
      simp [List.append_assoc]
    rw [renderItemsWith] at hn
    simp only [List.length_cons, List.length_append] at hn
    obtain ⟨m, rfl⟩ : ∃ m, n = m + 2 := ⟨n - 2, by omega⟩
    have hx := readValue_renderWith hstyle (depth + 1) x hxs.1 (show _ ≤ m by omega)
      (ends_renderItemsWith hstyle depth xs rest)
    have hmore := readMoreItems_renderWith hstyle depth xs hxs.2 (show _ ≤ m by omega) rest
    rw [htext, readMoreItems, skipBlank_cons (by rfl), List.head?_cons,
      if_neg (by decide), if_pos rfl, List.tail_cons,
      skipBlank_renderWith (blank_gap_newline hstyle (depth + 1))]
    exact readItems_of hx hmore

theorem readMoreMembers_renderWith (hstyle : style.Readable) (depth : ℕ)
    (kvs : List (String × Json)) (hkvs : MembersReadBack r kvs) {n : ℕ}
    (hn : 2 * (renderMembersWith style depth kvs).length ≤ n) (rest : List Char) :
    readMoreMembers r n (renderMembersWith style depth kvs ++ rest) = some (kvs, rest) := by
  match kvs with
  | [] =>
    rw [renderMembersWith] at hn ⊢
    rw [List.length_append, List.length_singleton] at hn
    obtain ⟨m, rfl⟩ : ∃ m, n = m + 1 := ⟨n - 1, by omega⟩
    have hskip : skipBlank (style.newline depth ++ ['}'] ++ rest) = '}' :: rest := by
      rw [List.append_assoc]
      exact skipBlank_append (hstyle.newline depth) (by rfl)
    rw [readMoreMembers, hskip]
    rfl
  | (key, v) :: kvs =>
    have htext : renderMembersWith style depth ((key, v) :: kvs) ++ rest =
        ',' :: ((style.commaGap ++ style.newline (depth + 1)) ++ (quoteWith style key ++ ':' ::
          (style.colonGap ++ (renderWith style (depth + 1) v ++
            (renderMembersWith style depth kvs ++ rest))))) := by
      rw [renderMembersWith]
      simp [List.append_assoc]
    rw [renderMembersWith] at hn
    simp only [List.length_cons, List.length_append] at hn
    obtain ⟨m, rfl⟩ : ∃ m, n = m + 2 := ⟨n - 2, by omega⟩
    have hvalue := readValue_renderWith hstyle (depth + 1) v hkvs.1 (show _ ≤ m by omega)
      (ends_renderMembersWith hstyle depth kvs rest)
    have hmore := readMoreMembers_renderWith hstyle depth kvs hkvs.2 (show _ ≤ m by omega) rest
    have hkey := readKey_renderWith hstyle (depth + 1) key v
      (renderMembersWith style depth kvs ++ rest)
    rw [htext, readMoreMembers, skipBlank_cons (by rfl), List.head?_cons, if_neg (by decide),
      if_pos rfl, List.tail_cons, skipBlank_quoteWith (blank_gap_newline hstyle (depth + 1))]
    exact readMembers_of hkey hvalue hmore

end

lemma trimBlank_of_cons_concat {cs cs' ds : List Char} {c d : Char} (hc : isBlank c = false)
    (hd : isBlank d = false) (hcons : ds = c :: cs) (hconcat : ds = cs' ++ [d]) :
    trimBlank ds = ds := by
  have hskip : skipBlank ds = ds := by rw [hcons, skipBlank_cons hc]
  rw [trimBlank, hskip, hconcat, List.reverse_append, List.reverse_singleton, List.singleton_append,
    skipBlank_cons hd, List.reverse_cons, List.reverse_reverse]

/-- Parsing a text written in a readable style gives the value back. -/
theorem parse_renderWith (hstyle : style.Readable) {v : Json} (hv : ReadsBack r v) (depth : ℕ) :
    parse r (renderWith style depth v) = some v := by
  obtain ⟨c, cs, hcons, hc, -⟩ := renderWith_eq_cons style depth v
  obtain ⟨cs', d, hconcat, hd⟩ := renderWith_eq_concat style depth v
  have hread := readValue_renderWith hstyle depth v hv le_rfl ends_nil
  rw [List.append_nil] at hread
  rw [parse, trimBlank_of_cons_concat hc hd hcons hconcat, hread]
  rfl

/-! ### Dictionaries with their keys -/

mutual

/-- No object of the value has a key twice. -/
def DistinctKeys : Json → Prop
  | arr xs => DistinctKeysItems xs
  | obj kvs => (kvs.map Prod.fst).Nodup ∧ DistinctKeysMembers kvs
  | _ => True

def DistinctKeysItems : List Json → Prop
  | [] => True
  | x :: xs => DistinctKeys x ∧ DistinctKeysItems xs

def DistinctKeysMembers : List (String × Json) → Prop
  | [] => True
  | (_, v) :: kvs => DistinctKeys v ∧ DistinctKeysMembers kvs

end

lemma setItem_of_not_mem {d : List (String × Json)} {k : String} (h : k ∉ d.map Prod.fst) (v : Json) :
    setItem d k v = d ++ [(k, v)] := by
  induction d with
  | nil => rfl
  | cons p d ih =>
    rw [List.map_cons, List.mem_cons, not_or] at h
    rw [setItem, if_neg (Ne.symm h.1), ih h.2]
    rfl

lemma foldl_setItem {d kvs : List (String × Json)} (h : ((d ++ kvs).map Prod.fst).Nodup) :
    kvs.foldl (fun d p => setItem d p.1 p.2) d = d ++ kvs := by
  induction kvs generalizing d with
  | nil => simp
  | cons p kvs ih =>
    have hnot : p.1 ∉ d.map Prod.fst := by
      intro hmem
      rw [List.map_append, List.map_cons, List.nodup_append] at h
      exact h.2.2 p.1 hmem p.1 List.mem_cons_self rfl
    have happend : d ++ p :: kvs = d ++ [p] ++ kvs := by simp
    rw [List.foldl_cons, setItem_of_not_mem hnot, ih (by rwa [← happend]), happend]

mutual

lemma asDicts_eq (v : Json) (h : DistinctKeys v) : asDicts v = v := by
  match v with
  | null | bool _ | int _ | float _ | str _ => rfl
  | arr xs => rw [asDicts, asDictsItems_eq xs h]
  | obj kvs =>
    rw [asDicts, asDictsMembers_eq kvs h.2, foldl_setItem]
    · rfl
    · exact h.1

lemma asDictsItems_eq (xs : List Json) (h : DistinctKeysItems xs) : asDictsItems xs = xs := by
  match xs with
  | [] => rfl
  | x :: xs => rw [asDictsItems, asDicts_eq x h.1, asDictsItems_eq xs h.2]

lemma asDictsMembers_eq (kvs : List (String × Json)) (h : DistinctKeysMembers kvs) :
    asDictsMembers kvs = kvs := by
  match kvs with
  | [] => rfl
  | (k, v) :: kvs => rw [asDictsMembers, asDicts_eq v h.1, asDictsMembers_eq kvs h.2]

end

/-- `json.loads` undoes `json.dumps` on values made of dictionaries. -/
theorem loads_dumpsWith {readFloat : List Char → FloatRepr} (hstyle : style.Readable) {v : Json}
    (hv : ReadsBack ⟨readFloat, true⟩ v) (hkeys : DistinctKeys v) :
    loads readFloat (dumpsWith style v) = some v := by
  rw [loads, dumpsWith, String.toList_ofList, parse_renderWith hstyle hv, Option.map_some,
    asDicts_eq v hkeys]

end Json
