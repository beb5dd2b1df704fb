import Mathlib.Algebra.GroupWithZero.Nat
import Mathlib.Data.List.Infix
import Mathlib.Data.List.TakeWhile
import AxiomGrid.Lib.Words

/-!
# Strings as lists of characters

The string methods the modelled programs call, on lists of Unicode characters. What is fixed by the
language (which characters are whitespace, how `split`, `strip`, `find` and slices cut a string) is
defined here; the character tables, which change with the version of the Unicode database, are a
parameter `UnicodeData`.
-/

/-- A text: the list of its characters. -/
abbrev Str := List Char

instance Str.lawfulBEq : LawfulBEq Str := inferInstanceAs (LawfulBEq (List Char))

instance Str.lawfulBEq_triple : LawfulBEq (Str × Str × Str) :=
  inferInstanceAs (LawfulBEq (List Char × List Char × List Char))

/-- The tables of the Unicode character database that string methods consult. -/
structure UnicodeData where
  /-- `Simple_Lowercase_Mapping`. -/
  simpleLower : Char → Char
  /-- `Cased`. -/
  isCased : Char → Bool
  /-- `Case_Ignorable`. -/
  isCaseIgnorable : Char → Bool
  /-- `str.isalnum` on one character. -/
  isAlnum : Char → Bool
  /-- The value of a decimal digit. -/
  decimal : Char → Option ℕ

/-- The tables restricted to ASCII, where they do not depend on the version. -/
def asciiData : UnicodeData where
  simpleLower := Char.toLower
  isCased := Char.isAlpha
  isCaseIgnorable c := c == '\'' || c == '.' || c == ':' || c == '^' || c.toNat == 0x60
  isAlnum := Char.isAlphanum
  decimal c := if c.isDigit then some (c.toNat - '0'.toNat) else none

namespace Str

/-! ### Lower case -/

/-- The context condition of the final sigma: a cased letter before, none after, where
case-ignorable characters are skipped on both sides. -/
def isFinalSigma (u : UnicodeData) (before after : Str) : Bool :=
  ((before.dropWhile u.isCaseIgnorable).head?.any u.isCased) &&
    !((after.dropWhile u.isCaseIgnorable).head?.any u.isCased)

/-- The lower case of `c` between the reversed text `before` and the text `after`. Two characters
are special: the capital sigma depends on its context, and the dotted capital I becomes two
characters. -/
def lowerChar (u : UnicodeData) (before : Str) (c : Char) (after : Str) : Str :=
  if c = 'Σ' then [if isFinalSigma u before after then 'ς' else 'σ']
  else if c = 'İ' then ['i', '\u0307']
  else [u.simpleLower c]

/-- `s.lower()`. -/
def lower (u : UnicodeData) (s : Str) : Str := go [] s
where
  go (before : Str) : Str → Str
  | [] => []
  | c :: cs => lowerChar u before c cs ++ go (c :: before) cs

/-! ### Whitespace -/

/-- Whitespace as `str.split`, `str.strip` and the pattern `\s` understand it. -/
def isSpace (c : Char) : Bool :=
  let n := c.toNat
  (9 ≤ n && n ≤ 13) || (28 ≤ n && n ≤ 32) || n == 0x85 || n == 0xa0 || n == 0x1680 ||
    (0x2000 ≤ n && n ≤ 0x200a) || n == 0x2028 || n == 0x2029 || n == 0x202f || n == 0x205f ||
    n == 0x3000

/-- `s.strip()`. -/
def strip (s : Str) : Str := ((s.dropWhile isSpace).reverse.dropWhile isSpace).reverse

/-- `s.split()`: the maximal runs of characters that are not whitespace. -/
def split (s : Str) : List Str := (s.splitOnP isSpace).filter (· ≠ [])

/-- `" ".join(words)`. -/
def unwords (words : List Str) : Str := List.intercalate [' '] words

/-- The spans matched by `re.finditer(r'\S+', s)`, as pairs of start and end offsets. -/
def wordSpans (s : Str) : List (ℕ × ℕ) := go s 0 none
where
  /-- `start` is the offset of the word being read, if any. -/
  go : Str → ℕ → Option ℕ → List (ℕ × ℕ)
  | [], pos, some start => [(start, pos)]
  | [], _, none => []
  | c :: cs, pos, start =>
    if isSpace c then
      match start with
      | some start => (start, pos) :: go cs (pos + 1) none
      | none => go cs (pos + 1) none
    else go cs (pos + 1) (some (start.getD pos))

/-! ### Substrings -/

/-- `needle in s`. -/
def contains (needle s : Str) : Bool := s.tails.any needle.isPrefixOf

/-- `s.find(needle)`; `none` stands for -1. -/
def find? (needle s : Str) : Option ℕ := s.tails.findIdx? needle.isPrefixOf

/-- `s[start:stop]` for offsets that are not negative. -/
def slice (s : Str) (start stop : ℕ) : Str := (s.take stop).drop start

lemma contains_iff {needle s : Str} : contains needle s = true ↔ needle <:+: s := by
  simp only [contains, List.any_eq_true, List.mem_tails, List.isPrefixOf_iff_prefix]
  constructor
  · rintro ⟨t, ⟨a, rfl⟩, ⟨b, rfl⟩⟩
    exact ⟨a, b, by simp⟩
  · rintro ⟨a, b, rfl⟩
    exact ⟨needle ++ b, ⟨a, by simp⟩, ⟨b, rfl⟩⟩

/-- `s.split(needle, 1)` for a needle that is not empty. -/
def splitFirst (needle s : Str) : List Str :=
  match find? needle s with
  | some i => [s.take i, s.drop (i + needle.length)]
  | none => [s]

/-- `s.split("\n")`. -/
def lines (s : Str) : List Str := s.splitOn '\n'

/-- `"\n".join(ls)`. -/
def joinLines (ls : List Str) : Str := List.intercalate ['\n'] ls

/-- The characters that end a line for `str.splitlines`. -/
def isLineBreak (c : Char) : Bool :=
  let n := c.toNat
  (10 ≤ n && n ≤ 13) || (28 ≤ n && n ≤ 30) || n == 0x85 || n == 0x2028 || n == 0x2029

/-- `s.splitlines()`. -/
def splitLines (s : Str) : List Str := go [] s
where
  /-- `line` is the line being read, last character first. -/
  go (line : Str) : Str → List Str
  | [] => if line = [] then [] else [line.reverse]
  | '\r' :: '\n' :: cs => line.reverse :: go [] cs
  | c :: cs => if isLineBreak c then line.reverse :: go [] cs else go (c :: line) cs

/-- A text that holds the needle is cut at its first occurrence. -/
lemma splitFirst_of_contains {needle s : Str} (h : contains needle s = true) :
    ∃ before after, splitFirst needle s = [before, after] ∧ s = before ++ needle ++ after := by
  have hsome : (find? needle s).isSome := by
    rw [find?, List.findIdx?_isSome]
    exact h
  obtain ⟨i, hi⟩ := Option.isSome_iff_exists.mp hsome
  refine ⟨s.take i, s.drop (i + needle.length), by simp [splitFirst, hi], ?_⟩
  rw [find?, List.findIdx?_eq_some_iff_getElem] at hi
  obtain ⟨hlt, hpre, -⟩ := hi
  rw [List.getElem_tails, List.isPrefixOf_iff_prefix] at hpre
  obtain ⟨rest, hrest⟩ := hpre
  have hdrop : s.drop (i + needle.length) = rest := by
    rw [← List.drop_drop, ← hrest, List.drop_left]
  rw [hdrop, List.append_assoc, hrest, List.take_append_drop]

lemma not_contains_nil {needle : Str} (h : needle ≠ []) : contains needle [] = false := by
  cases needle with
  | nil => exact absurd rfl h
  | cons c cs => rfl

/-! ### Words -/

@[simp]
lemma split_nil : split [] = [] := rfl

lemma split_append_cons {c : Char} (hc : isSpace c = true) (a b : Str) :
    split (a ++ c :: b) = split a ++ split b := Words.words_append_cons hc a b

lemma mem_of_mem_split {s word : Str} {c : Char} (hword : word ∈ split s) (hc : c ∈ word) : c ∈ s := by
  have hmem : c ∈ (s.splitOnP isSpace).flatten :=
    List.mem_flatten.mpr ⟨word, List.mem_of_mem_filter hword, hc⟩
  clear hword hc
  induction s with
  | nil => exact hmem
  | cons d s ih =>
    rw [List.splitOnP_cons_eq_if_modifyHead] at hmem
    split_ifs at hmem
    · exact List.mem_cons_of_mem d (ih hmem)
    · cases hparts : s.splitOnP isSpace with
      | nil => exact absurd hparts (List.splitOnP_ne_nil isSpace s)
      | cons p ps =>
        rw [hparts] at hmem ih
        rw [List.modifyHead_cons, List.flatten_cons, List.cons_append, List.mem_cons] at hmem
        obtain rfl | hmem := hmem
        · exact List.mem_cons_self
        · exact List.mem_cons_of_mem d (ih hmem)

/-- Whitespace at the ends of a text does not change its words. -/
lemma split_append_spaces {w : Str} (hw : ∀ c ∈ w, isSpace c = true) (s : Str) :
    split (w ++ s) = split s := by
  have hcut : Words.Between isSpace w s := .inl fun c hc => hw c (List.mem_of_getLast? hc)
  have hwords := Words.words_append hcut
  rw [Words.words_of_forall_sep hw, List.nil_append] at hwords
  exact hwords

lemma split_spaces_append {w : Str} (hw : ∀ c ∈ w, isSpace c = true) (s : Str) :
    split (s ++ w) = split s := by
  have hcut : Words.Between isSpace s w := .inr fun c hc => hw c (List.mem_of_mem_head? hc)
  have hwords := Words.words_append hcut
  rw [Words.words_of_forall_sep hw, List.append_nil] at hwords
  exact hwords

/-- What `strip` removes is whitespace around what it leaves. -/
lemma exists_strip (s : Str) : ∃ l r, s = l ++ strip s ++ r ∧ (∀ c ∈ l, isSpace c = true) ∧
    ∀ c ∈ r, isSpace c = true := by
  refine ⟨s.takeWhile isSpace, ((s.dropWhile isSpace).reverse.takeWhile isSpace).reverse, ?_, ?_, ?_⟩
  · rw [strip, List.append_assoc, ← List.reverse_append, List.takeWhile_append_dropWhile,
      List.reverse_reverse, List.takeWhile_append_dropWhile]
  · intro c hc
    exact List.mem_takeWhile_imp hc
  · intro c hc
    exact List.mem_takeWhile_imp (List.mem_reverse.mp hc)

lemma split_strip (s : Str) : split (strip s) = split s := by
  obtain ⟨l, r, hs, hl, hr⟩ := exists_strip s
  conv_rhs => rw [hs, split_spaces_append hr, split_append_spaces hl]

lemma infix_strip (s : Str) : strip s <:+: s := by
  obtain ⟨l, r, hs, -⟩ := exists_strip s
  exact ⟨l, r, hs.symm⟩

/-- A line is a piece of the text without a line break. -/
lemma mem_splitLines {s line : Str} (h : line ∈ splitLines s) :
    line <:+: s ∧ ∀ c ∈ line, isLineBreak c = false := by
  suffices hgo : ∀ (s current : Str), (∀ c ∈ current, isLineBreak c = false) →
      line ∈ splitLines.go current s →
      line <:+: current.reverse ++ s ∧ ∀ c ∈ line, isLineBreak c = false from
    hgo s [] (by simp) h
  intro s current hcurrent h
  fun_induction splitLines.go current s with
  | case1 => cases h
  | case2 current hne =>
    rw [List.mem_singleton] at h
    subst h
    exact ⟨by simp, by simpa using hcurrent⟩
  | case3 current cs ih =>
    obtain rfl | h := List.mem_cons.mp h
    · exact ⟨(List.prefix_append _ _).isInfix, by simpa using hcurrent⟩
    · obtain ⟨hpart, hline⟩ := ih (by simp) h
      refine ⟨hpart.trans ?_, hline⟩
      exact ⟨current.reverse ++ ['\r', '\n'], [], by simp⟩
  | case4 current c cs _ hbreak ih =>
    obtain rfl | h := List.mem_cons.mp h
    · exact ⟨(List.prefix_append _ _).isInfix, by simpa using hcurrent⟩
    · obtain ⟨hpart, hline⟩ := ih (by simp) h
      refine ⟨hpart.trans ?_, hline⟩
      exact ⟨current.reverse ++ [c], [], by simp⟩
  | case5 current c cs _ hbreak ih =>
    rw [Bool.not_eq_true] at hbreak
    obtain ⟨hpart, hline⟩ := ih (by simpa using ⟨hbreak, hcurrent⟩) h
    exact ⟨by simpa using hpart, hline⟩

/-- A sum over the characters that counts no whitespace is the sum over the words. -/
lemma sum_split {w : Char → ℕ} (hw : ∀ c, isSpace c = true → w c = 0) (s : Str) :
    (((split s).flatten).map w).sum = (s.map w).sum := by
  have hflat : (split s).flatten = (s.splitOnP isSpace).flatten := List.flatten_filter_ne_nil
  rw [hflat]
  induction s with
  | nil => rfl
  | cons c s ih =>
    rw [List.splitOnP_cons_eq_if_modifyHead]
    have hs := ih List.flatten_filter_ne_nil
    split_ifs with hc
    · rw [List.flatten_cons, List.nil_append, hs, List.map_cons, List.sum_cons, hw c hc,
        Nat.zero_add]
    · cases hparts : s.splitOnP isSpace with
      | nil => exact absurd hparts (List.splitOnP_ne_nil isSpace s)
      | cons p ps =>
        rw [hparts] at hs
        simp [← hs]

lemma sum_unwords {w : Char → ℕ} (hw : w ' ' = 0) (words : List Str) :
    ((unwords words).map w).sum = ((words.flatten).map w).sum := by
  rw [unwords]
  induction words with
  | nil => rfl
  | cons a rest ih =>
    cases rest with
    | nil => simp
    | cons b rest =>
      rw [List.intercalate_cons_cons]
      simp_all

/-- What `strip` leaves is empty or holds a character that is not whitespace. -/
lemma exists_of_strip_ne_nil {s : Str} (h : strip s ≠ []) : ∃ c ∈ strip s, isSpace c = false := by
  have hrev : (s.dropWhile isSpace).reverse.dropWhile isSpace ≠ [] := by
    intro hnil
    rw [strip, hnil] at h
    exact h rfl
  refine ⟨_, List.mem_reverse.mpr (List.head_mem hrev), ?_⟩
  exact List.head_dropWhile_not _ hrev

example : split " ab\tc ".toList = ["ab".toList, "c".toList] := by decide

example : wordSpans " ab\tc ".toList = [(1, 3), (4, 5)] := by decide

example : lower asciiData "ABΣ".toList = "abς".toList := by decide

end Str
