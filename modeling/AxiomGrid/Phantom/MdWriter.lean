import AxiomGrid.Lib.PyLower
import AxiomGrid.Lib.SectionEnd
import AxiomGrid.Lib.TextLines
import AxiomGrid.Lib.Trim
import AxiomGrid.Receipts.Log

/-!
# Content behind a heading

`insert_after_heading_str` of `phantom-core/src/md_writer.rs`. The text is split into lines and joined
again with one kind of line end and none behind the last line, and a line counts as a heading by the number
signs that it begins with, in a code block or out of one.
-/

namespace AxiomGrid.Phantom.MdWriter

open Receipts (isWhiteSpace)
open SectionEnd TextLines

variable (u : UnicodeData) (headingText : Str) (headingLevel : ℕ) (content : Str)

/-! ### The code -/

def headingPrefix : Str := List.replicate headingLevel '#' ++ [' ']

/-- The line begins with the number signs and a space, and what follows contains the heading. -/
def isTarget (line : Str) : Bool :=
  let trimmed := line.trim isWhiteSpace
  (headingPrefix headingLevel).isPrefixOf trimmed &&
    Str.contains (Str.lower u headingText)
      (Str.lower u ((trimmed.drop (headingPrefix headingLevel).length).trim isWhiteSpace))

/-- The line begins with number signs, and not with more than the heading. -/
def endsSection (line : Str) : Bool :=
  let next := line.trim isWhiteSpace
  next.head? = some '#' && (next.takeWhile (· = '#')).length ≤ headingLevel

/-- The line that the content is inserted before, or the number of lines. -/
def insertAfterIdx (lines : List Str) : ℕ :=
  sectionEnd (isTarget u headingText headingLevel) (endsSection headingLevel) lines

def lineEnding (md : Str) : Ending := if Str.contains ['\r', '\n'] md then .crlf else .lf

/-- `insert_after_heading_str`. -/
def insertAfterHeadingStr (md : Str) : Str :=
  let lines := TextLines.lines md
  let idx := insertAfterIdx u headingText headingLevel lines
  List.intercalate (lineEnding md).chars
    (lines.take idx ++ [] :: TextLines.lines content ++ [] :: lines.drop idx)

/-! ### Headings -/

/-- A line without its indentation, which is at most three spaces; with more of them it is code. -/
def unindent (line : Str) : Option Str :=
  if (line.takeWhile (· = ' ')).length ≤ 3 then some (line.dropWhile (· = ' ')) else none

/-- The level of an ATX heading: one to six number signs and a space. -/
def atxLevel (line : Str) : Option ℕ := do
  let body ← unindent line
  let n := (body.takeWhile (· = '#')).length
  if 1 ≤ n ∧ n ≤ 6 ∧ (body.dropWhile (· = '#')).head? = some ' ' then some n else none

/-- The fence that is open, if there is one: its character and its length. -/
abbrev Fence := Option (Char × ℕ)

/-- Three or more backticks or tildes at the beginning of a line, and what follows them. -/
def fenceRun (line : Str) : Option (Char × ℕ × Str) := do
  let body ← unindent line
  let c ← body.head?
  let n := (body.takeWhile (· = c)).length
  if (c = '\x60' ∨ c = '~') ∧ 3 ≤ n then some (c, n, body.dropWhile (· = c)) else none

/-- The fence that is open behind a line. It is closed by one that is at least as long, with nothing
behind it. -/
def Fence.next (fence : Fence) (line : Str) : Fence :=
  match fenceRun line with
  | none => fence
  | some (c, n, info) =>
    match fence with
    | none => if c = '\x60' ∧ c ∈ info then none else some (c, n)
    | some (c', n') =>
      if c = c' ∧ n' ≤ n ∧ info.all fun ch => ch = ' ' ∨ ch = '\t' then none else fence

/-- The lines, with whether they are outside fenced code. -/
def mark : Fence → List Line → List (Line × Bool)
  | _, [] => []
  | fence, l :: ls => (l, fence.isNone) :: mark (Fence.next fence l.text) ls

/-- A heading of the level outside fenced code, with a text that matches. -/
def isHeading (l : Line × Bool) : Bool :=
  l.2 && atxLevel l.1.text = some headingLevel && isTarget u headingText headingLevel l.1.text

/-- A heading outside fenced code, of the level or a higher one. -/
def isNextHeading (l : Line × Bool) : Bool := l.2 && (atxLevel l.1.text).any (· ≤ headingLevel)

/-- The number of lines up to the end of the section. -/
def sectionLines (md : Str) : ℕ :=
  sectionEnd (isHeading u headingText headingLevel) (isNextHeading headingLevel) (mark none (split md))

/-- The text up to the end of the section. -/
def beforeEnd (md : Str) : Str := raw ((split md).take (sectionLines u headingText headingLevel md))

/-- The text behind the section. -/
def afterEnd (md : Str) : Str := raw ((split md).drop (sectionLines u headingText headingLevel md))

/-! ### What the code takes for a heading -/

lemma length_takeWhile_hash {n : ℕ} {rest : Str} (h : rest.head? ≠ some '#') :
    ((List.replicate n '#' ++ rest).takeWhile (· = '#')).length = n := by
  rw [List.takeWhile_append_of_pos (by simp), List.length_append, List.length_replicate,
    Nat.add_eq_left, List.length_eq_zero_iff]
  cases rest with
  | nil => rfl
  | cons c rest => exact List.takeWhile_cons_of_neg (by simpa using h)

lemma mem_takeWhile_eq {c d : Char} {s : Str} (h : d ∈ s.takeWhile (· = c)) : d = c := by
  have htest := List.mem_takeWhile_imp h
  simpa using htest

lemma takeWhile_eq_replicate (c : Char) (s : Str) :
    s.takeWhile (· = c) = List.replicate (s.takeWhile (· = c)).length c :=
  List.eq_replicate_iff.mpr ⟨rfl, fun _ => mem_takeWhile_eq⟩

/-- A heading begins with its number signs. -/
lemma exists_of_atxLevel {line : Str} {n : ℕ} (h : atxLevel line = some n) :
    1 ≤ n ∧ ∃ spaces rest, line = spaces ++ (List.replicate n '#' ++ ' ' :: rest) ∧
      ∀ c ∈ spaces, c = ' ' := by
  rw [atxLevel, Option.bind_eq_bind, Option.bind_eq_some_iff] at h
  obtain ⟨body, hbody, h⟩ := h
  rw [unindent] at hbody
  split_ifs at hbody
  obtain rfl := Option.some.inj hbody
  dsimp only at h
  split_ifs at h with hheading
  obtain rfl := Option.some.inj h
  obtain ⟨hpos, -, hspace⟩ := hheading
  refine ⟨hpos, line.takeWhile (· = ' '), ((line.dropWhile (· = ' ')).dropWhile (· = '#')).tail, ?_,
    fun c => mem_takeWhile_eq⟩
  rw [← takeWhile_eq_replicate, ← List.eq_cons_of_mem_head? hspace, List.takeWhile_append_dropWhile,
    List.takeWhile_append_dropWhile]

/-- Trimming a line that begins with number signs keeps these. -/
lemma exists_trim_hashes {spaces rest : Str} (hspaces : ∀ c ∈ spaces, c = ' ') {n : ℕ} (hn : 1 ≤ n) :
    ∃ rest', (spaces ++ (List.replicate n '#' ++ ' ' :: rest)).trim isWhiteSpace =
      List.replicate n '#' ++ rest' ∧ rest'.head? ≠ some '#' := by
  have hleft : (spaces ++ (List.replicate n '#' ++ ' ' :: rest)).dropWhile isWhiteSpace =
      List.replicate n '#' ++ ' ' :: rest := by
    rw [List.dropWhile_append_of_pos fun c hc => by rw [hspaces c hc]; decide]
    obtain ⟨m, rfl⟩ := Nat.exists_eq_add_of_le' hn
    rw [List.replicate_succ, List.cons_append]
    exact List.dropWhile_cons_of_neg (by decide)
  rw [List.trim, hleft]
  have hsplit : (List.replicate n '#' ++ ' ' :: rest).rdropWhile isWhiteSpace ++
      (List.replicate n '#' ++ ' ' :: rest).rtakeWhile isWhiteSpace =
        List.replicate n '#' ++ ' ' :: rest := List.rdropWhile_append_rtakeWhile
  obtain ⟨cut, hcut, hright⟩ | ⟨rest', hkept, hrest⟩ := List.append_eq_append_iff.mp hsplit
  · -- no number sign is trimmed away
    have hnil : cut = [] := by
      refine List.eq_nil_iff_forall_not_mem.mpr fun c hc => ?_
      have hhash : c = '#' := List.eq_of_mem_replicate (n := n) (by rw [hcut]; simp [hc])
      have hwhite := List.mem_rtakeWhile_imp (p := isWhiteSpace) (x := c)
        (l := List.replicate n '#' ++ ' ' :: rest) (by rw [hright]; simp [hc])
      rw [hhash] at hwhite
      exact absurd hwhite (by decide)
    rw [hnil, List.append_nil] at hcut
    exact ⟨[], by rw [← hcut, List.append_nil], by simp⟩
  · refine ⟨rest', hkept, ?_⟩
    cases rest' with
    | nil => simp
    | cons c rest' =>
      obtain ⟨rfl, -⟩ := List.cons.inj hrest
      simp

/-- A heading is a line that begins with its number signs. -/
lemma endsSection_of_atxLevel {line : Str} {n : ℕ} (h : atxLevel line = some n)
    (hn : n ≤ headingLevel) : endsSection headingLevel line = true := by
  obtain ⟨hpos, spaces, rest, rfl, hspaces⟩ := exists_of_atxLevel h
  obtain ⟨rest', htrim, hrest⟩ := @exists_trim_hashes spaces rest hspaces n hpos
  rw [endsSection, htrim, length_takeWhile_hash hrest, Bool.and_eq_true, decide_eq_true_eq,
    decide_eq_true_eq]
  refine ⟨?_, hn⟩
  obtain ⟨m, rfl⟩ := Nat.exists_eq_add_of_le' hpos
  rfl

variable {u headingText headingLevel} in
lemma endsSection_of_isTarget {line : Str} (h : isTarget u headingText headingLevel line = true) :
    endsSection headingLevel line = true := by
  rw [isTarget, Bool.and_eq_true, List.isPrefixOf_iff_prefix] at h
  obtain ⟨⟨rest, hrest⟩, -⟩ := h
  rw [headingPrefix, List.append_assoc, List.singleton_append] at hrest
  have hhead : (line.trim isWhiteSpace).head? = some '#' := by
    cases headingLevel with
    | zero =>
      -- a trimmed line does not begin with a space
      have hspace := (List.ends_trim line (p := isWhiteSpace)).1 ' ' (by rw [← hrest]; rfl)
      exact absurd hspace (by decide)
    | succ n =>
      rw [← hrest]
      rfl
  rw [endsSection, Bool.and_eq_true, decide_eq_true_eq, decide_eq_true_eq, ← hrest,
    length_takeWhile_hash (by simp)]
  exact ⟨hrest ▸ hhead, Nat.le_refl _⟩

/-! ### What is inserted -/

/-- The text comes back when a block is deleted, which stands at the end of the section. -/
def InsertsBlock (md : Str) : Prop :=
  ∃ block, insertAfterHeadingStr u headingText headingLevel content md =
    beforeEnd u headingText headingLevel md ++ block ++ afterEnd u headingText headingLevel md

/-- The lines that the code takes for the heading and for the next one, if both are there. -/
def guessed (md : Str) : Option ((Line × Bool) × (Line × Bool)) :=
  bounds (fun l => isTarget u headingText headingLevel l.1.text)
    (fun l => endsSection headingLevel l.1.text) (mark none (split md))

/-- All lines of the text are ended in one way, and where the code takes two lines for the heading and
the next one, they are that and the last line has no end. -/
def Plain (md : Str) : Prop :=
  (∃ eol, Uniform eol (split md)) ∧
    ∀ x y, guessed u headingText headingLevel md = some (x, y) →
      isHeading u headingText headingLevel x = true ∧ isNextHeading headingLevel y = true ∧
        md.getLast? ≠ some '\n'

lemma map_mark (fence : Fence) (ls : List Line) : (mark fence ls).map Prod.fst = ls := by
  induction ls generalizing fence with
  | nil => rfl
  | cons l ls ih => rw [mark, List.map_cons, ih]

lemma length_mark (fence : Fence) (ls : List Line) : (mark fence ls).length = ls.length := by
  rw [← List.length_map Prod.fst, map_mark]

lemma insertAfterIdx_lines (md : Str) :
    insertAfterIdx u headingText headingLevel (TextLines.lines md) =
      sectionEnd (fun l => isTarget u headingText headingLevel l.1.text)
        (fun l => endsSection headingLevel l.1.text) (mark none (split md)) := by
  rw [insertAfterIdx, TextLines.lines, ← map_mark none (split md), List.map_map, sectionEnd_map, map_mark]
  rfl

lemma fits_lineEnding (md : Str) : Fits (lineEnding md) (split md) := by
  rw [lineEnding]
  split_ifs with hcrlf
  · exact ⟨by decide, fun h => absurd h (by decide)⟩
  · exact ⟨by decide, fun _ l hl hend => hcrlf ((contains_crlf_iff md).mpr ⟨l, hl, hend⟩)⟩

/-- The one way in which all lines end is the one that is looked up. -/
lemma uniform_lineEnding {md : Str} {eol : Ending} (h : Uniform eol (split md)) :
    Uniform (lineEnding md) (split md) := by
  intro l hl
  rw [lineEnding]
  obtain hend | hend := h l hl
  · split_ifs with hcrlf
    · obtain ⟨m, hm, hcr⟩ := (contains_crlf_iff md).mp hcrlf
      obtain heol | heol := h m hm
      · exact .inl (hend.trans (heol.symm.trans hcr))
      · rw [hcr] at heol
        cases heol
    · cases hcase : l.ending with
      | lf => exact .inl rfl
      | crlf => exact absurd ((contains_crlf_iff md).mpr ⟨l, hl, hcase⟩) hcrlf
      | missing => exact .inr rfl
  · exact .inr hend

lemma unended_split_iff (md : Str) : Unended (split md) ↔ md.getLast? ≠ some '\n' := by
  have hproper := proper_split md
  have hraw := raw_split md
  obtain hnil | ⟨front, l, hsplit⟩ := (split md).eq_nil_or_concat
  · rw [hnil] at hraw ⊢
    rw [← hraw]
    exact iff_of_true (fun _ h => absurd h (by simp)) (by simp)
  · rw [List.concat_eq_append] at hsplit
    rw [hsplit] at hproper hraw ⊢
    have hl := hproper.proper l (by simp)
    have hunended : Unended (front ++ [l]) ↔ l.ending = .missing := by
      simp [Unended]
    rw [hunended, ← hraw, raw_append, raw_cons, raw_nil, List.append_nil]
    by_cases hend : l.ending = .missing
    · refine iff_of_true hend fun hlast => hl.unbroken ?_
      obtain ⟨c, hc⟩ := List.getLast?_isSome.mpr (hl.nonempty hend) |> Option.isSome_iff_exists.mp
      rw [hend, Ending.chars, List.append_nil, List.getLast?_append, hc, Option.some_or] at hlast
      obtain rfl := Option.some.inj hlast
      exact List.mem_of_getLast? hc
    · obtain ⟨cr, hchars, -⟩ := Ending.exists_chars hend
      refine iff_of_false hend fun hlast => hlast ?_
      rw [hchars]
      simp

variable {u headingText headingLevel}

/-- What the code takes for headings are all the headings, and more. -/
lemma guesses :
    (∀ l, isHeading u headingText headingLevel l = true →
      isTarget u headingText headingLevel l.1.text = true) ∧
    (∀ l, isNextHeading headingLevel l = true → endsSection headingLevel l.1.text = true) ∧
    ∀ l : Line × Bool, isTarget u headingText headingLevel l.1.text = true →
      endsSection headingLevel l.1.text = true := by
  refine ⟨fun l h => ?_, fun l h => ?_, fun l => endsSection_of_isTarget⟩
  · rw [isHeading, Bool.and_eq_true] at h
    exact h.2
  · rw [isNextHeading, Bool.and_eq_true, Option.any_eq_true_iff_get] at h
    obtain ⟨-, hsome, hle⟩ := h
    exact endsSection_of_atxLevel headingLevel (Option.some_get hsome).symm (of_decide_eq_true hle)

lemma solid_of_endsSection {line : Str} (h : endsSection headingLevel line = true) : Solid line := by
  rw [endsSection, Bool.and_eq_true, decide_eq_true_eq] at h
  exact ⟨'#', (List.trim_infix line).subset (List.mem_of_head? h.1), by decide, by decide⟩

lemma insertAfterIdx_le (md : Str) :
    insertAfterIdx u headingText headingLevel (TextLines.lines md) ≤
      sectionLines u headingText headingLevel md := by
  obtain ⟨hbegins, hends, hboth⟩ := @guesses u headingText headingLevel
  rw [insertAfterIdx_lines]
  exact sectionEnd_le hbegins hends hboth

lemma sectionLines_le (md : Str) : sectionLines u headingText headingLevel md ≤ (split md).length := by
  rw [← length_mark none (split md)]
  exact sectionEnd_le_length _

/-- The line that the content is inserted before has a number sign in it. -/
lemma solid_drop (md : Str) :
    ∀ l ∈ ((split md).drop (insertAfterIdx u headingText headingLevel (TextLines.lines md))).head?,
      Solid l.text := by
  intro l hl
  obtain ⟨rest, hdrop⟩ := List.head?_eq_some_iff.mp hl
  have htexts : (TextLines.lines md).drop
      (insertAfterIdx u headingText headingLevel (TextLines.lines md)) = l.text :: rest.map Line.text := by
    rw [← List.map_cons, ← hdrop, List.map_drop]
    rfl
  exact solid_of_endsSection (ends_of_drop htexts)

/-- The lines, cut where the code inserts and where the section ends. -/
lemma exists_cut (md : Str) :
    ∃ ls skipped ls', split md = ls ++ (skipped ++ ls') ∧
      insertAfterHeadingStr u headingText headingLevel content md =
        inserted (lineEnding md) (TextLines.lines content) ls (skipped ++ ls') ∧
      beforeEnd u headingText headingLevel md = raw (ls ++ skipped) ∧
      afterEnd u headingText headingLevel md = raw ls' ∧
      (skipped = [] ↔ insertAfterIdx u headingText headingLevel (TextLines.lines md) =
        sectionLines u headingText headingLevel md) ∧
      (ls' = [] ↔ sectionLines u headingText headingLevel md = (split md).length) ∧
      ∀ l ∈ (skipped ++ ls').head?, Solid l.text := by
  have hle := @insertAfterIdx_le u headingText headingLevel md
  have hlength := @sectionLines_le u headingText headingLevel md
  have hsolid := @solid_drop u headingText headingLevel md
  rw [beforeEnd, afterEnd, insertAfterHeadingStr]
  generalize insertAfterIdx u headingText headingLevel (TextLines.lines md) = i at hle hsolid ⊢
  generalize sectionLines u headingText headingLevel md = k at hle hlength ⊢
  obtain ⟨d, rfl⟩ := Nat.exists_eq_add_of_le hle
  have hdrop : ((split md).drop i).take d ++ (split md).drop (i + d) = (split md).drop i := by
    rw [← List.drop_drop, List.take_append_drop]
  refine ⟨(split md).take i, ((split md).drop i).take d, (split md).drop (i + d), ?_, ?_, ?_, rfl, ?_, ?_, ?_⟩
  · rw [hdrop, List.take_append_drop]
  · rw [hdrop, inserted, texts, texts, List.map_take, List.map_drop]
    rfl
  · rw [List.take_add]
  · rw [← List.length_eq_zero_iff, List.length_take, List.length_drop]
    omega
  · rw [List.drop_eq_nil_iff]
    omega
  · rwa [hdrop]

/-- A section that the code does not end goes to the end of the text. -/
lemma guessed_eq_none_iff (md : Str) :
    guessed u headingText headingLevel md = none ↔
      insertAfterIdx u headingText headingLevel (TextLines.lines md) = (split md).length := by
  rw [insertAfterIdx_lines, guessed, ← sectionEnd_eq_length_iff, length_mark]

lemma idx_eq_iff (md : Str) :
    insertAfterIdx u headingText headingLevel (TextLines.lines md) =
        sectionLines u headingText headingLevel md ↔
      ∀ x y, guessed u headingText headingLevel md = some (x, y) →
        isHeading u headingText headingLevel x = true ∧ isNextHeading headingLevel y = true := by
  obtain ⟨hbegins, hends, hboth⟩ := @guesses u headingText headingLevel
  rw [insertAfterIdx_lines]
  exact sectionEnd_eq_iff hbegins hends hboth

/-- The text comes back exactly if it is plain, and then the block is the content between empty lines. -/
theorem insertAfterHeadingStr_iff (md : Str) :
    (InsertsBlock u headingText headingLevel content md ↔ Plain u headingText headingLevel md) ∧
    (Plain u headingText headingLevel md → ∃ i j, 1 ≤ i ∧
      insertAfterHeadingStr u headingText headingLevel content md =
        beforeEnd u headingText headingLevel md ++
          (blank (lineEnding md) i ++ closed (lineEnding md) (TextLines.lines content) ++
            blank (lineEnding md) j) ++
          afterEnd u headingText headingLevel md) := by
  obtain ⟨ls, skipped, ls', hsplit, hresult, hbefore, hafter, hskipped, hnil, hsolid⟩ :=
    @exists_cut u headingText headingLevel content md
  have hproper := proper_split md
  have hfits := fits_lineEnding md
  have hnone := @guessed_eq_none_iff u headingText headingLevel md
  have hunended := unended_split_iff md
  rw [hsplit] at hproper hfits hunended
  have hplain : Plain u headingText headingLevel md → ∃ i j, 1 ≤ i ∧
      insertAfterHeadingStr u headingText headingLevel content md =
        beforeEnd u headingText headingLevel md ++
          (blank (lineEnding md) i ++ closed (lineEnding md) (TextLines.lines content) ++
            blank (lineEnding md) j) ++
          afterEnd u headingText headingLevel md := by
    rintro ⟨⟨eol, huniform⟩, hguessed⟩
    have hidx := (idx_eq_iff md).mpr fun x y h => ⟨(hguessed x y h).1, (hguessed x y h).2.1⟩
    obtain rfl := hskipped.mpr hidx
    have huniform' := uniform_lineEnding huniform
    rw [hsplit] at huniform'
    rw [hresult, hbefore, hafter, List.append_nil, List.nil_append]
    refine exists_block hproper hfits huniform' ?_
    cases hcase : guessed u headingText headingLevel md with
    | none => exact .inl (hnil.mpr (hidx.symm.trans (hnone.mp hcase)))
    | some bounds =>
      by_cases hend : ls' = []
      · exact .inl hend
      · have hlast := hunended.mpr (hguessed bounds.1 bounds.2 hcase).2.2
        rw [Unended, List.nil_append, List.getLast?_append_of_ne_nil _ hend] at hlast
        exact .inr hlast
  refine ⟨⟨?_, fun h => ?_⟩, hplain⟩
  · rintro ⟨block, hblock⟩
    rw [hresult, hbefore, hafter] at hblock
    obtain ⟨rfl, huniform, hlast⟩ := of_exists_block hproper hfits hsolid hblock
    have hidx := hskipped.mp rfl
    refine ⟨⟨lineEnding md, hsplit ▸ huniform⟩, fun x y h => ?_⟩
    obtain ⟨hx, hy⟩ := (idx_eq_iff md).mp hidx x y h
    refine ⟨hx, hy, hunended.mp ?_⟩
    have hend : ls' ≠ [] := by
      intro hend
      rw [hnone.mpr (hidx.trans (hnil.mp hend))] at h
      cases h
    rw [Unended, List.nil_append, List.getLast?_append_of_ne_nil _ hend]
    exact hlast.resolve_left hend
  · obtain ⟨i, j, -, hresult'⟩ := hplain h
    exact ⟨_, hresult'⟩

/-- A section that another one follows takes the line feed at the end of the text. -/
theorem final_newline_lost :
    insertAfterHeadingStr asciiData "A".toList 1 "x".toList "# A\n# B\n".toList =
      "# A\n\nx\n\n# B".toList ∧
    ¬InsertsBlock asciiData "A".toList 1 "x".toList "# A\n# B\n".toList := by
  have hresult : insertAfterHeadingStr asciiData "A".toList 1 "x".toList "# A\n# B\n".toList =
      "# A\n\nx\n\n# B".toList := by decide +kernel
  have hafter : afterEnd asciiData "A".toList 1 "# A\n# B\n".toList = "# B\n".toList := by decide +kernel
  refine ⟨hresult, ?_⟩
  rintro ⟨block, hblock⟩
  rw [hresult, hafter] at hblock
  have hlast := congrArg List.getLast? hblock
  rw [List.getLast?_append_of_ne_nil _ (by decide)] at hlast
  exact absurd hlast (by decide)

end AxiomGrid.Phantom.MdWriter
