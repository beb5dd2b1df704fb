import AxiomGrid.Lib.PyStr
import Mathlib.Data.List.Forall2
import Mathlib.Tactic.Common

/-!
# Strings of a content stream

`_redact_text_in_content_stream` and `_decode_pdf_string` of `kairo/pdf/engine.py`. The strings of a
content stream are found by their parentheses, and those that hold the target are emptied. What a string
holds is read differently from the rules of PDF in some escapes, and a string that is misread keeps its
text.
-/

namespace AxiomGrid.Kairo.Pdf

/-! ### Finding the strings -/

/-- The loop for the matching parenthesis, with `depth` more parentheses open inside of the string: what
is inside, and what follows. A character after a backslash is skipped. -/
def closeParen : Bool → ℕ → Str → Option (Str × Str)
  | _, _, [] => none
  | true, depth, c :: s => (closeParen false depth s).map fun p => (c :: p.1, p.2)
  | false, depth, c :: s =>
    if c = '\\' then (closeParen true depth s).map fun p => (c :: p.1, p.2)
    else if c = '(' then (closeParen false (depth + 1) s).map fun p => (c :: p.1, p.2)
    else if c = ')' then
      if depth = 0 then some ([], s)
      else (closeParen false (depth - 1) s).map fun p => (c :: p.1, p.2)
    else (closeParen false depth s).map fun p => (c :: p.1, p.2)

/-- A part of a content stream: a character outside of strings, or what is inside a string. -/
inductive Token where
  | outside (c : Char)
  | literal (s : Str)
  deriving DecidableEq

/-- The parts of a content stream; `skip` characters belong to the string before. A parenthesis that is
not closed begins no string. -/
def tokensFrom : ℕ → Str → List Token
  | _, [] => []
  | skip + 1, _ :: s => tokensFrom skip s
  | 0, c :: s =>
    if c = '(' then
      match closeParen false 0 s with
      | some (inside, _) => .literal inside :: tokensFrom (inside.length + 1) s
      | none => .outside c :: tokensFrom 0 s
    else .outside c :: tokensFrom 0 s

def tokens (content : Str) : List Token := tokensFrom 0 content

def Token.render : Token → Str
  | outside c => [c]
  | literal s => '(' :: s ++ [')']

/-- The strings of a content stream. -/
def literals (content : Str) : List Str :=
  (tokens content).filterMap fun
    | .outside _ => none
    | .literal s => some s

/-! ### Decoding -/

/-- Replaces escapes, where `escape` says what stands for the text after a backslash, and how much of that
text it takes. -/
def unescapeFrom (escape : Str → Str × ℕ) : ℕ → Str → Str
  | _, [] => []
  | skip + 1, _ :: s => unescapeFrom escape skip s
  | 0, c :: s =>
    if c = '\\' then (escape s).1 ++ unescapeFrom escape (escape s).2 s
    else c :: unescapeFrom escape 0 s

/-- `c.isdigit()` for a character of Latin-1. -/
def isDigit (c : Char) : Bool := c.isDigit || c == '²' || c == '³' || c == '¹'

def isOctal (c : Char) : Bool := '0' ≤ c && c ≤ '7'

/-- The digits of `int(text, 8)`, with single underscores between them; `pending` is set at the start and
right after an underscore. -/
def octalDigits (value : ℕ) (pending : Bool) : Str → Option ℕ
  | [] => if pending then none else some value
  | c :: s =>
    if isOctal c then octalDigits (8 * value + (c.toNat - '0'.toNat)) false s
    else if c = '_' ∧ !pending then octalDigits value true s
    else none

/-- `int(text, 8)` for a text without a sign; `none` is the `ValueError`. -/
def parseOctal (text : Str) : Option ℕ :=
  match Str.strip text with
  | '0' :: 'o' :: s => octalDigits 0 true s
  | '0' :: 'O' :: s => octalDigits 0 true s
  | s => octalDigits 0 true s

/-- An escape as `_decode_pdf_string` reads it. After an octal escape one character more is skipped than
was read. -/
def escape : Str → Str × ℕ
  | [] => (['\\'], 0)
  | next :: s =>
    if next = 'n' then (['\n'], 1)
    else if next = 'r' then (['\r'], 1)
    else if next = 't' then (['\t'], 1)
    else if next = '\\' ∨ next = '(' ∨ next = ')' then ([next], 1)
    else if isDigit next then
      let octal := (next :: s).take 3
      match parseOctal octal with
      | some value => ([Char.ofNat value], octal.length + 1)
      | none => ([next], 1)
    else ([next], 1)

/-- `_decode_pdf_string`. -/
def decodePdfString (s : Str) : Str := unescapeFrom escape 0 s

/-- An escape by the rules of PDF; a string does not end in a backslash. -/
def pdfEscape : Str → Str × ℕ
  | [] => (['\\'], 0)
  | next :: s =>
    if next = 'n' then (['\n'], 1)
    else if next = 'r' then (['\r'], 1)
    else if next = 't' then (['\t'], 1)
    else if next = 'b' then (['\x08'], 1)
    else if next = 'f' then (['\x0c'], 1)
    else if next = '\r' ∧ s.head? = some '\n' then ([], 2)
    else if next = '\n' ∨ next = '\r' then ([], 1)
    else if isOctal next then
      let octal := ((next :: s).take 3).takeWhile isOctal
      ([Char.ofNat (octal.foldl (fun value c => 8 * value + (c.toNat - '0'.toNat)) 0 % 256)],
        octal.length)
    else ([next], 1)

/-- A string by the rules of PDF. -/
def pdfDecode (s : Str) : Str := unescapeFrom pdfEscape 0 s

/-! ### Redaction -/

/-- The loop of `_redact_text_in_content_stream`; `skip` characters belong to the string before. -/
def redactFrom (target : Str) : ℕ → Str → Str
  | _, [] => []
  | skip + 1, _ :: s => redactFrom target skip s
  | 0, c :: s =>
    if c = '(' then
      match closeParen false 0 s with
      | some (inside, _) =>
        (if Str.contains target (decodePdfString inside) then "()".toList else '(' :: inside ++ [')']) ++
          redactFrom target (inside.length + 1) s
      | none => c :: redactFrom target 0 s
    else c :: redactFrom target 0 s

/-- `_redact_text_in_content_stream`. -/
def redactTextInContentStream (content target : Str) : Str := redactFrom target 0 content

/-- A part after the redaction. -/
def Token.emptied (target : Str) : Token → Token
  | outside c => outside c
  | literal s => literal (if Str.contains target (decodePdfString s) then [] else s)

/-! ### Parentheses -/

/-- What is read inside of a string brings the loop back to the depth it had, wherever this stands. -/
lemma closeParen_append {escaped : Bool} {depth : ℕ} {s inside after : Str}
    (h : closeParen escaped depth s = some (inside, after)) :
    s = inside ++ ')' :: after ∧ ∀ more text, closeParen escaped (depth + more) (inside ++ text) =
      (closeParen false more text).map fun p => (inside ++ p.1, p.2) := by
  induction s generalizing escaped depth inside with
  | nil => cases h
  | cons c s ih =>
    -- a character that does not close the string
    have hpush : ∀ {escaped' depth'},
        ((closeParen escaped' depth' s).map fun p => (c :: p.1, p.2)) = some (inside, after) →
        (∀ more text, closeParen escaped (depth + more) (c :: text) =
          (closeParen escaped' (depth' + more) text).map fun p => (c :: p.1, p.2)) →
        c :: s = inside ++ ')' :: after ∧ ∀ more text,
          closeParen escaped (depth + more) (inside ++ text) =
            (closeParen false more text).map fun p => (inside ++ p.1, p.2) := by
      intro escaped' depth' hclose hstep
      obtain ⟨⟨inside', after'⟩, hrest, heq⟩ := Option.map_eq_some_iff.mp hclose
      cases heq
      obtain ⟨rfl, hall⟩ := ih hrest
      refine ⟨rfl, fun more text => ?_⟩
      rw [List.cons_append, hstep, hall, Option.map_map]
      rfl
    cases escaped with
    | true => exact hpush h fun more text => rfl
    | false =>
      rw [closeParen] at h
      by_cases hslash : c = '\\'
      · rw [if_pos hslash] at h
        exact hpush h fun more text => by rw [closeParen, if_pos hslash]
      rw [if_neg hslash] at h
      by_cases hopen : c = '('
      · rw [if_pos hopen] at h
        refine hpush h fun more text => ?_
        rw [closeParen, if_neg hslash, if_pos hopen, Nat.add_right_comm]
      rw [if_neg hopen] at h
      by_cases hclose : c = ')'
      · rw [if_pos hclose] at h
        by_cases hdepth : depth = 0
        · rw [if_pos hdepth] at h
          cases h
          refine ⟨by rw [hclose]; rfl, fun more text => ?_⟩
          rw [hdepth, Nat.zero_add]
          simp
        · rw [if_neg hdepth] at h
          refine hpush h fun more text => ?_
          rw [closeParen, if_neg hslash, if_neg hopen, if_pos hclose, if_neg (by omega),
            Nat.sub_add_comm (Nat.pos_of_ne_zero hdepth)]
      · rw [if_neg hclose] at h
        exact hpush h fun more text => by
          rw [closeParen, if_neg hslash, if_neg hopen, if_neg hclose]

/-- The parentheses of the text match each other. -/
def Closed (s : Str) : Prop := ∀ more text, closeParen false more (s ++ text) =
  (closeParen false more text).map fun p => (s ++ p.1, p.2)

lemma closed_nil : Closed [] := fun more text => by simp

lemma closed_of_closeParen {s inside after : Str}
    (h : closeParen false 0 s = some (inside, after)) :
    s = inside ++ ')' :: after ∧ Closed inside := by
  obtain ⟨hs, hall⟩ := closeParen_append h
  refine ⟨hs, fun more text => ?_⟩
  rw [← hall, Nat.zero_add]

lemma Closed.closeParen_zero {s : Str} (h : Closed s) (after : Str) :
    closeParen false 0 (s ++ ')' :: after) = some (s, after) := by
  rw [h]
  simp [closeParen]

/-! ### Parts -/

/-- Parts that a content stream can consist of: strings whose parentheses match, and no parenthesis outside
of them that is closed later. -/
def Valid : List Token → Prop
  | [] => True
  | .outside c :: ts => (c = '(' → closeParen false 0 (ts.flatMap Token.render) = none) ∧ Valid ts
  | .literal s :: ts => Closed s ∧ Valid ts

lemma tokensFrom_eq (skip : ℕ) (s : Str) : tokensFrom skip s = tokens (s.drop skip) := by
  induction skip generalizing s with
  | zero => rfl
  | succ skip ih =>
    cases s with
    | nil => rfl
    | cons c s => exact ih s

lemma redactFrom_eq (target : Str) (skip : ℕ) (s : Str) :
    redactFrom target skip s = redactTextInContentStream (s.drop skip) target := by
  induction skip generalizing s with
  | zero => rfl
  | succ skip ih =>
    cases s with
    | nil => rfl
    | cons c s => exact ih s

/-- A content stream consists of its parts, and redacting it empties the strings that hold the target. -/
lemma tokens_spec (target : Str) (content : Str) :
    Valid (tokens content) ∧ (tokens content).flatMap Token.render = content ∧
      redactTextInContentStream content target =
        ((tokens content).map (Token.emptied target)).flatMap Token.render := by
  induction hn : content.length using Nat.strong_induction_on generalizing content with
  | _ n ih =>
    subst hn
    cases content with
    | nil => exact ⟨trivial, rfl, rfl⟩
    | cons c s =>
      obtain ⟨hvalid, hrender, hredact⟩ := ih s.length (by simp) s rfl
      rw [tokens, redactTextInContentStream, tokensFrom, redactFrom]
      by_cases hopen : c = '('
      · rw [if_pos hopen, if_pos hopen]
        cases hclose : closeParen false 0 s with
        | none =>
          refine ⟨⟨fun _ => ?_, hvalid⟩, congrArg (c :: ·) hrender, congrArg (c :: ·) hredact⟩
          change closeParen false 0 ((tokens s).flatMap Token.render) = none
          rw [hrender, hclose]
        | some p =>
          obtain ⟨inside, after⟩ := p
          obtain ⟨rfl, hclosed⟩ := closed_of_closeParen hclose
          obtain ⟨hvalid, hrender, hredact⟩ := ih after.length (by simp; omega) after rfl
          have hdrop : (inside ++ ')' :: after).drop (inside.length + 1) = after := by
            rw [List.append_cons]
            exact List.drop_left' (by simp)
          simp only [tokensFrom_eq, redactFrom_eq, hdrop]
          refine ⟨⟨hclosed, hvalid⟩, ?_, ?_⟩
          · rw [List.flatMap_cons, hrender, Token.render, hopen]
            simp
          · rw [List.map_cons, List.flatMap_cons, hredact, Token.emptied]
            split_ifs <;> rfl
      · rw [if_neg hopen, if_neg hopen]
        exact ⟨⟨fun h => absurd h hopen, hvalid⟩, congrArg (c :: ·) hrender, congrArg (c :: ·) hredact⟩

/-- Valid parts are read back. -/
lemma tokens_render {ts : List Token} (h : Valid ts) : tokens (ts.flatMap Token.render) = ts := by
  induction ts with
  | nil => rfl
  | cons t ts ih =>
    cases t with
    | outside c =>
      rw [List.flatMap_cons, Token.render, List.singleton_append, tokens, tokensFrom]
      by_cases hopen : c = '('
      · rw [if_pos hopen, h.1 hopen]
        exact congrArg _ (ih h.2)
      · rw [if_neg hopen]
        exact congrArg _ (ih h.2)
    | literal s =>
      have hdrop : (s ++ ')' :: ts.flatMap Token.render).drop (s.length + 1) =
          ts.flatMap Token.render := by
        rw [List.append_cons]
        exact List.drop_left' (by simp)
      have hstream : (Token.literal s :: ts).flatMap Token.render =
          '(' :: (s ++ ')' :: ts.flatMap Token.render) := by
        simp [Token.render]
      rw [hstream, tokens, tokensFrom, if_pos rfl, h.1.closeParen_zero]
      simp only
      rw [tokensFrom_eq, hdrop, ih h.2]

/-- Emptying strings closes no parenthesis: a string is skipped, unless its first parenthesis stands after
a backslash, and then its last one counts, whatever is between them. -/
lemma closeParen_emptied (target : Str) {ts : List Token} (h : Valid ts) (escaped : Bool)
    (depth : ℕ) : closeParen escaped depth (ts.flatMap Token.render) = none ↔
      closeParen escaped depth ((ts.map (Token.emptied target)).flatMap Token.render) = none := by
  induction ts generalizing escaped depth with
  | nil => rfl
  | cons t ts ih =>
    cases t with
    | outside c =>
      have ih := ih h.2
      rw [List.map_cons, Token.emptied, List.flatMap_cons, List.flatMap_cons, Token.render,
        List.singleton_append, List.singleton_append]
      cases escaped with
      | true => simp only [closeParen, Option.map_eq_none_iff, ih]
      | false =>
        rw [closeParen, closeParen]
        split_ifs <;> simp only [Option.map_eq_none_iff, ih]
    | literal s =>
      have ih := ih h.2
      have hclosed : ∀ {s : Str}, Closed s → ∀ text,
          (closeParen escaped depth ('(' :: s ++ [')'] ++ text) = none ↔
            if escaped = true then depth ≠ 0 ∧ closeParen false (depth - 1) text = none
            else closeParen false depth text = none) := by
        intro s hs text
        cases escaped with
        | true =>
          have hstep : closeParen true depth ('(' :: s ++ [')'] ++ text) =
              (closeParen false depth (s ++ ')' :: text)).map fun p => ('(' :: p.1, p.2) := by
            simp [closeParen]
          rw [hstep, hs, closeParen, if_neg (by decide), if_neg (by decide), if_pos rfl]
          by_cases hdepth : depth = 0
          · simp [hdepth]
          · simp [hdepth]
        | false =>
          have hstep : closeParen false depth ('(' :: s ++ [')'] ++ text) =
              (closeParen false (depth + 1) (s ++ ')' :: text)).map fun p => ('(' :: p.1, p.2) := by
            simp [closeParen]
          rw [hstep, hs, closeParen, if_neg (by decide), if_neg (by decide), if_pos rfl,
            if_neg (Nat.succ_ne_zero depth)]
          simp
      rw [List.map_cons, Token.emptied, List.flatMap_cons, List.flatMap_cons, Token.render,
        Token.render, hclosed h.1, hclosed (by split_ifs; exacts [closed_nil, h.1])]
      split_ifs
      · exact and_congr_right fun _ => ih false (depth - 1)
      · exact ih false depth

lemma valid_emptied (target : Str) {ts : List Token} (h : Valid ts) :
    Valid (ts.map (Token.emptied target)) := by
  induction ts with
  | nil => trivial
  | cons t ts ih =>
    cases t with
    | outside c =>
      exact ⟨fun hopen => (closeParen_emptied target h.2 false 0).mp (h.1 hopen), ih h.2⟩
    | literal s =>
      refine ⟨?_, ih h.2⟩
      split_ifs
      · exact closed_nil
      · exact h.1

/-- The parts of a redacted stream are those of the stream, with the strings that hold the target
emptied. -/
lemma tokens_redact (content target : Str) :
    tokens (redactTextInContentStream content target) =
      (tokens content).map (Token.emptied target) := by
  obtain ⟨hvalid, -, hredact⟩ := tokens_spec target content
  rw [hredact, tokens_render (valid_emptied target hvalid)]

lemma literals_redact (content target : Str) :
    literals (redactTextInContentStream content target) = (literals content).map fun s =>
      if Str.contains target (decodePdfString s) then [] else s := by
  rw [literals, literals, tokens_redact, List.filterMap_map, List.map_filterMap]
  congr 1
  funext t
  cases t <;> rfl

/-! ### Escapes -/

/-- No backslash stands before a digit, a line break, `b` or `f`. -/
def PlainEscapes (s : Str) : Prop :=
  ∀ c, ['\\', c] <:+: s → isDigit c = false ∧ c ∉ ['b', 'f', '\n', '\r']

lemma isDigit_of_isOctal {c : Char} (h : isOctal c = true) : isDigit c = true := by
  simp only [isOctal, Bool.and_eq_true, decide_eq_true_eq] at h
  have hnine : c ≤ '9' := Char.le_trans h.2 (show '7' ≤ '9' by decide)
  have hdigit : c.isDigit = true := by
    rw [Char.isDigit, Bool.and_eq_true, decide_eq_true_eq, decide_eq_true_eq]
    exact ⟨h.1, hnine⟩
  rw [isDigit, hdigit]
  rfl

/-- Without such escapes a string is read by the rules of PDF. -/
lemma decode_eq_of_plain {s : Str} (h : PlainEscapes s) : decodePdfString s = pdfDecode s := by
  suffices hall : ∀ skip, unescapeFrom escape skip s = unescapeFrom pdfEscape skip s from hall 0
  induction s with
  | nil => exact fun skip => by cases skip <;> rfl
  | cons c s ih =>
    have ih := ih fun d hd => h d (hd.trans (List.suffix_cons c s).isInfix)
    intro skip
    cases skip with
    | succ skip => exact ih skip
    | zero =>
      rw [unescapeFrom, unescapeFrom, ih, ih]
      by_cases hslash : c = '\\'
      · have hsame : escape s = pdfEscape s := by
          cases s with
          | nil => rfl
          | cons d s =>
            obtain ⟨hdigit, hplain⟩ := h d (by rw [hslash]; exact ⟨[], s, rfl⟩)
            simp only [List.mem_cons, List.not_mem_nil, or_false, not_or] at hplain
            have hoctal : isOctal d = false := by
              cases hd : isOctal d with
              | false => rfl
              | true => rw [isDigit_of_isOctal hd] at hdigit; cases hdigit
            simp [escape, pdfEscape, hdigit, hplain, hoctal]
        rw [if_pos hslash, if_pos hslash, hsame]
      · rw [if_neg hslash, if_neg hslash]

/-! ### What is left of the target -/

/-- The second part is the first one, or an empty string in the place of a string. -/
inductive Token.Emptied : Token → Token → Prop where
  | same (t : Token) : Emptied t t
  | empty (s : Str) : Emptied (.literal s) (.literal [])

/-- No string of the result holds the target by the rules of PDF, and the result is the stream with some of
its strings emptied. -/
structure Redacted (target content result : Str) : Prop where
  hidden : ∀ s ∈ literals result, ¬ target <:+: pdfDecode s
  kept : ∃ ts, List.Forall₂ Token.Emptied (tokens content) ts ∧
    (tokens content).flatMap Token.render = content ∧ ts.flatMap Token.render = result

lemma emptied_of_tokens (target : Str) (ts : List Token) :
    List.Forall₂ Token.Emptied ts (ts.map (Token.emptied target)) := by
  rw [List.forall₂_map_right_iff, List.forall₂_same]
  intro t _
  cases t with
  | outside c => exact .same _
  | literal s =>
    rw [Token.emptied]
    split_ifs
    · exact .empty s
    · exact .same _

/-- The stream is redacted when every string that holds the target by the rules of PDF holds it as it is
decoded here, too. A string whose escapes are plain is decoded by the rules. -/
theorem redacted_iff {target : Str} (htarget : target ≠ []) (content : Str) :
    (Redacted target content (redactTextInContentStream content target) ↔
      ∀ s ∈ literals content, target <:+: pdfDecode s → target <:+: decodePdfString s) ∧
    ∀ s, PlainEscapes s → decodePdfString s = pdfDecode s := by
  refine ⟨⟨fun h s hs hpdf => ?_, fun h => ⟨fun s hs hpdf => ?_, ?_⟩⟩, fun s => decode_eq_of_plain⟩
  · by_contra hcode
    rw [← Str.contains_iff] at hcode
    -- the string is kept as it is
    refine h.hidden s ?_ hpdf
    rw [literals_redact]
    exact List.mem_map.mpr ⟨s, hs, if_neg hcode⟩
  · rw [literals_redact] at hs
    obtain ⟨s', hs', rfl⟩ := List.mem_map.mp hs
    split_ifs at hpdf with hcode
    · exact htarget (List.infix_nil.mp hpdf)
    · exact hcode (Str.contains_iff.mpr (h s' hs' hpdf))
  · obtain ⟨-, hrender, hredact⟩ := tokens_spec target content
    exact ⟨_, emptied_of_tokens target _, hrender, hredact.symm⟩

theorem redacted_iff_shown :
    Redacted "Secret".toList "(a \\(Secret\\)) Tj (b) Tj".toList "() Tj (b) Tj".toList :=
  (redacted_iff (by decide) "(a \\(Secret\\)) Tj (b) Tj".toList).1.mpr (by decide +kernel)

/-- An octal escape takes the character after it, too: the stream is as it was, and shows the target. -/
theorem octal_not_redacted :
    redactTextInContentStream "(\\123ecret) Tj".toList "Secret".toList = "(\\123ecret) Tj".toList ∧
      ¬ Redacted "Secret".toList "(\\123ecret) Tj".toList
        (redactTextInContentStream "(\\123ecret) Tj".toList "Secret".toList) := by
  refine ⟨by decide +kernel, fun h => h.hidden "\\123ecret".toList ?_ ?_⟩
  · decide +kernel
  · exact Str.contains_iff.mp (by decide +kernel)

end AxiomGrid.Kairo.Pdf
