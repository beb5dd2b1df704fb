import AxiomGrid.Lib.RustStr
import AxiomGrid.Lib.Words
import AxiomGrid.Phantom.GhostSession

/-!
# The accepted text of a ghost buffer

`phantom-core/src/ghost_buffer.rs`: the offset up to which a preview is accepted is in bytes, and the
text under it may grow. The offset that is used is always at a character boundary. Accepting and undoing
go word by word as long as the offset is not inside a word, and only a token that is appended to the
active text can put it there.
-/

namespace AxiomGrid.Phantom

open AxiomGrid.Runtime (isWhiteSpace)
open Words

/-! ### Byte offsets -/

@[simp] lemma utf8Len_nil : utf8Len [] = 0 := rfl

@[simp] lemma utf8Len_cons (c : Char) (cs : Str) : utf8Len (c :: cs) = c.utf8Size + utf8Len cs := by
  simp [utf8Len]

@[simp] lemma utf8Len_append (a b : Str) : utf8Len (a ++ b) = utf8Len a + utf8Len b := by
  simp [utf8Len]

/-- A character boundary cuts the text in two slices. -/
lemma splitBytes_spec {text : Str} {n : ℕ} (h : isCharBoundary text n = true) :
    (splitBytes text n).1 ++ (splitBytes text n).2 = text ∧ utf8Len (splitBytes text n).1 = n ∧
      Str.takeBytes text n = some (splitBytes text n).1 ∧
      Str.dropBytes text n = some (splitBytes text n).2 := by
  induction text generalizing n with
  | nil =>
    cases n with
    | zero => exact ⟨rfl, rfl, rfl, rfl⟩
    | succ n => cases h
  | cons c cs ih =>
    cases n with
    | zero => simp [splitBytes]
    | succ n =>
      simp only [isCharBoundary, Bool.and_eq_true, decide_eq_true_eq] at h
      obtain ⟨hjoin, hlen, htake, hdrop⟩ := ih h.2
      have hsplit : splitBytes (c :: cs) (n + 1) =
          (c :: (splitBytes cs (n + 1 - c.utf8Size)).1,
            (splitBytes cs (n + 1 - c.utf8Size)).2) := rfl
      refine ⟨by rw [hsplit, List.cons_append, hjoin], ?_, ?_, ?_⟩
      · rw [hsplit, utf8Len_cons, hlen, Nat.add_sub_cancel' h.1]
      · rw [Str.takeBytes, if_neg (Nat.succ_ne_zero n), if_pos h.1, htake, hsplit]
        rfl
      · rw [Str.dropBytes, if_neg (Nat.succ_ne_zero n), if_pos h.1, hdrop]
        rfl

lemma isCharBoundary_append (a b : Str) : isCharBoundary (a ++ b) (utf8Len a) = true := by
  induction a with
  | nil => cases b <;> rfl
  | cons c a ih =>
    have hpos := c.utf8Size_pos
    obtain ⟨n, hn⟩ : ∃ n, utf8Len (c :: a) = n + 1 := ⟨utf8Len (c :: a) - 1, by simp; omega⟩
    rw [hn, List.cons_append, isCharBoundary, ← hn, utf8Len_cons, Nat.add_sub_cancel_left, ih]
    simp

lemma splitBytes_append (a b : Str) : splitBytes (a ++ b) (utf8Len a) = (a, b) := by
  induction a with
  | nil => cases b <;> rfl
  | cons c a ih =>
    have hpos := c.utf8Size_pos
    obtain ⟨n, hn⟩ : ∃ n, utf8Len (c :: a) = n + 1 := ⟨utf8Len (c :: a) - 1, by simp; omega⟩
    rw [hn, List.cons_append, splitBytes, ← hn, utf8Len_cons, Nat.add_sub_cancel_left, ih]
    rfl

lemma floorBoundary_spec (text : Str) (n : ℕ) :
    floorBoundary text n ≤ n ∧ isCharBoundary text (floorBoundary text n) = true := by
  induction n with
  | zero => cases text <;> exact ⟨le_rfl, rfl⟩
  | succ n ih =>
    rw [floorBoundary]
    split_ifs with h
    · exact ⟨le_rfl, h⟩
    · exact ⟨ih.1.trans (Nat.le_succ n), ih.2⟩

lemma floorBoundary_of_boundary {text : Str} {n : ℕ} (h : isCharBoundary text n = true) :
    floorBoundary text n = n := by
  cases n with
  | zero => rfl
  | succ n => rw [floorBoundary, if_pos h]

/-! ### The accepted text -/

namespace GhostBuffer

/-- The text that is not accepted yet. -/
def remainingText (buf : GhostBuffer) : Str := (splitBytes buf.activeText buf.boundary).2

variable {buf : GhostBuffer}

/-- The slices `&text[..boundary]` and `&text[boundary..]` do not panic, and make up the active text. -/
structure Sliced (buf : GhostBuffer) : Prop where
  le : buf.boundary ≤ utf8Len buf.activeText
  isCharBoundary : isCharBoundary buf.activeText buf.boundary = true
  accepted : Str.takeBytes buf.activeText buf.boundary = some buf.acceptedText
  remaining : Str.dropBytes buf.activeText buf.boundary = some buf.remainingText
  activeText : buf.activeText = buf.acceptedText ++ buf.remainingText
  length : utf8Len buf.acceptedText = buf.boundary

lemma sliced (buf : GhostBuffer) : buf.Sliced := by
  obtain ⟨hle, hboundary⟩ :=
    floorBoundary_spec buf.activeText (min buf.acceptedChars (utf8Len buf.activeText))
  obtain ⟨hjoin, hlength, htake, hdrop⟩ := splitBytes_spec hboundary
  exact ⟨hle.trans (Nat.min_le_right _ _), hboundary, htake, hdrop, hjoin.symm, hlength⟩

/-- Where the offset is at the end of a start of the active text. -/
lemma acceptedText_of_acceptedChars {a b : Str} (htext : buf.activeText = a ++ b)
    (hchars : buf.acceptedChars = utf8Len a) : buf.acceptedText = a ∧ buf.remainingText = b := by
  have hboundary : buf.boundary = utf8Len a := by
    rw [boundary, htext, hchars, utf8Len_append, Nat.min_eq_left (Nat.le_add_right _ _),
      floorBoundary_of_boundary (isCharBoundary_append a b)]
  rw [acceptedText, remainingText, hboundary, htext, splitBytes_append]
  exact ⟨rfl, rfl⟩

/-! ### One operation -/

/-- Both methods stop at the same places of the remaining text. -/
lemma wordEnd_eq (i : ℕ) (s : Str) :
    wordEnd true i s = i + utf8Len (s.takeWhile (fun c => !isWhiteSpace c) ++
        (s.dropWhile fun c => !isWhiteSpace c).take 1) ∧
      wordEnd false i s = i + utf8Len (firstWord isWhiteSpace s) := by
  induction s generalizing i with
  | nil => exact ⟨rfl, rfl⟩
  | cons c cs ih =>
    simp only [wordEnd, firstWord] at ih ⊢
    by_cases hc : isWhiteSpace c = true
    · simp [hc, (ih _).2, Nat.add_assoc]
    · simp [hc, (ih _).1, Nat.add_assoc]

/-- `accept_next_word` accepts the first word of the remaining text. -/
lemma acceptNextWord_spec (buf : GhostBuffer) :
    buf.acceptNextWord.acceptedText =
        buf.acceptedText ++ firstWord isWhiteSpace buf.remainingText ∧
      buf.remainingText =
        firstWord isWhiteSpace buf.remainingText ++ buf.acceptNextWord.remainingText := by
  obtain ⟨t, ht, -⟩ := firstWord_cut isWhiteSpace buf.remainingText
  have htext : buf.activeText =
      (buf.acceptedText ++ firstWord isWhiteSpace buf.remainingText) ++ t := by
    rw [List.append_assoc, ← ht]
    exact buf.sliced.activeText
  have hchars : buf.acceptNextWord.acceptedChars =
      utf8Len (buf.acceptedText ++ firstWord isWhiteSpace buf.remainingText) := by
    have hlength := congrArg utf8Len htext
    rw [utf8Len_append] at hlength
    rw [acceptNextWord]
    change min (buf.boundary + wordEnd false 0 buf.remainingText) (utf8Len buf.activeText) = _
    rw [(wordEnd_eq 0 _).2, utf8Len_append, buf.sliced.length, Nat.zero_add]
    rw [utf8Len_append, buf.sliced.length] at hlength
    omega
  have hcut := @acceptedText_of_acceptedChars buf.acceptNextWord _ _ htext hchars
  exact ⟨hcut.1, by rw [hcut.2]; exact ht⟩

/-- `undo_last_word` keeps the accepted text up to its last word. -/
lemma acceptedText_undoLastWord (buf : GhostBuffer) :
    buf.undoLastWord.acceptedText =
      (buf.acceptedText.rdropWhile isWhiteSpace).rdropWhile fun c => !isWhiteSpace c := by
  obtain ⟨t, ht⟩ := (List.rdropWhile_prefix (fun c => !isWhiteSpace c)
    (buf.acceptedText.rdropWhile isWhiteSpace)).trans
    (List.rdropWhile_prefix isWhiteSpace buf.acceptedText)
  refine (@acceptedText_of_acceptedChars buf.undoLastWord _ (t ++ buf.remainingText) ?_ rfl).1
  rw [← List.append_assoc, ht]
  exact buf.sliced.activeText

lemma acceptedText_of_acceptedChars_zero (h : buf.acceptedChars = 0) : buf.acceptedText = [] :=
  (acceptedText_of_acceptedChars (List.nil_append buf.activeText).symm h).1

/-! ### Word by word -/

/-- The words the user has accepted. -/
def acceptedWords (buf : GhostBuffer) : List Str := words isWhiteSpace buf.acceptedText

/-- The words that remain. -/
def remainingWords (buf : GhostBuffer) : List Str := words isWhiteSpace buf.remainingText

/-- The offset is not inside a word of the active text. -/
def BetweenWords (buf : GhostBuffer) : Prop :=
  Between isWhiteSpace buf.acceptedText buf.remainingText

/-- Accepting adds the next word where one remains, and undoing it then gives the accepted words
back. -/
structure WordByWord (buf : GhostBuffer) : Prop where
  accept : buf.acceptNextWord.acceptedWords = buf.acceptedWords ++ buf.remainingWords.take 1
  restore : buf.remainingWords ≠ [] →
    buf.acceptNextWord.undoLastWord.acceptedWords = buf.acceptedWords

lemma acceptedWords_undoLastWord (buf : GhostBuffer) :
    buf.undoLastWord.acceptedWords = buf.acceptedWords.dropLast := by
  rw [acceptedWords, acceptedText_undoLastWord, words_dropLast, acceptedWords]

lemma wordByWord_iff : buf.WordByWord ↔ buf.BetweenWords := by
  rw [BetweenWords, ← words_append_firstWord_iff, ← buf.acceptNextWord_spec.1]
  refine ⟨fun h => h.accept, fun h => ⟨h, fun hremaining => ?_⟩⟩
  obtain ⟨word, rest, hwords⟩ := List.exists_cons_of_ne_nil hremaining
  have haccept : buf.acceptNextWord.acceptedWords = buf.acceptedWords ++ buf.remainingWords.take 1 := h
  rw [acceptedWords_undoLastWord, haccept, hwords, List.take_succ_cons, List.take_zero,
    List.dropLast_concat]

/-- Behind an accepted word. -/
lemma betweenWords_acceptNextWord (buf : GhostBuffer) : buf.acceptNextWord.BetweenWords := by
  obtain ⟨haccepted, hremaining⟩ := buf.acceptNextWord_spec
  obtain ⟨t, ht, hcut⟩ := firstWord_cut isWhiteSpace buf.remainingText
  obtain rfl := List.append_cancel_left (ht.symm.trans hremaining)
  rw [BetweenWords, haccepted]
  obtain hnil | ⟨x, hlast, hx⟩ := hcut
  · rw [hnil]
    exact between_nil_right
  · refine .inl fun c hc => ?_
    rw [List.getLast?_append, hlast, Option.some_or, Option.mem_def, Option.some.injEq] at hc
    exact hc ▸ hx

lemma betweenWords_undoLastWord (buf : GhostBuffer) : buf.undoLastWord.BetweenWords := by
  refine .inl fun c hc => ?_
  rw [acceptedText_undoLastWord] at hc
  simpa using getLast?_rdropWhile _ _ c hc

lemma betweenWords_of_acceptedText (h : buf.acceptedText = []) : buf.BetweenWords := by
  rw [BetweenWords, h]
  exact between_nil_left

/-! ### Runs -/

/-- What is done with a buffer; a session appends tokens to either alternative. -/
inductive Op where
  | acceptNextWord
  | undoLastWord
  | toggleAlternative
  | pushA (token : Str)
  | pushB (token : Str)
  deriving DecidableEq, Repr

/-- The operation appends a token, and leaves the offset. -/
def Op.isPush : Op → Bool
  | .pushA _ | .pushB _ => true
  | _ => false

def step (buf : GhostBuffer) : Op → GhostBuffer
  | .acceptNextWord => buf.acceptNextWord
  | .undoLastWord => buf.undoLastWord
  | .toggleAlternative => buf.toggleAlternative
  | .pushA token => { buf with textA := buf.textA ++ token }
  | .pushB token => { buf with textB := buf.textB ++ token }

/-- The buffer behind some operations on a buffer of which nothing is accepted. -/
def run (textA textB : Str) (usingB : Bool) (ops : List Op) : GhostBuffer :=
  ops.foldl step { textA, textB, usingB }

/-- The operations up to the last one that sets the offset. -/
def moves (ops : List Op) : List Op := ops.rdropWhile Op.isPush

variable {textA textB : Str} {usingB : Bool} {ops : List Op}

lemma run_concat (op : Op) :
    run textA textB usingB (ops ++ [op]) = (run textA textB usingB ops).step op := by
  simp [run]

lemma acceptedChars_step_of_isPush {op : Op} (h : op.isPush = true) (buf : GhostBuffer) :
    (buf.step op).acceptedChars = buf.acceptedChars := by
  cases op with
  | pushA token | pushB token => rfl
  | acceptNextWord | undoLastWord | toggleAlternative => cases h

/-- An operation that sets the offset does not leave it inside a word. -/
lemma betweenWords_step {op : Op} (h : op.isPush = false) (buf : GhostBuffer) :
    (buf.step op).BetweenWords := by
  cases op with
  | acceptNextWord => exact buf.betweenWords_acceptNextWord
  | undoLastWord => exact buf.betweenWords_undoLastWord
  | toggleAlternative =>
    exact betweenWords_of_acceptedText (acceptedText_of_acceptedChars_zero rfl)
  | pushA token | pushB token => cases h

lemma betweenWords_moves (textA textB : Str) (usingB : Bool) (ops : List Op) :
    (run textA textB usingB (moves ops)).BetweenWords := by
  obtain hnil | ⟨before, op, hconcat⟩ := (moves ops).eq_nil_or_concat'
  · rw [hnil]
    exact betweenWords_of_acceptedText (acceptedText_of_acceptedChars_zero rfl)
  · have hop : op.isPush = false := getLast?_rdropWhile Op.isPush ops op (by
      rw [← moves, hconcat, List.getLast?_concat]
      rfl)
    rw [hconcat, run_concat]
    exact betweenWords_step hop _

/-- Appending tokens leaves the offset. -/
lemma acceptedChars_moves (textA textB : Str) (usingB : Bool) (ops : List Op) :
    (run textA textB usingB ops).acceptedChars =
      (run textA textB usingB (moves ops)).acceptedChars := by
  induction ops using List.reverseRecOn with
  | nil => rfl
  | append_singleton ops op ih =>
    by_cases hop : op.isPush = true
    · rw [run_concat, acceptedChars_step_of_isPush hop, ih, moves, moves,
        List.rdropWhile_concat_pos _ _ _ hop]
    · rw [moves, List.rdropWhile_concat_neg _ _ _ hop]

/-- Where the active text and the offset agree, so does the cut. -/
lemma BetweenWords.congr {buf buf' : GhostBuffer} (h : buf.BetweenWords)
    (htext : buf'.activeText = buf.activeText) (hchars : buf'.acceptedChars = buf.acceptedChars) :
    buf'.BetweenWords := by
  have hboundary : buf'.boundary = buf.boundary := by rw [boundary, boundary, htext, hchars]
  rw [BetweenWords, acceptedText, remainingText, hboundary, htext]
  exact h

/-- After every run the accepted text is a slice of the active text from its start, undoing drops the
last accepted word, and accepting goes word by word exactly when the offset is not inside a word. It
is inside none where nothing is accepted, or no token was appended to the active text since the
offset was last set. -/
theorem run_wordByWord (textA textB : Str) (usingB : Bool) (ops : List Op) :
    (run textA textB usingB ops).Sliced ∧
      (run textA textB usingB ops).acceptedText <+: (run textA textB usingB ops).activeText ∧
      (run textA textB usingB ops).undoLastWord.acceptedWords =
        (run textA textB usingB ops).acceptedWords.dropLast ∧
      ((run textA textB usingB ops).WordByWord ↔ (run textA textB usingB ops).BetweenWords) ∧
      ((run textA textB usingB ops).acceptedText = [] ∨
          (run textA textB usingB ops).activeText =
            (run textA textB usingB (moves ops)).activeText →
        (run textA textB usingB ops).BetweenWords) := by
  have hsliced := (run textA textB usingB ops).sliced
  refine ⟨hsliced, ⟨_, hsliced.activeText.symm⟩, acceptedWords_undoLastWord _, wordByWord_iff,
    fun h => ?_⟩
  obtain hnone | hsame := h
  · exact betweenWords_of_acceptedText hnone
  · exact (betweenWords_moves textA textB usingB ops).congr hsame
      (acceptedChars_moves textA textB usingB ops)

end GhostBuffer

end AxiomGrid.Phantom
