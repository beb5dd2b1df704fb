import Mathlib.Data.List.DropRight
import Mathlib.Tactic.Common

/-!
# Lexical paths

A path is cut at its separators. The piece before the first separator is its root, which is empty on
systems without drives. The other pieces are resolved without a look at the file system: an empty piece
and `.` are skipped, `..` takes away the last name, and there is nothing above the root.
-/

namespace LexicalPath

variable (sep : Char → Bool)

/-- One piece of a path. -/
def walk (names : List (List Char)) (piece : List Char) : List (List Char) :=
  if piece = [] ∨ piece = ['.'] then names
  else if piece = ['.', '.'] then names.dropLast
  else names ++ [piece]

/-- The root of a path and the names below it. -/
def resolve (path : List Char) : List Char × List (List Char) :=
  ((path.splitOnP sep).headD [], (path.splitOnP sep).tail.foldl walk [])

/-- The path is the directory or lies below it. -/
def Below (dir path : List Char) : Prop :=
  (resolve sep dir).1 = (resolve sep path).1 ∧ (resolve sep dir).2 <+: (resolve sep path).2

instance (dir path : List Char) : Decidable (Below sep dir path) :=
  inferInstanceAs (Decidable (_ ∧ _))

variable {sep} {a b : List Char} {c : Char}

lemma resolve_append_cons (hc : sep c = true) (a b : List Char) :
    resolve sep (a ++ c :: b) =
      ((resolve sep a).1, (b.splitOnP sep).foldl walk (resolve sep a).2) := by
  obtain ⟨root, pieces, ha⟩ := List.exists_cons_of_ne_nil (List.splitOnP_ne_nil sep a)
  simp [resolve, List.splitOnP_append_cons a b hc, ha]

/-- The root of a path does not depend on what follows its first separator. -/
lemma root_append (hc : c ∈ a) (hsep : sep c = true) (b : List Char) :
    (resolve sep (a ++ b)).1 = (resolve sep a).1 := by
  obtain ⟨x, y, rfl⟩ := List.append_of_mem hc
  rw [List.append_assoc, List.cons_append, resolve_append_cons hsep, resolve_append_cons hsep]

/-- Steps down lead below. -/
lemma prefix_foldl_walk {names pieces : List (List Char)} (h : ['.', '.'] ∉ pieces) :
    names <+: pieces.foldl walk names := by
  induction pieces generalizing names with
  | nil => exact List.prefix_rfl
  | cons piece pieces ih =>
    rw [List.mem_cons, not_or] at h
    refine List.IsPrefix.trans ?_ (ih h.2)
    rw [walk, if_neg (Ne.symm h.1)]
    split_ifs
    · exact List.prefix_rfl
    · exact List.prefix_append _ _

/-- A path that goes on after a separator without a step up is below. -/
lemma below_append_cons (hc : sep c = true) (h : ['.', '.'] ∉ b.splitOnP sep) :
    Below sep a (a ++ c :: b) := by
  rw [Below, resolve_append_cons hc]
  exact ⟨rfl, prefix_foldl_walk h⟩

/-- A step up. -/
lemma resolve_append_dotdot (hc : sep c = true) (hdot : sep '.' = false) (a : List Char) :
    resolve sep (a ++ [c, '.', '.']) = ((resolve sep a).1, (resolve sep a).2.dropLast) := by
  rw [resolve_append_cons hc, List.splitOnP_eq_singleton (by simp [hdot])]
  rfl

/-- Enough steps up lead to the root. -/
lemma exists_climb (hc : sep c = true) (hdot : sep '.' = false) (a : List Char) :
    ∃ rest, resolve sep (a ++ rest) = ((resolve sep a).1, []) ∧
      (rest = [] ∨ ∃ steps, rest = c :: steps) := by
  induction hn : (resolve sep a).2.length generalizing a with
  | zero => exact ⟨[], by rw [List.append_nil, ← List.length_eq_zero_iff.mp hn], .inl rfl⟩
  | succ n ih =>
    have hup := resolve_append_dotdot hc hdot a
    obtain ⟨rest, hrest, -⟩ := ih (a ++ [c, '.', '.']) (by rw [hup, List.length_dropLast, hn]; rfl)
    rw [hup, List.append_assoc] at hrest
    exact ⟨[c, '.', '.'] ++ rest, hrest, .inr ⟨_, rfl⟩⟩

end LexicalPath
