import Mathlib.Data.List.Induction
import Mathlib.Order.Nat
import Mathlib.Tactic.Common

/-!
# The edit distance table

The unit-cost edit distance of two lists by dynamic programming, one column for each element of the
second list. `editColumn a b i` is the distance between the first `i` elements of `a` and all of
`b`. Neighbouring cells of the table differ by at most one, which is what bit-parallel algorithms
rely on.
-/

variable {α : Type*} [DecidableEq α]

/-- The next column: `eq i` says whether the `i`-th element matches the new one. -/
def editNext (eq : ℕ → Bool) (prev : ℕ → ℕ) : ℕ → ℕ
  | 0 => prev 0 + 1
  | i + 1 => min (min (editNext eq prev i + 1) (prev (i + 1) + 1)) (prev i + if eq i then 0 else 1)

/-- The last column of the table of `a` and `b`. -/
def editColumn (a b : List α) : ℕ → ℕ :=
  b.foldl (fun prev c => editNext (fun i => a[i]? = some c) prev) id

/-- The unit-cost edit distance. -/
def editDistance (a b : List α) : ℕ := editColumn a b a.length

/-! ### Neighbouring cells -/

/-- Neighbours in a column differ by at most one. -/
def Smooth (col : ℕ → ℕ) : Prop := ∀ i, col (i + 1) ≤ col i + 1 ∧ col i ≤ col (i + 1) + 1

section

variable (eq : ℕ → Bool) {prev : ℕ → ℕ}

/-- Neighbours in a row differ by at most one. -/
lemma editNext_horizontal (h : Smooth prev) (i : ℕ) :
    editNext eq prev i ≤ prev i + 1 ∧ prev i ≤ editNext eq prev i + 1 := by
  induction i with
  | zero =>
    rw [editNext]
    omega
  | succ i ih =>
    have := h i
    rw [editNext]
    split <;> omega

/-- The cell after a cell and its lower neighbour, by whether it is reached along the diagonal. -/
lemma editNext_succ (h : Smooth prev) (i : ℕ) :
    editNext eq prev (i + 1) = if eq i = true ∨ prev (i + 1) + 1 = prev i ∨
      editNext eq prev i + 1 = prev i then prev i else prev i + 1 := by
  have := h i
  have := editNext_horizontal eq h i
  rw [editNext]
  cases eq i <;> simp only [Bool.false_eq_true, if_false, if_true, false_or, true_or] <;>
    (try split) <;> omega

/-- The next column is smooth again. -/
lemma editNext_smooth (h : Smooth prev) : Smooth (editNext eq prev) := by
  intro i
  have := editNext_horizontal eq h i
  rw [editNext_succ eq h i]
  split <;> omega

end

variable {a b : List α}

lemma editColumn_nil : editColumn a [] = id := rfl

lemma editColumn_concat (c : α) :
    editColumn a (b ++ [c]) = editNext (fun i => a[i]? = some c) (editColumn a b) := by
  simp [editColumn]

lemma editColumn_smooth (a b : List α) : Smooth (editColumn a b) := by
  induction b using List.reverseRecOn with
  | nil =>
    intro i
    simp only [editColumn_nil, id]
    omega
  | append_singleton b c ih =>
    rw [editColumn_concat]
    exact editNext_smooth _ ih

@[simp] lemma editColumn_zero (a b : List α) : editColumn a b 0 = b.length := by
  induction b using List.reverseRecOn with
  | nil => rfl
  | append_singleton b c ih => rw [editColumn_concat, editNext, ih, List.length_append, List.length_singleton]

/-! ### Bounds -/

lemma Smooth.le_add {col : ℕ → ℕ} (h : Smooth col) (i : ℕ) : col 0 ≤ col i + i := by
  induction i with
  | zero => exact le_rfl
  | succ i ih =>
    have := h i
    omega

/-- A column loses at most one for each element read. -/
lemma le_editColumn_add (a b : List α) (i : ℕ) : i ≤ editColumn a b i + b.length := by
  induction b using List.reverseRecOn with
  | nil => exact le_rfl
  | append_singleton b c ih =>
    have := editNext_horizontal (fun i => a[i]? = some c) (editColumn_smooth a b) i
    rw [editColumn_concat, List.length_append, List.length_singleton]
    omega

/-- The distance is at least the difference of the lengths. -/
theorem length_sub_le_editDistance (a b : List α) :
    a.length ≤ editDistance a b + b.length ∧ b.length ≤ editDistance a b + a.length := by
  have h := (editColumn_smooth a b).le_add a.length
  rw [editColumn_zero] at h
  exact ⟨le_editColumn_add a b a.length, h⟩

/-- Every element added to the second list costs at most one. -/
lemma editDistance_append_le (a b c : List α) :
    editDistance a (b ++ c) ≤ editDistance a b + c.length := by
  induction c using List.reverseRecOn with
  | nil => simp
  | append_singleton c x ih =>
    have := editNext_horizontal (fun i => a[i]? = some x) (editColumn_smooth a (b ++ c)) a.length
    rw [editDistance, ← List.append_assoc, editColumn_concat, List.length_append, List.length_singleton]
    simp only [editDistance] at ih ⊢
    omega

/-- A cell is zero only where the two prefixes are the same. -/
lemma take_eq_of_editColumn_eq_zero {i : ℕ} (hi : i ≤ a.length) (h : editColumn a b i = 0) :
    a.take i = b := by
  induction b using List.reverseRecOn generalizing i with
  | nil =>
    obtain rfl : i = 0 := h
    exact List.take_zero
  | append_singleton b c ih =>
    cases i with
    | zero => simp at h
    | succ i =>
      have hmin : editColumn a (b ++ [c]) (i + 1) = _ :=
        congrFun (editColumn_concat c) (i + 1)
      rw [hmin, editNext] at h
      simp only [decide_eq_true_eq] at h
      split at h
      · rename_i hc
        have hprefix := ih (by omega) (by omega : editColumn a b i = 0)
        rw [List.take_add_one, hc, hprefix]
        rfl
      · omega

theorem eq_of_editDistance_eq_zero (h : editDistance a b = 0) : a = b := by
  have := take_eq_of_editColumn_eq_zero le_rfl h
  rwa [List.take_length] at this

@[simp] theorem editDistance_self (a : List α) : editDistance a a = 0 := by
  -- along the diagonal every cell is zero
  have diagonal : ∀ i ≤ a.length, editColumn a (a.take i) i = 0 := by
    intro i hi
    induction i with
    | zero => rfl
    | succ i ih =>
      have hget : a[i]? = some (a.get ⟨i, hi⟩) := List.getElem?_eq_getElem hi
      rw [List.take_add_one, hget, Option.toList_some, editColumn_concat,
        editNext_succ _ (editColumn_smooth _ _), if_pos (.inl (by simp [hget])), ih (by omega)]
  have h := diagonal a.length le_rfl
  rwa [List.take_length] at h

lemma editDistance_nil_left (b : List α) : editDistance [] b = b.length := by
  rw [editDistance, List.length_nil, editColumn_zero]

lemma editDistance_nil_right (a : List α) : editDistance a [] = a.length := rfl

/-! ### Columns as lists -/

/-- The cells below `above`, from the cells of the previous column: `diag` is the cell to the left of
`above`, and the list goes on below it. -/
def fillColumn (c : α) : List α → ℕ → ℕ → List ℕ → List ℕ
  | x :: xs, above, diag, left :: prev =>
    let cell := min (min (above + 1) (left + 1)) (diag + if x = c then 0 else 1)
    cell :: fillColumn c xs cell left prev
  | _, _, _, _ => []

/-- The next column, from its top cell down. -/
def nextColumn (a : List α) (c : α) : List ℕ → List ℕ
  | [] => []
  | top :: prev => (top + 1) :: fillColumn c a (top + 1) top prev

/-- The last column of the table of `a` and `b`, as the list of its cells. -/
def lastColumn (a b : List α) : List ℕ :=
  b.foldl (fun prev c => nextColumn a c prev) (List.range (a.length + 1))

/-- Below row `i`, filling a column follows the recurrence. -/
lemma fillColumn_eq (c : α) (f : ℕ → ℕ) {i n : ℕ} (h : i + n = a.length) :
    fillColumn c (a.drop i) (editNext (fun i => a[i]? = some c) f i) (f i)
        ((List.range' (i + 1) n).map f) =
      (List.range' (i + 1) n).map (editNext (fun i => a[i]? = some c) f) := by
  induction n generalizing i with
  | zero => simp [fillColumn, List.drop_of_length_le (show a.length ≤ i by omega)]
  | succ n ih =>
    have hi : i < a.length := by omega
    rw [List.drop_eq_getElem_cons hi, List.range'_succ, List.map_cons, List.map_cons, fillColumn]
    have hcell : min (min (editNext (fun i => a[i]? = some c) f i + 1) (f (i + 1) + 1))
        (f i + if a[i] = c then 0 else 1) = editNext (fun i => a[i]? = some c) f (i + 1) := by
      simp [editNext, List.getElem?_eq_getElem hi]
    rw [hcell, ih (by omega)]

lemma nextColumn_eq (a : List α) (c : α) (f : ℕ → ℕ) :
    nextColumn a c ((List.range (a.length + 1)).map f) =
      (List.range (a.length + 1)).map (editNext (fun i => a[i]? = some c) f) := by
  have hfill := fillColumn_eq (a := a) c f (Nat.zero_add a.length)
  rw [List.drop_zero] at hfill
  rw [List.range_eq_range', List.range'_succ, List.map_cons, List.map_cons, nextColumn]
  exact congrArg (editNext (fun i => a[i]? = some c) f 0 :: ·) hfill

theorem lastColumn_eq (a b : List α) :
    lastColumn a b = (List.range (a.length + 1)).map (editColumn a b) := by
  induction b using List.reverseRecOn with
  | nil => simp [lastColumn, editColumn_nil]
  | append_singleton b c ih =>
    rw [editColumn_concat, ← nextColumn_eq, ← ih]
    simp [lastColumn]

/-- The table computes the edit distance in its last cell. -/
theorem getD_lastColumn (a b : List α) : (lastColumn a b).getD a.length 0 = editDistance a b := by
  simp [lastColumn_eq, editDistance]
