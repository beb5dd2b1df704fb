import Mathlib.Data.List.Infix
import Mathlib.Tactic.Common

/-!
# Tables with uniqueness constraints

The rows of a table in the order in which they were inserted. Two rows clash when a uniqueness constraint
keeps one from being inserted beside the other; a row that clashes with one that is there is not inserted,
whether the statement fails or ignores it.
-/

namespace UniqueRows

variable {α κ : Type*} (clash : α → α → Bool)

/-- `INSERT`, which leaves a table with a row that clashes as it is. -/
def insert (rows : List α) (row : α) : List α :=
  if rows.any (clash row) then rows else rows ++ [row]

/-- The rows are inserted in turn. -/
def insertAll (rows new : List α) : List α := new.foldl (insert clash) rows

/-- No row clashes with one before it. -/
def Distinct (rows : List α) : Prop := rows.Pairwise fun r row => clash row r = false

/-- Rows with one key clash. Where the key is `NULL` there is none. -/
def byKey [DecidableEq κ] (key : α → Option κ) (row r : α) : Bool :=
  (key row).isSome && key r = key row

variable {clash} {rows new : List α} {row : α}

@[simp] lemma insertAll_nil (rows : List α) : insertAll clash rows [] = rows := rfl

@[simp] lemma insertAll_cons (rows : List α) (row : α) (new : List α) :
    insertAll clash rows (row :: new) = insertAll clash (insert clash rows row) new := rfl

lemma insert_of_clash (h : ∃ r ∈ rows, clash row r = true) : insert clash rows row = rows := by
  rw [insert, if_pos (List.any_eq_true.mpr h)]

lemma insert_of_new (h : ∀ r ∈ rows, clash row r = false) : insert clash rows row = rows ++ [row] := by
  rw [insert, if_neg]
  rw [List.any_eq_true]
  rintro ⟨r, hr, hclash⟩
  rw [h r hr] at hclash
  cases hclash

variable (clash) in
/-- A row clashes with one of the table, or with none. -/
lemma clash_cases (rows : List α) (row : α) :
    (∃ r ∈ rows, clash row r = true) ∨ ∀ r ∈ rows, clash row r = false := by
  by_cases h : ∃ r ∈ rows, clash row r = true
  · exact .inl h
  · refine .inr fun r hr => Bool.eq_false_iff.mpr fun hclash => h ⟨r, hr, hclash⟩

variable (clash) in
lemma exists_insert (rows : List α) (row : α) :
    ∃ added, insert clash rows row = rows ++ added ∧ added.Sublist [row] := by
  obtain h | h := clash_cases clash rows row
  · exact ⟨[], by rw [insert_of_clash h, List.append_nil], List.nil_sublist _⟩
  · exact ⟨[row], insert_of_new h, .refl _⟩

variable (clash) in
/-- The rows that are there stay as they are, and some of the new ones follow them. -/
lemma exists_insertAll (rows new : List α) :
    ∃ added, insertAll clash rows new = rows ++ added ∧ added.Sublist new := by
  induction new generalizing rows with
  | nil => exact ⟨[], (List.append_nil rows).symm, .slnil⟩
  | cons row new ih =>
    obtain ⟨first, hfirst, hsub⟩ := exists_insert clash rows row
    obtain ⟨rest, hrest, hsub'⟩ := ih (insert clash rows row)
    refine ⟨first ++ rest, ?_, hsub.append hsub'⟩
    rw [insertAll_cons, hrest, hfirst, List.append_assoc]

variable (clash) in
lemma prefix_insertAll (rows new : List α) : rows <+: insertAll clash rows new := by
  obtain ⟨added, hadded, -⟩ := exists_insertAll clash rows new
  exact ⟨added, hadded.symm⟩

lemma mem_insertAll (h : row ∈ insertAll clash rows new) : row ∈ rows ∨ row ∈ new := by
  obtain ⟨added, hadded, hsub⟩ := exists_insertAll clash rows new
  rw [hadded, List.mem_append] at h
  exact h.imp_right fun h => hsub.subset h

/-- A row that is inserted is there then, or one that it clashes with. -/
lemma exists_of_mem_new (h : row ∈ new) :
    ∃ r ∈ insertAll clash rows new, r = row ∨ clash row r = true := by
  induction new generalizing rows with
  | nil => cases h
  | cons first new ih =>
    obtain rfl | h := List.mem_cons.mp h
    · have hkept := (prefix_insertAll clash (insert clash rows row) new).subset
      obtain ⟨r, hr, hclash⟩ | hnew := clash_cases clash rows row
      · obtain ⟨added, hadded, -⟩ := exists_insert clash rows row
        exact ⟨r, hkept (by rw [hadded]; exact List.mem_append_left added hr), .inr hclash⟩
      · refine ⟨row, hkept ?_, .inl rfl⟩
        rw [insert_of_new hnew]
        exact List.mem_append_right rows (List.mem_singleton_self row)
    · exact ih h

/-- Rows that clash with none are appended. -/
lemma insertAll_of_distinct (hold : ∀ row ∈ new, ∀ r ∈ rows, clash row r = false)
    (hnew : Distinct clash new) : insertAll clash rows new = rows ++ new := by
  induction new generalizing rows with
  | nil => rw [insertAll_nil, List.append_nil]
  | cons row new ih =>
    rw [List.forall_mem_cons] at hold
    obtain ⟨hfirst, hnew⟩ := List.pairwise_cons.mp hnew
    rw [insertAll_cons, insert_of_new hold.1, ih _ hnew, List.append_assoc, List.singleton_append]
    intro row' hrow' r hr
    rw [List.mem_append, List.mem_singleton] at hr
    obtain hr | rfl := hr
    · exact hold.2 row' hrow' r hr
    · exact hfirst row' hrow'

/-- In an empty table all rows are inserted, unless some of them clash. -/
lemma insertAll_nil_of_distinct (h : Distinct clash new) : insertAll clash [] new = new := by
  rw [insertAll_of_distinct (by simp) h, List.nil_append]

lemma Distinct.insert (h : Distinct clash rows) (row : α) : Distinct clash (insert clash rows row) := by
  obtain hclash | hnew := clash_cases clash rows row
  · rwa [insert_of_clash hclash]
  · rw [insert_of_new hnew]
    refine List.pairwise_append.mpr ⟨h, List.pairwise_singleton _ row, ?_⟩
    intro r hr row' hrow'
    obtain rfl := List.mem_singleton.mp hrow'
    exact hnew r hr

/-- Inserting keeps to the constraints. -/
lemma Distinct.insertAll (h : Distinct clash rows) (new : List α) :
    Distinct clash (insertAll clash rows new) := by
  induction new generalizing rows with
  | nil => exact h
  | cons row new ih => exact ih (h.insert row)

/-- Nothing is inserted exactly if each row clashes with one of the table. -/
lemma insertAll_eq_self_iff :
    insertAll clash rows new = rows ↔ ∀ row ∈ new, ∃ r ∈ rows, clash row r = true := by
  induction new with
  | nil => simp
  | cons row new ih =>
    rw [List.forall_mem_cons, insertAll_cons]
    constructor
    · intro h
      obtain hclash | hnew := clash_cases clash rows row
      · rw [insert_of_clash hclash] at h
        exact ⟨hclash, ih.mp h⟩
      · -- a row that is appended stays
        have hlength := (prefix_insertAll clash (insert clash rows row) new).length_le
        rw [h, insert_of_new hnew, List.length_append, List.length_singleton] at hlength
        omega
    · rintro ⟨hclash, hall⟩
      rw [insert_of_clash hclash]
      exact ih.mpr hall

/-- All rows are inserted exactly if none of them clashes. -/
lemma length_insertAll_eq_iff (h : Distinct clash rows) :
    (insertAll clash rows new).length = rows.length + new.length ↔ Distinct clash (rows ++ new) := by
  constructor
  · intro hlength
    obtain ⟨added, hadded, hsub⟩ := exists_insertAll clash rows new
    rw [hadded, List.length_append, Nat.add_left_cancel_iff] at hlength
    rw [← hsub.eq_of_length hlength, ← hadded]
    exact h.insertAll new
  · intro hall
    obtain ⟨-, hnew, hold⟩ := List.pairwise_append.mp hall
    rw [insertAll_of_distinct (fun row hrow r hr => hold r hr row hrow) hnew, List.length_append]

/-! ### Keys -/

section

variable [DecidableEq κ] {key : α → Option κ}

lemma byKey_iff {row r : α} : byKey key row r = true ↔ ∃ k, key row = some k ∧ key r = some k := by
  rw [byKey, Bool.and_eq_true, decide_eq_true_eq, Option.isSome_iff_exists]
  constructor
  · rintro ⟨⟨k, hk⟩, heq⟩
    exact ⟨k, hk, heq.trans hk⟩
  · rintro ⟨k, hk, hk'⟩
    exact ⟨⟨k, hk⟩, hk'.trans hk.symm⟩

/-- No row clashes with one before it if no key comes twice. -/
lemma distinct_byKey_iff : Distinct (byKey key) rows ↔ (rows.filterMap key).Nodup := by
  rw [List.Nodup, List.pairwise_filterMap, Distinct]
  refine List.pairwise_iff_forall_sublist.trans (Iff.trans ?_ List.pairwise_iff_forall_sublist.symm)
  refine forall_congr' fun r => forall_congr' fun row => imp_congr_right fun _ => ?_
  rw [Bool.eq_false_iff, Ne, byKey_iff]
  constructor
  · rintro hne k hk k' hk' rfl
    exact hne ⟨k, hk', hk⟩
  · rintro hne ⟨k, hk, hk'⟩
    exact hne k hk' k hk rfl

/-- There is one row with a key. -/
lemma Distinct.eq_of_key (h : Distinct (byKey key) rows) {r r' : α} {k : κ} (hr : r ∈ rows)
    (hr' : r' ∈ rows) (hk : key r = some k) (hk' : key r' = some k) : r = r' := by
  induction rows with
  | nil => cases hr
  | cons first rows ih =>
    obtain ⟨hfirst, hrest⟩ := List.pairwise_cons.mp h
    have hclash : ∀ {x y : α}, key x = some k → key y = some k → byKey key x y = true :=
      fun hx hy => byKey_iff.mpr ⟨k, hx, hy⟩
    obtain rfl | hmem := List.mem_cons.mp hr
    · obtain rfl | hmem' := List.mem_cons.mp hr'
      · rfl
      · exact absurd (hclash hk' hk) (by rw [hfirst r' hmem']; exact Bool.false_ne_true)
    · obtain rfl | hmem' := List.mem_cons.mp hr'
      · exact absurd (hclash hk hk') (by rw [hfirst r hmem]; exact Bool.false_ne_true)
      · exact ih hrest hmem hmem'

end

end UniqueRows
