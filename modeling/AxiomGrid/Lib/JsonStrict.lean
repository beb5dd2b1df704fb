import AxiomGrid.Lib.JsonSorted

/-!
# Strict reading of JSON

`json.loads` with hooks that refuse a key that is written twice, a float that is not finite and the
constants `NaN` and `Infinity`. What is read has dictionaries for objects and finite floats, so it is
read back from any readable text of it. Writing with `allow_nan=False` refuses the same floats, so
reading undoes writing up to the order of members.
-/

/-- `math.isfinite` on a float given by its `repr`. -/
def FloatRepr.isFinite (x : FloatRepr) : Bool :=
  x.text ≠ "NaN".toList ∧ x.text ≠ "Infinity".toList ∧ x.text ≠ "-Infinity".toList

namespace Json

mutual

/-- No object has a key twice, and every float is finite. -/
def isStrict : Json → Bool
  | float x => x.isFinite
  | arr xs => isStrictItems xs
  | obj kvs => (kvs.map Prod.fst).Nodup && isStrictMembers kvs
  | _ => true

def isStrictItems : List Json → Bool
  | [] => true
  | x :: xs => isStrict x && isStrictItems xs

def isStrictMembers : List (String × Json) → Bool
  | [] => true
  | (_, v) :: kvs => isStrict v && isStrictMembers kvs

end

/-- `json.loads(text, object_pairs_hook, parse_float, parse_constant)` with hooks that raise a
`ValueError`. -/
def loadsStrict (readFloat : List Char → FloatRepr) (text : String) : Option Json :=
  (parse ⟨readFloat, false⟩ text.toList).filter isStrict

/-- A strict value is read back from its text. -/
theorem loadsStrict_dumpsWith {style : Style} {readFloat : List Char → FloatRepr}
    (hstyle : style.Readable) {v : Json} (hv : ReadsBack ⟨readFloat, false⟩ v)
    (hstrict : isStrict v = true) : loadsStrict readFloat (dumpsWith style v) = some v := by
  rw [loadsStrict, dumpsWith, String.toList_ofList, parse_renderWith hstyle hv, Option.filter,
    if_pos hstrict]

lemma isStrictItems_iff {xs : List Json} :
    isStrictItems xs = true ↔ ∀ x ∈ xs, isStrict x = true := by
  induction xs with
  | nil => simp [isStrictItems]
  | cons x xs ih => rw [isStrictItems, Bool.and_eq_true, ih, List.forall_mem_cons]

/-- A float that is read without the constants is finite. -/
lemma isFinite_of_readBack {readFloat : List Char → FloatRepr} {x : FloatRepr}
    (h : ReadBack ⟨readFloat, false⟩ x) : x.isFinite = true := by
  obtain ⟨p, hp, rfl⟩ | ⟨t, hscan, -, -⟩ := h
  · simp [keywords] at hp
  · have hne {s : String} (hs : scanNumber s.toList = none) : x.text ≠ s.toList := by
      intro hx
      rw [hx, hs] at hscan
      cases hscan
    simp only [FloatRepr.isFinite, decide_eq_true_eq]
    exact ⟨hne rfl, hne rfl, hne rfl⟩

lemma isStrictMembers_iff {kvs : List (String × Json)} :
    isStrictMembers kvs = true ↔ ∀ p ∈ kvs, isStrict p.2 = true := by
  induction kvs with
  | nil => simp [isStrictMembers]
  | cons p kvs ih =>
    obtain ⟨k, v⟩ := p
    rw [isStrictMembers, Bool.and_eq_true, ih, List.forall_mem_cons]

lemma membersReadBack_iff {r : Reader} {kvs : List (String × Json)} :
    MembersReadBack r kvs ↔ ∀ p ∈ kvs, ReadsBack r p.2 := by
  induction kvs with
  | nil => simp [MembersReadBack]
  | cons p kvs ih =>
    obtain ⟨k, v⟩ := p
    rw [MembersReadBack, ih, List.forall_mem_cons]

/-! ### Writing with sorted keys -/

mutual

/-- Every float of the value is finite. -/
def floatsFinite : Json → Bool
  | float x => x.isFinite
  | arr xs => floatsFiniteItems xs
  | obj kvs => floatsFiniteMembers kvs
  | _ => true

def floatsFiniteItems : List Json → Bool
  | [] => true
  | x :: xs => floatsFinite x && floatsFiniteItems xs

def floatsFiniteMembers : List (String × Json) → Bool
  | [] => true
  | (_, v) :: kvs => floatsFinite v && floatsFiniteMembers kvs

end

/-- `json.dumps(v, sort_keys=True, separators=(",", ":"), ensure_ascii=False, allow_nan=False)`. -/
def dumpsStrict (v : Json) : Except String String :=
  if floatsFinite v then .ok (dumpsWith .compactUnicode (sorted v))
  else .error "Out of range float values are not JSON compliant"

variable {readFloat : List Char → FloatRepr}

mutual

/-- Sorting does not touch the floats. -/
lemma readsBack_sorted {r : Reader} (v : Json) (h : ReadsBack r v) : ReadsBack r (sorted v) := by
  match v with
  | null | bool _ | int _ | str _ => trivial
  | float _ => exact h
  | arr xs => exact itemsReadBack_sortedItems xs h
  | obj kvs =>
    have hmembers := membersReadBack_sortedMembers kvs h
    rw [membersReadBack_iff] at hmembers
    refine membersReadBack_iff.mpr ?_
    intro p hp
    exact hmembers p (mem_sortKeys hp)

lemma itemsReadBack_sortedItems {r : Reader} (xs : List Json) (h : ItemsReadBack r xs) :
    ItemsReadBack r (sortedItems xs) := by
  match xs with
  | [] => trivial
  | x :: xs => exact ⟨readsBack_sorted x h.1, itemsReadBack_sortedItems xs h.2⟩

lemma membersReadBack_sortedMembers {r : Reader} (kvs : List (String × Json))
    (h : MembersReadBack r kvs) : MembersReadBack r (sortedMembers kvs) := by
  match kvs with
  | [] => trivial
  | (_, v) :: kvs => exact ⟨readsBack_sorted v h.1, membersReadBack_sortedMembers kvs h.2⟩

end

mutual

lemma floatsFinite_of_readsBack (v : Json) (h : ReadsBack ⟨readFloat, false⟩ v) :
    floatsFinite v = true := by
  match v with
  | null | bool _ | int _ | str _ => rfl
  | float _ => exact isFinite_of_readBack h
  | arr xs => exact floatsFiniteItems_of_readBack xs h
  | obj kvs => exact floatsFiniteMembers_of_readBack kvs h

lemma floatsFiniteItems_of_readBack (xs : List Json) (h : ItemsReadBack ⟨readFloat, false⟩ xs) :
    floatsFiniteItems xs = true := by
  match xs with
  | [] => rfl
  | x :: xs =>
    rw [floatsFiniteItems, floatsFinite_of_readsBack x h.1, floatsFiniteItems_of_readBack xs h.2]
    rfl

lemma floatsFiniteMembers_of_readBack (kvs : List (String × Json))
    (h : MembersReadBack ⟨readFloat, false⟩ kvs) : floatsFiniteMembers kvs = true := by
  match kvs with
  | [] => rfl
  | (_, v) :: kvs =>
    rw [floatsFiniteMembers, floatsFinite_of_readsBack v h.1, floatsFiniteMembers_of_readBack kvs h.2]
    rfl

end

mutual

/-- A dictionary with finite floats is strict, in sorted order as well. -/
lemma isStrict_sorted (v : Json) (h : ReadsBack ⟨readFloat, false⟩ v) (hkeys : DistinctKeys v) :
    isStrict (sorted v) = true := by
  match v with
  | null | bool _ | int _ | str _ => rfl
  | float _ => exact isFinite_of_readBack h
  | arr xs => exact isStrictItems_sortedItems xs h hkeys
  | obj kvs =>
    have hmembers := isStrictMembers_sortedMembers kvs h hkeys.2
    rw [isStrictMembers_iff] at hmembers
    rw [sorted, isStrict, Bool.and_eq_true, decide_eq_true_eq]
    constructor
    · rw [((sortKeys_perm _).map Prod.fst).nodup_iff, sortedMembers_eq_map, List.map_map]
      exact hkeys.1
    · refine isStrictMembers_iff.mpr ?_
      intro p hp
      exact hmembers p (mem_sortKeys hp)

lemma isStrictItems_sortedItems (xs : List Json) (h : ItemsReadBack ⟨readFloat, false⟩ xs)
    (hkeys : DistinctKeysItems xs) : isStrictItems (sortedItems xs) = true := by
  match xs with
  | [] => rfl
  | x :: xs =>
    rw [sortedItems, isStrictItems, isStrict_sorted x h.1 hkeys.1, isStrictItems_sortedItems xs h.2 hkeys.2]
    rfl

lemma isStrictMembers_sortedMembers (kvs : List (String × Json))
    (h : MembersReadBack ⟨readFloat, false⟩ kvs) (hkeys : DistinctKeysMembers kvs) :
    isStrictMembers (sortedMembers kvs) = true := by
  match kvs with
  | [] => rfl
  | (_, v) :: kvs =>
    rw [sortedMembers, isStrictMembers, isStrict_sorted v h.1 hkeys.1,
      isStrictMembers_sortedMembers kvs h.2 hkeys.2]
    rfl

end

/-- A dictionary that is written strictly is read back strictly, with its members in sorted order. -/
theorem loadsStrict_dumpsStrict {v : Json} (h : ReadsBack ⟨readFloat, false⟩ v) (hkeys : DistinctKeys v) :
    ∃ text, dumpsStrict v = .ok text ∧ loadsStrict readFloat text = some (sorted v) := by
  refine ⟨dumpsWith .compactUnicode (sorted v), ?_, ?_⟩
  · rw [dumpsStrict, if_pos (floatsFinite_of_readsBack v h)]
  · exact loadsStrict_dumpsWith Style.readable_compactUnicode (readsBack_sorted v h)
      (isStrict_sorted v h hkeys)

end Json
