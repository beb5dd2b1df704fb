import AxiomGrid.Lib.JsonSorted

/-!
# Python values through JSON

Dictionaries, lists, tuples and scalars, as `json.dumps` accepts them. A tuple is written as an array
and a key that is no string as a string, so that `json.loads` gives back exactly the values without
these.
-/

/-- The keys that `json.dumps` accepts. -/
inductive PyKey where
  | none
  | bool (b : Bool)
  | int (n : ℤ)
  | float (x : FloatRepr)
  | str (s : String)
  deriving DecidableEq

/-- A value; a dictionary is the list of its items. -/
inductive PyValue where
  | none
  | bool (b : Bool)
  | int (n : ℤ)
  | float (x : FloatRepr)
  | str (s : String)
  | list (xs : List PyValue)
  | tuple (xs : List PyValue)
  | dict (kvs : List (PyKey × PyValue))

/-- The text of a key. -/
def PyKey.text : PyKey → String
  | .none => "null"
  | .bool b => if b then "true" else "false"
  | .int n => toString n
  | .float x => String.ofList x.text
  | .str s => s

namespace PyValue

mutual

/-- The JSON value that is written. -/
def toJson : PyValue → Json
  | .none => .null
  | .bool b => .bool b
  | .int n => .int n
  | .float x => .float x
  | .str s => .str s
  | .list xs | .tuple xs => .arr (toJsonItems xs)
  | .dict kvs => .obj (toJsonMembers kvs)

def toJsonItems : List PyValue → List Json
  | [] => []
  | x :: xs => toJson x :: toJsonItems xs

def toJsonMembers : List (PyKey × PyValue) → List (String × Json)
  | [] => []
  | (k, v) :: kvs => (k.text, toJson v) :: toJsonMembers kvs

end

mutual

/-- The value that `json.loads` builds. -/
def ofJson : Json → PyValue
  | .null => .none
  | .bool b => .bool b
  | .int n => .int n
  | .float x => .float x
  | .str s => .str s
  | .arr xs => .list (ofJsonItems xs)
  | .obj kvs => .dict (ofJsonMembers kvs)

def ofJsonItems : List Json → List PyValue
  | [] => []
  | x :: xs => ofJson x :: ofJsonItems xs

def ofJsonMembers : List (String × Json) → List (PyKey × PyValue)
  | [] => []
  | (k, v) :: kvs => (.str k, ofJson v) :: ofJsonMembers kvs

end

mutual

/-- No tuples, and the keys are strings. -/
def Plain : PyValue → Prop
  | .list xs => PlainItems xs
  | .tuple _ => False
  | .dict kvs => PlainMembers kvs
  | _ => True

def PlainItems : List PyValue → Prop
  | [] => True
  | x :: xs => Plain x ∧ PlainItems xs

def PlainMembers : List (PyKey × PyValue) → Prop
  | [] => True
  | (k, v) :: kvs => (∃ s, k = .str s) ∧ Plain v ∧ PlainMembers kvs

end

mutual

/-- The keys of each dictionary differ. -/
def WellFormed : PyValue → Prop
  | .list xs | .tuple xs => WellFormedItems xs
  | .dict kvs => (kvs.map Prod.fst).Nodup ∧ WellFormedMembers kvs
  | _ => True

def WellFormedItems : List PyValue → Prop
  | [] => True
  | x :: xs => WellFormed x ∧ WellFormedItems xs

def WellFormedMembers : List (PyKey × PyValue) → Prop
  | [] => True
  | (_, v) :: kvs => WellFormed v ∧ WellFormedMembers kvs

end

mutual

lemma plain_ofJson (v : Json) : Plain (ofJson v) := by
  match v with
  | .null | .bool _ | .int _ | .float _ | .str _ => trivial
  | .arr xs => exact plainItems_ofJsonItems xs
  | .obj kvs => exact plainMembers_ofJsonMembers kvs

lemma plainItems_ofJsonItems (xs : List Json) : PlainItems (ofJsonItems xs) := by
  match xs with
  | [] => trivial
  | x :: xs => exact ⟨plain_ofJson x, plainItems_ofJsonItems xs⟩

lemma plainMembers_ofJsonMembers (kvs : List (String × Json)) :
    PlainMembers (ofJsonMembers kvs) := by
  match kvs with
  | [] => trivial
  | (k, v) :: kvs => exact ⟨⟨k, rfl⟩, plain_ofJson v, plainMembers_ofJsonMembers kvs⟩

end

mutual

lemma ofJson_toJson (v : PyValue) (h : Plain v) : ofJson (toJson v) = v := by
  match v with
  | .none | .bool _ | .int _ | .float _ | .str _ => rfl
  | .list xs => rw [toJson, ofJson, ofJsonItems_toJsonItems xs h]
  | .tuple _ => cases h
  | .dict kvs => rw [toJson, ofJson, ofJsonMembers_toJsonMembers kvs h]

lemma ofJsonItems_toJsonItems (xs : List PyValue) (h : PlainItems xs) :
    ofJsonItems (toJsonItems xs) = xs := by
  match xs with
  | [] => rfl
  | x :: xs => rw [toJsonItems, ofJsonItems, ofJson_toJson x h.1, ofJsonItems_toJsonItems xs h.2]

lemma ofJsonMembers_toJsonMembers (kvs : List (PyKey × PyValue)) (h : PlainMembers kvs) :
    ofJsonMembers (toJsonMembers kvs) = kvs := by
  match kvs with
  | [] => rfl
  | (k, v) :: kvs =>
    obtain ⟨⟨s, rfl⟩, hv, hkvs⟩ := h
    rw [toJsonMembers, ofJsonMembers, ofJson_toJson v hv, ofJsonMembers_toJsonMembers kvs hkvs]
    rfl

end

lemma keys_toJsonMembers {kvs : List (PyKey × PyValue)} (h : PlainMembers kvs) :
    ((toJsonMembers kvs).map Prod.fst).map PyKey.str = kvs.map Prod.fst := by
  induction kvs with
  | nil => rfl
  | cons p kvs ih =>
    obtain ⟨k, v⟩ := p
    obtain ⟨⟨s, rfl⟩, -, hkvs⟩ := h
    rw [toJsonMembers, List.map_cons, List.map_cons, List.map_cons, ih hkvs]
    rfl

mutual

lemma distinctKeys_toJson (v : PyValue) (h : Plain v) (hwf : WellFormed v) :
    Json.DistinctKeys (toJson v) := by
  match v with
  | .none | .bool _ | .int _ | .float _ | .str _ => trivial
  | .list xs => exact distinctKeysItems_toJsonItems xs h hwf
  | .tuple _ => cases h
  | .dict kvs =>
    refine ⟨List.Nodup.of_map PyKey.str ?_, distinctKeysMembers_toJsonMembers kvs h hwf.2⟩
    rw [keys_toJsonMembers h]
    exact hwf.1

lemma distinctKeysItems_toJsonItems (xs : List PyValue) (h : PlainItems xs)
    (hwf : WellFormedItems xs) : Json.DistinctKeysItems (toJsonItems xs) := by
  match xs with
  | [] => trivial
  | x :: xs =>
    exact ⟨distinctKeys_toJson x h.1 hwf.1, distinctKeysItems_toJsonItems xs h.2 hwf.2⟩

lemma distinctKeysMembers_toJsonMembers (kvs : List (PyKey × PyValue)) (h : PlainMembers kvs)
    (hwf : WellFormedMembers kvs) : Json.DistinctKeysMembers (toJsonMembers kvs) := by
  match kvs with
  | [] => trivial
  | (k, v) :: kvs =>
    exact ⟨distinctKeys_toJson v h.2.1 hwf.1, distinctKeysMembers_toJsonMembers kvs h.2.2 hwf.2⟩

end

lemma keys_ofJsonMembers (kvs : List (String × Json)) :
    (ofJsonMembers kvs).map Prod.fst = (kvs.map Prod.fst).map PyKey.str := by
  induction kvs with
  | nil => rfl
  | cons p kvs ih =>
    rw [ofJsonMembers, List.map_cons, List.map_cons, List.map_cons, ih]

mutual

lemma wellFormed_ofJson (v : Json) (h : Json.DistinctKeys v) : WellFormed (ofJson v) := by
  match v with
  | .null | .bool _ | .int _ | .float _ | .str _ => trivial
  | .arr xs => exact wellFormedItems_ofJsonItems xs h
  | .obj kvs =>
    refine ⟨?_, wellFormedMembers_ofJsonMembers kvs h.2⟩
    rw [keys_ofJsonMembers]
    exact h.1.map fun a b hab => PyKey.str.inj hab

lemma wellFormedItems_ofJsonItems (xs : List Json) (h : Json.DistinctKeysItems xs) :
    WellFormedItems (ofJsonItems xs) := by
  match xs with
  | [] => trivial
  | x :: xs => exact ⟨wellFormed_ofJson x h.1, wellFormedItems_ofJsonItems xs h.2⟩

lemma wellFormedMembers_ofJsonMembers (kvs : List (String × Json))
    (h : Json.DistinctKeysMembers kvs) : WellFormedMembers (ofJsonMembers kvs) := by
  match kvs with
  | [] => trivial
  | (_, v) :: kvs => exact ⟨wellFormed_ofJson v h.1, wellFormedMembers_ofJsonMembers kvs h.2⟩

end

/-- The dictionary of an object. -/
lemma wellFormed_dict {kvs : List (String × Json)} (h : Json.DistinctKeys (.obj kvs)) :
    WellFormed (.dict (ofJsonMembers kvs)) := wellFormed_ofJson (.obj kvs) h

/-- `json.loads(json.dumps(v))` is `v` if and only if `v` has no tuples and no other keys than strings. -/
theorem ofJson_loads_iff {style : Json.Style} (hstyle : style.Readable)
    {readFloat : List Char → FloatRepr} {v : PyValue}
    (hread : Json.ReadsBack ⟨readFloat, true⟩ (toJson v)) (hwf : WellFormed v) :
    (Json.loads readFloat (Json.dumpsWith style (toJson v))).map ofJson = some v ↔ Plain v := by
  constructor
  · intro h
    obtain ⟨j, -, rfl⟩ := Option.map_eq_some_iff.mp h
    exact plain_ofJson j
  · intro h
    rw [Json.loads_dumpsWith hstyle hread (distinctKeys_toJson v h hwf), Option.map_some,
      ofJson_toJson v h]

end PyValue
