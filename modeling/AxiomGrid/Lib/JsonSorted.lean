import AxiomGrid.Lib.JsonParse
import Mathlib.Data.List.Induction
import Mathlib.Data.List.Perm.Basic

/-!
# Objects up to the order of their members

`Json.sorted` forgets in which order the members of an object stand. On dictionaries it forgets
nothing else: it keeps what each key leads to, and assigning to a key can be undone behind it.
-/

namespace Json

/-! ### Sorting by key -/

section

variable {α β : Type} {g : String × α → String × β}

lemma insertKey_map (hg : ∀ p, (g p).1 = p.1) (p : String × α) (qs : List (String × α)) :
    insertKey (g p) (qs.map g) = (insertKey p qs).map g := by
  induction qs with
  | nil => rfl
  | cons q qs ih =>
    rw [List.map_cons, insertKey, insertKey, hg, hg, ih]
    split_ifs <;> rfl

lemma sortKeys_concat (kvs : List (String × α)) (p : String × α) :
    sortKeys (kvs ++ [p]) = insertKey p (sortKeys kvs) := by
  simp [sortKeys]

/-- Sorting looks at the keys only. -/
lemma sortKeys_map (hg : ∀ p, (g p).1 = p.1) (kvs : List (String × α)) :
    sortKeys (kvs.map g) = (sortKeys kvs).map g := by
  induction kvs using List.reverseRecOn with
  | nil => rfl
  | append_singleton kvs p ih =>
    rw [List.map_append, List.map_singleton, sortKeys_concat, sortKeys_concat, ih, insertKey_map hg]

lemma insertKey_perm (p : String × α) (qs : List (String × α)) : (insertKey p qs).Perm (p :: qs) := by
  induction qs with
  | nil => exact .refl _
  | cons q qs ih =>
    rw [insertKey]
    split_ifs
    · exact .refl _
    · exact (ih.cons q).trans (.swap p q qs)

lemma sortKeys_perm (kvs : List (String × α)) : (sortKeys kvs).Perm kvs := by
  induction kvs using List.reverseRecOn with
  | nil => exact .refl _
  | append_singleton kvs p ih =>
    rw [sortKeys_concat]
    exact ((insertKey_perm p _).trans (ih.cons p)).trans (List.perm_append_singleton p kvs).symm

end

lemma sortedMembers_eq_map (kvs : List (String × Json)) :
    sortedMembers kvs = kvs.map fun p => (p.1, sorted p.2) := by
  induction kvs with
  | nil => rfl
  | cons p kvs ih =>
    obtain ⟨k, v⟩ := p
    rw [sortedMembers, ih, List.map_cons]

lemma sortedItems_eq_map (xs : List Json) : sortedItems xs = xs.map sorted := by
  induction xs with
  | nil => rfl
  | cons x xs ih => rw [sortedItems, ih, List.map_cons]

/-! ### Dictionaries -/

lemma mem_iff_lookup {kvs : List (String × Json)} (h : (kvs.map Prod.fst).Nodup) {k : String}
    {v : Json} : (k, v) ∈ kvs ↔ kvs.lookup k = some v := by
  induction kvs with
  | nil => simp
  | cons p kvs ih =>
    obtain ⟨l, w⟩ := p
    rw [List.map_cons, List.nodup_cons] at h
    rw [List.mem_cons, List.lookup_cons, beq_eq_decide, Prod.mk.injEq]
    by_cases hk : k = l
    · subst hk
      have hnot : (k, v) ∉ kvs := fun hmem => h.1 (List.mem_map.mpr ⟨_, hmem, rfl⟩)
      simp [hnot, eq_comm]
    · simp [hk, ih h.2]

/-- Replaces the value of the members under a key. -/
private def withValue (k : String) (v : Json) (p : String × Json) : String × Json :=
  if p.1 = k then (p.1, v) else p

private lemma withValue_fst (k : String) (v : Json) (p : String × Json) :
    (withValue k v p).1 = p.1 := by
  rw [withValue]
  split_ifs <;> rfl

private lemma setItem_eq_map {kvs : List (String × Json)} (h : (kvs.map Prod.fst).Nodup) {k : String}
    (hk : k ∈ kvs.map Prod.fst) (v : Json) : setItem kvs k v = kvs.map (withValue k v) := by
  induction kvs with
  | nil => cases hk
  | cons p kvs ih =>
    obtain ⟨l, w⟩ := p
    rw [List.map_cons, List.nodup_cons] at h
    rw [setItem, List.map_cons]
    split_ifs with hl
    · subst hl
      -- the other members have other keys
      have hrest : kvs.map (withValue l v) = kvs.map id := by
        apply List.map_congr_left
        intro p hp
        have hne : p.1 ≠ l := fun hp' => h.1 (List.mem_map.mpr ⟨p, hp, hp'⟩)
        rw [withValue, if_neg hne, id]
      rw [hrest, List.map_id, withValue, if_pos rfl]
    · rw [withValue, if_neg hl, ih h.2]
      exact (List.mem_cons.mp hk).resolve_left (Ne.symm hl)

/-- The sorted form behind an assignment to a key that is there. -/
private lemma sorted_setItem {kvs : List (String × Json)} (h : (kvs.map Prod.fst).Nodup) {k : String}
    (hk : k ∈ kvs.map Prod.fst) (v : Json) :
    sorted (.obj (setItem kvs k v)) =
      .obj ((sortKeys (sortedMembers kvs)).map (withValue k (sorted v))) := by
  rw [sorted, setItem_eq_map h hk, sortedMembers_eq_map, sortedMembers_eq_map, List.map_map,
    ← sortKeys_map (withValue_fst k (sorted v)), List.map_map]
  congr 3
  funext p
  simp only [Function.comp, withValue]
  split_ifs <;> rfl

lemma setItem_setItem (kvs : List (String × Json)) (k : String) {v : Json} (w : Json)
    (h : kvs.lookup k = some v) : setItem (setItem kvs k w) k v = kvs := by
  induction kvs with
  | nil => cases h
  | cons p kvs ih =>
    obtain ⟨l, u⟩ := p
    rw [setItem]
    split_ifs with hl
    · subst hl
      rw [List.lookup_cons_self, Option.some.injEq] at h
      rw [setItem, if_pos rfl, h]
    · rw [List.lookup_cons, beq_eq_decide, decide_eq_false (Ne.symm hl)] at h
      rw [setItem, if_neg hl, ih h]

lemma keys_setItem {kvs : List (String × Json)} {k : String} (hk : k ∈ kvs.map Prod.fst) (v : Json) :
    (setItem kvs k v).map Prod.fst = kvs.map Prod.fst := by
  induction kvs with
  | nil => cases hk
  | cons p kvs ih =>
    obtain ⟨l, u⟩ := p
    rw [setItem]
    split_ifs with hl
    · rw [List.map_cons, List.map_cons, hl]
    · rw [List.map_cons, List.map_cons, ih]
      exact (List.mem_cons.mp hk).resolve_left (Ne.symm hl)

lemma mem_keys_of_lookup {kvs : List (String × Json)} {k : String} {v : Json}
    (h : kvs.lookup k = some v) : k ∈ kvs.map Prod.fst := by
  obtain ⟨l₁, l₂, rfl, -⟩ := List.lookup_eq_some_iff.mp h
  simp

/-- Dictionaries that agree up to order behind an assignment to a key, and under that key before it,
agree up to order. -/
theorem sorted_eq_of_setItem {a b : List (String × Json)} (ha : (a.map Prod.fst).Nodup)
    (hb : (b.map Prod.fst).Nodup) {k : String} {v w : Json} (hka : a.lookup k = some v)
    (hkb : b.lookup k = some v)
    (h : sorted (.obj (setItem a k w)) = sorted (.obj (setItem b k w))) :
    sorted (.obj a) = sorted (.obj b) := by
  have hback : ∀ {c : List (String × Json)}, (c.map Prod.fst).Nodup → c.lookup k = some v →
      sorted (.obj c) =
        .obj ((sortKeys (sortedMembers (setItem c k w))).map (withValue k (sorted v))) := by
    intro c hc hkc
    have hkeys := keys_setItem (mem_keys_of_lookup hkc) w
    have hset := sorted_setItem (hkeys ▸ hc) (hkeys ▸ mem_keys_of_lookup hkc) v
    rwa [setItem_setItem c k w hkc] at hset
  rw [sorted, sorted, Json.obj.injEq] at h
  rw [hback ha hka, hback hb hkb, h]

/-- What a key leads to, up to order. -/
lemma lookup_sortKeys {kvs : List (String × Json)} (h : (kvs.map Prod.fst).Nodup) (k : String) :
    (sortKeys (sortedMembers kvs)).lookup k = (kvs.lookup k).map sorted := by
  have hkeys : (sortedMembers kvs).map Prod.fst = kvs.map Prod.fst := by
    rw [sortedMembers_eq_map, List.map_map]
    rfl
  have hnodup : ((sortKeys (sortedMembers kvs)).map Prod.fst).Nodup := by
    rw [((sortKeys_perm _).map Prod.fst).nodup_iff, hkeys]
    exact h
  apply Option.ext
  intro v
  rw [← mem_iff_lookup hnodup, (sortKeys_perm _).mem_iff, sortedMembers_eq_map, List.mem_map,
    Option.map_eq_some_iff]
  constructor
  · rintro ⟨⟨l, w⟩, hmem, heq⟩
    cases heq
    exact ⟨w, (mem_iff_lookup h).mp hmem, rfl⟩
  · rintro ⟨w, hlookup, rfl⟩
    exact ⟨(k, w), (mem_iff_lookup h).mpr hlookup, rfl⟩

/-- Dictionaries that agree up to order lead to the same values, up to order. -/
lemma lookup_map_sorted_of_sorted_eq {a b : List (String × Json)} (ha : (a.map Prod.fst).Nodup)
    (hb : (b.map Prod.fst).Nodup) (h : sorted (.obj a) = sorted (.obj b)) (k : String) :
    (a.lookup k).map sorted = (b.lookup k).map sorted := by
  rw [sorted, sorted, Json.obj.injEq] at h
  rw [← lookup_sortKeys ha, ← lookup_sortKeys hb, h]

lemma eq_str_of_sorted {v : Json} {s : String} (h : sorted v = .str s) : v = .str s := by
  cases v <;> simp [sorted] at h ⊢
  exact h

/-- A text is found under a key whatever the order of the members. -/
lemma lookup_str_of_sorted_eq {a b : List (String × Json)} (ha : (a.map Prod.fst).Nodup)
    (hb : (b.map Prod.fst).Nodup) (h : sorted (.obj a) = sorted (.obj b)) {k s : String}
    (hk : a.lookup k = some (.str s)) : b.lookup k = some (.str s) := by
  have hlookup := lookup_map_sorted_of_sorted_eq ha hb h k
  rw [hk] at hlookup
  obtain ⟨v, hv, hsorted⟩ := Option.map_eq_some_iff.mp hlookup.symm
  rw [hv, eq_str_of_sorted hsorted]

/-! ### Dictionaries that were read -/

lemma nodup_setItem {kvs : List (String × Json)} (h : (kvs.map Prod.fst).Nodup) (k : String)
    (v : Json) : ((setItem kvs k v).map Prod.fst).Nodup := by
  by_cases hk : k ∈ kvs.map Prod.fst
  · rwa [keys_setItem hk]
  · rw [setItem_of_not_mem hk, List.map_append]
    exact h.append (List.nodup_singleton k) (by simpa using hk)

/-- Assigning a value that is read back. -/
lemma readsBack_setItem {r : Reader} {kvs : List (String × Json)} {v : Json}
    (h : ReadsBack r (.obj kvs)) (hv : ReadsBack r v) (k : String) :
    ReadsBack r (.obj (setItem kvs k v)) := by
  induction kvs with
  | nil => exact ⟨hv, trivial⟩
  | cons p kvs ih =>
    rw [setItem]
    split_ifs
    · exact ⟨hv, h.2⟩
    · exact ⟨h.1, ih h.2⟩

/-- Assigning a value made of dictionaries. -/
lemma distinctKeys_setItem {kvs : List (String × Json)} {v : Json} (h : DistinctKeys (.obj kvs))
    (hv : DistinctKeys v) (k : String) : DistinctKeys (.obj (setItem kvs k v)) := by
  have hmembers : ∀ kvs, DistinctKeysMembers kvs → DistinctKeysMembers (setItem kvs k v) := by
    intro kvs hkvs
    induction kvs with
    | nil => exact ⟨hv, trivial⟩
    | cons p kvs ih =>
      rw [setItem]
      split_ifs
      · exact ⟨hv, hkvs.2⟩
      · exact ⟨hkvs.1, ih hkvs.2⟩
  exact ⟨nodup_setItem h.1 k v, hmembers kvs h.2⟩

lemma itemsReadBack_iff {r : Reader} {xs : List Json} :
    ItemsReadBack r xs ↔ ∀ x ∈ xs, ReadsBack r x := by
  induction xs with
  | nil => simp [ItemsReadBack]
  | cons x xs ih => rw [ItemsReadBack, ih, List.forall_mem_cons]

lemma distinctKeysItems_iff {xs : List Json} : DistinctKeysItems xs ↔ ∀ x ∈ xs, DistinctKeys x := by
  induction xs with
  | nil => simp [DistinctKeysItems]
  | cons x xs ih => rw [DistinctKeysItems, ih, List.forall_mem_cons]

lemma distinctKeys_of_lookup {kvs : List (String × Json)} (h : DistinctKeysMembers kvs) {k : String}
    {v : Json} (hk : kvs.lookup k = some v) : DistinctKeys v := by
  induction kvs with
  | nil => cases hk
  | cons p kvs ih =>
    obtain ⟨l, w⟩ := p
    rw [List.lookup_cons] at hk
    split at hk
    · cases hk
      exact h.1
    · exact ih h.2 hk

lemma lookup_foldl_setItem {k : String} (kvs d : List (String × Json)) (h : k ∉ kvs.map Prod.fst) :
    (kvs.foldl (fun d p => setItem d p.1 p.2) d).lookup k = d.lookup k := by
  induction kvs generalizing d with
  | nil => rfl
  | cons p kvs ih =>
    rw [List.map_cons, List.mem_cons, not_or] at h
    rw [List.foldl_cons, ih _ h.2, lookup_setItem, if_neg h.1]

lemma keys_asDictsMembers (kvs : List (String × Json)) :
    (asDictsMembers kvs).map Prod.fst = kvs.map Prod.fst := by
  induction kvs with
  | nil => rfl
  | cons p kvs ih =>
    obtain ⟨k, v⟩ := p
    rw [asDictsMembers, List.map_cons, List.map_cons, ih]

/-- A key that is written once leads to the same value in the dictionary. -/
lemma lookup_asDictsMembers {k : String} {kvs : List (String × Json)}
    (h : (kvs.map Prod.fst).count k ≤ 1) :
    ((asDictsMembers kvs).foldl (fun d p => setItem d p.1 p.2) []).lookup k =
      (kvs.lookup k).map asDicts := by
  have hgen : ∀ d : List (String × Json), d.lookup k = none →
      ((asDictsMembers kvs).foldl (fun d p => setItem d p.1 p.2) d).lookup k =
        (kvs.lookup k).map asDicts := by
    induction kvs with
    | nil => exact fun d hd => hd
    | cons p kvs ih =>
      obtain ⟨l, v⟩ := p
      intro d hd
      rw [asDictsMembers, List.foldl_cons]
      by_cases hl : k = l
      · subst hl
        rw [List.map_cons, List.count_cons_self] at h
        have hnot : k ∉ (asDictsMembers kvs).map Prod.fst := by
          rw [keys_asDictsMembers, ← List.count_eq_zero]
          omega
        rw [lookup_foldl_setItem _ _ hnot, lookup_setItem, if_pos rfl, List.lookup_cons_self]
        rfl
      · rw [List.map_cons, List.count_cons_of_ne (Ne.symm hl)] at h
        rw [ih h _ (by rw [lookup_setItem, if_neg hl, hd]), List.lookup_cons, beq_eq_decide,
          decide_eq_false hl]
  exact hgen [] rfl

lemma distinctKeys_foldl_setItem {kvs d : List (String × Json)} (h : DistinctKeysMembers kvs)
    (hd : DistinctKeys (.obj d)) :
    DistinctKeys (.obj (kvs.foldl (fun d p => setItem d p.1 p.2) d)) := by
  induction kvs generalizing d with
  | nil => exact hd
  | cons p kvs ih => exact ih h.2 (distinctKeys_setItem hd h.1 p.1)

mutual

lemma distinctKeys_asDicts (v : Json) : DistinctKeys (asDicts v) := by
  match v with
  | null | bool _ | int _ | float _ | str _ => trivial
  | arr xs => exact distinctKeysItems_asDictsItems xs
  | obj kvs =>
    exact distinctKeys_foldl_setItem (distinctKeysMembers_asDictsMembers kvs)
      ⟨List.nodup_nil, trivial⟩

lemma distinctKeysItems_asDictsItems (xs : List Json) : DistinctKeysItems (asDictsItems xs) := by
  match xs with
  | [] => trivial
  | x :: xs => exact ⟨distinctKeys_asDicts x, distinctKeysItems_asDictsItems xs⟩

lemma distinctKeysMembers_asDictsMembers (kvs : List (String × Json)) :
    DistinctKeysMembers (asDictsMembers kvs) := by
  match kvs with
  | [] => trivial
  | (_, v) :: kvs => exact ⟨distinctKeys_asDicts v, distinctKeysMembers_asDictsMembers kvs⟩

end

/-- A value that was read has no key twice. -/
lemma distinctKeys_of_loads {readFloat : List Char → FloatRepr} {text : String} {v : Json}
    (h : loads readFloat text = some v) : DistinctKeys v := by
  obtain ⟨w, -, rfl⟩ := Option.map_eq_some_iff.mp h
  exact distinctKeys_asDicts w

lemma nodup_of_loads {readFloat : List Char → FloatRepr} {text : String}
    {kvs : List (String × Json)} (h : loads readFloat text = some (.obj kvs)) :
    (kvs.map Prod.fst).Nodup := (distinctKeys_of_loads h).1

end Json
