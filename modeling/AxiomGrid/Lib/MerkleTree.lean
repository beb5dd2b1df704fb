import Mathlib.Data.List.Induction
import Mathlib.Data.Set.Function
import Mathlib.Tactic.Common

/-!
# Merkle trees over byte lists

The unbalanced tree hash of RFC 6962 for any hash of fixed width, any two distinct tags for leaves
and inner nodes, and any way to split a list of at least two leaves in two nonempty parts.

Security is stated against the messages that are hashed: `inputs` and `climbInputs` list them, and
the theorems assume the hash injective on these and on nothing else. At a fixed number of leaves the
root determines the leaves (`root_inj`), and a list of siblings that climbs to the root is the path of
one of the leaves (`path_of_climb_eq_root`).
-/

/-- A hash function with the tags and the shape of the tree. -/
structure TreeHash (β : Type*) where
  hash : List β → List β
  width : ℕ
  hash_length : ∀ x, (hash x).length = width
  leafTag : β
  nodeTag : β
  tags_ne : leafTag ≠ nodeTag
  /-- How many of `n` leaves are in the left subtree. -/
  split : ℕ → ℕ
  split_pos : ∀ n, 2 ≤ n → 0 < split n
  split_lt : ∀ n, 2 ≤ n → split n < n

namespace TreeHash

variable {β : Type*} (T : TreeHash β)

/-- The message hashed for a leaf. -/
def leafInput (x : List β) : List β := T.leafTag :: x

/-- The message hashed for an inner node. -/
def nodeInput (l r : List β) : List β := T.nodeTag :: (l ++ r)

/-- The root of a list of leaves. -/
def root : List (List β) → List β
  | [] => T.hash []
  | [x] => T.hash (T.leafInput x)
  | x :: y :: zs =>
    T.hash (T.nodeInput (root ((x :: y :: zs).take (T.split (zs.length + 2))))
      (root ((x :: y :: zs).drop (T.split (zs.length + 2)))))
termination_by xs => xs.length
decreasing_by
  · have := T.split_lt (zs.length + 2) (by omega)
    simp only [List.length_take, List.length_cons]
    omega
  · have := T.split_pos (zs.length + 2) (by omega)
    simp only [List.length_drop, List.length_cons]
    omega

/-- The messages hashed to compute a root. -/
def inputs : List (List β) → List (List β)
  | [] => [[]]
  | [x] => [T.leafInput x]
  | x :: y :: zs =>
    T.nodeInput (T.root ((x :: y :: zs).take (T.split (zs.length + 2))))
        (T.root ((x :: y :: zs).drop (T.split (zs.length + 2)))) ::
      (inputs ((x :: y :: zs).take (T.split (zs.length + 2))) ++
        inputs ((x :: y :: zs).drop (T.split (zs.length + 2))))
termination_by xs => xs.length
decreasing_by
  · have := T.split_lt (zs.length + 2) (by omega)
    simp only [List.length_take, List.length_cons]
    omega
  · have := T.split_pos (zs.length + 2) (by omega)
    simp only [List.length_drop, List.length_cons]
    omega

variable {T} {xs ys : List (List β)}

@[simp] lemma root_nil : T.root [] = T.hash [] := by rw [root]

@[simp] lemma root_singleton (x : List β) : T.root [x] = T.hash (T.leafInput x) := by rw [root]

lemma root_of_two_le (h : 2 ≤ xs.length) :
    T.root xs = T.hash (T.nodeInput (T.root (xs.take (T.split xs.length)))
      (T.root (xs.drop (T.split xs.length)))) := by
  match xs, h with
  | x :: y :: zs, _ =>
    rw [root]
    rfl

@[simp] lemma inputs_nil : T.inputs [] = [[]] := by rw [inputs]

@[simp] lemma inputs_singleton (x : List β) : T.inputs [x] = [T.leafInput x] := by rw [inputs]

lemma inputs_of_two_le (h : 2 ≤ xs.length) :
    T.inputs xs = T.nodeInput (T.root (xs.take (T.split xs.length)))
      (T.root (xs.drop (T.split xs.length))) ::
      (T.inputs (xs.take (T.split xs.length)) ++ T.inputs (xs.drop (T.split xs.length))) := by
  match xs, h with
  | x :: y :: zs, _ =>
    rw [inputs]
    rfl

lemma mem_inputs_node (h : 2 ≤ xs.length) :
    T.nodeInput (T.root (xs.take (T.split xs.length))) (T.root (xs.drop (T.split xs.length))) ∈
      T.inputs xs := by
  rw [inputs_of_two_le h]
  exact List.mem_cons_self

/-- What is hashed for the left subtree is hashed for the tree. -/
lemma mem_inputs_of_take (h : 2 ≤ xs.length) {m : List β}
    (hm : m ∈ T.inputs (xs.take (T.split xs.length))) : m ∈ T.inputs xs := by
  rw [inputs_of_two_le h]
  exact List.mem_cons_of_mem _ (List.mem_append_left _ hm)

lemma mem_inputs_of_drop (h : 2 ≤ xs.length) {m : List β}
    (hm : m ∈ T.inputs (xs.drop (T.split xs.length))) : m ∈ T.inputs xs := by
  rw [inputs_of_two_le h]
  exact List.mem_cons_of_mem _ (List.mem_append_right _ hm)

variable (T) in
/-- Neither subtree is empty. -/
lemma take_split_ne_nil (h : 2 ≤ xs.length) : xs.take (T.split xs.length) ≠ [] := by
  rw [← List.length_pos_iff, List.length_take]
  exact lt_min (T.split_pos _ h) (by omega)

variable (T) in
lemma drop_split_ne_nil (h : 2 ≤ xs.length) : xs.drop (T.split xs.length) ≠ [] := by
  rw [← List.length_pos_iff, List.length_drop]
  exact Nat.sub_pos_of_lt (T.split_lt _ h)

@[simp] lemma root_length (xs : List (List β)) : (T.root xs).length = T.width := by
  match xs with
  | [] => rw [root_nil, T.hash_length]
  | [x] => rw [root_singleton, T.hash_length]
  | x :: y :: zs => rw [root_of_two_le (by simp), T.hash_length]

lemma leafInput_ne_nodeInput (x l r : List β) : T.leafInput x ≠ T.nodeInput l r := by
  intro h
  exact T.tags_ne (List.cons.inj h).1

/-- Of two children with the width of a digest on one side, the message shows both. -/
lemma nodeInput_inj {l r l' r' : List β} (h : T.nodeInput l r = T.nodeInput l' r')
    (hlen : l.length = l'.length ∨ r.length = r'.length) : l = l' ∧ r = r' := by
  have happ : l ++ r = l' ++ r' := (List.cons.inj h).2
  rcases hlen with hl | hr
  · exact List.append_inj happ hl
  · exact List.append_inj' happ hr

/-- An induction over the shape of the tree. -/
lemma shape_induction {P : List (List β) → Prop} (nil : P []) (leaf : ∀ x, P [x])
    (node : ∀ xs, 2 ≤ xs.length → P (xs.take (T.split xs.length)) →
      P (xs.drop (T.split xs.length)) → P xs) (xs : List (List β)) : P xs := by
  induction hn : xs.length using Nat.strong_induction_on generalizing xs with
  | _ n ih =>
    match xs, hn with
    | [], _ => exact nil
    | [x], _ => exact leaf x
    | x :: y :: zs, hn =>
      have htwo : 2 ≤ (x :: y :: zs).length := by simp
      have hlt := T.split_lt _ htwo
      have hpos := T.split_pos _ htwo
      refine node _ htwo (ih _ ?_ _ rfl) (ih _ ?_ _ rfl)
      · rw [List.length_take, ← hn]
        omega
      · rw [List.length_drop, ← hn]
        omega

/-! ### The root determines the leaves -/

/-- Two lists of one length with the same root are the same list, unless two of the messages hashed
for them collide. -/
theorem root_inj (hlen : xs.length = ys.length)
    (hinj : Set.InjOn T.hash {m | m ∈ T.inputs xs ∨ m ∈ T.inputs ys})
    (h : T.root xs = T.root ys) : xs = ys := by
  induction xs using T.shape_induction generalizing ys with
  | nil => exact (List.length_eq_zero_iff.mp hlen.symm).symm
  | leaf x =>
    obtain ⟨y, rfl⟩ := List.length_eq_one_iff.mp hlen.symm
    rw [root_singleton, root_singleton] at h
    have hxy := hinj (by simp) (by simp) h
    rw [(List.cons.inj hxy).2]
  | node xs htwo ihl ihr =>
    have htwo' : 2 ≤ ys.length := hlen ▸ htwo
    rw [root_of_two_le htwo, root_of_two_le htwo'] at h
    have hnode := hinj (.inl (mem_inputs_node htwo)) (.inr (mem_inputs_node htwo')) h
    obtain ⟨hl, hr⟩ := nodeInput_inj hnode (.inl (by simp))
    rw [← hlen] at hl hr
    have hleft := ihl (by simp [hlen]) (hinj.mono ?_) hl
    · have hright := ihr (by simp [hlen]) (hinj.mono ?_) hr
      · rw [← List.take_append_drop (T.split xs.length) xs, hleft, hright,
          List.take_append_drop]
      · rintro m (hm | hm)
        · exact .inl (mem_inputs_of_drop htwo hm)
        · exact .inr (mem_inputs_of_drop htwo' (hlen ▸ hm))
    · rintro m (hm | hm)
      · exact .inl (mem_inputs_of_take htwo hm)
      · exact .inr (mem_inputs_of_take htwo' (hlen ▸ hm))

/-- The root also tells the number of leaves, if there are any: a leaf and a node never have one
message. -/
theorem root_inj_of_ne_nil (hxs : xs ≠ []) (hys : ys ≠ [])
    (hinj : Set.InjOn T.hash {m | m ∈ T.inputs xs ∨ m ∈ T.inputs ys})
    (h : T.root xs = T.root ys) : xs = ys := by
  induction xs using T.shape_induction generalizing ys with
  | nil => exact absurd rfl hxs
  | leaf x =>
    match ys, hys with
    | [y], _ => exact root_inj rfl hinj h
    | y :: z :: zs, _ =>
      have htwo : 2 ≤ (y :: z :: zs).length := by simp
      rw [root_singleton, root_of_two_le htwo] at h
      exact absurd (hinj (by simp) (.inr (mem_inputs_node htwo)) h) (leafInput_ne_nodeInput _ _ _)
  | node xs htwo ihl ihr =>
    match ys, hys with
    | [y], _ =>
      rw [root_singleton, root_of_two_le htwo] at h
      exact absurd (hinj (by simp) (.inl (mem_inputs_node htwo)) h.symm) (leafInput_ne_nodeInput _ _ _)
    | y :: z :: zs, _ =>
      have htwo' : 2 ≤ (y :: z :: zs).length := by simp
      rw [root_of_two_le htwo, root_of_two_le htwo'] at h
      have hnode := hinj (.inl (mem_inputs_node htwo)) (.inr (mem_inputs_node htwo')) h
      obtain ⟨hl, hr⟩ := nodeInput_inj hnode (.inl (by simp))
      have hleft := ihl (take_split_ne_nil T htwo) (take_split_ne_nil T htwo') (hinj.mono ?_) hl
      · have hright := ihr (drop_split_ne_nil T htwo) (drop_split_ne_nil T htwo') (hinj.mono ?_) hr
        · rw [← List.take_append_drop (T.split xs.length) xs, hleft, hright, List.take_append_drop]
        · rintro m (hm | hm)
          · exact .inl (mem_inputs_of_drop htwo hm)
          · exact .inr (mem_inputs_of_drop htwo' hm)
      · rintro m (hm | hm)
        · exact .inl (mem_inputs_of_take htwo hm)
        · exact .inr (mem_inputs_of_take htwo' hm)

/-! ### Paths -/

variable (T)

/-- The message hashed with a sibling; `true` when the sibling is on the left. -/
def stepInput (run : List β) : Bool × List β → List β
  | (true, s) => T.nodeInput s run
  | (false, s) => T.nodeInput run s

/-- The hash reached from `run` along a list of siblings. -/
def climb (run : List β) (path : List (Bool × List β)) : List β :=
  path.foldl (fun run s => T.hash (T.stepInput run s)) run

/-- The messages hashed along a list of siblings. -/
def climbInputs (run : List β) : List (Bool × List β) → List (List β)
  | [] => []
  | s :: path => T.stepInput run s :: climbInputs (T.hash (T.stepInput run s)) path

/-- The siblings of the `i`-th leaf, from the leaf up. -/
def path : List (List β) → ℕ → List (Bool × List β)
  | [], _ => []
  | [_], _ => []
  | x :: y :: zs, i =>
    let k := T.split (zs.length + 2)
    if i < k then
      path ((x :: y :: zs).take k) i ++ [(false, T.root ((x :: y :: zs).drop k))]
    else path ((x :: y :: zs).drop k) (i - k) ++ [(true, T.root ((x :: y :: zs).take k))]
termination_by xs _ => xs.length
decreasing_by
  · have := T.split_lt (zs.length + 2) (by omega)
    simp only [List.length_take, List.length_cons]
    omega
  · have := T.split_pos (zs.length + 2) (by omega)
    simp only [List.length_drop, List.length_cons]
    omega

variable {T} {run : List β}

@[simp] lemma climb_nil : T.climb run [] = run := rfl

lemma climb_concat (p : List (Bool × List β)) (s : Bool × List β) :
    T.climb run (p ++ [s]) = T.hash (T.stepInput (T.climb run p) s) := by
  simp [climb]

lemma climbInputs_concat (p : List (Bool × List β)) (s : Bool × List β) :
    T.climbInputs run (p ++ [s]) = T.climbInputs run p ++ [T.stepInput (T.climb run p) s] := by
  induction p generalizing run with
  | nil => rfl
  | cons q p ih =>
    simp only [List.cons_append, climbInputs, ih]
    rfl

lemma climb_length (hrun : run.length = T.width) (p : List (Bool × List β)) :
    (T.climb run p).length = T.width := by
  induction p using List.reverseRecOn with
  | nil => exact hrun
  | append_singleton p s => rw [climb_concat, T.hash_length]

@[simp] lemma path_singleton (x : List β) (i : ℕ) : T.path [x] i = [] := by rw [path]

lemma path_of_two_le (h : 2 ≤ xs.length) (i : ℕ) :
    T.path xs i = if i < T.split xs.length then
        T.path (xs.take (T.split xs.length)) i ++ [(false, T.root (xs.drop (T.split xs.length)))]
      else
        T.path (xs.drop (T.split xs.length)) (i - T.split xs.length) ++
          [(true, T.root (xs.take (T.split xs.length)))] := by
  match xs, h with
  | x :: y :: zs, _ =>
    rw [path]
    rfl

/-- Climbing from a leaf along its own path ends at the root. -/
theorem climb_path {i : ℕ} {x : List β} (hx : xs[i]? = some x) :
    T.climb (T.hash (T.leafInput x)) (T.path xs i) = T.root xs := by
  induction xs using T.shape_induction generalizing i with
  | nil => simp at hx
  | leaf y =>
    have hi : i < [y].length := (List.getElem?_eq_some_iff.mp hx).1
    obtain rfl : i = 0 := by simpa using hi
    obtain rfl : y = x := by simpa using hx
    simp
  | node xs htwo ihl ihr =>
    rw [path_of_two_le htwo, root_of_two_le htwo]
    split
    · rename_i hi
      rw [climb_concat, ihl (by rw [List.getElem?_take_of_lt hi]; exact hx)]
      rfl
    · rename_i hi
      have hget : (xs.drop (T.split xs.length))[i - T.split xs.length]? = some x := by
        rw [List.getElem?_drop, Nat.add_sub_cancel' (not_lt.mp hi)]
        exact hx
      rw [climb_concat, ihr hget]
      rfl

/-- What is hashed to climb from a leaf along its own path is hashed for the root. -/
lemma climbInputs_path_subset {i : ℕ} {x : List β} (hx : xs[i]? = some x) :
    T.leafInput x :: T.climbInputs (T.hash (T.leafInput x)) (T.path xs i) ⊆ T.inputs xs := by
  induction xs using T.shape_induction generalizing i with
  | nil => simp at hx
  | leaf y =>
    have hi : i < [y].length := (List.getElem?_eq_some_iff.mp hx).1
    obtain rfl : i = 0 := by simpa using hi
    obtain rfl : y = x := by simpa using hx
    simp [climbInputs]
  | node xs htwo ihl ihr =>
    rw [path_of_two_le htwo]
    split
    · rename_i hi
      have hget : (xs.take (T.split xs.length))[i]? = some x := by
        rw [List.getElem?_take_of_lt hi]
        exact hx
      rw [climbInputs_concat, climb_path hget, ← List.cons_append]
      refine List.append_subset.mpr ⟨fun m hm => mem_inputs_of_take htwo (ihl hget hm), ?_⟩
      exact List.cons_subset.mpr ⟨mem_inputs_node htwo, List.nil_subset _⟩
    · rename_i hi
      have hget : (xs.drop (T.split xs.length))[i - T.split xs.length]? = some x := by
        rw [List.getElem?_drop, Nat.add_sub_cancel' (not_lt.mp hi)]
        exact hx
      rw [climbInputs_concat, climb_path hget, ← List.cons_append]
      refine List.append_subset.mpr ⟨fun m hm => mem_inputs_of_drop htwo (ihr hget hm), ?_⟩
      exact List.cons_subset.mpr ⟨mem_inputs_node htwo, List.nil_subset _⟩

/-- A path that climbs from the hash of `x` to the root of `xs` is the path of a leaf `x`, unless two
of the messages hashed collide. Nothing is assumed of the siblings. -/
theorem path_of_climb_eq_root {x : List β} (hne : xs ≠ []) (p : List (Bool × List β))
    (hinj : Set.InjOn T.hash
      {m | m ∈ T.inputs xs ∨ m ∈ T.leafInput x :: T.climbInputs (T.hash (T.leafInput x)) p})
    (h : T.climb (T.hash (T.leafInput x)) p = T.root xs) :
    ∃ i, xs[i]? = some x ∧ p = T.path xs i := by
  induction p using List.reverseRecOn generalizing xs with
  | nil =>
    match xs, hne with
    | [y], _ =>
      rw [climb_nil, root_singleton] at h
      have hxy := hinj (by simp) (by simp) h
      refine ⟨0, ?_, (path_singleton y 0).symm⟩
      rw [(List.cons.inj hxy).2]
      rfl
    | y :: z :: zs, _ =>
      rw [climb_nil, root_of_two_le (by simp)] at h
      have hxy := hinj (by simp) (.inl (mem_inputs_node (by simp))) h
      exact absurd hxy (leafInput_ne_nodeInput _ _ _)
  | append_singleton p s ih =>
    have hstep : T.stepInput (T.climb (T.hash (T.leafInput x)) p) s ∈
        T.leafInput x :: T.climbInputs (T.hash (T.leafInput x)) (p ++ [s]) := by
      simp [climbInputs_concat]
    have hlen := climb_length (T.hash_length (T.leafInput x)) p
    have hsub : ∀ m, m ∈ T.leafInput x :: T.climbInputs (T.hash (T.leafInput x)) p →
        m ∈ T.leafInput x :: T.climbInputs (T.hash (T.leafInput x)) (p ++ [s]) := by
      intro m hm
      rw [climbInputs_concat, ← List.cons_append]
      exact List.mem_append_left _ hm
    match xs, hne with
    | [y], _ =>
      -- the root of one leaf is tagged as a leaf, and the last step hashes a node
      rw [climb_concat, root_singleton] at h
      have hxy := hinj (.inr hstep) (by simp) h
      obtain ⟨left, sib⟩ := s
      cases left <;> exact absurd hxy.symm (leafInput_ne_nodeInput _ _ _)
    | y :: z :: zs, _ =>
      have htwo : 2 ≤ (y :: z :: zs).length := by simp
      generalize y :: z :: zs = xs at *
      rw [climb_concat, root_of_two_le htwo] at h
      have hnode := hinj (.inr hstep) (.inl (mem_inputs_node htwo)) h
      obtain ⟨left, sib⟩ := s
      -- the running hash has the width of a digest, so it is the child on its own side
      cases left with
      | true =>
        obtain ⟨hsib, hrun⟩ := nodeInput_inj hnode (.inr (by rw [hlen, root_length]))
        obtain ⟨i, hi, hpath⟩ := ih (T.drop_split_ne_nil htwo) (hinj.mono (by
          rintro m (hm | hm)
          · exact .inl (mem_inputs_of_drop htwo hm)
          · exact .inr (hsub m hm))) hrun
        refine ⟨T.split xs.length + i, ?_, ?_⟩
        · rw [← List.getElem?_drop]
          exact hi
        · rw [path_of_two_le htwo, if_neg (Nat.not_lt.mpr (Nat.le_add_right _ _)),
            Nat.add_sub_cancel_left, ← hpath, hsib]
      | false =>
        obtain ⟨hrun, hsib⟩ := nodeInput_inj hnode (.inl (by rw [hlen, root_length]))
        obtain ⟨i, hi, hpath⟩ := ih (T.take_split_ne_nil htwo) (hinj.mono (by
          rintro m (hm | hm)
          · exact .inl (mem_inputs_of_take htwo hm)
          · exact .inr (hsub m hm))) hrun
        have hlt' : i < T.split xs.length := by
          have hlength := (List.getElem?_eq_some_iff.mp hi).1
          rw [List.length_take] at hlength
          exact hlength.trans_le (min_le_left _ _)
        refine ⟨i, ?_, ?_⟩
        · rwa [List.getElem?_take_of_lt hlt'] at hi
        · rw [path_of_two_le htwo, if_pos hlt', ← hpath, hsib]

/-- Such a path starts at one of the leaves. -/
theorem mem_of_climb_eq_root {x : List β} (hne : xs ≠ []) (p : List (Bool × List β))
    (hinj : Set.InjOn T.hash
      {m | m ∈ T.inputs xs ∨ m ∈ T.leafInput x :: T.climbInputs (T.hash (T.leafInput x)) p})
    (h : T.climb (T.hash (T.leafInput x)) p = T.root xs) : x ∈ xs := by
  obtain ⟨i, hi, -⟩ := path_of_climb_eq_root hne p hinj h
  exact List.mem_of_getElem? hi

end TreeHash
