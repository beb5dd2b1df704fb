import AxiomGrid.Lib.PyFloat
import AxiomGrid.Lib.StackWalk

/-!
# Payloads of requests

`_contains_surrogate` and the validator of `IngressModel`, of `overlay/server.py`. The payload is walked
with a stack, the last element first; the walk ends at the first lone surrogate or at the first element
that lies too deep, whichever comes up. The strings of a payload are lists of code points, since
`json.loads` lets surrogates through.
-/

namespace AxiomGrid.Overlay.Ingress

/-- A code point of a Python string. -/
abbrev CodePoint := Fin 0x110000

/-- `_SURROGATE_RE`. -/
def isSurrogate (c : CodePoint) : Bool := 0xd800 ≤ c.val && c.val ≤ 0xdfff

/-- The values without parts, which are also what may be a key. -/
inductive Scalar where
  | none
  | bool (b : Bool)
  | int (n : ℤ)
  | float (x : PyFloat)
  | str (s : List CodePoint)

/-- A payload; a dictionary is the list of its items. -/
inductive Payload where
  | scalar (value : Scalar)
  | list (items : List Payload)
  | dict (items : List (Scalar × Payload))

namespace Payload

/-- What is pushed for an element. -/
def children : Payload → List Payload
  | scalar _ => []
  | list items => items
  | dict items => items.flatMap fun item => [scalar item.1, item.2]

mutual

/-- The number of elements of a payload. -/
def size : Payload → ℕ
  | scalar _ => 1
  | list items => sizeItems items + 1
  | dict items => sizeMembers items + 1

def sizeItems : List Payload → ℕ
  | [] => 0
  | item :: items => size item + sizeItems items

def sizeMembers : List (Scalar × Payload) → ℕ
  | [] => 0
  | (_, value) :: items => 1 + size value + sizeMembers items

end

/-- The element lies at the depth in the payload. -/
inductive Holds : Payload → ℕ → Payload → Prop
  | here (p : Payload) : Holds p 0 p
  | deeper {p child element : Payload} {depth : ℕ} (hchild : child ∈ p.children)
      (h : Holds child depth element) : Holds p (depth + 1) element

end Payload

/-- `_MAX_INGRESS_NESTING`. -/
def maxIngressNesting : ℕ := 32

/-- The body of the loop, for an element with its depth. -/
def walk : StackWalk (Payload × ℕ) (Except String Bool) where
  stop element :=
    if maxIngressNesting < element.2 then
      some (.error ("payload nesting exceeds " ++ toString maxIngressNesting ++ " levels"))
    else
      match element.1 with
      | .scalar (.str s) => if s.any isSurrogate then some (.ok true) else none
      | _ => none
  children element := element.1.children.map fun child => (child, element.2 + 1)

/-- `_contains_surrogate`, if the loop ends within the turns. -/
def containsSurrogate (turns : ℕ) (value : Payload) : Option (Except String Bool) :=
  (walk.run turns [(value, 0)]).map fun verdict => verdict.getD (.ok false)

/-- `_reject_lone_surrogates`. -/
def rejectLoneSurrogates (turns : ℕ) (data : Payload) : Option (Except String Payload) :=
  (containsSurrogate turns data).map fun verdict =>
    verdict.bind fun found =>
      if found then .error "payload contains non-UTF-8-encodable text (lone surrogate)" else .ok data

/-! ### The walk -/

lemma sum_sizeItems (items : List Payload) : (items.map Payload.size).sum = Payload.sizeItems items := by
  induction items with
  | nil => rfl
  | cons item items ih => rw [List.map_cons, List.sum_cons, ih, Payload.sizeItems]

lemma sum_sizeMembers (items : List (Scalar × Payload)) :
    ((Payload.dict items).children.map Payload.size).sum = Payload.sizeMembers items := by
  rw [Payload.children]
  induction items with
  | nil => rfl
  | cons item items ih =>
    rw [List.flatMap_cons, List.map_append, List.sum_append, ih]
    simp [Payload.sizeMembers, Payload.size]

lemma sum_children_lt (p : Payload) : (p.children.map Payload.size).sum < p.size := by
  cases p with
  | scalar value => simp [Payload.children, Payload.size]
  | list items => rw [Payload.children, sum_sizeItems, Payload.size]; omega
  | dict items => rw [sum_sizeMembers, Payload.size]; omega

/-- The elements of the walk are those of the payload, each with its depth. -/
lemma reaches_iff {x y : Payload × ℕ} :
    Relation.ReflTransGen walk.Child x y ↔ ∃ d, y.2 = x.2 + d ∧ x.1.Holds d y.1 := by
  constructor
  · intro h
    induction h using Relation.ReflTransGen.head_induction_on with
    | refl => exact ⟨0, rfl, .here _⟩
    | head hchild _ ih =>
      obtain ⟨child, hmem, rfl⟩ := List.mem_map.mp hchild
      obtain ⟨d, hdepth, hholds⟩ := ih
      exact ⟨d + 1, by rw [hdepth, Nat.add_right_comm, Nat.add_assoc], .deeper hmem hholds⟩
  · obtain ⟨p, depth⟩ := x
    obtain ⟨q, depth'⟩ := y
    rintro ⟨d, hdepth, hholds⟩
    dsimp only at hdepth hholds
    subst hdepth
    induction hholds generalizing depth with
    | here p => exact .refl
    | @deeper p child element d hmem _ ih =>
      have hchild : walk.Child (p, depth) (child, depth + 1) := List.mem_map_of_mem hmem
      have hrest := ih (depth + 1)
      rw [Nat.add_assoc, Nat.add_comm 1] at hrest
      exact .head hchild hrest

/-- An element stops the walk if it lies too deep or is a text with a surrogate. -/
lemma isSome_stop_iff {x : Payload × ℕ} : (walk.stop x).isSome = true ↔
    maxIngressNesting < x.2 ∨ ∃ s, x.1 = .scalar (.str s) ∧ ∃ c ∈ s, isSurrogate c = true := by
  obtain ⟨p, depth⟩ := x
  by_cases hdeep : maxIngressNesting < depth
  · simp [walk, hdeep]
  · simp only [walk, hdeep, if_false, false_or]
    split
    · rename_i s
      simp only [Payload.scalar.injEq, Scalar.str.injEq, exists_eq_left', ← List.any_eq_true]
      cases s.any isSurrogate <;> simp
    · rename_i hother
      simp only [Option.isSome_none, Bool.false_eq_true, false_iff]
      rintro ⟨s, rfl, -⟩
      exact hother s rfl

/-- There is a string with a surrogate in the payload, or an element that lies too deep. -/
def Bad (data : Payload) : Prop :=
  (∃ d s, data.Holds d (.scalar (.str s)) ∧ ∃ c ∈ s, isSurrogate c = true) ∨
    ∃ d element, data.Holds d element ∧ maxIngressNesting < d

lemma stops_iff_bad {data : Payload} : walk.Stops (data, 0) ↔ Bad data := by
  simp only [StackWalk.Stops, reaches_iff, isSome_stop_iff, Nat.zero_add]
  constructor
  · rintro ⟨⟨element, depth⟩, ⟨d, rfl, hholds⟩, hdeep | ⟨s, rfl, hs⟩⟩
    · exact .inr ⟨depth, element, hholds, hdeep⟩
    · exact .inl ⟨depth, s, hholds, hs⟩
  · rintro (⟨d, s, hholds, hs⟩ | ⟨d, element, hholds, hdeep⟩)
    · exact ⟨(.scalar (.str s), d), ⟨d, rfl, hholds⟩, .inr ⟨s, rfl, hs⟩⟩
    · exact ⟨(element, d), ⟨d, rfl, hholds⟩, .inl hdeep⟩

/-- The walk never stops with the verdict that there is no surrogate. -/
lemma stop_ne_ok_false (x : Payload × ℕ) : walk.stop x ≠ some (.ok false) := by
  simp only [walk]
  split_ifs
  · simp
  · split
    · split_ifs <;> simp
    · simp

/-- The walk ends within as many turns as there are elements, whatever lies on the stack first, and a
payload is refused exactly if it holds a surrogate or an element that lies too deep. -/
theorem rejectLoneSurrogates_iff (data : Payload) :
    ∃ verdict result, (∀ turns, data.size ≤ turns →
        containsSurrogate turns data = some verdict ∧ rejectLoneSurrogates turns data = some result) ∧
      (verdict = .ok true ∨ (∃ e, verdict = .error e) ↔ Bad data) ∧
      ((∃ e, result = .error e) ↔ Bad data) ∧ (¬Bad data → result = .ok data) := by
  have hsize : ∀ x : Payload × ℕ, ((walk.children x).map fun y => y.1.size).sum < x.1.size := by
    intro x
    rw [walk, List.map_map]
    exact sum_children_lt x.1
  obtain ⟨stopped, hrun, hiff, hfrom⟩ :=
    @StackWalk.exists_run _ _ walk (fun x => x.1.size) hsize data.size [(data, 0)] (by simp)
  simp only [List.mem_singleton, exists_eq_left, stops_iff_bad] at hiff
  have hcontains : ∀ turns, data.size ≤ turns →
      containsSurrogate turns data = some (stopped.getD (.ok false)) := by
    intro turns hturns
    rw [containsSurrogate, StackWalk.run_mono hrun hturns]
    rfl
  have hreject : ∀ turns, data.size ≤ turns → rejectLoneSurrogates turns data =
      some ((stopped.getD (.ok false)).bind fun found =>
        if found then .error "payload contains non-UTF-8-encodable text (lone surrogate)"
        else .ok data) := by
    intro turns hturns
    rw [rejectLoneSurrogates, hcontains turns hturns]
    rfl
  refine ⟨_, _, fun turns hturns => ⟨hcontains turns hturns, hreject turns hturns⟩, ?_⟩
  cases stopped with
  | none =>
    have hgood : ¬Bad data := fun hbad => Bool.false_ne_true (hiff.mpr hbad)
    refine ⟨iff_of_false ?_ hgood, iff_of_false ?_ hgood, fun _ => rfl⟩
    · rintro (h | ⟨e, h⟩) <;> cases h
    · rintro ⟨e, h⟩
      cases h
  | some verdict =>
    have hbad : Bad data := hiff.mp rfl
    obtain ⟨x, hstop⟩ := hfrom verdict rfl
    refine ⟨iff_of_true ?_ hbad, iff_of_true ?_ hbad, fun hgood => absurd hbad hgood⟩
    · match verdict with
      | .error e => exact .inr ⟨e, rfl⟩
      | .ok true => exact .inl rfl
      | .ok false => exact absurd hstop (stop_ne_ok_false x)
    · match verdict with
      | .error e => exact ⟨e, rfl⟩
      | .ok true => exact ⟨_, rfl⟩
      | .ok false => exact absurd hstop (stop_ne_ok_false x)

end AxiomGrid.Overlay.Ingress
