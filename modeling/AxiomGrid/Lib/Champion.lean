import Mathlib.Data.List.Basic

/-!
# The one that is left after a row of challenges

A champion is replaced by every challenger that beats it, in the order in which they come. Where
"beats" is a ranking with ties, the last champion is the one nobody beats, and of several that tie it is
the one that was there, or else the first challenger among them.

Two lists are merged by letting the second one challenge the last element of the first. This converges
when the two orders of merging have the same champion: then merging the champion with either list
changes nothing.
-/

namespace Champion

variable {α : Type*}

/-- A ranking in which some elements may be out of the race, beating and tying with nothing. -/
structure Ranking (beats ties : α → α → Prop) : Prop where
  irrefl : ∀ a, ¬beats a a
  trans : ∀ {a b c}, beats a b → beats b c → beats a c
  of_ties : ∀ {a b c}, ties a b → beats b c → beats a c
  total : ∀ {a b c}, beats a c → beats b c → beats a b ∨ ties a b ∨ beats b a

variable (beats ties : α → α → Prop)

/-- Nobody beats `e`, which was there before or beats who was there, being the first of those it ties
with. -/
def Wins (start : α) (challengers : List α) (e : α) : Prop :=
  (∀ x ∈ challengers, ¬beats x e) ∧
    (e = start ∨ beats e start ∧
      ∃ before after, challengers = before ++ e :: after ∧ ∀ x ∈ before, ¬ties x e)

variable {beats ties} (hranking : Ranking beats ties)
include hranking

/-- A challenger that beats the champion takes its place. -/
lemma wins_cons_of_beats {start x : α} {xs : List α} {e : α} (hx : beats x start) :
    Wins beats ties start (x :: xs) e ↔ Wins beats ties x xs e := by
  constructor
  · rintro ⟨hnone, rfl | ⟨he, before, after, hsplit, hfirst⟩⟩
    · exact absurd hx (hnone x List.mem_cons_self)
    · refine ⟨fun y hy => hnone y (List.mem_cons_of_mem x hy), ?_⟩
      cases before with
      | nil => exact .inl (List.cons.inj hsplit).1.symm
      | cons y before =>
        obtain ⟨rfl, rfl⟩ := List.cons.inj hsplit
        obtain hbeats | hties | hbeats := hranking.total hx he
        · exact absurd hbeats (hnone x List.mem_cons_self)
        · exact absurd hties (hfirst x List.mem_cons_self)
        · exact .inr ⟨hbeats, before, after, rfl,
            fun z hz => hfirst z (List.mem_cons_of_mem x hz)⟩
  · rintro ⟨hnone, rfl | ⟨he, before, after, rfl, hfirst⟩⟩
    · exact ⟨List.forall_mem_cons.mpr ⟨hranking.irrefl e, hnone⟩,
        .inr ⟨hx, [], xs, rfl, by simp⟩⟩
    · have hnotx : ¬beats x e := fun h => hranking.irrefl x (hranking.trans h he)
      have hnottie : ¬ties x e := fun h => hranking.irrefl x (hranking.of_ties h he)
      exact ⟨List.forall_mem_cons.mpr ⟨hnotx, hnone⟩, .inr ⟨hranking.trans he hx, x :: before, after,
        rfl, List.forall_mem_cons.mpr ⟨hnottie, hfirst⟩⟩⟩

/-- Any other challenger changes nothing. -/
lemma wins_cons_of_not_beats {start x : α} {xs : List α} {e : α} (hx : ¬beats x start) :
    Wins beats ties start (x :: xs) e ↔ Wins beats ties start xs e := by
  constructor
  · rintro ⟨hnone, rfl | ⟨he, before, after, hsplit, hfirst⟩⟩
    · exact ⟨fun y hy => hnone y (List.mem_cons_of_mem x hy), .inl rfl⟩
    · refine ⟨fun y hy => hnone y (List.mem_cons_of_mem x hy), .inr ⟨he, ?_⟩⟩
      cases before with
      | nil => exact absurd ((List.cons.inj hsplit).1 ▸ he) hx
      | cons y before =>
        obtain ⟨rfl, rfl⟩ := List.cons.inj hsplit
        exact ⟨before, after, rfl, fun z hz => hfirst z (List.mem_cons_of_mem x hz)⟩
  · rintro ⟨hnone, rfl | ⟨he, before, after, rfl, hfirst⟩⟩
    · exact ⟨List.forall_mem_cons.mpr ⟨hx, hnone⟩, .inl rfl⟩
    · have hnotx : ¬beats x e := fun h => hx (hranking.trans h he)
      have hnottie : ¬ties x e := fun h => hx (hranking.of_ties h he)
      exact ⟨List.forall_mem_cons.mpr ⟨hnotx, hnone⟩, .inr ⟨he, x :: before, after, rfl,
        List.forall_mem_cons.mpr ⟨hnottie, hfirst⟩⟩⟩

omit hranking

variable (beats) in
/-- The last champion. -/
def champion [DecidableRel beats] (start : α) (challengers : List α) : α :=
  challengers.foldl (fun current e => if beats e current then e else current) start

variable [DecidableRel beats]

include hranking in
theorem champion_eq_iff (start : α) (challengers : List α) (e : α) :
    champion beats start challengers = e ↔ Wins beats ties start challengers e := by
  induction challengers generalizing start with
  | nil => simp [champion, Wins, eq_comm]
  | cons x xs ih =>
    rw [champion, List.foldl_cons, ← champion, ih]
    split_ifs with hx
    · exact (wins_cons_of_beats hranking hx).symm
    · exact (wins_cons_of_not_beats hranking hx).symm

/-! ### Merging two lists -/

/-- Who is there when a list is merged into another one. -/
def incumbent (into other : List α) : Option α := into.getLast?.or other.head?

/-- The champion of merging the second list into the first. -/
def merged (beats : α → α → Prop) [DecidableRel beats] (into other : List α) : Option α :=
  (incumbent into other).map fun start => champion beats start other

include hranking

lemma merged_eq_some_iff {into other : List α} {e : α} :
    merged beats into other = some e ↔
      ∃ start, incumbent into other = some start ∧ Wins beats ties start other e := by
  rw [merged, Option.map_eq_some_iff]
  exact exists_congr fun start => and_congr_right fun _ => champion_eq_iff hranking start other e

/-- The champion of both orders of merging survives being merged again. -/
lemma merged_again {xs ys : List α} {e : α} (h : merged beats xs ys = some e)
    (h' : merged beats ys xs = some e) :
    merged beats [e] xs = some e ∧ merged beats xs [e] = some e := by
  rw [merged_eq_some_iff hranking] at h h'
  obtain ⟨start, hstart, -, hwins⟩ := h
  obtain ⟨_, -, hnone, -⟩ := h'
  have hself : ∀ x ∈ [e], ¬beats x e := by simpa using hranking.irrefl e
  constructor
  · exact (merged_eq_some_iff hranking).mpr ⟨e, rfl, hnone, .inl rfl⟩
  · refine (merged_eq_some_iff hranking).mpr ?_
    cases hlast : xs.getLast? with
    | none => exact ⟨e, by rw [incumbent, hlast]; rfl, hself, .inl rfl⟩
    | some a =>
      rw [incumbent, hlast, Option.some_or, Option.some.injEq] at hstart
      subst hstart
      exact ⟨a, by rw [incumbent, hlast, Option.some_or], hself,
        hwins.imp_right fun hbeats => ⟨hbeats.1, [], [], rfl, by simp⟩⟩

/-- The two orders of merging agree exactly when one element wins in both. -/
lemma merged_comm_iff {xs ys : List α} :
    merged beats xs ys = merged beats ys xs ↔
      ∀ start start', incumbent xs ys = some start → incumbent ys xs = some start' →
        ∃ e, Wins beats ties start ys e ∧ Wins beats ties start' xs e := by
  constructor
  · intro h start start' hstart hstart'
    refine ⟨champion beats start ys, (champion_eq_iff hranking _ _ _).mp rfl,
      (champion_eq_iff hranking _ _ _).mp ?_⟩
    rw [merged, merged, hstart, hstart'] at h
    exact (Option.some.inj h).symm
  · intro h
    cases hstart : incumbent xs ys with
    | none =>
      have hnil : xs = [] ∧ ys = [] := by
        rw [incumbent, Option.or_eq_none_iff, List.getLast?_eq_none_iff,
          List.head?_eq_none_iff] at hstart
        exact hstart
      rw [hnil.1, hnil.2]
    | some start =>
      cases hstart' : incumbent ys xs with
      | none =>
        rw [incumbent, Option.or_eq_none_iff, List.getLast?_eq_none_iff,
          List.head?_eq_none_iff] at hstart'
        rw [hstart'.1, hstart'.2] at hstart
        cases hstart
      | some start' =>
        obtain ⟨e, hwins, hwins'⟩ := h start start' hstart hstart'
        rw [merged, merged, hstart, hstart', Option.map_some, Option.map_some,
          (champion_eq_iff hranking _ _ _).mpr hwins, (champion_eq_iff hranking _ _ _).mpr hwins']

end Champion
