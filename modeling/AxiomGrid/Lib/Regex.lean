import AxiomGrid.Lib.PyStr

/-!
# Regular expressions with backtracking

The patterns of a backtracking matcher, with repetition of one character class, one capturing group,
the anchors, word boundaries and a look-behind of one character. A pattern is run from a position of a text and gives
every way to match there, in the order in which a backtracking matcher tries them, so that its answer
is the first one.

Two facts carry the use of a match in a proof: what a match consumes is a piece of the text, and what
it captures lies inside that piece.
-/

namespace Regex

/-- Patterns; a character class is a predicate. -/
inductive Pattern where
  | empty
  | char (p : Char → Bool)
  | seq (r s : Pattern)
  | alt (r s : Pattern)
  /-- `p*`, or `p*?` when it is not greedy. -/
  | many (greedy : Bool) (p : Char → Bool)
  /-- `( … )`. -/
  | capture (r : Pattern)
  /-- `^`. -/
  | start
  /-- `$`: the end of the text, or the line break that ends it. -/
  | stop
  /-- `(?<=p)`. -/
  | lookbehind (p : Char → Bool)
  /-- `\b`, where `p` holds of the characters of a word. -/
  | boundary (p : Char → Bool)

namespace Pattern

/-- `p+`, or `p+?`. -/
def many1 (greedy : Bool) (p : Char → Bool) : Pattern := .seq (.char p) (.many greedy p)

/-- `r?`. -/
def opt (r : Pattern) : Pattern := .alt r .empty

/-- `p{0,n}`. -/
def upTo (p : Char → Bool) : ℕ → Pattern
  | 0 => .empty
  | n + 1 => opt (.seq (.char p) (upTo p n))

/-- One pattern after the other. -/
def concat : List Pattern → Pattern
  | [] => .empty
  | [r] => r
  | r :: rs => .seq r (concat rs)

/-- `r{n}`. -/
def times (n : ℕ) (r : Pattern) : Pattern := concat (List.replicate n r)

/-- `p{n,}`. -/
def atLeast (n : ℕ) (p : Char → Bool) : Pattern := .seq (times n (.char p)) (.many true p)

/-- `p{m,n}`. -/
def between (m n : ℕ) (p : Char → Bool) : Pattern := .seq (times m (.char p)) (upTo p (n - m))

/-- `r₁|r₂|…`; there is no way to match none of them. -/
def oneOf : List Pattern → Pattern
  | [] => .char fun _ => false
  | [r] => r
  | r :: rs => .alt r (oneOf rs)

/-- The characters that the pattern reads have a property. -/
def Within (q : Char → Prop) : Pattern → Prop
  | .char p | .many _ p => ∀ c, p c = true → q c
  | .seq r s | .alt r s => r.Within q ∧ s.Within q
  | .capture r => r.Within q
  | _ => True

/-- The pattern does not match the empty text. -/
def Consuming : Pattern → Prop
  | .char _ => True
  | .seq r s => r.Consuming ∨ s.Consuming
  | .alt r s => r.Consuming ∧ s.Consuming
  | .capture r => r.Consuming
  | _ => False

end Pattern

/-- The characters that `IGNORECASE` identifies with a lower-case ASCII letter: those with that
lower case, and two letters whose upper case is an ASCII letter. -/
def ignoreCase (u : UnicodeData) (letter c : Char) : Bool :=
  u.simpleLower c == letter || (letter == 'i' && u.simpleLower c == 'ı') ||
    (letter == 's' && u.simpleLower c == 'ſ')

/-- A word of lower-case ASCII letters under `IGNORECASE`. -/
def wordIgnoreCase (u : UnicodeData) (word : String) : Pattern :=
  .concat (word.toList.map fun letter => .char (ignoreCase u letter))

/-- The class `[A-Z]` under `IGNORECASE`. -/
def letterIgnoreCase (u : UnicodeData) (c : Char) : Bool :=
  let lower := u.simpleLower c
  ('a' ≤ lower && lower ≤ 'z') || lower == 'ı' || lower == 'ſ'

/-- A position in a text: what was read, last character first, what is left, and the group. -/
structure State where
  before : Str
  rest : Str
  group : Option Str := none

/-- The stops of a repetition from a position, in the order in which they are tried. -/
def repeats (greedy : Bool) (p : Char → Bool) (group : Option Str) (before : Str) :
    Str → List State
  | [] => [⟨before, [], group⟩]
  | c :: cs =>
    let here : State := ⟨before, c :: cs, group⟩
    if p c then
      if greedy then repeats greedy p group (c :: before) cs ++ [here]
      else here :: repeats greedy p group (c :: before) cs
    else [here]

/-- The ways to match a pattern at a position. -/
def run : Pattern → State → List State
  | .empty, s => [s]
  | .char p, s =>
    match s.rest with
    | [] => []
    | c :: cs => if p c then [⟨c :: s.before, cs, s.group⟩] else []
  | .seq r t, s => (run r s).flatMap (run t)
  | .alt r t, s => run r s ++ run t s
  | .many greedy p, s => repeats greedy p s.group s.before s.rest
  | .capture r, s =>
    (run r s).map fun s' =>
      { s' with group := some (s.rest.take (s.rest.length - s'.rest.length)) }
  | .start, s => if s.before = [] then [s] else []
  | .stop, s => if s.rest = [] ∨ s.rest = ['\n'] then [s] else []
  | .lookbehind p, s => if s.before.head?.any p then [s] else []
  | .boundary p, s => if s.before.head?.any p = s.rest.head?.any p then [] else [s]

/-! ### Matches -/

/-- A match: the text skipped before it, its own text, the group and the text after it. -/
structure Match where
  skipped : Str
  text : Str
  group : Option Str
  rest : Str

/-- The first way to match at a position. -/
def matchAt (r : Pattern) (before rest : Str) : Option Match :=
  (run r ⟨before, rest, none⟩).head?.map fun s =>
    { skipped := []
      text := rest.take (rest.length - s.rest.length)
      group := s.group
      rest := s.rest }

/-- The leftmost match from a position on. -/
def searchFrom (r : Pattern) (before : Str) : Str → Option Match
  | [] => matchAt r before []
  | c :: cs =>
    match matchAt r before (c :: cs) with
    | some m => some m
    | none => (searchFrom r (c :: before) cs).map fun m => { m with skipped := c :: m.skipped }

/-- `re.search(r, s)`. -/
def search (r : Pattern) (s : Str) : Option Match := searchFrom r [] s

/-- `re.match(r, s)`. -/
def matchStart (r : Pattern) (s : Str) : Option Match := matchAt r [] s

/-- The pieces between the first `fuel` matches. -/
def pieces (r : Pattern) : ℕ → Str → Str → List Str
  | 0, _, rest => [rest]
  | fuel + 1, before, rest =>
    match searchFrom r before rest with
    | none => [rest]
    | some m => m.skipped :: pieces r fuel ((m.skipped ++ m.text).reverse ++ before) m.rest

/-- `re.split(r, s)` for a pattern without groups that does not match the empty text. -/
def split (r : Pattern) (s : Str) : List Str := pieces r s.length [] s

/-- `re.sub(r, '', s)` for a pattern that does not match the empty text. -/
def remove (r : Pattern) (s : Str) : Str := (split r s).flatten

/-- The text with its first `fuel` matches replaced. -/
def subFrom (r : Pattern) (f : Match → Str) : ℕ → Str → Str → Str
  | 0, _, rest => rest
  | fuel + 1, before, rest =>
    match searchFrom r before rest with
    | none => rest
    | some m => m.skipped ++ f m ++ subFrom r f fuel ((m.skipped ++ m.text).reverse ++ before) m.rest

/-- `re.sub(r, f, s)` for a pattern that does not match the empty text. -/
def sub (r : Pattern) (f : Match → Str) (s : Str) : Str := subFrom r f s.length [] s

/-- The first `fuel` matches. -/
def matchesFrom (r : Pattern) : ℕ → Str → Str → List Match
  | 0, _, _ => []
  | fuel + 1, before, rest =>
    match searchFrom r before rest with
    | none => []
    | some m => m :: matchesFrom r fuel ((m.skipped ++ m.text).reverse ++ before) m.rest

/-- `re.findall(r, s)` for a pattern without groups that does not match the empty text. -/
def findall (r : Pattern) (s : Str) : List Str := (matchesFrom r s.length [] s).map Match.text

/-! ### What a match reads -/

/-- The step from one position to another reads the text `w`, whose characters are of the pattern. -/
structure Reads (r : Pattern) (s s' : State) (w : Str) : Prop where
  rest : s.rest = w ++ s'.rest
  before : s'.before = w.reverse ++ s.before
  within : ∀ q, r.Within q → ∀ c ∈ w, q c
  consuming : r.Consuming → w ≠ []
  group : s'.group = s.group ∨ ∃ g, s'.group = some g ∧ g <:+: w

lemma reads_nil {r : Pattern} (hr : r.Consuming → False) (s : State) : Reads r s s [] :=
  ⟨rfl, rfl, by simp, fun h => (hr h).elim, .inl rfl⟩

lemma repeats_reads {greedy : Bool} {p : Char → Bool} {group : Option Str} {before rest : Str}
    {s' : State} (h : s' ∈ repeats greedy p group before rest) :
    Reads (.many greedy p) ⟨before, rest, group⟩ s' (rest.take (rest.length - s'.rest.length)) := by
  induction rest generalizing before with
  | nil =>
    rw [repeats, List.mem_singleton] at h
    subst h
    exact reads_nil id _
  | cons c cs ih =>
    have hhere : ∀ {t : State}, t = ⟨before, c :: cs, group⟩ →
        Reads (.many greedy p) ⟨before, c :: cs, group⟩ t
          ((c :: cs).take ((c :: cs).length - t.rest.length)) := by
      rintro t rfl
      rw [Nat.sub_self]
      exact reads_nil id _
    have hmore : p c = true → s' ∈ repeats greedy p group (c :: before) cs →
        Reads (.many greedy p) ⟨before, c :: cs, group⟩ s'
          ((c :: cs).take ((c :: cs).length - s'.rest.length)) := by
      intro hc hs'
      obtain ⟨hrest, hbefore, hwithin, -, hgroup⟩ := ih hs'
      have hle : s'.rest.length ≤ cs.length := by
        have := congrArg List.length hrest
        rw [List.length_append] at this
        simp only at this
        omega
      rw [List.length_cons, Nat.succ_sub hle, List.take_succ_cons]
      refine ⟨congrArg (c :: ·) hrest, by simpa using hbefore, ?_, False.elim, ?_⟩
      · intro q hq
        exact List.forall_mem_cons.mpr ⟨hq c hc, hwithin q hq⟩
      · exact hgroup.imp_right fun ⟨g, hg, hpart⟩ => ⟨g, hg, hpart.trans (List.infix_cons_iff.mpr
          (.inr (List.infix_refl _)))⟩
    rw [repeats] at h
    split_ifs at h with hc hgreedy
    · rw [List.mem_append, List.mem_singleton] at h
      exact h.elim (hmore hc) hhere
    · rw [List.mem_cons] at h
      exact h.elim hhere (hmore hc)
    · exact hhere (List.mem_singleton.mp h)

lemma Reads.trans {r t : Pattern} {s s' s'' : State} {w w' : Str} (h : Reads r s s' w)
    (h' : Reads t s' s'' w') : Reads (.seq r t) s s'' (w ++ w') := by
  refine ⟨?_, ?_, ?_, ?_, ?_⟩
  · rw [h.rest, h'.rest, List.append_assoc]
  · rw [h'.before, h.before, List.reverse_append, List.append_assoc]
  · rintro q ⟨hr, ht⟩ c hc
    exact (List.mem_append.mp hc).elim (h.within q hr c) (h'.within q ht c)
  · rintro hconsuming hnil
    rw [List.append_eq_nil_iff] at hnil
    exact hconsuming.elim (fun hr => h.consuming hr hnil.1) fun ht => h'.consuming ht hnil.2
  · obtain hg' | ⟨g, hg', hpart⟩ := h'.group
    · rw [hg']
      exact h.group.imp_right fun ⟨g, hg, hpart⟩ =>
        ⟨g, hg, hpart.trans (List.prefix_append _ _).isInfix⟩
    · exact .inr ⟨g, hg', hpart.trans (List.suffix_append _ _).isInfix⟩

/-- A match reads a piece of the text from its position on, and captures a piece of that. -/
lemma run_reads {r : Pattern} {s s' : State} (h : s' ∈ run r s) : ∃ w, Reads r s s' w := by
  induction r generalizing s s' with
  | empty =>
    rw [run, List.mem_singleton] at h
    subst h
    exact ⟨[], reads_nil id s'⟩
  | char p =>
    obtain ⟨before, rest, group⟩ := s
    cases rest with
    | nil => cases h
    | cons c cs =>
      simp only [run] at h
      split_ifs at h with hc
      · rw [List.mem_singleton] at h
        subst h
        exact ⟨[c], rfl, rfl, fun q hq => by simpa using hq c hc, by simp, .inl rfl⟩
      · cases h
  | seq r t ihr iht =>
    rw [run, List.mem_flatMap] at h
    obtain ⟨mid, hmid, hs'⟩ := h
    obtain ⟨w, hw⟩ := ihr hmid
    obtain ⟨w', hw'⟩ := iht hs'
    exact ⟨w ++ w', hw.trans hw'⟩
  | alt r t ihr iht =>
    rw [run, List.mem_append] at h
    obtain h | h := h
    · obtain ⟨w, hw⟩ := ihr h
      exact ⟨w, hw.rest, hw.before, fun q hq => hw.within q hq.1,
        fun h => hw.consuming h.1, hw.group⟩
    · obtain ⟨w, hw⟩ := iht h
      exact ⟨w, hw.rest, hw.before, fun q hq => hw.within q hq.2,
        fun h => hw.consuming h.2, hw.group⟩
  | many greedy p => exact ⟨_, repeats_reads h⟩
  | capture r ih =>
    rw [run, List.mem_map] at h
    obtain ⟨mid, hmid, rfl⟩ := h
    obtain ⟨w, hw⟩ := ih hmid
    have htake : s.rest.take (s.rest.length - mid.rest.length) = w := by
      rw [hw.rest, List.length_append, Nat.add_sub_cancel, List.take_left]
    exact ⟨w, hw.rest, hw.before, hw.within, hw.consuming, .inr ⟨w, by rw [htake],
      List.infix_refl w⟩⟩
  | start =>
    simp only [run] at h
    split_ifs at h
    · exact ⟨[], List.mem_singleton.mp h ▸ reads_nil id s'⟩
    · cases h
  | stop =>
    simp only [run] at h
    split_ifs at h
    · exact ⟨[], List.mem_singleton.mp h ▸ reads_nil id s'⟩
    · cases h
  | lookbehind p =>
    simp only [run] at h
    split_ifs at h
    · exact ⟨[], List.mem_singleton.mp h ▸ reads_nil id s'⟩
    · cases h
  | boundary p =>
    simp only [run] at h
    split_ifs at h
    · cases h
    · exact ⟨[], List.mem_singleton.mp h ▸ reads_nil id s'⟩

/-- What the last pattern of a sequence ensures of its end, the sequence ensures. -/
lemma run_seq_last {P : State → Prop} {r t : Pattern} (ht : ∀ {s s'}, s' ∈ run t s → P s')
    {s s' : State} (h : s' ∈ run (.seq r t) s) : P s' := by
  rw [run, List.mem_flatMap] at h
  obtain ⟨mid, -, hs'⟩ := h
  exact ht hs'

lemma run_stop {s s' : State} (h : s' ∈ run .stop s) : s'.rest = [] ∨ s'.rest = ['\n'] := by
  simp only [run] at h
  split_ifs at h with hrest
  · rwa [List.mem_singleton.mp h]
  · cases h

/-! ### Matches -/

/-- The parts of a match make up the text that was searched. -/
structure Match.Of (r : Pattern) (rest : Str) (m : Match) : Prop where
  parts : rest = m.skipped ++ m.text ++ m.rest
  within : ∀ q, r.Within q → ∀ c ∈ m.text, q c
  consuming : r.Consuming → m.text ≠ []
  group : ∀ g, m.group = some g → g <:+: m.text
  /-- The match ends where some run of the pattern ends. -/
  run : ∃ s s', s' ∈ run r s ∧ s'.rest = m.rest

lemma matchAt_spec {r : Pattern} {before rest : Str} {m : Match} (h : matchAt r before rest = some m) :
    m.skipped = [] ∧ m.Of r rest := by
  rw [matchAt, Option.map_eq_some_iff] at h
  obtain ⟨s', hs', rfl⟩ := h
  have hmem := List.mem_of_mem_head? hs'
  obtain ⟨w, hw⟩ := run_reads hmem
  have hrest : rest = w ++ s'.rest := hw.rest
  have htake : rest.take (rest.length - s'.rest.length) = w := by
    rw [hrest, List.length_append, Nat.add_sub_cancel, List.take_left]
  refine ⟨rfl, ?_, ?_, ?_, ?_, _, s', hmem, rfl⟩
  · simp only [htake, List.nil_append]
    exact hrest
  · simp only [htake]
    exact hw.within
  · simp only [htake]
    exact hw.consuming
  · simp only [htake]
    intro g hg
    obtain hnone | ⟨g', hg', hpart⟩ := hw.group
    · rw [hg] at hnone
      cases hnone
    · rw [hg, Option.some.injEq] at hg'
      exact hg' ▸ hpart

/-- A search matches here, or it skips a character. -/
lemma searchFrom_cons_eq_some {r : Pattern} {before cs : Str} {c : Char} {m : Match}
    (h : searchFrom r before (c :: cs) = some m) : matchAt r before (c :: cs) = some m ∨
      matchAt r before (c :: cs) = none ∧ ∃ m', searchFrom r (c :: before) cs = some m' ∧
        m = { m' with skipped := c :: m'.skipped } := by
  cases hat : matchAt r before (c :: cs) with
  | some m' =>
    rw [searchFrom, hat] at h
    exact .inl h
  | none =>
    rw [searchFrom, hat] at h
    obtain ⟨m', hm', rfl⟩ := Option.map_eq_some_iff.mp h
    exact .inr ⟨rfl, m', hm', rfl⟩

lemma searchFrom_spec {r : Pattern} {before rest : Str} {m : Match}
    (h : searchFrom r before rest = some m) : m.Of r rest := by
  induction rest generalizing before m with
  | nil => exact (matchAt_spec h).2
  | cons c cs ih =>
    obtain hat | ⟨-, m', hm', rfl⟩ := searchFrom_cons_eq_some h
    · exact (matchAt_spec hat).2
    · obtain ⟨hparts, hwithin, hconsuming, hgroup, hrun⟩ := ih hm'
      exact ⟨congrArg (c :: ·) hparts, hwithin, hconsuming, hgroup, hrun⟩

/-- A pattern anchored at the start matches nowhere else. -/
lemma searchFrom_start {r : Pattern} {before rest : Str} (h : before ≠ []) :
    searchFrom (.seq .start r) before rest = none := by
  have hat : ∀ {before rest : Str}, before ≠ [] → matchAt (.seq .start r) before rest = none := by
    intro before rest hne
    simp [matchAt, run, hne]
  induction rest generalizing before with
  | nil => exact hat h
  | cons c cs ih =>
    rw [searchFrom, hat h, ih (List.cons_ne_nil c before)]
    rfl

lemma pieces_succ_of_none {r : Pattern} {fuel : ℕ} {before rest : Str}
    (h : searchFrom r before rest = none) : pieces r (fuel + 1) before rest = [rest] := by
  rw [pieces, h]

lemma pieces_succ_of_some {r : Pattern} {fuel : ℕ} {before rest : Str} {m : Match}
    (h : searchFrom r before rest = some m) : pieces r (fuel + 1) before rest =
      m.skipped :: pieces r fuel ((m.skipped ++ m.text).reverse ++ before) m.rest := by
  rw [pieces, h]

/-- The pieces of the empty text. -/
lemma flatten_pieces_nil (r : Pattern) (fuel : ℕ) (before : Str) :
    (pieces r fuel before []).flatten = [] := by
  induction fuel generalizing before with
  | zero => rfl
  | succ fuel ih =>
    cases hm : searchFrom r before [] with
    | none => rw [pieces_succ_of_none hm, List.flatten_singleton]
    | some m =>
      have hparts := (searchFrom_spec hm).parts
      rw [eq_comm, List.append_eq_nil_iff, List.append_eq_nil_iff] at hparts
      rw [pieces_succ_of_some hm, List.flatten_cons, hparts.1.1, hparts.2, ih]
      rfl

/-- Removing a pattern anchored at the start leaves an end of the text. -/
lemma suffix_remove_start (r : Pattern) (s : Str) : remove (.seq .start r) s <:+ s := by
  suffices hpieces : ∀ (fuel : ℕ) (before rest : Str),
      (pieces (.seq .start r) fuel before rest).flatten <:+ rest from hpieces _ _ _
  intro fuel
  induction fuel with
  | zero =>
    intro before rest
    exact (List.flatten_singleton).symm ▸ List.suffix_refl rest
  | succ fuel ih =>
    intro before rest
    cases hm : searchFrom (.seq .start r) before rest with
    | none =>
      rw [pieces_succ_of_none hm, List.flatten_singleton]
    | some m =>
      have hskipped : m.skipped = [] := by
        cases rest with
        | nil => exact (matchAt_spec hm).1
        | cons c cs =>
          obtain hat | ⟨-, m', hm', -⟩ := searchFrom_cons_eq_some hm
          · exact (matchAt_spec hat).1
          · rw [searchFrom_start (List.cons_ne_nil c before)] at hm'
            cases hm'
      rw [pieces_succ_of_some hm, List.flatten_cons, hskipped, List.nil_append]
      exact (ih _ _).trans ⟨_, (searchFrom_spec hm).parts.symm⟩

/-- Removing a pattern that ends at the end of a line leaves a start of the line. -/
lemma prefix_remove_stop {r : Pattern} (hr : ∀ {s s'}, s' ∈ run r s → s'.rest = [] ∨ s'.rest = ['\n'])
    {s : Str} (hs : '\n' ∉ s) : remove r s <+: s := by
  rw [remove, split]
  cases s.length with
  | zero => exact (List.flatten_singleton).symm ▸ List.prefix_refl s
  | succ fuel =>
    cases hm : searchFrom r [] s with
    | none => rw [pieces_succ_of_none hm, List.flatten_singleton]
    | some m =>
      have hof := searchFrom_spec hm
      obtain ⟨t, t', ht', hrest⟩ := hof.run
      have hnil : m.rest = [] := by
        obtain hnil | hbreak := hr ht'
        · rw [← hrest, hnil]
        · exact absurd (by rw [hof.parts, ← hrest, hbreak]; simp) hs
      rw [pieces_succ_of_some hm, List.flatten_cons, hnil, flatten_pieces_nil, List.append_nil]
      exact ⟨m.text ++ m.rest, by rw [← List.append_assoc, ← hof.parts]⟩

/-- The first piece is a start of the text. -/
lemma pieces_eq_cons (r : Pattern) (fuel : ℕ) (before rest : Str) :
    ∃ x xs, pieces r fuel before rest = x :: xs ∧ x <+: rest := by
  cases fuel with
  | zero => exact ⟨rest, [], rfl, List.prefix_refl rest⟩
  | succ fuel =>
    cases hm : searchFrom r before rest with
    | none => exact ⟨rest, [], pieces_succ_of_none hm, List.prefix_refl rest⟩
    | some m =>
      refine ⟨_, _, pieces_succ_of_some hm, m.text ++ m.rest, ?_⟩
      rw [← List.append_assoc, ← (searchFrom_spec hm).parts]

/-- The first two pieces, and the separator between them. -/
lemma take_two_split {r : Pattern} {q : Char → Prop} (hr : r.Within q) (hconsuming : r.Consuming)
    (s : Str) :
    (split r s).take 2 = [s] ∨
    ∃ x w y z, (split r s).take 2 = [x, y] ∧ s = x ++ w ++ y ++ z ∧ w ≠ [] ∧ ∀ c ∈ w, q c := by
  rw [split]
  cases s.length with
  | zero => exact .inl rfl
  | succ fuel =>
    cases hm : searchFrom r [] s with
    | none => exact .inl (by rw [pieces_succ_of_none hm]; rfl)
    | some m =>
      have hof := searchFrom_spec hm
      obtain ⟨y, ys, hys, z, hz⟩ := pieces_eq_cons r fuel ((m.skipped ++ m.text).reverse ++ []) m.rest
      refine .inr ⟨m.skipped, m.text, y, z, ?_, ?_, hof.consuming hconsuming,
        hof.within q hr⟩
      · rw [pieces_succ_of_some hm, hys]
        rfl
      · rw [List.append_assoc, hz]
        exact hof.parts

/-- A match is a run of the pattern. -/
lemma searchFrom_run {r : Pattern} {before rest : Str} {m : Match}
    (h : searchFrom r before rest = some m) :
    ∃ s s', s' ∈ run r s ∧ s.rest = m.text ++ s'.rest ∧ s'.group = m.group := by
  have hat : ∀ {before rest : Str} {m : Match}, matchAt r before rest = some m →
      ∃ s s', s' ∈ run r s ∧ s.rest = m.text ++ s'.rest ∧ s'.group = m.group := by
    intro before rest m h
    rw [matchAt, Option.map_eq_some_iff] at h
    obtain ⟨s', hs', rfl⟩ := h
    have hmem := List.mem_of_mem_head? hs'
    obtain ⟨w, hw⟩ := run_reads hmem
    have hrest : rest = w ++ s'.rest := hw.rest
    refine ⟨_, s', hmem, ?_, rfl⟩
    simp only [hrest, List.length_append, Nat.add_sub_cancel, List.take_left]
  induction rest generalizing before m with
  | nil => exact hat h
  | cons c cs ih =>
    obtain hm | ⟨-, m', hm', rfl⟩ := searchFrom_cons_eq_some h
    · exact hat hm
    · obtain ⟨t, t', hrun⟩ := ih hm'
      exact ⟨t, t', hrun⟩

/-- A piece of the text lies between two separators, or at an end of the text. -/
lemma mem_pieces {r : Pattern} {q : Char → Prop} (hr : r.Within q) (hconsuming : r.Consuming)
    {fuel : ℕ} {before rest x : Str} (h : x ∈ pieces r fuel before rest) :
    ∃ l t, rest = l ++ x ++ t ∧ (l = [] ∨ ∃ l' c, l = l' ++ [c] ∧ q c) ∧
      (t = [] ∨ ∃ c t', t = c :: t' ∧ q c) := by
  induction fuel generalizing before rest with
  | zero =>
    obtain rfl := List.mem_singleton.mp h
    exact ⟨[], [], by simp, .inl rfl, .inl rfl⟩
  | succ fuel ih =>
    cases hm : searchFrom r before rest with
    | none =>
      rw [pieces_succ_of_none hm, List.mem_singleton] at h
      exact ⟨[], [], by simp [h], .inl rfl, .inl rfl⟩
    | some m =>
      have hof := searchFrom_spec hm
      have hne := hof.consuming hconsuming
      rw [pieces_succ_of_some hm, List.mem_cons] at h
      obtain rfl | h := h
      · obtain ⟨c, w, hw⟩ := List.exists_cons_of_ne_nil hne
        refine ⟨[], m.text ++ m.rest, by rw [hof.parts]; simp, .inl rfl, .inr ⟨c, w ++ m.rest, ?_, ?_⟩⟩
        · rw [hw, List.cons_append]
        · exact hof.within q hr c (hw ▸ List.mem_cons_self)
      · obtain ⟨l, t, hrest, hl, ht⟩ := ih h
        refine ⟨m.skipped ++ m.text ++ l, t, by rw [hof.parts, hrest]; simp, .inr ?_, ht⟩
        obtain rfl | ⟨l', c, rfl, hc⟩ := hl
        · refine ⟨m.skipped ++ m.text.dropLast, m.text.getLast hne, ?_, ?_⟩
          · rw [List.append_nil, List.append_assoc, List.dropLast_append_getLast]
          · exact hof.within q hr _ (List.getLast_mem hne)
        · exact ⟨m.skipped ++ m.text ++ l', c, by simp, hc⟩

/-! ### Replacements -/

/-- A text without characters of the pattern stays as it is. -/
lemma sub_of_not_within {r : Pattern} {q : Char → Prop} (hr : r.Within q) (hconsuming : r.Consuming)
    {s : Str} (hs : ∀ c ∈ s, ¬q c) (f : Match → Str) : sub r f s = s := by
  rw [sub]
  cases s.length with
  | zero => rfl
  | succ fuel =>
    rw [subFrom]
    split
    · rfl
    · rename_i m hm
      have hof := searchFrom_spec hm
      obtain ⟨c, w, hw⟩ := List.exists_cons_of_ne_nil (hof.consuming hconsuming)
      have hc : c ∈ m.text := hw ▸ List.mem_cons_self
      refine absurd (hof.within q hr c hc) (hs c ?_)
      rw [hof.parts]
      simp [hc]

/-- A piece without a character lies on one side of it. -/
lemma append_cons_eq_append {a b x w y : Str} {c : Char} (hc : c ∉ w)
    (h : a ++ c :: b = x ++ w ++ y) :
    (∃ y', a = x ++ w ++ y' ∧ y = y' ++ c :: b) ∨ ∃ x', x = a ++ c :: x' ∧ b = x' ++ w ++ y := by
  obtain ⟨z, ha, hy⟩ | ⟨z, hlw, hz⟩ := List.append_eq_append_iff.mp h.symm
  · exact .inl ⟨z, ha, hy⟩
  · cases z with
    | nil =>
      rw [List.append_nil] at hlw
      exact .inl ⟨[], by rw [hlw, List.append_nil], hz.symm⟩
    | cons d z =>
      rw [List.cons_append, List.cons.injEq] at hz
      obtain ⟨rfl, hz⟩ := hz
      obtain ⟨t, hx, hw⟩ | ⟨t, ha, hw⟩ := List.append_eq_append_iff.mp hlw
      · exact absurd (by rw [hw]; simp) hc
      · cases t with
        | nil => exact absurd (by rw [← show c :: z = w from hw]; simp) hc
        | cons e t =>
          rw [List.cons_append, List.cons.injEq] at hw
          obtain ⟨rfl, rfl⟩ := hw
          exact .inr ⟨t, ha, by rw [hz]⟩

lemma infix_of_append_cons {w a b : Str} {c : Char} (hc : c ∉ w) (h : w <:+: a ++ c :: b) :
    w <:+: a ∨ w <:+: b := by
  obtain ⟨l, t, h⟩ := h
  obtain ⟨t', rfl, -⟩ | ⟨l', -, rfl⟩ := append_cons_eq_append hc h.symm
  · exact .inl ⟨l, t', rfl⟩
  · exact .inr ⟨l', t, rfl⟩

/-- Where matches become one character, a piece without that character is a piece of the text. -/
lemma infix_of_infix_sub {r : Pattern} {c : Char} {w s : Str} (hc : c ∉ w)
    (h : w <:+: sub r (fun _ => [c]) s) : w <:+: s := by
  suffices hfrom : ∀ (fuel : ℕ) (before rest : Str),
      w <:+: subFrom r (fun _ => [c]) fuel before rest → w <:+: rest from hfrom _ _ _ h
  intro fuel
  induction fuel with
  | zero => exact fun before rest h => h
  | succ fuel ih =>
    intro before rest h
    rw [subFrom] at h
    split at h
    · exact h
    · rename_i m hm
      have hparts := (searchFrom_spec hm).parts
      rw [List.append_assoc, List.singleton_append] at h
      obtain h | h := infix_of_append_cons hc h
      · exact h.trans ⟨[], m.text ++ m.rest, by rw [hparts]; simp⟩
      · exact (ih _ _ h).trans ⟨m.skipped ++ m.text, [], by rw [hparts]; simp⟩

end Regex
