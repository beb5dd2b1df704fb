import AxiomGrid.Lib.PyStr
import Mathlib.Data.List.Basic

/-!
# Texts and their lines

A text as lines with what ends each of them: a line feed, or a carriage return before one. The last line
may have no end. Texts that are split into lines and joined again come back if every line ends in the same
way and the last one has no end.
-/

namespace TextLines

/-- What ends a line. -/
inductive Ending where
  | lf
  | crlf
  | missing
  deriving DecidableEq

def Ending.chars : Ending → Str
  | lf => ['\n']
  | crlf => ['\r', '\n']
  | missing => []

structure Line where
  text : Str
  ending : Ending
  deriving DecidableEq

/-- The lines of a text, with the characters of the line that was begun. -/
def splitFrom (text : Str) : Str → List Line
  | [] => if text = [] then [] else [⟨text, .missing⟩]
  | c :: cs =>
    if c = '\n' then
      (if text.getLast? = some '\r' then ⟨text.dropLast, .crlf⟩ else ⟨text, .lf⟩) :: splitFrom [] cs
    else splitFrom (text ++ [c]) cs

/-- The lines of a text, each with its end. -/
def split (s : Str) : List Line := splitFrom [] s

/-- `s.lines()`. -/
def lines (s : Str) : List Str := (split s).map Line.text

/-- The text of the lines as they are. -/
def raw (ls : List Line) : Str := ls.flatMap fun l => l.text ++ l.ending.chars

/-- A line of a text: it has no line feed in it, a carriage return before one belongs to its end, and
without an end it is not empty. -/
structure Line.Proper (l : Line) : Prop where
  unbroken : '\n' ∉ l.text
  stripped : l.ending = .lf → l.text.getLast? ≠ some '\r'
  nonempty : l.ending = .missing → l.text ≠ []

/-- The lines are those of a text: only the last one may have no end. -/
structure Proper (ls : List Line) : Prop where
  proper : ∀ l ∈ ls, l.Proper
  ended : ∀ l ∈ ls.dropLast, l.ending ≠ .missing

/-- The lines are ended in one way, save for a last line without end. -/
def Uniform (eol : Ending) (ls : List Line) : Prop := ∀ l ∈ ls, l.ending = eol ∨ l.ending = .missing

variable {ls : List Line} {l : Line}

@[simp] lemma raw_nil : raw [] = [] := rfl

@[simp] lemma raw_cons (l : Line) (ls : List Line) : raw (l :: ls) = l.text ++ l.ending.chars ++ raw ls :=
  rfl

@[simp] lemma raw_append (ls ls' : List Line) : raw (ls ++ ls') = raw ls ++ raw ls' :=
  List.flatMap_append

lemma Proper.nil : Proper [] := ⟨fun _ h => absurd h List.not_mem_nil, fun _ h => absurd h List.not_mem_nil⟩

lemma Proper.of_cons (h : Proper (l :: ls)) : Proper ls := by
  refine ⟨(List.forall_mem_cons.mp h.proper).2, fun l' hl' => ?_⟩
  cases ls with
  | nil => cases hl'
  | cons m ms => exact h.ended l' (List.mem_cons_of_mem _ hl')

lemma Proper.cons (hl : l.Proper) (hend : l.ending ≠ .missing) (h : Proper ls) : Proper (l :: ls) := by
  refine ⟨List.forall_mem_cons.mpr ⟨hl, h.proper⟩, fun l' hl' => ?_⟩
  cases ls with
  | nil => cases hl'
  | cons m ms =>
    obtain rfl | hl' := List.mem_cons.mp hl'
    · exact hend
    · exact h.ended l' hl'

/-- The line that a line feed ends. -/
lemma ended_line {text : Str} (h : '\n' ∉ text) {l : Line}
    (hl : l = if text.getLast? = some '\r' then ⟨text.dropLast, .crlf⟩ else ⟨text, .lf⟩) :
    l.Proper ∧ l.ending ≠ .missing ∧ l.text ++ l.ending.chars = text ++ ['\n'] ∧
      (l.ending = .crlf ↔ text.getLast? = some '\r') := by
  subst hl
  split_ifs with hcr
  · refine ⟨⟨fun hmem => h (List.mem_of_mem_dropLast hmem), by simp, by simp⟩, by simp, ?_,
      iff_of_true rfl hcr⟩
    obtain ⟨front, rfl⟩ := List.getLast?_eq_some_iff.mp hcr
    simp [Ending.chars]
  · exact ⟨⟨h, fun _ => hcr, by simp⟩, by simp, rfl, iff_of_false (by simp) hcr⟩

/-- Splitting loses nothing. -/
lemma splitFrom_spec {text : Str} (h : '\n' ∉ text) (s : Str) :
    Proper (splitFrom text s) ∧ raw (splitFrom text s) = text ++ s := by
  induction s generalizing text with
  | nil =>
    rw [splitFrom]
    split_ifs with hnil
    · exact ⟨.nil, by rw [hnil, raw_nil, List.append_nil]⟩
    · refine ⟨⟨List.forall_mem_singleton.mpr ⟨h, by simp, fun _ => hnil⟩, ?_⟩, ?_⟩
      · exact fun _ hl => absurd hl List.not_mem_nil
      · simp [Ending.chars]
  | cons c s ih =>
    rw [splitFrom]
    by_cases hc : c = '\n'
    · rw [if_pos hc]
      obtain ⟨hproper, hend, hchars, -⟩ := ended_line h rfl
      obtain ⟨hrest, hraw⟩ := ih List.not_mem_nil
      refine ⟨hrest.cons hproper hend, ?_⟩
      rw [raw_cons, hchars, hraw, hc, List.nil_append, List.append_assoc, List.singleton_append]
    · rw [if_neg hc]
      obtain ⟨hproper, hraw⟩ := @ih (text ++ [c]) (by simp [h, Ne.symm hc])
      exact ⟨hproper, by rw [hraw, List.append_assoc, List.singleton_append]⟩

lemma proper_split (s : Str) : Proper (split s) := (splitFrom_spec List.not_mem_nil s).1

@[simp] lemma raw_split (s : Str) : raw (split s) = s := (splitFrom_spec List.not_mem_nil s).2

/-- A carriage return and a line feed stand together where a line ends so. -/
lemma crlf_infix_iff {text : Str} (h : '\n' ∉ text) (s : Str) :
    ['\r', '\n'] <:+: text ++ s ↔ ∃ l ∈ splitFrom text s, l.ending = .crlf := by
  induction s generalizing text with
  | nil =>
    refine iff_of_false (fun hinfix => h ?_) ?_
    · rw [List.append_nil] at hinfix
      exact hinfix.subset (by simp)
    · rw [splitFrom]
      split_ifs <;> simp
  | cons c s ih =>
    rw [splitFrom]
    by_cases hc : c = '\n'
    · subst hc
      rw [if_pos rfl, List.exists_mem_cons_iff, (ended_line h rfl).2.2.2, ← ih List.not_mem_nil,
        List.nil_append]
      constructor
      · rintro ⟨a, b, hab⟩
        rw [List.append_assoc, List.cons_append, List.cons_append, List.nil_append] at hab
        obtain ⟨m, rfl, hm⟩ | ⟨m, rfl, hm⟩ := List.append_eq_append_iff.mp hab
        · -- the pair begins in the line, so it ends with the line feed
          obtain _ | ⟨x, m⟩ := m
          · cases hm
          · obtain ⟨rfl, htail⟩ := List.cons.inj hm
            obtain _ | ⟨y, m⟩ := m
            · exact .inl (by simp)
            · obtain ⟨rfl, -⟩ := List.cons.inj htail
              exact absurd (by simp) h
        · obtain _ | ⟨x, m⟩ := m
          · cases hm
          · obtain ⟨-, rfl⟩ := List.cons.inj hm
            exact .inr ⟨m, b, by simp⟩
      · rintro (hcr | ⟨a, b, rfl⟩)
        · obtain ⟨front, rfl⟩ := List.getLast?_eq_some_iff.mp hcr
          exact ⟨front, s, by simp⟩
        · exact ⟨text ++ '\n' :: a, b, by simp⟩
    · rw [if_neg hc, ← @ih (text ++ [c]) (by simp [h, Ne.symm hc]), List.append_assoc,
        List.singleton_append]

lemma contains_crlf_iff (s : Str) :
    Str.contains ['\r', '\n'] s = true ↔ ∃ l ∈ split s, l.ending = .crlf := by
  rw [Str.contains_iff, split, ← crlf_infix_iff List.not_mem_nil, List.nil_append]

/-! ### Joining -/

/-- The texts of lines. -/
def texts (ls : List Line) : List Str := ls.map Line.text

@[simp] lemma texts_cons (l : Line) (ls : List Line) : texts (l :: ls) = l.text :: texts ls := rfl

/-- The lines, all ended in one way. -/
def closed (eol : Ending) (ts : List Str) : Str := ts.flatMap (· ++ eol.chars)

/-- The last line, if there is one, has no end. -/
def Unended (ls : List Line) : Prop := ∀ l ∈ ls.getLast?, l.ending = .missing

/-- What the lines of a text are joined with: not a lone line feed where one ends with a carriage return
too. -/
structure Fits (eol : Ending) (ls : List Line) : Prop where
  given : eol ≠ .missing
  widest : eol = .lf → ∀ l ∈ ls, l.ending ≠ .crlf

/-- A line has more in it than the characters that end lines. -/
def Solid (text : Str) : Prop := ∃ c ∈ text, c ≠ '\r' ∧ c ≠ '\n'

variable {eol : Ending} {ls' : List Line}

lemma Fits.mono (h : Fits eol ls) (hsub : ls' ⊆ ls) : Fits eol ls' :=
  ⟨h.given, fun heol l hl => h.widest heol l (hsub hl)⟩

lemma intercalate_append_cons (eol : Ending) (ts : List Str) (t : Str) (ts' : List Str) :
    List.intercalate eol.chars (ts ++ t :: ts') =
      closed eol ts ++ List.intercalate eol.chars (t :: ts') := by
  induction ts with
  | nil => rfl
  | cons t' ts ih =>
    obtain ⟨u, us, hu⟩ : ∃ u us, ts ++ t :: ts' = u :: us := by cases ts <;> exact ⟨_, _, rfl⟩
    rw [List.cons_append, hu, List.intercalate_cons_cons, ← hu, ih]
    simp only [closed, List.flatMap_cons, List.append_assoc]

lemma join_cons_cons (eol : Ending) (l m : Line) (ls : List Line) :
    List.intercalate eol.chars (texts (l :: m :: ls)) =
      l.text ++ (eol.chars ++ List.intercalate eol.chars (texts (m :: ls))) := by
  rw [texts_cons, texts_cons, List.intercalate_cons_cons, List.append_assoc]

lemma ending_cancel {e : Ending} {x y : Str} (heol : eol ≠ .missing) (he : e ≠ .missing)
    (hwidest : eol = .lf → e ≠ .crlf) (h : e.chars ++ x = eol.chars ++ y) : e = eol ∧ x = y := by
  cases e with
  | missing => exact absurd rfl he
  | lf =>
    cases eol with
    | missing => exact absurd rfl heol
    | lf => exact ⟨rfl, (List.cons.inj h).2⟩
    | crlf => exact absurd (List.cons.inj h).1 (by decide)
  | crlf =>
    cases eol with
    | missing => exact absurd rfl heol
    | lf => exact absurd rfl (hwidest rfl)
    | crlf => exact ⟨rfl, (List.cons.inj (List.cons.inj h).2).2⟩

/-- A line with something in it does not begin with what ends lines. -/
lemma Solid.ne {text x y : Str} (h : Solid text) (hbroken : '\n' ∉ text) (heol : eol ≠ .missing) :
    text ++ x ≠ eol.chars ++ y := by
  intro heq
  obtain ⟨c, hc, hcr, hlf⟩ := h
  obtain _ | ⟨a, text⟩ := text
  · cases hc
  cases eol with
  | missing => exact heol rfl
  | lf =>
    obtain ⟨rfl, -⟩ := List.cons.inj heq
    exact hbroken List.mem_cons_self
  | crlf =>
    obtain ⟨rfl, htail⟩ := List.cons.inj heq
    obtain rfl | hc := List.mem_cons.mp hc
    · exact hcr rfl
    obtain _ | ⟨b, text⟩ := text
    · cases hc
    · obtain ⟨rfl, -⟩ := List.cons.inj htail
      exact hbroken (by simp)

/-- Where the lines as they are begin like the joined ones, they are ended as these are. -/
lemma uniform_of_append_eq (hfits : Fits eol ls) (hended : ∀ l ∈ ls.dropLast, l.ending ≠ .missing)
    {x y : Str} (h : raw ls ++ x = closed eol (texts ls) ++ y) :
    Uniform eol ls ∧ ((∀ l ∈ ls, l.ending ≠ .missing) → x = y) := by
  induction ls with
  | nil => exact ⟨fun _ hl => absurd hl List.not_mem_nil, fun _ => h⟩
  | cons l ls ih =>
    rw [raw_cons, texts, List.map_cons, closed, List.flatMap_cons] at h
    simp only [List.append_assoc] at h
    have hcancel := List.append_cancel_left h
    by_cases hmissing : l.ending = .missing
    · refine ⟨?_, fun hall => absurd hmissing (hall l List.mem_cons_self)⟩
      cases ls with
      | nil => exact List.forall_mem_singleton.mpr (.inr hmissing)
      | cons m ms => exact absurd hmissing (hended l List.mem_cons_self)
    · obtain ⟨heq, hrest⟩ := ending_cancel hfits.given hmissing
        (fun heol => hfits.widest heol l List.mem_cons_self) hcancel
      have hended' : ∀ l' ∈ ls.dropLast, l'.ending ≠ .missing := by
        intro l' hl'
        cases ls with
        | nil => cases hl'
        | cons m ms => exact hended l' (List.mem_cons_of_mem _ hl')
      obtain ⟨huniform, himp⟩ := ih (hfits.mono (List.subset_cons_self l ls)) hended' hrest
      exact ⟨List.forall_mem_cons.mpr ⟨.inl heq, huniform⟩,
        fun hall => himp (List.forall_mem_cons.mp hall).2⟩

/-- The joined lines are the lines as they are only if these are ended in one way, the last one not at
all. -/
lemma join_eq_raw_iff (hfits : Fits eol ls) (hproper : Proper ls) (hne : ls ≠ []) :
    List.intercalate eol.chars (texts ls) = raw ls ↔ Uniform eol ls ∧ Unended ls := by
  induction ls with
  | nil => exact absurd rfl hne
  | cons l ls ih =>
    cases ls with
    | nil =>
      have hsingle : Unended [l] ↔ l.ending = .missing :=
        ⟨fun h => h l rfl, fun h l' hl' => by rwa [← Option.some.inj hl']⟩
      rw [texts, List.map_singleton, List.intercalate_singleton, raw_cons, raw_nil, List.append_nil,
        List.self_eq_append_right, hsingle]
      cases hending : l.ending with
      | missing => exact iff_of_true rfl ⟨List.forall_mem_singleton.mpr (.inr hending), rfl⟩
      | lf => exact iff_of_false (by decide) fun h => by cases h.2
      | crlf => exact iff_of_false (by decide) fun h => by cases h.2
    | cons m ms =>
      have hend : l.ending ≠ .missing := hproper.ended l List.mem_cons_self
      have hrest := ih (hfits.mono (List.subset_cons_self _ _)) hproper.of_cons (List.cons_ne_nil _ _)
      rw [join_cons_cons, raw_cons, List.append_assoc, List.append_cancel_left_eq]
      have hunended : Unended (l :: m :: ms) ↔ Unended (m :: ms) := Iff.rfl
      rw [hunended]
      constructor
      · intro heq
        obtain ⟨heol, hraw⟩ := ending_cancel hfits.given hend
          (fun heol => hfits.widest heol l List.mem_cons_self) heq.symm
        obtain ⟨huniform, hlast⟩ := hrest.mp hraw.symm
        exact ⟨List.forall_mem_cons.mpr ⟨.inl heol, huniform⟩, hlast⟩
      · rintro ⟨huniform, hlast⟩
        obtain ⟨hhead, htail⟩ := List.forall_mem_cons.mp huniform
        rw [hrest.mpr ⟨htail, hlast⟩, hhead.resolve_right hend]

/-! ### What is joined behind a text -/

lemma first_lf {a b x y : Str} (ha : '\n' ∉ a) (hb : '\n' ∉ b) (h : a ++ '\n' :: x = b ++ '\n' :: y) :
    a = b ∧ x = y := by
  have hlength : ∀ {a b x y : Str}, '\n' ∉ a → a ++ '\n' :: x = b ++ '\n' :: y → a.length ≤ b.length := by
    intro a b x y ha h
    by_contra hlt
    have hget : (a ++ '\n' :: x)[b.length]? = some '\n' := by rw [h]; simp
    rw [List.getElem?_append_left (Nat.lt_of_not_le hlt)] at hget
    exact ha (List.mem_of_getElem? hget)
  obtain ⟨rfl, htail⟩ := List.append_inj h (Nat.le_antisymm (hlength ha h) (hlength hb h.symm))
  exact ⟨rfl, (List.cons.inj htail).2⟩

/-- The end of a line is a line feed, after a carriage return or not. -/
lemma Ending.exists_chars {e : Ending} (h : e ≠ .missing) :
    ∃ cr, e.chars = cr ++ ['\n'] ∧ '\n' ∉ cr ∧ (e = .lf ∧ cr = [] ∨ e = .crlf ∧ cr = ['\r']) := by
  cases e with
  | missing => exact absurd rfl h
  | lf => exact ⟨[], by decide⟩
  | crlf => exact ⟨['\r'], by decide⟩

lemma count_join (heol : eol ≠ .missing) (hproper : Proper ls) (hne : ls ≠ []) :
    (List.intercalate eol.chars (texts ls)).count '\n' + 1 = ls.length := by
  have hcount : eol.chars.count '\n' = 1 := by cases eol <;> first | rfl | exact absurd rfl heol
  induction ls with
  | nil => exact absurd rfl hne
  | cons l ls ih =>
    have hl := List.count_eq_zero.mpr (hproper.proper l List.mem_cons_self).unbroken
    cases ls with
    | nil => rw [texts, List.map_singleton, List.intercalate_singleton, hl, List.length_singleton]
    | cons m ms =>
      have hrest := ih hproper.of_cons (List.cons_ne_nil _ _)
      rw [join_cons_cons, List.count_append, List.count_append, hl, hcount, List.length_cons, ← hrest]
      omega

lemma length_le_count_raw (hproper : Proper ls) : ls.length ≤ (raw ls).count '\n' + 1 := by
  induction ls with
  | nil => exact Nat.zero_le _
  | cons l ls ih =>
    cases ls with
    | nil => exact Nat.le_add_left _ _
    | cons m ms =>
      have hrest := ih hproper.of_cons
      obtain ⟨cr, hchars, -⟩ := Ending.exists_chars (hproper.ended l List.mem_cons_self)
      rw [raw_cons, hchars, List.length_cons]
      simp only [List.count_append, List.count_singleton_self] at hrest ⊢
      omega

lemma length_raw_le (hfits : Fits eol ls) (hne : ls ≠ []) :
    (raw ls).length ≤ (eol.chars ++ List.intercalate eol.chars (texts ls)).length := by
  have hending : ∀ l ∈ ls, l.ending.chars.length ≤ eol.chars.length := by
    intro l hl
    obtain ⟨hgiven, hwidest⟩ := hfits
    cases eol with
    | missing => exact absurd rfl hgiven
    | lf =>
      have hne := hwidest rfl l hl
      revert hne
      cases l.ending <;> decide
    | crlf => cases l.ending <;> decide
  induction ls with
  | nil => exact absurd rfl hne
  | cons l ls ih =>
    obtain ⟨hl, hls⟩ := List.forall_mem_cons.mp hending
    cases ls with
    | nil =>
      rw [texts, List.map_singleton, List.intercalate_singleton, raw_cons, raw_nil]
      simp only [List.length_append, List.length_nil]
      omega
    | cons m ms =>
      have hrest := ih (hfits.mono (List.subset_cons_self _ _)) (List.cons_ne_nil _ _) hls
      rw [join_cons_cons, raw_cons]
      simp only [List.length_append] at hrest ⊢
      omega

lemma Ending.eq_of_suffix {e : Ending} {y : Str} (h : y <:+ e.chars) :
    y = [] ∨ ∃ e' : Ending, e' ≠ .missing ∧ y = e'.chars := by
  have hlf : y <:+ Ending.lf.chars → y = [] ∨ ∃ e' : Ending, e' ≠ .missing ∧ y = e'.chars := by
    intro h
    obtain rfl | h := List.suffix_cons_iff.mp h
    · exact .inr ⟨.lf, by decide, rfl⟩
    · exact .inl (List.suffix_nil.mp h)
  cases e with
  | missing => exact .inl (List.suffix_nil.mp h)
  | lf => exact hlf h
  | crlf =>
    obtain rfl | h := List.suffix_cons_iff.mp h
    · exact .inr ⟨.crlf, by decide, rfl⟩
    · exact hlf h

/-- Lines that begin with a solid one are behind a text with the joined lines only if joining changes
nothing. -/
lemma uniform_of_append_raw_eq (hfits : Fits eol ls) (hproper : Proper ls)
    (hsolid : ∀ l ∈ ls.head?, Solid l.text) (hne : ls ≠ []) {x : Str}
    (h : x ++ raw ls = eol.chars ++ List.intercalate eol.chars (texts ls)) :
    Uniform eol ls ∧ Unended ls := by
  obtain ⟨l, ls, rfl⟩ := List.exists_cons_of_ne_nil hne
  have hl := hproper.proper l List.mem_cons_self
  have hbegin : ∀ {e : Ending} {y : Str}, e ≠ .missing → raw (l :: ls) ≠ e.chars ++ y := by
    intro e y he heq
    rw [raw_cons, List.append_assoc] at heq
    exact (hsolid l rfl).ne hl.unbroken he heq
  obtain ⟨y, hj⟩ : ∃ y, List.intercalate eol.chars (texts (l :: ls)) = y ++ raw (l :: ls) := by
    obtain ⟨y, hy, hraw⟩ | ⟨y, -, hraw⟩ := List.append_eq_append_iff.mp h
    · obtain rfl | ⟨e, he, rfl⟩ := Ending.eq_of_suffix ⟨x, hy.symm⟩
      · exact ⟨[], hraw.symm⟩
      · exact absurd hraw (hbegin he)
    · exact ⟨y, hraw⟩
  suffices hy : y = [] by
    rw [hy, List.nil_append] at hj
    exact (join_eq_raw_iff hfits hproper hne).mp hj
  have hbroken : '\n' ∉ y := by
    have hjoin := count_join hfits.given hproper hne
    have hraw := length_le_count_raw hproper
    rw [hj, List.count_append] at hjoin
    exact List.count_eq_zero.mp (by omega)
  cases ls with
  | nil =>
    have hlength := congrArg List.length hj
    rw [texts, List.map_singleton, List.intercalate_singleton, raw_cons] at hlength
    simp only [List.length_append] at hlength
    exact List.length_eq_zero_iff.mp (by omega)
  | cons m ms =>
    have hend := hproper.ended l List.mem_cons_self
    obtain ⟨cr, hchars, hcr, hcase⟩ := Ending.exists_chars hfits.given
    obtain ⟨cr', hchars', hcr', hcase'⟩ := Ending.exists_chars hend
    rw [join_cons_cons, raw_cons, hchars, hchars'] at hj
    -- what stands before the first line feed is the same on both sides
    have hfirst : l.text ++ cr = y ++ l.text ++ cr' := by
      refine (first_lf ?_ ?_ (by simpa using hj)).1
      · simp [hl.unbroken, hcr]
      · simp [hl.unbroken, hcr', hbroken]
    have hlength := congrArg List.length hfirst
    simp only [List.length_append] at hlength
    by_contra hy
    have hpos := List.length_pos_iff.mpr hy
    obtain ⟨-, rfl⟩ | ⟨-, rfl⟩ := hcase
    · rw [List.length_nil] at hlength
      omega
    · obtain ⟨hlf, rfl⟩ | ⟨-, rfl⟩ := hcase'
      · -- the carriage return would be the last character of the line
        refine hl.stripped hlf ?_
        obtain ⟨c, hc, -⟩ := hsolid l rfl
        have hlast := congrArg List.getLast? hfirst
        rw [List.append_nil, List.getLast?_concat, List.getLast?_append,
          Option.or_of_isSome (by simpa using List.ne_nil_of_mem hc)] at hlast
        exact hlast.symm
      · omega

/-! ### Lines that are inserted -/

/-- The joined lines, with others between them that an empty line precedes and one follows. -/
def inserted (eol : Ending) (new : List Str) (ls ls' : List Line) : Str :=
  List.intercalate eol.chars (texts ls ++ [] :: new ++ [] :: texts ls')

/-- Some empty lines. -/
def blank (eol : Ending) (n : ℕ) : Str := (List.replicate n eol.chars).flatten

variable {new : List Str}

lemma inserted_eq (eol : Ending) (new : List Str) (ls ls' : List Line) :
    inserted eol new ls ls' =
      closed eol (texts ls) ++ (eol.chars ++ closed eol new) ++
        if ls' = [] then [] else eol.chars ++ List.intercalate eol.chars (texts ls') := by
  rw [inserted, intercalate_append_cons]
  have hnew : closed eol (texts ls ++ [] :: new) =
      closed eol (texts ls) ++ (eol.chars ++ closed eol new) := by
    simp [closed]
  rw [hnew]
  cases ls' with
  | nil => rw [if_pos rfl]; rfl
  | cons l ls' =>
    rw [if_neg (List.cons_ne_nil _ _), texts_cons, List.intercalate_cons_cons, List.nil_append]

lemma raw_of_uniform (h : Uniform eol ls) (hended : ∀ l ∈ ls, l.ending ≠ .missing) :
    raw ls = closed eol (texts ls) := by
  induction ls with
  | nil => rfl
  | cons l ls ih =>
    obtain ⟨hl, hls⟩ := List.forall_mem_cons.mp h
    obtain ⟨hend, hends⟩ := List.forall_mem_cons.mp hended
    rw [raw_cons, ih hls hends, hl.resolve_right hend]
    rfl

/-- Lines that are inserted between lines are a block of their own if all lines are ended in one way,
except for the last one where it follows them. -/
lemma exists_block (hproper : Proper (ls ++ ls')) (hfits : Fits eol (ls ++ ls'))
    (huniform : Uniform eol (ls ++ ls')) (hlast : ls' = [] ∨ Unended ls') :
    ∃ i j, 1 ≤ i ∧ inserted eol new ls ls' =
      raw ls ++ (blank eol i ++ closed eol new ++ blank eol j) ++ raw ls' := by
  have hls : Uniform eol ls := fun l hl => huniform l (List.mem_append_left _ hl)
  rw [inserted_eq]
  by_cases hnil : ls' = []
  · subst hnil
    rw [if_pos rfl, List.append_nil, raw_nil]
    rw [List.append_nil] at hproper
    obtain rfl | ⟨front, l, rfl⟩ := ls.eq_nil_or_concat
    · exact ⟨1, 0, Nat.le_refl 1, by simp [blank, closed, texts]⟩
    rw [List.concat_eq_append] at hproper hls ⊢
    have hfront : raw front = closed eol (texts front) := by
      refine raw_of_uniform (fun m hm => hls m (List.mem_append_left _ hm)) ?_
      simpa using hproper.ended
    have htexts : closed eol (texts (front ++ [l])) = raw front ++ (l.text ++ eol.chars) := by
      rw [hfront]
      simp [closed, texts]
    rw [htexts, raw_append, raw_cons, raw_nil]
    obtain hl | hl := hls l (by simp)
    · exact ⟨1, 0, Nat.le_refl 1, by simp [blank, hl]⟩
    · exact ⟨2, 0, by decide, by simp [blank, hl, Ending.chars]⟩
  · have hended : ∀ l ∈ ls, l.ending ≠ .missing := by
      intro l hl
      refine hproper.ended l ?_
      rw [List.dropLast_append_of_ne_nil hnil]
      exact List.mem_append_left _ hl
    have hproper' : Proper ls' :=
      ⟨fun l hl => hproper.proper l (List.mem_append_right _ hl), fun l hl => hproper.ended l (by
        rw [List.dropLast_append_of_ne_nil hnil]
        exact List.mem_append_right _ hl)⟩
    have hjoin := (join_eq_raw_iff (hfits.mono (List.subset_append_right _ _)) hproper' hnil).mpr
      ⟨fun l hl => huniform l (List.mem_append_right _ hl), hlast.resolve_left hnil⟩
    rw [if_neg hnil, hjoin, raw_of_uniform hls hended]
    exact ⟨1, 1, Nat.le_refl 1, by simp [blank]⟩

/-- Lines that are inserted early, or between lines that are ended in more than one way, or before a last
line with an end, do more than that. -/
lemma of_exists_block {skipped : List Line} (hproper : Proper (ls ++ (skipped ++ ls')))
    (hfits : Fits eol (ls ++ (skipped ++ ls'))) (hsolid : ∀ l ∈ (skipped ++ ls').head?, Solid l.text)
    {block : Str}
    (h : inserted eol new ls (skipped ++ ls') = raw (ls ++ skipped) ++ block ++ raw ls') :
    skipped = [] ∧ Uniform eol (ls ++ ls') ∧ (ls' = [] ∨ Unended ls') := by
  rw [inserted_eq, raw_append] at h
  simp only [List.append_assoc] at h
  have hfits' : Fits eol ls := hfits.mono (List.subset_append_left _ _)
  by_cases hnil : skipped ++ ls' = []
  · obtain ⟨rfl, rfl⟩ := List.append_eq_nil_iff.mp hnil
    rw [List.nil_append, List.append_nil] at hproper
    obtain ⟨huniform, -⟩ := uniform_of_append_eq hfits' hproper.ended h.symm
    exact ⟨rfl, by rwa [List.append_nil], .inl rfl⟩
  · have hended : ∀ l ∈ ls, l.ending ≠ .missing := by
      intro l hl
      refine hproper.ended l ?_
      rw [List.dropLast_append_of_ne_nil hnil]
      exact List.mem_append_left _ hl
    have hproper' : Proper (skipped ++ ls') :=
      ⟨fun l hl => hproper.proper l (List.mem_append_right _ hl), fun l hl => hproper.ended l (by
        rw [List.dropLast_append_of_ne_nil hnil]
        exact List.mem_append_right _ hl)⟩
    rw [if_neg hnil] at h
    obtain ⟨huniform, hrest⟩ := uniform_of_append_eq hfits'
      (fun l hl => hended l (List.mem_of_mem_dropLast hl)) h.symm
    have hblock := hrest hended
    cases skipped with
    | cons l skipped =>
      rw [raw_cons, List.append_assoc, List.append_assoc] at hblock
      exact absurd hblock ((hsolid l rfl).ne (hproper'.proper l List.mem_cons_self).unbroken hfits.given)
    | nil =>
      rw [List.nil_append] at hnil hsolid hproper'
      rw [raw_nil, List.nil_append, List.nil_append, ← List.append_assoc eol.chars (closed eol new)] at hblock
      have hfits'' : Fits eol ls' := hfits.mono (List.subset_append_right _ _)
      obtain ⟨x, hx⟩ := List.suffix_of_suffix_length_le ⟨block, hblock⟩ ⟨_, rfl⟩
        (length_raw_le hfits'' hnil)
      obtain ⟨huniform', hlast⟩ := uniform_of_append_raw_eq hfits'' hproper' hsolid hnil hx
      exact ⟨rfl, fun l hl => (List.mem_append.mp hl).elim (huniform l) (huniform' l), .inr hlast⟩

end TextLines
