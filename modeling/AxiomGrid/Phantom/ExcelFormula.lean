import AxiomGrid.Lib.TopLevel
import AxiomGrid.Lib.Trim
import AxiomGrid.Receipts.Log
import Mathlib.Data.BitVec

/-!
# The arguments of a formula

`extract_top_level_args` of `phantom-core/src/excel_formula.rs`. All closing parentheses at the end of the
formula are stripped, and not only the one of the call, so a last argument that ends with a call loses its
own; and the depth of the parentheses counts the ones in string literals too.
-/

namespace AxiomGrid.Phantom.ExcelFormula

open Receipts (isWhiteSpace)

/-- The variables of the loop. The depth is an `i32` that wraps around. -/
structure Splitter where
  args : List Str := []
  depth : BitVec 32 := 0
  current : Str := []

/-- A turn of the loop. -/
def Splitter.push (s : Splitter) (ch : Char) : Splitter :=
  if ch = '(' then { s with depth := s.depth + 1, current := s.current ++ [ch] }
  else if ch = ')' then { s with depth := s.depth - 1, current := s.current ++ [ch] }
  else if ch = ',' ∧ s.depth = 0 then
    { s with args := s.args ++ [s.current.trim isWhiteSpace], current := [] }
  else { s with current := s.current ++ [ch] }

/-- What stands behind the loop: the last argument is left out if it is blank. -/
def Splitter.finish (s : Splitter) : List Str :=
  if s.current.trim isWhiteSpace = [] then s.args else s.args ++ [s.current.trim isWhiteSpace]

/-- `extract_top_level_args`. -/
def extractTopLevelArgs (formula : Str) : List Str :=
  match formula.dropWhile (· ≠ '(') with
  | [] => []
  | _ :: inner => ((inner.rdropWhile (· = ')')).foldl Splitter.push {}).finish

/-! ### The loop -/

/-- The depth behind a character. -/
def nest (depth : BitVec 32) (ch : Char) : BitVec 32 :=
  if ch = '(' then depth + 1 else if ch = ')' then depth - 1 else depth

/-- The arguments, of the pieces that the commas at the top level separate. -/
def collect : List Str → List Str
  | [] => []
  | [piece] => if piece.trim isWhiteSpace = [] then [] else [piece.trim isWhiteSpace]
  | piece :: pieces => piece.trim isWhiteSpace :: collect pieces

lemma collect_cons {piece : Str} {pieces : List Str} (h : pieces ≠ []) :
    collect (piece :: pieces) = piece.trim isWhiteSpace :: collect pieces := by
  cases pieces with
  | nil => exact absurd rfl h
  | cons q qs => rfl

lemma finish_foldl_push (inner : Str) (s : Splitter) :
    (inner.foldl Splitter.push s).finish =
      s.args ++ collect (TopLevel.split nest 0 ',' inner s.depth s.current) := by
  induction inner generalizing s with
  | nil =>
    rw [List.foldl_nil, Splitter.finish, TopLevel.split, collect]
    split_ifs
    · rw [List.append_nil]
    · rfl
  | cons ch inner ih =>
    rw [List.foldl_cons, ih, TopLevel.split, Splitter.push, nest]
    split_ifs with hopen hcomma hclose hcomma hcomma
    · rw [hopen] at hcomma
      exact absurd hcomma.1 (by decide)
    · rfl
    · rw [hclose] at hcomma
      exact absurd hcomma.1 (by decide)
    · rfl
    · rw [collect_cons TopLevel.split_ne_nil, List.append_assoc, List.singleton_append, hcomma.2]
    · rfl

/-- The text of a call. -/
def call (name : Str) (args : List Str) : Str := name ++ '(' :: [','].intercalate args ++ [')']

lemma extractTopLevelArgs_call {name : Str} (h : '(' ∉ name) (args : List Str) :
    extractTopLevelArgs (call name args) =
      collect (TopLevel.split nest 0 ',' (([','].intercalate args).rdropWhile (· = ')')) 0 []) := by
  have hname : (call name args).dropWhile (· ≠ '(') = '(' :: ([','].intercalate args ++ [')']) := by
    rw [call, List.append_assoc, List.dropWhile_append_of_pos, List.cons_append]
    · exact List.dropWhile_cons_of_neg (by simp)
    · rintro c hc
      exact decide_eq_true fun heq => h (heq ▸ hc)
  rw [extractTopLevelArgs, hname]
  dsimp only
  rw [List.rdropWhile_concat_pos _ _ _ (by simp), finish_foldl_push, List.nil_append]

/-! ### What is collected -/

variable {args pieces : List Str}

/-- No argument is blank. -/
def Nonblank (args : List Str) : Prop := ∀ arg ∈ args, arg.trim isWhiteSpace ≠ []

instance (args : List Str) : Decidable (Nonblank args) :=
  inferInstanceAs (Decidable (∀ arg ∈ args, _))

lemma collect_of_nonblank (h : Nonblank args) : collect args = args.map (List.trim isWhiteSpace) := by
  induction args with
  | nil => rfl
  | cons arg args ih =>
    obtain ⟨hhead, htail⟩ := List.forall_mem_cons.mp h
    cases args with
    | nil => exact if_neg hhead
    | cons arg' args =>
      rw [collect_cons (List.cons_ne_nil _ _), ih htail]
      rfl

/-- As many arguments as there are pieces, or one less. -/
lemma collect_eq_map (h : (collect pieces).length = pieces.length) :
    collect pieces = pieces.map (List.trim isWhiteSpace) := by
  induction pieces with
  | nil => rfl
  | cons piece pieces ih =>
    cases pieces with
    | nil =>
      rw [collect] at h ⊢
      split_ifs at h ⊢
      rfl
    | cons q qs =>
      rw [collect_cons (List.cons_ne_nil _ _)] at h ⊢
      rw [ih (Nat.succ.inj h)]
      rfl

lemma count_trim {ch : Char} (hch : isWhiteSpace ch = false) (s : Str) :
    (s.trim isWhiteSpace).count ch = s.count ch := by
  rw [List.count_eq_length_filter, List.count_eq_length_filter, List.filter_trim]
  rintro c hc
  rwa [beq_iff_eq.mp hc]

/-- What is neither a comma nor white space is collected. -/
lemma sum_count_collect {ch : Char} (hch : isWhiteSpace ch = false) :
    ((collect pieces).map (List.count ch)).sum = (pieces.map (List.count ch)).sum := by
  induction pieces with
  | nil => rfl
  | cons piece pieces ih =>
    cases pieces with
    | nil =>
      rw [collect]
      split_ifs with hblank
      · rw [List.map_singleton, ← count_trim hch piece, hblank]
        rfl
      · rw [List.map_singleton, List.map_singleton, count_trim hch]
    | cons q qs =>
      rw [collect_cons (List.cons_ne_nil _ _), List.map_cons, List.sum_cons, ih, count_trim hch]
      rfl

/-! ### Calls -/

/-- The last argument does not end with a parenthesis, no argument has a comma where the code sees none
open, and each one but the last closes as many as it opens. -/
def Splits (args : List Str) : Prop :=
  (∀ last ∈ args.getLast?, last.getLast? ≠ some ')') ∧ TopLevel.Separated nest 0 ',' args

lemma getLast?_join {last : Str} (h : Nonblank args) (hlast : last ∈ args.getLast?) :
    ([','].intercalate args).getLast? = last.getLast? := by
  refine TopLevel.getLast?_intercalate ?_ hlast
  rintro rfl
  exact h [] (List.mem_of_getLast? hlast) rfl

/-- Nothing is stripped exactly if the last argument does not end with a parenthesis. -/
lemma rdropWhile_join_iff (h : Nonblank args) :
    ([','].intercalate args).rdropWhile (· = ')') = [','].intercalate args ↔
      ∀ last ∈ args.getLast?, last.getLast? ≠ some ')' := by
  rw [List.rdropWhile_eq_self_iff]
  constructor
  · intro hself last hlast hend
    rw [← getLast?_join h hlast] at hend
    have hne : [','].intercalate args ≠ [] := by
      intro hnil
      rw [hnil] at hend
      cases hend
    refine hself hne (decide_eq_true ?_)
    rw [List.getLast?_eq_some_getLast hne] at hend
    exact Option.some.inj hend
  · intro hend hne hparen
    cases hlast : args.getLast? with
    | none =>
      rw [List.getLast?_eq_none_iff.mp hlast] at hne
      exact hne rfl
    | some last =>
      refine hend last hlast ?_
      rw [← getLast?_join h hlast, List.getLast?_eq_some_getLast hne, of_decide_eq_true hparen]

/-- What is collected are the arguments only if nothing was stripped. -/
lemma rdropWhile_eq_self (h : Nonblank args) (hne : args ≠ []) {stripped : Str}
    (hstripped : ([','].intercalate args).rdropWhile (· = ')') = stripped)
    (heq : collect (TopLevel.split nest 0 ',' stripped 0 []) = args.map (List.trim isWhiteSpace)) :
    stripped = [','].intercalate args := by
  have hsplit := (TopLevel.separated_split_nil nest 0 ',' stripped).1
  have hcount : stripped.count ')' = ([','].intercalate args).count ')' := by
    have hpieces := congrArg (List.count ')') hsplit
    have hparen : isWhiteSpace ')' = false := by decide
    rw [TopLevel.count_intercalate TopLevel.split_ne_nil] at hpieces
    rw [← hpieces, TopLevel.count_intercalate hne, ← sum_count_collect hparen, heq,
      ← collect_of_nonblank h, sum_count_collect hparen]
    rfl
  have hwhole : ([','].intercalate args).rdropWhile (· = ')') ++
      ([','].intercalate args).rtakeWhile (· = ')') = [','].intercalate args :=
    List.rdropWhile_append_rtakeWhile
  rw [hstripped] at hwhole
  have htail : ([','].intercalate args).rtakeWhile (· = ')') = [] := by
    rw [← hwhole, List.count_append, Nat.left_eq_add, List.count_eq_zero] at hcount
    refine List.eq_nil_iff_forall_not_mem.mpr fun c hc => ?_
    have hparen := List.mem_rtakeWhile_imp hc
    rw [decide_eq_true_eq] at hparen
    exact hcount (hparen ▸ hc)
  rw [htail, List.append_nil] at hwhole
  exact hwhole

/-- Nothing is lost exactly if the arguments can be split. -/
lemma collect_split_iff (h : Nonblank args) :
    collect (TopLevel.split nest 0 ',' (([','].intercalate args).rdropWhile (· = ')')) 0 []) =
      args.map (List.trim isWhiteSpace) ↔ Splits args := by
  by_cases hne : args = []
  · subst hne
    refine iff_of_true rfl ⟨?_, ?_⟩
    · rintro last ⟨⟩
    · exact ⟨fun _ hp => absurd hp List.not_mem_nil, fun _ hp => absurd hp List.not_mem_nil⟩
  constructor
  · intro heq
    have hself := rdropWhile_eq_self h hne rfl heq
    rw [hself] at heq
    obtain ⟨hjoin, hseparated⟩ := TopLevel.separated_split_nil nest 0 ',' ([','].intercalate args)
    have hsplit : TopLevel.split nest 0 ',' ([','].intercalate args) 0 [] ≠ [] := TopLevel.split_ne_nil
    generalize TopLevel.split nest 0 ',' ([','].intercalate args) 0 [] = pieces at *
    -- there are as many pieces as arguments, since both leave as many commas
    have hcomma : isWhiteSpace ',' = false := by decide
    have hsum := @sum_count_collect pieces ',' hcomma
    rw [heq, ← collect_of_nonblank h, sum_count_collect hcomma] at hsum
    have hcommas := congrArg (List.count ',') hjoin
    rw [TopLevel.count_intercalate hsplit, TopLevel.count_intercalate hne, hsum,
      List.count_singleton_self, Nat.mul_one, Nat.mul_one, Nat.add_left_cancel_iff] at hcommas
    have hlength : pieces.length = args.length := by
      have := List.length_pos_iff.mpr hsplit
      have := List.length_pos_iff.mpr hne
      omega
    have hmap : collect pieces = pieces.map (List.trim isWhiteSpace) :=
      collect_eq_map (by rw [heq, List.length_map, hlength])
    have hcounts : args.map (List.count ',') = pieces.map (List.count ',') := by
      have htrimmed := congrArg (List.map (List.count ',')) (heq.symm.trans hmap)
      simpa only [List.map_map, Function.comp_def, count_trim hcomma] using htrimmed
    rw [← TopLevel.eq_of_intercalate_eq hcounts hjoin.symm] at hseparated
    exact ⟨(rdropWhile_join_iff h).mp hself, hseparated⟩
  · rintro ⟨hlast, hseparated⟩
    rw [(rdropWhile_join_iff h).mpr hlast, TopLevel.split_intercalate hne hseparated,
      collect_of_nonblank h]

/-! ### Well-formed arguments -/

/-- The depth behind a character, and whether it is in a string literal; `none` where a parenthesis is
closed that is not open, and for a comma outside parentheses. A quote in a literal is doubled, which ends
the literal and begins another one. -/
def scan (state : ℕ × Bool) (ch : Char) : Option (ℕ × Bool) :=
  if ch = '\"' then some (state.1, !state.2)
  else if state.2 then some state
  else if ch = '(' then some (state.1 + 1, false)
  else if ch = ')' then if state.1 = 0 then none else some (state.1 - 1, false)
  else if ch = ',' then if state.1 = 0 then none else some state
  else some state

/-- Outside of string literals the parentheses are balanced, and every comma is in parentheses. -/
def WellFormed (arg : Str) : Prop := arg.foldlM scan (0, false) = some (0, false)

instance (arg : Str) : Decidable (WellFormed arg) := inferInstanceAs (Decidable (_ = _))

/-- A step outside of a literal that does not begin one. -/
lemma scan_cases {depth : ℕ} {ch : Char} {state : ℕ × Bool} (hquote : ch ≠ '\"')
    (h : scan (depth, false) ch = some state) :
    state.2 = false ∧ nest (BitVec.ofNat 32 depth) ch = BitVec.ofNat 32 state.1 ∧
      state.1 ≤ depth + [ch].count '(' ∧ (ch = ',' → depth ≠ 0) := by
  rw [scan, if_neg hquote, if_neg Bool.false_ne_true] at h
  rw [nest]
  split_ifs at h ⊢ with hopen hclose hzero hcomma hzero
  · obtain rfl := Option.some.inj h
    refine ⟨rfl, (BitVec.ofNat_add depth 1).symm, by simp [hopen], ?_⟩
    rw [hopen]
    exact fun heq => absurd heq (by decide)
  · obtain rfl := Option.some.inj h
    refine ⟨rfl, ?_, by dsimp only; omega, fun _ => hzero⟩
    obtain ⟨d, rfl⟩ := Nat.exists_eq_succ_of_ne_zero hzero
    rw [Nat.succ_eq_add_one, BitVec.ofNat_add]
    simp
  · obtain rfl := Option.some.inj h
    exact ⟨rfl, rfl, Nat.le_add_right _ _, fun _ => hzero⟩
  · obtain rfl := Option.some.inj h
    exact ⟨rfl, rfl, Nat.le_add_right _ _, fun heq => absurd heq hcomma⟩

/-- Without literals the depth of the code is the depth. -/
lemma foldl_nest_of_scan {s : Str} (hquote : '\"' ∉ s) {depth : ℕ} {state : ℕ × Bool}
    (h : s.foldlM scan (depth, false) = some state) :
    state.2 = false ∧ s.foldl nest (BitVec.ofNat 32 depth) = BitVec.ofNat 32 state.1 ∧
      state.1 ≤ depth + s.count '(' := by
  induction s generalizing depth with
  | nil =>
    obtain rfl := Option.some.inj h
    exact ⟨rfl, rfl, Nat.le_refl _⟩
  | cons ch s ih =>
    rw [List.mem_cons, not_or] at hquote
    rw [List.foldlM_cons, Option.bind_eq_bind, Option.bind_eq_some_iff] at h
    obtain ⟨⟨mid, quoted⟩, hstep, hrest⟩ := h
    obtain ⟨rfl, hnest, hle, -⟩ := scan_cases (Ne.symm hquote.1) hstep
    obtain ⟨hplain, hfold, hle'⟩ := ih hquote.2 hrest
    refine ⟨hplain, by rw [List.foldl_cons, hnest, hfold], hle'.trans ?_⟩
    rw [← List.singleton_append, List.count_append, ← Nat.add_assoc]
    exact Nat.add_le_add_right hle _

/-- A well-formed argument without literals has no comma where the code sees no parenthesis open, and
closes as many as it opens. -/
lemma WellFormed.whole {arg : Str} (h : WellFormed arg) (hquote : '\"' ∉ arg)
    (hshort : arg.count '(' < 2 ^ 32) : TopLevel.Whole nest 0 ',' arg ∧ arg.foldl nest 0 = 0 := by
  refine ⟨?_, (foldl_nest_of_scan hquote h).2.1⟩
  rintro left right rfl hzero
  rw [WellFormed, List.foldlM_append, Option.bind_eq_bind, Option.bind_eq_some_iff] at h
  obtain ⟨⟨mid, quoted⟩, hleft, hright⟩ := h
  rw [List.foldlM_cons, Option.bind_eq_bind, Option.bind_eq_some_iff] at hright
  obtain ⟨state, hcomma, -⟩ := hright
  obtain ⟨rfl, hfold, hle⟩ := foldl_nest_of_scan (fun hmem => hquote (List.mem_append_left _ hmem)) hleft
  have hmid := (scan_cases (by decide) hcomma).2.2.2 rfl
  have hcount : left.count '(' ≤ (left ++ ',' :: right).count '(' :=
    (List.sublist_append_left _ _).count_le _
  have hvalue := congrArg BitVec.toNat (hfold.symm.trans hzero)
  rw [BitVec.toNat_ofNat, Nat.mod_eq_of_lt (by dsimp only at hle; omega)] at hvalue
  exact hmid hvalue

lemma splits_iff (h : ∀ arg ∈ args, WellFormed arg ∧ '\"' ∉ arg ∧ arg.count '(' < 2 ^ 32) :
    Splits args ↔ ∀ last ∈ args.getLast?, last.getLast? ≠ some ')' := by
  refine ⟨And.left, fun hlast => ⟨hlast, fun arg harg => ?_, fun arg harg => ?_⟩⟩
  · obtain ⟨hwell, hquote, hshort⟩ := h arg harg
    exact (hwell.whole hquote hshort).1
  · obtain ⟨hwell, hquote, hshort⟩ := h arg (List.mem_of_mem_dropLast harg)
    exact (hwell.whole hquote hshort).2

/-- The arguments of a call are returned exactly if the last one does not end with a parenthesis and the
parentheses in literals neither show a comma nor hide one. Without literals only the end of the last
argument counts. -/
theorem extractTopLevelArgs_iff {name : Str} (hname : '(' ∉ name) {args : List Str}
    (hargs : Nonblank args) :
    (extractTopLevelArgs (call name args) = args.map (List.trim isWhiteSpace) ↔ Splits args) ∧
    ((∀ arg ∈ args, WellFormed arg ∧ '\"' ∉ arg ∧ arg.count '(' < 2 ^ 32) →
      (Splits args ↔ ∀ last ∈ args.getLast?, last.getLast? ≠ some ')')) := by
  rw [extractTopLevelArgs_call hname]
  exact ⟨collect_split_iff hargs, splits_iff⟩

theorem extractTopLevelArgs_iff_sum :
    extractTopLevelArgs (call "IF".toList ["SUM(A1,B1)>0".toList, " 1".toList]) =
      ["SUM(A1,B1)>0".toList, "1".toList] := by
  obtain ⟨hiff, hplain⟩ := @extractTopLevelArgs_iff "IF".toList (by decide)
    ["SUM(A1,B1)>0".toList, " 1".toList] (by decide)
  exact hiff.mpr ((hplain (by decide)).mpr (by decide))

/-- The last argument loses the parenthesis that closes its call. -/
theorem last_call_cut :
    (∀ arg ∈ ["A1>0".toList, "SUM(B1:B9)".toList], WellFormed arg) ∧
    Nonblank ["A1>0".toList, "SUM(B1:B9)".toList] ∧
    extractTopLevelArgs (call "IF".toList ["A1>0".toList, "SUM(B1:B9)".toList]) =
      ["A1>0".toList, "SUM(B1:B9".toList] ∧
    ["A1>0".toList, "SUM(B1:B9".toList] ≠
      ["A1>0".toList, "SUM(B1:B9)".toList].map (List.trim isWhiteSpace) := by
  decide

end AxiomGrid.Phantom.ExcelFormula
