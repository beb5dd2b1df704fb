import AxiomGrid.Lib.JsonParse
import AxiomGrid.Lib.PyStr

/-!
# Files of one JSON value a line

A text file is read with universal newlines, and a value written on one line is read back from its
line, since the text of a value has no line break in it and no blank around it.
-/

namespace Str

/-- The text of a file as `open(path, "r")` gives it: a carriage return, also one before a line feed,
is a line feed. -/
def universalNewlines : Str → Str
  | [] => []
  | '\r' :: '\n' :: cs => '\n' :: universalNewlines cs
  | c :: cs => (if c = '\r' then '\n' else c) :: universalNewlines cs

/-- The text of lines that are written one after the other, each with its line feed. -/
def writeLines (ls : List Str) : Str := ls.flatMap (· ++ ['\n'])

lemma universalNewlines_of_not_mem {s : Str} (h : '\r' ∉ s) : universalNewlines s = s := by
  fun_induction universalNewlines s with
  | case1 => rfl
  | case2 cs ih => simp at h
  | case3 c cs hc ih =>
    rw [List.mem_cons, not_or] at h
    rw [ih h.2, if_neg (Ne.symm h.1)]

lemma universalNewlines_cons {c : Char} {s : Str} (h : ¬(c = '\r' ∧ s.head? = some '\n')) :
    universalNewlines (c :: s) = (if c = '\r' then '\n' else c) :: universalNewlines s := by
  rw [universalNewlines]
  rintro s' rfl rfl
  exact h ⟨rfl, rfl⟩

/-- Text without line feeds, in front of text that does not go on with one behind a carriage
return. -/
lemma universalNewlines_append {l s : Str} (hl : '\n' ∉ l)
    (hs : l.getLast? = some '\r' → s.head? ≠ some '\n') :
    universalNewlines (l ++ s) =
      l.map (fun c => if c = '\r' then '\n' else c) ++ universalNewlines s := by
  induction l with
  | nil => rfl
  | cons c l ih =>
    rw [List.mem_cons, not_or] at hl
    cases l with
    | nil =>
      rw [List.singleton_append, universalNewlines_cons, List.map_singleton, List.singleton_append]
      rintro ⟨rfl, hhead⟩
      exact hs rfl hhead
    | cons d l =>
      rw [List.getLast?_cons_cons] at hs
      rw [List.cons_append, universalNewlines_cons, ih hl.2 hs]
      · rfl
      · rintro ⟨-, hhead⟩
        rw [List.cons_append, List.head?_cons, Option.some.injEq] at hhead
        exact hl.2 (hhead ▸ List.mem_cons_self)

/-- Every character of the text is one of the file, or a line feed. -/
lemma mem_universalNewlines {s : Str} {c : Char} (h : c ∈ universalNewlines s) :
    c ∈ s ∨ c = '\n' := by
  fun_induction universalNewlines s with
  | case1 => cases h
  | case2 cs ih =>
    obtain rfl | h := List.mem_cons.mp h
    · exact .inr rfl
    · exact (ih h).imp_left fun hc => List.mem_cons_of_mem _ (List.mem_cons_of_mem _ hc)
  | case3 d cs hd ih =>
    obtain hc | h := List.mem_cons.mp h
    · split_ifs at hc
      · exact .inr hc
      · exact .inl (hc ▸ List.mem_cons_self)
    · exact (ih h).imp_left (List.mem_cons_of_mem d)

/-- Lines without line feeds are read back; the text behind the last one is empty. -/
lemma lines_writeLines {ls : List Str} (h : ∀ l ∈ ls, '\n' ∉ l) :
    lines (writeLines ls) = ls ++ [[]] := by
  induction ls with
  | nil => rfl
  | cons l ls ih =>
    rw [List.forall_mem_cons] at h
    rw [writeLines, List.flatMap_cons, List.append_assoc, List.singleton_append, lines,
      List.splitOn_append_cons_self_of_not_mem h.1, ← lines, ← writeLines, ih h.2]
    rfl

/-- Lines without line breaks are read back with universal newlines. -/
lemma lines_universalNewlines_writeLines {ls : List Str} (h : ∀ l ∈ ls, '\n' ∉ l ∧ '\r' ∉ l) :
    lines (universalNewlines (writeLines ls)) = ls ++ [[]] := by
  have hcr : '\r' ∉ writeLines ls := by
    intro hmem
    obtain ⟨l, hl, hc⟩ := List.mem_flatMap.mp hmem
    rw [List.mem_append, List.mem_singleton] at hc
    exact hc.elim (h l hl).2 (by decide)
  rw [universalNewlines_of_not_mem hcr]
  exact lines_writeLines fun l hl => (h l hl).1

lemma mem_of_mem_lines {s line : Str} {c : Char} (hline : line ∈ lines s) (hc : c ∈ line) : c ∈ s := by
  induction s generalizing line with
  | nil =>
    rw [lines, List.splitOn_nil, List.mem_singleton] at hline
    exact hline ▸ hc
  | cons d s ih =>
    rw [lines, List.splitOn_cons_eq_if_modifyHead] at hline
    split_ifs at hline
    · obtain rfl | hline := List.mem_cons.mp hline
      · cases hc
      · exact List.mem_cons_of_mem d (ih hline hc)
    · cases hparts : s.splitOn '\n' with
      | nil => exact absurd hparts (List.splitOn_ne_nil _ s)
      | cons first parts =>
        rw [hparts, List.modifyHead_cons, List.mem_cons] at hline
        obtain rfl | hline := hline
        · obtain rfl | hc := List.mem_cons.mp hc
          · exact List.mem_cons_self
          · have hfirst : first ∈ lines s := by
              rw [lines, hparts]
              exact List.mem_cons_self
            exact List.mem_cons_of_mem d (ih hfirst hc)
        · have hrest : line ∈ lines s := by
            rw [lines, hparts]
            exact List.mem_cons_of_mem first hline
          exact List.mem_cons_of_mem d (ih hrest hc)

lemma newline_notMem_of_mem_lines {s line : Str} (hline : line ∈ lines s) : '\n' ∉ line := by
  induction s generalizing line with
  | nil =>
    rw [lines, List.splitOn_nil, List.mem_singleton] at hline
    simp [hline]
  | cons d s ih =>
    rw [lines, List.splitOn_cons_eq_if_modifyHead] at hline
    split_ifs at hline with hd
    · obtain rfl | hline := List.mem_cons.mp hline
      · simp
      · exact ih hline
    · cases hparts : s.splitOn '\n' with
      | nil => exact absurd hparts (List.splitOn_ne_nil _ s)
      | cons first parts =>
        rw [hparts, List.modifyHead_cons, List.mem_cons] at hline
        rw [lines, hparts] at ih
        obtain rfl | hline := hline
        · rw [List.mem_cons, not_or]
          exact ⟨fun heq => hd (by simp [← heq]), ih List.mem_cons_self⟩
        · exact ih (List.mem_cons_of_mem first hline)

lemma strip_of_cons_concat {s cs cs' : Str} {c d : Char} (hc : isSpace c = false)
    (hd : isSpace d = false) (hcons : s = c :: cs) (hconcat : s = cs' ++ [d]) : strip s = s := by
  have hleft : s.dropWhile isSpace = s := by
    rw [hcons, List.dropWhile_cons_of_neg (by rw [hc]; exact Bool.false_ne_true)]
  rw [strip, hleft, hconcat, List.reverse_append, List.reverse_singleton, List.singleton_append,
    List.dropWhile_cons_of_neg (by rw [hd]; exact Bool.false_ne_true), List.reverse_cons,
    List.reverse_reverse]

end Str

namespace Json

/-- `ensure_ascii=False` with the default separators. -/
def Style.spacedUnicode : Style := ⟨escapeChar, [' '], [' '], fun _ => []⟩

lemma Style.readable_spacedUnicode : Style.spacedUnicode.Readable where
  escape := readChar_escapeChar
  commaGap := by simp [spacedUnicode]
  colonGap := by simp [spacedUnicode]
  newline := by simp [spacedUnicode]

/-! ### Characters of a text -/

/-- A property of the characters of every text in a style: it holds of what the style writes, and of
the printable characters of ASCII. -/
structure Style.Writes (style : Style) (P : Char → Prop) : Prop where
  escape : ∀ c, ∀ d ∈ style.escape c, P d
  commaGap : ∀ c ∈ style.commaGap, P c
  colonGap : ∀ c ∈ style.colonGap, P c
  newline : ∀ depth, ∀ c ∈ style.newline depth, P c
  printable : ∀ c : Char, 32 < c.toNat → c.toNat < 127 → P c

variable {style : Style} {P : Char → Prop}

lemma forall_mem_quoteWith (h : style.Writes P) (s : String) : ∀ c ∈ quoteWith style s, P c := by
  intro c hc
  rw [quoteWith, List.mem_cons, List.mem_append, List.mem_flatMap, List.mem_singleton] at hc
  rcases hc with rfl | ⟨d, -, hc⟩ | rfl
  · exact h.printable _ (by decide) (by decide)
  · exact h.escape d c hc
  · exact h.printable _ (by decide) (by decide)

lemma printable_of_isNumberChar {c : Char} (hc : isNumberChar c = true) :
    32 < c.toNat ∧ c.toNat < 127 := by
  simp only [isNumberChar, Bool.or_eq_true, beq_iff_eq] at hc
  rcases hc with (((hc | rfl) | rfl) | rfl) | rfl
  · rw [Char.isDigit_iff_toNat] at hc
    have h0 : '0'.toNat = 48 := rfl
    have h9 : '9'.toNat = 57 := rfl
    omega
  all_goals decide

lemma printable_of_mem_intText {n : ℤ} {c : Char} (hc : c ∈ intText n) :
    32 < c.toNat ∧ c.toNat < 127 := by
  have hdigit : ∀ m, c ∈ Nat.toDigits 10 m → 32 < c.toNat ∧ c.toNat < 127 := by
    intro m hm
    apply printable_of_isNumberChar
    simp [isNumberChar, Nat.isDigit_of_mem_toDigits (by decide) (by decide) hm]
  cases n with
  | ofNat m => exact hdigit m hc
  | negSucc m =>
    obtain rfl | hc := List.mem_cons.mp hc
    · decide
    · exact hdigit _ hc

lemma printable_of_all {t : List Char}
    (ht : t.all (fun c => decide (32 < c.toNat ∧ c.toNat < 127)) = true) :
    ∀ c ∈ t, 32 < c.toNat ∧ c.toNat < 127 := by
  intro c hc
  exact of_decide_eq_true (List.all_eq_true.mp ht c hc)

lemma printable_of_mem_float {x : FloatRepr} {c : Char} (hc : c ∈ x.text) :
    32 < c.toNat ∧ c.toNat < 127 := by
  have hx := x.valid
  simp only [isFloatText, Bool.or_eq_true, beq_iff_eq, Bool.and_eq_true, List.all_eq_true] at hx
  rcases hx with ((hx | hx) | hx) | ⟨hall, -⟩
  · exact printable_of_all rfl c (hx ▸ hc)
  · exact printable_of_all rfl c (hx ▸ hc)
  · exact printable_of_all rfl c (hx ▸ hc)
  · exact printable_of_isNumberChar (hall c hc)

lemma Style.Writes.forall_mem_printable (h : style.Writes P) {t : List Char}
    (ht : t.all (fun c => decide (32 < c.toNat ∧ c.toNat < 127)) = true) : ∀ c ∈ t, P c := by
  intro c hc
  obtain ⟨hlow, hhigh⟩ := printable_of_all ht c hc
  exact h.printable c hlow hhigh

mutual

theorem forall_mem_renderWith (h : style.Writes P) (depth : ℕ) (v : Json) :
    ∀ c ∈ renderWith style depth v, P c := by
  match v with
  | null | bool true | bool false | arr [] | obj [] =>
    rw [renderWith]
    exact h.forall_mem_printable rfl
  | int n =>
    intro c hc
    exact h.printable c (printable_of_mem_intText hc).1 (printable_of_mem_intText hc).2
  | float x =>
    intro c hc
    exact h.printable c (printable_of_mem_float hc).1 (printable_of_mem_float hc).2
  | str s => exact forall_mem_quoteWith h s
  | arr (x :: xs) =>
    rw [renderWith]
    simp only [List.forall_mem_cons, List.forall_mem_append]
    exact ⟨h.printable _ (by decide) (by decide), ⟨h.newline _, forall_mem_renderWith h _ x⟩,
      forall_mem_renderItemsWith h _ xs⟩
  | obj ((k, v) :: kvs) =>
    rw [renderWith]
    simp only [List.forall_mem_cons, List.forall_mem_append]
    exact ⟨h.printable _ (by decide) (by decide),
      ⟨⟨⟨h.newline _, forall_mem_quoteWith h k⟩, h.printable _ (by decide) (by decide), h.colonGap⟩,
        forall_mem_renderWith h _ v⟩, forall_mem_renderMembersWith h _ kvs⟩

theorem forall_mem_renderItemsWith (h : style.Writes P) (depth : ℕ) (xs : List Json) :
    ∀ c ∈ renderItemsWith style depth xs, P c := by
  match xs with
  | [] =>
    rw [renderItemsWith]
    simp only [List.forall_mem_append, List.forall_mem_singleton]
    exact ⟨h.newline _, h.printable _ (by decide) (by decide)⟩
  | x :: xs =>
    rw [renderItemsWith]
    simp only [List.forall_mem_cons, List.forall_mem_append]
    exact ⟨h.printable _ (by decide) (by decide), ⟨⟨h.commaGap, h.newline _⟩,
      forall_mem_renderWith h _ x⟩, forall_mem_renderItemsWith h _ xs⟩

theorem forall_mem_renderMembersWith (h : style.Writes P) (depth : ℕ) (kvs : List (String × Json)) :
    ∀ c ∈ renderMembersWith style depth kvs, P c := by
  match kvs with
  | [] =>
    rw [renderMembersWith]
    simp only [List.forall_mem_append, List.forall_mem_singleton]
    exact ⟨h.newline _, h.printable _ (by decide) (by decide)⟩
  | (k, v) :: kvs =>
    rw [renderMembersWith]
    simp only [List.forall_mem_cons, List.forall_mem_append]
    exact ⟨h.printable _ (by decide) (by decide),
      ⟨⟨⟨⟨h.commaGap, h.newline _⟩, forall_mem_quoteWith h k⟩,
        h.printable _ (by decide) (by decide), h.colonGap⟩, forall_mem_renderWith h _ v⟩,
      forall_mem_renderMembersWith h _ kvs⟩

end

/-! ### A value on a line -/

lemma le_toNat_of_mem_escapeChar {c d : Char} (hd : d ∈ escapeChar c) : 32 ≤ d.toNat := by
  have hdigit : ∀ n < 16, 32 ≤ (Nat.digitChar n).toNat := by decide
  have hshort : ∀ e : Char, 32 ≤ e.toNat → d ∈ ['\\', e] → 32 ≤ d.toNat := by
    intro e he hmem
    simp only [List.mem_cons, List.not_mem_nil, or_false] at hmem
    obtain rfl | rfl := hmem
    · decide
    · exact he
  unfold escapeChar at hd
  split_ifs at hd
  · exact hshort _ (by decide) hd
  · exact hshort _ (by decide) hd
  · exact hshort _ (by decide) hd
  · exact hshort _ (by decide) hd
  · exact hshort _ (by decide) hd
  · exact hshort _ (by decide) hd
  · exact hshort _ (by decide) hd
  · simp only [List.mem_cons, List.not_mem_nil, or_false] at hd
    rcases hd with rfl | rfl | rfl | rfl | rfl | rfl
    · decide
    · decide
    · decide
    · decide
    · exact hdigit _ (by omega)
    · exact hdigit _ (by omega)
  · rw [List.mem_singleton.mp hd]
    omega

lemma Style.spacedUnicode_writes : Style.spacedUnicode.Writes fun c => 32 ≤ c.toNat where
  escape _ _ hd := le_toNat_of_mem_escapeChar hd
  commaGap := by simp [spacedUnicode]
  colonGap := by simp [spacedUnicode]
  newline := by simp [spacedUnicode]
  printable _ hlow _ := hlow.le

lemma Style.compactUnicode_writes : Style.compactUnicode.Writes fun c => 32 ≤ c.toNat where
  escape _ _ hd := le_toNat_of_mem_escapeChar hd
  commaGap := by simp [compactUnicode]
  colonGap := by simp [compactUnicode]
  newline := by simp [compactUnicode]
  printable _ hlow _ := hlow.le

/-- A text in a style that writes no control character stands on one line. -/
lemma no_newline_renderWith (h : style.Writes fun c => 32 ≤ c.toNat) (depth : ℕ) (v : Json) :
    '\n' ∉ renderWith style depth v ∧ '\r' ∉ renderWith style depth v := by
  have hmem := forall_mem_renderWith h depth v
  constructor
  · intro hc
    exact absurd (hmem _ hc) (by decide)
  · intro hc
    exact absurd (hmem _ hc) (by decide)

lemma renderWith_obj_eq_cons (style : Style) (depth : ℕ) (kvs : List (String × Json)) :
    ∃ cs, renderWith style depth (.obj kvs) = '\x7b' :: cs := by
  match kvs with
  | [] => exact ⟨['\x7d'], rfl⟩
  | (k, v) :: kvs => exact ⟨_, by rw [renderWith]⟩

lemma renderWith_obj_eq_concat (style : Style) (depth : ℕ) (kvs : List (String × Json)) :
    ∃ cs, renderWith style depth (.obj kvs) = cs ++ ['\x7d'] := by
  match kvs with
  | [] => exact ⟨['\x7b'], rfl⟩
  | (k, v) :: kvs =>
    obtain ⟨cs, hcs⟩ := renderMembersWith_eq_concat style depth kvs
    exact ⟨_, by rw [renderWith, hcs, ← List.append_assoc, ← List.cons_append]⟩

/-- There is no white space around the text of an object. -/
lemma strip_renderWith_obj (style : Style) (depth : ℕ) (kvs : List (String × Json)) :
    Str.strip (renderWith style depth (.obj kvs)) = renderWith style depth (.obj kvs) := by
  obtain ⟨cs, hcons⟩ := renderWith_obj_eq_cons style depth kvs
  obtain ⟨cs', hconcat⟩ := renderWith_obj_eq_concat style depth kvs
  exact Str.strip_of_cons_concat (by decide) (by decide) hcons hconcat

/-! ### Values without floats -/

mutual

/-- No float stands anywhere in the value. -/
def FloatFree : Json → Prop
  | float _ => False
  | arr xs => FloatFreeItems xs
  | obj kvs => FloatFreeMembers kvs
  | _ => True

def FloatFreeItems : List Json → Prop
  | [] => True
  | x :: xs => FloatFree x ∧ FloatFreeItems xs

def FloatFreeMembers : List (String × Json) → Prop
  | [] => True
  | (_, v) :: kvs => FloatFree v ∧ FloatFreeMembers kvs

end

variable {r : Reader}

mutual

lemma FloatFree.readsBack (v : Json) (h : FloatFree v) : ReadsBack r v := by
  match v with
  | null | bool _ | int _ | str _ => trivial
  | float x => cases h
  | arr xs => exact FloatFreeItems.readsBack xs h
  | obj kvs => exact FloatFreeMembers.readsBack kvs h

lemma FloatFreeItems.readsBack (xs : List Json) (h : FloatFreeItems xs) : ItemsReadBack r xs := by
  match xs with
  | [] => trivial
  | x :: xs => exact ⟨FloatFree.readsBack x h.1, FloatFreeItems.readsBack xs h.2⟩

lemma FloatFreeMembers.readsBack (kvs : List (String × Json)) (h : FloatFreeMembers kvs) :
    MembersReadBack r kvs := by
  match kvs with
  | [] => trivial
  | (k, v) :: kvs => exact ⟨FloatFree.readsBack v h.1, FloatFreeMembers.readsBack kvs h.2⟩

end

end Json
