import AxiomGrid.Lib.JsonParse
import AxiomGrid.Lib.PyStr

/-!
# The ends of a JSON text

A text that is parsed starts and ends, up to the blanks that the grammar allows around it, with
characters that are no white space in any sense. So stripping it of white space does not change what is
parsed. And a reader that also knows `NaN` and the infinities reads what the other one reads.
-/

namespace Json

/-! ### What is read -/

/-- The text up to `rest` ends with a character that is no white space. -/
def Used (cs rest : List Char) : Prop := ∃ used d, cs = used ++ d :: rest ∧ Str.isSpace d = false

section

variable {cs mid rest : List Char}

lemma Used.prepend (h : Used cs rest) (pre : List Char) : Used (pre ++ cs) rest := by
  obtain ⟨used, d, rfl, hd⟩ := h
  exact ⟨pre ++ used, d, (List.append_assoc _ _ _).symm, hd⟩

lemma Used.cons (h : Used cs rest) (c : Char) : Used (c :: cs) rest := h.prepend [c]

lemma Used.trans (h : Used cs mid) (h' : Used mid rest) : Used cs rest := by
  obtain ⟨used, d, rfl, -⟩ := h
  rw [← List.singleton_append, ← List.append_assoc]
  exact h'.prepend _

lemma used_cons {c : Char} (hc : Str.isSpace c = false) (cs : List Char) : Used (c :: cs) cs :=
  ⟨[], c, rfl, hc⟩

lemma Used.of_suffix (h : Used mid rest) (hmid : mid <:+ cs) : Used cs rest := by
  obtain ⟨pre, rfl⟩ := hmid
  exact h.prepend pre

lemma skipBlank_suffix (cs : List Char) : skipBlank cs <:+ cs := List.dropWhile_suffix _

lemma used_tail_of_head? {c : Char} (hc : Str.isSpace c = false) (h : cs.head? = some c) :
    Used cs cs.tail := by
  cases cs with
  | nil => cases h
  | cons d cs =>
    cases h
    exact used_cons hc cs

/-! ### Strings -/

lemma suffix_of_readHex4 {n : ℕ} (h : readHex4 cs = some (n, rest)) : rest <:+ cs := by
  unfold readHex4 at h
  split at h
  · rename_i a b c d cs
    obtain ⟨a', -, h⟩ := Option.bind_eq_some_iff.mp h
    obtain ⟨b', -, h⟩ := Option.bind_eq_some_iff.mp h
    obtain ⟨c', -, h⟩ := Option.bind_eq_some_iff.mp h
    obtain ⟨d', -, h⟩ := Option.bind_eq_some_iff.mp h
    cases h
    exact ⟨[a, b, c, d], rfl⟩
  · cases h

lemma suffix_of_readUnicode {c : Char} (h : readUnicode cs = some (c, rest)) : rest <:+ cs := by
  unfold readUnicode at h
  obtain ⟨⟨n, mid⟩, hn, h⟩ := Option.bind_eq_some_iff.mp h
  have hmid := suffix_of_readHex4 hn
  simp only at h
  split_ifs at h
  · have hrest : mid = rest := congrArg Prod.snd (Option.some.inj h)
    rwa [← hrest]
  · split at h
    · rename_i after
      obtain ⟨⟨m, rest'⟩, hm, h⟩ := Option.bind_eq_some_iff.mp h
      simp only at h
      split_ifs at h
      have hrest : rest' = rest := congrArg Prod.snd (Option.some.inj h)
      rw [← hrest]
      exact ((suffix_of_readHex4 hm).trans ⟨['\\', 'u'], rfl⟩).trans hmid
    · cases h

lemma suffix_of_readEscape {c : Char} (h : readEscape cs = some (c, rest)) : rest <:+ cs := by
  cases cs with
  | nil => cases h
  | cons d cs =>
    rw [readEscape] at h
    split_ifs at h
    · exact (suffix_of_readUnicode h).trans (List.suffix_cons d cs)
    · obtain ⟨e, -, heq⟩ := Option.map_eq_some_iff.mp h
      cases heq
      exact List.suffix_cons d rest

lemma suffix_of_readChar {c : Char} (h : readChar cs = some (c, rest)) : rest <:+ cs := by
  cases cs with
  | nil => cases h
  | cons d cs =>
    rw [readChar] at h
    split_ifs at h
    · exact (suffix_of_readEscape h).trans (List.suffix_cons d cs)
    · cases h
      exact List.suffix_cons c rest

lemma used_of_readString {n : ℕ} {s : List Char} (h : readString n cs = some (s, rest)) :
    Used cs rest := by
  induction n generalizing cs s with
  | zero => cases h
  | succ n ih =>
    cases cs with
    | nil => cases h
    | cons c cs =>
      rw [readString] at h
      split_ifs at h with hc
      · cases h
        rw [hc]
        exact used_cons (by decide) _
      · obtain ⟨⟨d, mid⟩, hd, h⟩ := Option.bind_eq_some_iff.mp h
        obtain ⟨⟨s', rest'⟩, hs, h⟩ := Option.bind_eq_some_iff.mp h
        cases h
        exact (ih hs).of_suffix (suffix_of_readChar hd)

/-! ### Tokens -/

lemma isSpace_of_isDigit {c : Char} (h : c.isDigit = true) : Str.isSpace c = false := by
  rw [Char.isDigit_iff_toNat] at h
  have h0 : '0'.toNat = 48 := rfl
  have h9 : '9'.toNat = 57 := rfl
  simp only [Str.isSpace, Bool.or_eq_false_iff, Bool.and_eq_false_iff, decide_eq_false_iff_not,
    beq_eq_false_iff_ne]
  omega

lemma used_of_scanDigits {ds : List Char} (h : scanDigits cs = some (ds, rest)) : Used cs rest := by
  rw [scanDigits] at h
  split_ifs at h with hne
  cases h
  refine ⟨(cs.takeWhile Char.isDigit).dropLast, (cs.takeWhile Char.isDigit).getLast hne, ?_, ?_⟩
  · rw [← List.singleton_append, ← List.append_assoc, List.dropLast_append_getLast,
      List.takeWhile_append_dropWhile]
  · exact isSpace_of_isDigit (List.mem_takeWhile_imp (List.getLast_mem hne))

lemma used_of_scanNatural {ds : List Char} (h : scanNatural cs = some (ds, rest)) : Used cs rest := by
  cases cs with
  | nil => cases h
  | cons c cs =>
    rw [scanNatural] at h
    split_ifs at h with hc
    · cases h
      rw [hc]
      exact used_cons (by decide) _
    · exact used_of_scanDigits h

lemma used_of_scanInteger {ds : List Char} (h : scanInteger cs = some (ds, rest)) : Used cs rest := by
  cases cs with
  | nil => cases h
  | cons c cs =>
    rw [scanInteger] at h
    split_ifs at h
    · obtain ⟨⟨ds', rest'⟩, hds, heq⟩ := Option.map_eq_some_iff.mp h
      cases heq
      exact (used_of_scanNatural hds).cons c
    · exact used_of_scanNatural h

/-- A fraction may be missing. -/
lemma scanFraction_used (cs : List Char) :
    (scanFraction cs).2 = cs ∨ Used cs (scanFraction cs).2 := by
  cases cs with
  | nil => exact .inl rfl
  | cons c cs =>
    rw [scanFraction]
    split_ifs
    · cases hds : scanDigits cs with
      | none => exact .inl rfl
      | some p => exact .inr ((used_of_scanDigits hds).cons c)
    · exact .inl rfl

lemma scanSign_suffix (cs : List Char) : (scanSign cs).2 <:+ cs := by
  cases cs with
  | nil => exact List.suffix_refl _
  | cons c cs =>
    rw [scanSign]
    split_ifs
    · exact List.suffix_cons c cs
    · exact List.suffix_refl _

lemma scanExponent_used (cs : List Char) :
    (scanExponent cs).2 = cs ∨ Used cs (scanExponent cs).2 := by
  cases cs with
  | nil => exact .inl rfl
  | cons c cs =>
    rw [scanExponent]
    split_ifs
    · cases hds : scanDigits (scanSign cs).2 with
      | none => exact .inl rfl
      | some p =>
        exact .inr (((used_of_scanDigits hds).of_suffix (scanSign_suffix cs)).cons c)
    · exact .inl rfl

lemma used_of_scanNumber {t : NumberText} (h : scanNumber cs = some (t, rest)) : Used cs rest := by
  obtain ⟨⟨whole, behind⟩, hwhole, heq⟩ := Option.map_eq_some_iff.mp h
  have hused := used_of_scanInteger hwhole
  cases heq
  obtain hfrac | hfrac := scanFraction_used behind
  · simp only [hfrac]
    obtain hexp | hexp := scanExponent_used behind
    · rwa [hexp]
    · exact hused.trans hexp
  · obtain hexp | hexp := scanExponent_used (scanFraction behind).2
    · simp only [hexp]
      exact hused.trans hfrac
    · exact (hused.trans hfrac).trans hexp

variable {r : Reader}

lemma used_of_readToken {v : Json} (h : readToken r cs = some (v, rest)) : Used cs rest := by
  rw [readToken, Option.or_eq_some_iff] at h
  obtain h | ⟨-, h⟩ := h
  · rw [readKeyword, List.findSome?_eq_some_iff] at h
    obtain ⟨l₁, p, l₂, hkeywords, hp, -⟩ := h
    have hmem : p ∈ keywords r := by rw [hkeywords]; simp
    split_ifs at hp with hpre
    obtain ⟨behind, rfl⟩ := List.isPrefixOf_iff_prefix.mp hpre
    rw [List.drop_left, Option.some.injEq, Prod.mk.injEq] at hp
    rw [hp.2]
    rcases mem_keywords hmem with (rfl | rfl | rfl) | ⟨-, rfl | rfl | rfl⟩
    · exact ⟨"nul".toList, 'l', rfl, by decide⟩
    · exact ⟨"tru".toList, 'e', rfl, by decide⟩
    · exact ⟨"fals".toList, 'e', rfl, by decide⟩
    · exact ⟨"Na".toList, 'N', rfl, by decide⟩
    · exact ⟨"Infinit".toList, 'y', rfl, by decide⟩
    · exact ⟨"-Infinit".toList, 'y', rfl, by decide⟩
  · obtain ⟨⟨t, behind⟩, ht, heq⟩ := Option.map_eq_some_iff.mp h
    have hrest : behind = rest := by
      split_ifs at heq
      · exact congrArg Prod.snd heq
      · exact congrArg Prod.snd heq
    rw [← hrest]
    exact used_of_scanNumber ht

/-! ### Values -/

lemma suffix_of_readKey {k : String} (h : readKey cs = some (k, rest)) : rest <:+ cs := by
  cases cs with
  | nil => cases h
  | cons c cs =>
    rw [readKey] at h
    split_ifs at h
    obtain ⟨⟨s, behind⟩, hs, h⟩ := Option.bind_eq_some_iff.mp h
    split_ifs at h
    have hrest : skipBlank (skipBlank behind).tail = rest := congrArg Prod.snd (Option.some.inj h)
    obtain ⟨used, d, hused, -⟩ := used_of_readString hs
    have hbehind : behind <:+ cs := ⟨used ++ [d], by rw [hused]; simp⟩
    rw [← hrest]
    exact (((skipBlank_suffix _).trans (List.tail_suffix _)).trans (skipBlank_suffix _)).trans
      (hbehind.trans (List.suffix_cons c cs))

/-- What the five readers read with `n` steps. -/
private structure ReadsUsed (r : Reader) (n : ℕ) : Prop where
  value : ∀ {cs v rest}, readValue r n cs = some (v, rest) → Used cs rest
  items : ∀ {cs xs rest}, readItems r n cs = some (xs, rest) → Used cs rest
  moreItems : ∀ {cs xs rest}, readMoreItems r n cs = some (xs, rest) → Used cs rest
  members : ∀ {cs kvs rest}, readMembers r n cs = some (kvs, rest) → Used cs rest
  moreMembers : ∀ {cs kvs rest}, readMoreMembers r n cs = some (kvs, rest) → Used cs rest

private lemma readsUsed (r : Reader) (n : ℕ) : ReadsUsed r n := by
  induction n with
  | zero =>
    constructor
    · intro cs v rest h
      cases h
    · intro cs v rest h
      cases h
    · intro cs v rest h
      cases h
    · intro cs v rest h
      cases h
    · intro cs v rest h
      cases h
  | succ n ih =>
    constructor
    · intro cs v rest h
      cases cs with
      | nil => cases h
      | cons c cs =>
        rw [readValue] at h
        split_ifs at h with hquote hopen hclose hopen' hclose'
        · obtain ⟨⟨s, behind⟩, hs, heq⟩ := Option.map_eq_some_iff.mp h
          cases heq
          exact (used_of_readString hs).cons c
        · cases h
          exact ((used_tail_of_head? (by decide) hclose).of_suffix (skipBlank_suffix cs)).cons c
        · obtain ⟨⟨xs, behind⟩, hxs, heq⟩ := Option.map_eq_some_iff.mp h
          cases heq
          exact ((ih.items hxs).of_suffix (skipBlank_suffix cs)).cons c
        · cases h
          exact ((used_tail_of_head? (by decide) hclose').of_suffix (skipBlank_suffix cs)).cons c
        · obtain ⟨⟨kvs, behind⟩, hkvs, heq⟩ := Option.map_eq_some_iff.mp h
          cases heq
          exact ((ih.members hkvs).of_suffix (skipBlank_suffix cs)).cons c
        · exact used_of_readToken h
    · intro cs xs rest h
      rw [readItems] at h
      obtain ⟨⟨v, mid⟩, hv, h⟩ := Option.bind_eq_some_iff.mp h
      obtain ⟨⟨ys, behind⟩, hys, heq⟩ := Option.map_eq_some_iff.mp h
      cases heq
      exact (ih.value hv).trans (ih.moreItems hys)
    · intro cs xs rest h
      rw [readMoreItems] at h
      split_ifs at h with hclose hcomma
      · cases h
        exact (used_tail_of_head? (by decide) hclose).of_suffix (skipBlank_suffix cs)
      · exact (ih.items h).of_suffix
          (((skipBlank_suffix _).trans (List.tail_suffix _)).trans (skipBlank_suffix cs))
    · intro cs kvs rest h
      rw [readMembers] at h
      obtain ⟨⟨k, afterKey⟩, hk, h⟩ := Option.bind_eq_some_iff.mp h
      obtain ⟨⟨v, mid⟩, hv, h⟩ := Option.bind_eq_some_iff.mp h
      obtain ⟨⟨ys, behind⟩, hys, heq⟩ := Option.map_eq_some_iff.mp h
      cases heq
      exact ((ih.value hv).trans (ih.moreMembers hys)).of_suffix (suffix_of_readKey hk)
    · intro cs kvs rest h
      rw [readMoreMembers] at h
      split_ifs at h with hclose hcomma
      · cases h
        exact (used_tail_of_head? (by decide) hclose).of_suffix (skipBlank_suffix cs)
      · exact (ih.members h).of_suffix
          (((skipBlank_suffix _).trans (List.tail_suffix _)).trans (skipBlank_suffix cs))

/-- No value starts with white space. -/
lemma isSpace_of_readValue {n : ℕ} {c : Char} {p : Json × List Char}
    (h : readValue r n (c :: cs) = some p) : Str.isSpace c = false := by
  by_contra hspace
  rw [Bool.not_eq_false] at hspace
  have hne : ∀ d : Char, Str.isSpace d = false → c ≠ d := by
    rintro d hd rfl
    rw [hspace] at hd
    cases hd
  have hdigit : c.isDigit = false := by
    by_contra hdigit
    rw [Bool.not_eq_false] at hdigit
    exact hne c (isSpace_of_isDigit hdigit) rfl
  have hkeyword : readKeyword r (c :: cs) = none := by
    rw [readKeyword, List.findSome?_eq_none_iff]
    intro q hq
    rw [if_neg]
    intro hpre
    obtain ⟨rest, hrest⟩ := List.isPrefixOf_iff_prefix.mp hpre
    rcases mem_keywords hq with (rfl | rfl | rfl) | ⟨-, rfl | rfl | rfl⟩
    all_goals exact hne _ (by decide) (List.cons.inj hrest).1.symm
  have hnumber : scanNumber (c :: cs) = none := by
    have hdigits : scanDigits (c :: cs) = none := by
      rw [scanDigits, if_pos]
      exact List.takeWhile_cons_of_neg (by simp [hdigit])
    rw [scanNumber, scanInteger, if_neg (hne '-' (by decide)), scanNatural,
      if_neg (hne '0' (by decide)), hdigits]
    rfl
  cases n with
  | zero => cases h
  | succ n =>
    rw [readValue, if_neg (hne '"' (by decide)), if_neg (hne '[' (by decide)),
      if_neg (hne '\x7b' (by decide)), readToken, hkeyword, readNumber, hnumber] at h
    cases h

/-! ### Stripping -/

lemma isSpace_of_isBlank {c : Char} (h : isBlank c = true) : Str.isSpace c = true := by
  simp only [isBlank, Bool.or_eq_true, beq_iff_eq] at h
  rcases h with ((rfl | rfl) | rfl) | rfl <;> decide

lemma exists_trimBlank (text : List Char) :
    ∃ left right, text = left ++ trimBlank text ++ right ∧ (∀ c ∈ left, isBlank c = true) ∧
      ∀ c ∈ right, isBlank c = true := by
  refine ⟨text.takeWhile isBlank, ((skipBlank text).reverse.takeWhile isBlank).reverse, ?_, ?_, ?_⟩
  · rw [trimBlank, List.append_assoc, ← List.reverse_append, skipBlank, skipBlank,
      List.takeWhile_append_dropWhile, List.reverse_reverse, List.takeWhile_append_dropWhile]
  · exact fun c hc => List.mem_takeWhile_imp hc
  · exact fun c hc => List.mem_takeWhile_imp (List.mem_reverse.mp hc)

lemma dropWhile_isSpace {left : List Char} (hleft : ∀ c ∈ left, Str.isSpace c = true) {c : Char}
    (hc : Str.isSpace c = false) (cs : List Char) :
    (left ++ c :: cs).dropWhile Str.isSpace = c :: cs := by
  rw [List.dropWhile_append_of_pos hleft, List.dropWhile_cons_of_neg (by simp [hc])]

/-- Stripping a text of white space keeps what is parsed. -/
theorem parse_strip {text : List Char} {v : Json} (h : parse r text = some v) :
    Str.strip text ≠ [] ∧ parse r (Str.strip text) = some v := by
  have hparse := h
  obtain ⟨⟨v', rest⟩, hread, h⟩ := Option.bind_eq_some_iff.mp h
  split_ifs at h with hrest
  subst hrest
  obtain ⟨used, d, hused, hd⟩ := (readsUsed r _).value hread
  obtain ⟨left, right, htext, hleft, hright⟩ := exists_trimBlank text
  obtain ⟨c, cs, hcore⟩ : ∃ c cs, trimBlank text = c :: cs := by
    rw [hused]
    cases used with
    | nil => exact ⟨d, [], rfl⟩
    | cons c used => exact ⟨c, used ++ [d], rfl⟩
  have hc : Str.isSpace c = false := by
    rw [hcore] at hread
    exact isSpace_of_readValue hread
  have hstrip : Str.strip text = trimBlank text := by
    conv_lhs => rw [htext]
    rw [Str.strip, List.append_assoc, hcore, List.cons_append,
      dropWhile_isSpace (fun a ha => isSpace_of_isBlank (hleft a ha)) hc, ← List.cons_append, ← hcore,
      hused, List.reverse_append, List.reverse_append, List.reverse_singleton, List.singleton_append,
      dropWhile_isSpace _ hd, List.reverse_cons, List.reverse_reverse]
    exact fun a ha => isSpace_of_isBlank (hright a (List.mem_reverse.mp ha))
  have hblank : ∀ {a : Char}, Str.isSpace a = false → isBlank a = false := by
    intro a ha
    by_contra hblank
    rw [Bool.not_eq_false] at hblank
    rw [isSpace_of_isBlank hblank] at ha
    cases ha
  have hcore' : trimBlank (trimBlank text) = trimBlank text :=
    trimBlank_of_cons_concat (hblank hc) (hblank hd) hcore hused
  refine ⟨?_, ?_⟩
  · rw [hstrip, hcore]
    exact List.cons_ne_nil c cs
  · rw [hstrip, ← hparse, parse, parse, hcore']

/-! ### Readers with more constants -/

section

variable {float : List Char → FloatRepr}

lemma readToken_mono {p : Json × List Char} (h : readToken ⟨float, false⟩ cs = some p) :
    readToken ⟨float, true⟩ cs = some p := by
  rw [readToken, Option.or_eq_some_iff] at h ⊢
  obtain h | ⟨-, h⟩ := h
  · left
    rw [readKeyword, keywords] at h ⊢
    simp only [Bool.false_eq_true, if_false, List.append_nil] at h
    rw [if_pos rfl, List.findSome?_append, h]
    rfl
  · right
    obtain ⟨q, hq, -⟩ := Option.map_eq_some_iff.mp h
    exact ⟨readKeyword_of_scanNumber hq, h⟩

private structure ReadsMono (float : List Char → FloatRepr) (n : ℕ) : Prop where
  value : ∀ {cs p}, readValue ⟨float, false⟩ n cs = some p → readValue ⟨float, true⟩ n cs = some p
  items : ∀ {cs p}, readItems ⟨float, false⟩ n cs = some p → readItems ⟨float, true⟩ n cs = some p
  moreItems : ∀ {cs p}, readMoreItems ⟨float, false⟩ n cs = some p →
    readMoreItems ⟨float, true⟩ n cs = some p
  members : ∀ {cs p}, readMembers ⟨float, false⟩ n cs = some p →
    readMembers ⟨float, true⟩ n cs = some p
  moreMembers : ∀ {cs p}, readMoreMembers ⟨float, false⟩ n cs = some p →
    readMoreMembers ⟨float, true⟩ n cs = some p

private lemma readsMono (float : List Char → FloatRepr) (n : ℕ) : ReadsMono float n := by
  induction n with
  | zero =>
    constructor
    · intro cs p h
      cases h
    · intro cs p h
      cases h
    · intro cs p h
      cases h
    · intro cs p h
      cases h
    · intro cs p h
      cases h
  | succ n ih =>
    constructor
    · intro cs p h
      cases cs with
      | nil => cases h
      | cons c cs =>
        rw [readValue] at h ⊢
        split_ifs at h ⊢
        · exact h
        · exact h
        · obtain ⟨q, hq, rfl⟩ := Option.map_eq_some_iff.mp h
          rw [ih.items hq, Option.map_some]
        · exact h
        · obtain ⟨q, hq, rfl⟩ := Option.map_eq_some_iff.mp h
          rw [ih.members hq, Option.map_some]
        · exact readToken_mono h
    · intro cs p h
      rw [readItems] at h ⊢
      obtain ⟨q, hq, h⟩ := Option.bind_eq_some_iff.mp h
      obtain ⟨q', hq', rfl⟩ := Option.map_eq_some_iff.mp h
      rw [ih.value hq, Option.bind_some, ih.moreItems hq', Option.map_some]
    · intro cs p h
      rw [readMoreItems] at h ⊢
      split_ifs at h ⊢
      · exact h
      · exact ih.items h
    · intro cs p h
      rw [readMembers] at h ⊢
      obtain ⟨k, hk, h⟩ := Option.bind_eq_some_iff.mp h
      obtain ⟨q, hq, h⟩ := Option.bind_eq_some_iff.mp h
      obtain ⟨q', hq', rfl⟩ := Option.map_eq_some_iff.mp h
      rw [hk, Option.bind_some, ih.value hq, Option.bind_some, ih.moreMembers hq', Option.map_some]
    · intro cs p h
      rw [readMoreMembers] at h ⊢
      split_ifs at h ⊢
      · exact h
      · exact ih.members h

/-- What is parsed without the constants is parsed with them. -/
theorem parse_mono {text : List Char} {v : Json} (h : parse ⟨float, false⟩ text = some v) :
    parse ⟨float, true⟩ text = some v := by
  obtain ⟨p, hp, h⟩ := Option.bind_eq_some_iff.mp h
  rw [parse, (readsMono float _).value hp]
  exact h

end

end

end Json
