import AxiomGrid.Lib.PyFloat
import Mathlib.Data.List.Basic
import Mathlib.Tactic.Common

/-!
# JSON values and their compact text

`Json` is the value `json.loads` builds: an object is the list of its members in insertion order, an
integer is unbounded, and a float is kept as the text its `repr` writes, which determines it.
`Json.render` is `json.dumps(v, ensure_ascii=False, separators=(",", ":"))`.

The result other developments rely on is `Json.render_injective`: the compact text determines the
value, the order of members included. Strings are self-delimiting and so are arrays and objects; a
number is not, so the induction reads a value off any text that goes on with a separator.
-/

/-- The characters `repr` uses for a finite float. -/
def isNumberChar (c : Char) : Bool := c.isDigit || c == '-' || c == '+' || c == '.' || c == 'e'

/-- The texts `repr` produces for a float: a number with a fraction or an exponent, or one of the
three special values as `json` writes them. -/
def isFloatText (t : List Char) : Bool :=
  t == "NaN".toList || t == "Infinity".toList || t == "-Infinity".toList ||
    (t.all isNumberChar && t.any fun c => c == '.' || c == 'e')

/-- A float, given by its `repr`. -/
@[ext] structure FloatRepr where
  text : List Char
  valid : isFloatText text = true
  deriving DecidableEq, Repr

/-- The number a float text stands for. -/
def FloatRepr.value (x : FloatRepr) : PyFloat :=
  (PyFloat.parse (fun c => if c.isDigit then some (c.toNat - '0'.toNat) else none) x.text).getD .nan

/-- A JSON value. -/
inductive Json where
  | null
  | bool (b : Bool)
  | int (n : ℤ)
  | float (x : FloatRepr)
  | str (s : String)
  | arr (xs : List Json)
  | obj (kvs : List (String × Json))
  deriving Repr

namespace Json

instance : Inhabited Json := ⟨null⟩

/-- `d.get(k)` on a dictionary; `none` when the key is missing or the value is not a dictionary. -/
def get? (k : String) : Json → Option Json
  | obj kvs => kvs.lookup k
  | _ => none

/-- `isinstance(v, dict)`, with the members. -/
def members? : Json → Option (List (String × Json))
  | obj kvs => some kvs
  | _ => none

/-- `isinstance(v, list)`, with the items. -/
def items? : Json → Option (List Json)
  | arr xs => some xs
  | _ => none

/-- `isinstance(v, str)`, with the string. -/
def str? : Json → Option String
  | str s => some s
  | _ => none

/-- `type(v) is int`, with the integer. -/
def int? : Json → Option ℤ
  | int n => some n
  | _ => none

/-- The number a value compares as: booleans are integers. -/
def number? : Json → Option PyFloat
  | bool b => some (.fin (if b then 1 else 0))
  | int n => some (.fin n)
  | float x => some x.value
  | _ => none

/-- Whether a value is true in a condition. -/
def truthy : Json → Bool
  | null => false
  | bool b => b
  | int n => n ≠ 0
  | float x => !x.value.eq (.fin 0)
  | str s => s ≠ ""
  | arr xs => !xs.isEmpty
  | obj kvs => !kvs.isEmpty

/-- `d[k] = v` on the members of a dictionary: a key that is there keeps its place. -/
def setItem (kvs : List (String × Json)) (k : String) (v : Json) : List (String × Json) :=
  match kvs with
  | [] => [(k, v)]
  | (k', v') :: kvs => if k' = k then (k, v) :: kvs else (k', v') :: setItem kvs k v

lemma lookup_setItem (kvs : List (String × Json)) (k : String) (v : Json) (k' : String) :
    (setItem kvs k v).lookup k' = if k' = k then some v else kvs.lookup k' := by
  induction kvs with
  | nil =>
    simp only [setItem, List.lookup_cons, List.lookup_nil, beq_eq_decide]
    by_cases hk : k' = k <;> simp [hk]
  | cons p kvs ih =>
    obtain ⟨l, w⟩ := p
    by_cases hl : l = k
    · subst hl
      simp only [setItem, if_true, List.lookup_cons, beq_eq_decide]
      by_cases hk : k' = l <;> simp [hk]
    · simp only [setItem, hl, if_false, List.lookup_cons, ih, beq_eq_decide]
      by_cases hk : k' = l
      · subst hk
        simp [hl]
      · simp [hk]

/-- The members named by `order`, in that order: `{k: d[k] for k in order if k in d}`. -/
def pick (order : List String) (kvs : List (String × Json)) : List (String × Json) :=
  order.filterMap fun k => (kvs.lookup k).map (k, ·)

lemma pick_congr {order : List String} {kvs kvs' : List (String × Json)}
    (h : ∀ k ∈ order, kvs.lookup k = kvs'.lookup k) : pick order kvs = pick order kvs' :=
  List.filterMap_congr fun k hk => by rw [h k hk]

lemma lookup_pick {order : List String} {k : String} (hk : k ∈ order) (kvs : List (String × Json)) :
    (pick order kvs).lookup k = kvs.lookup k := by
  induction order with
  | nil => cases hk
  | cons l order ih =>
    by_cases hl : k = l
    · subst hl
      cases hv : kvs.lookup k with
      | some v => simp [pick, hv]
      | none =>
        -- no entry for `k` is picked, here or later
        refine List.lookup_eq_none_iff.mpr fun p hp => ?_
        obtain ⟨k', -, hk'⟩ := List.mem_filterMap.mp hp
        obtain ⟨v, hv', rfl⟩ := Option.map_eq_some_iff.mp hk'
        rw [bne_iff_ne]
        rintro rfl
        rw [hv] at hv'
        cases hv'
    · have hmem : k ∈ order := by
        rcases List.mem_cons.mp hk with h | h
        · exact absurd h hl
        · exact h
      rw [← ih hmem]
      cases hv : kvs.lookup l with
      | none => simp [pick, hv]
      | some v => simp [pick, hv, List.lookup_cons, beq_eq_decide, hl]

mutual

/-- Python's `v == w`: numbers compare by value across their types, dictionaries without regard to
order. -/
def pyEq : Json → Json → Bool
  | null, null => true
  | str s, str t => s == t
  | arr xs, arr ys => pyEqItems xs ys
  | obj kvs, obj kvs' => kvs.length == kvs'.length && pyEqMembers kvs kvs'
  | v, w =>
    match v.number?, w.number? with
    | some x, some y => x.eq y
    | _, _ => false

def pyEqItems : List Json → List Json → Bool
  | [], [] => true
  | x :: xs, y :: ys => pyEq x y && pyEqItems xs ys
  | _, _ => false

def pyEqMembers : List (String × Json) → List (String × Json) → Bool
  | [], _ => true
  | (k, v) :: kvs, kvs' =>
    (match kvs'.lookup k with
      | some w => pyEq v w
      | none => false) && pyEqMembers kvs kvs'

end

lemma pyEq_str_left {s : String} {w : Json} : pyEq (str s) w = true ↔ w = str s := by
  cases w with
  | str t => simp [pyEq, @eq_comm _ t]
  | _ => simp [pyEq, number?]

lemma pyEq_str_right {s : String} {v : Json} : pyEq v (str s) = true ↔ v = str s := by
  cases v <;> simp [pyEq, number?]

/-! ### The compact text -/

/-- The escape of one character inside a string literal. -/
def escapeChar (c : Char) : List Char :=
  if c = '"' then ['\\', '"']
  else if c = '\\' then ['\\', '\\']
  else if c = '\n' then ['\\', 'n']
  else if c = '\r' then ['\\', 'r']
  else if c = '\t' then ['\\', 't']
  else if c = '\x0c' then ['\\', 'f']
  else if c = '\x08' then ['\\', 'b']
  else if c.toNat < 32 then
    ['\\', 'u', '0', '0', Nat.digitChar (c.toNat / 16), Nat.digitChar (c.toNat % 16)]
  else [c]

/-- A string literal. -/
def quote (s : String) : List Char := '"' :: (s.toList.flatMap escapeChar ++ ['"'])

/-- The decimal text of an integer. -/
def intText : ℤ → List Char
  | .ofNat n => Nat.toDigits 10 n
  | .negSucc n => '-' :: Nat.toDigits 10 (n + 1)

mutual

/-- `json.dumps(v, ensure_ascii=False, separators=(",", ":"))`. -/
def render : Json → List Char
  | null => "null".toList
  | bool true => "true".toList
  | bool false => "false".toList
  | int n => intText n
  | float x => x.text
  | str s => quote s
  | arr [] => ['[', ']']
  | arr (x :: xs) => '[' :: (render x ++ renderItems xs)
  | obj [] => ['{', '}']
  | obj ((k, v) :: kvs) => '{' :: (quote k ++ ':' :: (render v ++ renderMembers kvs))

/-- The items after the first one, up to the closing bracket. -/
def renderItems : List Json → List Char
  | [] => [']']
  | x :: xs => ',' :: (render x ++ renderItems xs)

/-- The members after the first one, up to the closing brace. -/
def renderMembers : List (String × Json) → List Char
  | [] => ['}']
  | (k, v) :: kvs => ',' :: (quote k ++ ':' :: (render v ++ renderMembers kvs))

end

/-- The text as a string. -/
def dumps (v : Json) : String := String.ofList (render v)

/-! ### Strings are self-delimiting -/

private def hexValue (c : Char) : ℕ :=
  if c.isDigit then c.toNat - '0'.toNat else c.toNat - 'a'.toNat + 10

/-- Reads one escaped character off a string body. -/
private def unescape : List Char → Option (Char × List Char)
  | '\\' :: '"' :: cs => some ('"', cs)
  | '\\' :: '\\' :: cs => some ('\\', cs)
  | '\\' :: 'n' :: cs => some ('\n', cs)
  | '\\' :: 'r' :: cs => some ('\r', cs)
  | '\\' :: 't' :: cs => some ('\t', cs)
  | '\\' :: 'f' :: cs => some ('\x0c', cs)
  | '\\' :: 'b' :: cs => some ('\x08', cs)
  | '\\' :: 'u' :: '0' :: '0' :: h :: l :: cs =>
    some (Char.ofNat (16 * hexValue h + hexValue l), cs)
  | c :: cs => some (c, cs)
  | [] => none

private lemma hexValue_digitChar (n : ℕ) (h : n < 32) :
    16 * hexValue (Nat.digitChar (n / 16)) + hexValue (Nat.digitChar (n % 16)) = n := by
  revert n
  decide

private lemma unescape_escapeChar (c : Char) (cs : List Char) :
    unescape (escapeChar c ++ cs) = some (c, cs) := by
  unfold escapeChar
  split_ifs with h₁ h₂ h₃ h₄ h₅ h₆ h₇ h₈
  · simp [unescape, h₁]
  · simp [unescape, h₂]
  · simp [unescape, h₃]
  · simp [unescape, h₄]
  · simp [unescape, h₅]
  · simp [unescape, h₆]
  · simp [unescape, h₇]
  · simp only [List.cons_append, List.nil_append, unescape]
    rw [hexValue_digitChar _ h₈, Char.ofNat_toNat]
  · -- an ordinary character is not a backslash, so no escape clause applies
    simp only [List.cons_append, List.nil_append]
    rw [unescape]
    all_goals simp_all

private lemma escapeChar_ne_quote (c : Char) : ∃ d ds, escapeChar c = d :: ds ∧ d ≠ '"' := by
  unfold escapeChar
  split_ifs with h₁ h₂ h₃ h₄ h₅ h₆ h₇ h₈
  · exact ⟨_, _, rfl, by decide⟩
  · exact ⟨_, _, rfl, by decide⟩
  · exact ⟨_, _, rfl, by decide⟩
  · exact ⟨_, _, rfl, by decide⟩
  · exact ⟨_, _, rfl, by decide⟩
  · exact ⟨_, _, rfl, by decide⟩
  · exact ⟨_, _, rfl, by decide⟩
  · exact ⟨_, _, rfl, by decide⟩
  · exact ⟨c, [], rfl, h₁⟩

private lemma flatMap_escapeChar_inj {cs ds r r' : List Char}
    (h : cs.flatMap escapeChar ++ '"' :: r = ds.flatMap escapeChar ++ '"' :: r') :
    cs = ds ∧ r = r' := by
  induction cs generalizing ds with
  | nil =>
    cases ds with
    | nil => simpa using h
    | cons d ds =>
      obtain ⟨e, es, he, hne⟩ := escapeChar_ne_quote d
      simp only [List.flatMap_nil, List.nil_append, List.flatMap_cons, he, List.cons_append,
        List.cons.injEq] at h
      exact absurd h.1.symm hne
  | cons c cs ih =>
    cases ds with
    | nil =>
      obtain ⟨e, es, he, hne⟩ := escapeChar_ne_quote c
      simp only [List.flatMap_nil, List.nil_append, List.flatMap_cons, he, List.cons_append,
        List.cons.injEq] at h
      exact absurd h.1 hne
    | cons d ds =>
      simp only [List.flatMap_cons, List.append_assoc] at h
      have hcd := congrArg unescape h
      rw [unescape_escapeChar, unescape_escapeChar] at hcd
      obtain ⟨rfl, htail⟩ : c = d ∧ _ = _ := by simpa using hcd
      obtain ⟨rfl, hr⟩ := ih htail
      exact ⟨rfl, hr⟩

lemma quote_append_inj {s t : String} {r r' : List Char} (h : quote s ++ r = quote t ++ r') :
    s = t ∧ r = r' := by
  simp only [quote, List.cons_append, List.append_assoc, List.nil_append, List.cons.injEq,
    true_and] at h
  obtain ⟨hst, hr⟩ := flatMap_escapeChar_inj h
  exact ⟨String.ext hst, hr⟩

/-! ### Tokens end at a separator -/

/-- The characters that may follow a value inside an array or an object. -/
private def isDelim (c : Char) : Bool := c == ',' || c == ']' || c == '}'

/-- A text that a value may be followed by. -/
private def Delimited (r : List Char) : Prop := ∀ c ∈ r.head?, isDelim c = true

private lemma delimited_cons {c : Char} {r : List Char} (h : isDelim c = true) :
    Delimited (c :: r) := by
  intro d hd
  simp only [List.head?_cons, Option.mem_def, Option.some.injEq] at hd
  exact hd ▸ h

private lemma token_append_inj {a b r r' : List Char} (ha : ∀ c ∈ a, isDelim c = false)
    (hb : ∀ c ∈ b, isDelim c = false) (hr : Delimited r) (hr' : Delimited r')
    (h : a ++ r = b ++ r') : a = b ∧ r = r' := by
  induction a generalizing b with
  | nil =>
    cases b with
    | nil => exact ⟨rfl, h⟩
    | cons d ds =>
      have hd := hr d (by simp [show r = d :: (ds ++ r') from h])
      rw [hb d (by simp)] at hd
      cases hd
  | cons c cs ih =>
    cases b with
    | nil =>
      have hc := hr' c (by simp [show r' = c :: (cs ++ r) from h.symm])
      rw [ha c (by simp)] at hc
      cases hc
    | cons d ds =>
      obtain ⟨rfl, htail⟩ : c = d ∧ cs ++ r = ds ++ r' := by simpa using h
      obtain ⟨rfl, hr⟩ := ih (fun e he => ha e (by simp [he])) (fun e he => hb e (by simp [he])) htail
      exact ⟨rfl, hr⟩

/-- The text of a value that is one token: a keyword or a number. -/
private def token? : Json → Option (List Char)
  | null => some "null".toList
  | bool true => some "true".toList
  | bool false => some "false".toList
  | int n => some (intText n)
  | float x => some x.text
  | _ => none

private lemma render_of_token {v : Json} {t : List Char} (h : token? v = some t) :
    render v = t := by
  unfold token? at h
  split at h <;> simp_all [render]

/-- Characters of a token: not a delimiter, and not the opening of a string, array or object. -/
private def isTokenChar (c : Char) : Bool :=
  !(c == ',' || c == ']' || c == '}' || c == '"' || c == '[' || c == '{')

private lemma isTokenChar_of_isDigit {c : Char} (h : c.isDigit = true) : isTokenChar c = true := by
  simp only [isTokenChar, Bool.not_eq_true', Bool.or_eq_false_iff, beq_eq_false_iff_ne]
  refine ⟨⟨⟨⟨⟨?_, ?_⟩, ?_⟩, ?_⟩, ?_⟩, ?_⟩ <;> rintro rfl <;> simp at h

private lemma isDigit_of_mem_intText {n : ℤ} {c : Char} (h : c ∈ intText n) :
    c.isDigit = true ∨ c = '-' := by
  cases n with
  | ofNat n => exact .inl (Nat.isDigit_of_mem_toDigits (by decide) (by decide) h)
  | negSucc n =>
    rcases List.mem_cons.mp h with rfl | h
    · exact .inr rfl
    · exact .inl (Nat.isDigit_of_mem_toDigits (by decide) (by decide) h)

private lemma isTokenChar_of_mem {v : Json} {t : List Char} (h : token? v = some t) :
    ∀ c ∈ t, isTokenChar c = true := by
  intro c hc
  unfold token? at h
  split at h
  · cases h
    exact List.all_eq_true.mp (by decide) c hc
  · cases h
    exact List.all_eq_true.mp (by decide) c hc
  · cases h
    exact List.all_eq_true.mp (by decide) c hc
  · cases h
    rcases isDigit_of_mem_intText hc with hc | rfl
    · exact isTokenChar_of_isDigit hc
    · decide
  · rename_i x
    cases h
    have hx := x.valid
    simp only [isFloatText, Bool.or_eq_true, beq_iff_eq, Bool.and_eq_true, List.all_eq_true] at hx
    rcases hx with ((hx | hx) | hx) | ⟨hx, -⟩
    · rw [hx] at hc
      exact List.all_eq_true.mp (by decide) c hc
    · rw [hx] at hc
      exact List.all_eq_true.mp (by decide) c hc
    · rw [hx] at hc
      exact List.all_eq_true.mp (by decide) c hc
    · have := hx c hc
      simp only [isNumberChar, Bool.or_eq_true, beq_iff_eq] at this
      rcases this with (((hd | rfl) | rfl) | rfl) | rfl
      · exact isTokenChar_of_isDigit hd
      all_goals decide
  · cases h

private lemma token_ne_nil {v : Json} {t : List Char} (h : token? v = some t) : t ≠ [] := by
  unfold token? at h
  split at h
  · cases h; decide
  · cases h; decide
  · cases h; decide
  · rename_i n
    cases h
    cases n with
    | ofNat n => exact Nat.toDigits_ne_nil
    | negSucc n => exact List.cons_ne_nil _ _
  · rename_i x
    cases h
    intro hnil
    have := x.valid
    rw [hnil] at this
    revert this
    decide
  · cases h

private lemma intText_injective : Function.Injective intText := by
  have hdigits : ∀ m n : ℕ, Nat.toDigits 10 m = Nat.toDigits 10 n → m = n := fun m n h => by
    simpa [Nat.ofDigitChars_ten_toDigits] using congrArg (Nat.ofDigitChars 10 · 0) h
  have hminus : ∀ m n : ℕ, Nat.toDigits 10 m ≠ '-' :: Nat.toDigits 10 n := fun m n h => by
    have := Nat.isDigit_of_mem_toDigits (b := 10) (n := m) (c := '-') (by decide) (by decide)
      (by rw [h]; simp)
    revert this
    decide
  intro m n h
  cases m with
  | ofNat m =>
    cases n with
    | ofNat n => rw [hdigits m n h]
    | negSucc n => exact absurd h (hminus _ _)
  | negSucc m =>
    cases n with
    | ofNat n => exact absurd h.symm (hminus _ _)
    | negSucc n =>
      have := hdigits (m + 1) (n + 1) (by simpa [intText] using h)
      rw [show m = n by omega]

private lemma isFloatText_intText (n : ℤ) : isFloatText (intText n) = false := by
  have hdot : ∀ c ∈ intText n, (c == '.' || c == 'e') = false := by
    intro c hc
    rcases isDigit_of_mem_intText hc with hc | rfl
    · simp only [Bool.or_eq_false_iff, beq_eq_false_iff_ne]
      constructor <;> rintro rfl <;> simp at hc
    · decide
  have hspecial : ∀ t : List Char, (∃ c ∈ t, c.isDigit = false ∧ c ≠ '-') → intText n ≠ t := by
    rintro t ⟨c, hc, hd, hm⟩ rfl
    rcases isDigit_of_mem_intText hc with h | h
    · rw [h] at hd; cases hd
    · exact hm h
  simp only [isFloatText, Bool.or_eq_false_iff, beq_eq_false_iff_ne, Bool.and_eq_false_iff]
  refine ⟨⟨⟨hspecial _ ⟨'N', ?_⟩, hspecial _ ⟨'I', ?_⟩⟩, hspecial _ ⟨'I', ?_⟩⟩, .inr ?_⟩
  · decide
  · decide
  · decide
  · exact List.any_eq_false.mpr fun c hc => by simp [hdot c hc]

/-- Distinct values that are one token have distinct texts. -/
private lemma token_inj {v w : Json} {t : List Char} (hv : token? v = some t)
    (hw : token? w = some t) : v = w := by
  have hkeyword : ∀ n c cs, c.isDigit = false → c ≠ '-' → intText n ≠ c :: cs := by
    intro n c cs hd hm h
    rcases isDigit_of_mem_intText (n := n) (c := c) (by rw [h]; simp) with h | h
    · rw [h] at hd; cases hd
    · exact hm h
  have hfloat : ∀ (x : FloatRepr) (t : List Char), isFloatText t = false → x.text ≠ t := by
    rintro x t h rfl
    rw [x.valid] at h
    cases h
  unfold token? at hv hw
  split at hv <;> cases hv <;> split at hw <;> simp only [Option.some.injEq, reduceCtorEq] at hw
  -- the diagonal, and the pairs of two keywords
  all_goals try rfl
  all_goals try exact absurd hw (by decide)
  -- a number against a keyword, or the two kinds of numbers
  all_goals try exact absurd hw (hkeyword _ _ _ (by decide) (by decide))
  all_goals try exact absurd hw.symm (hkeyword _ _ _ (by decide) (by decide))
  all_goals try exact absurd hw (hfloat _ _ (by decide))
  all_goals try exact absurd hw.symm (hfloat _ _ (by decide))
  · rw [intText_injective hw]
  · exact absurd hw (hfloat _ _ (isFloatText_intText _))
  · exact absurd hw.symm (hfloat _ _ (isFloatText_intText _))
  · exact congrArg float (FloatRepr.ext hw.symm)

private lemma token_cons {v : Json} {t : List Char} (h : token? v = some t) :
    ∃ c cs, t = c :: cs ∧ isTokenChar c = true := by
  cases t with
  | nil => exact absurd rfl (token_ne_nil h)
  | cons c cs => exact ⟨c, cs, rfl, isTokenChar_of_mem h c (by simp)⟩

private lemma isDelim_of_mem_token {v : Json} {t : List Char} (h : token? v = some t) :
    ∀ c ∈ t, isDelim c = false := by
  intro c hc
  have := isTokenChar_of_mem h c hc
  simp only [isTokenChar, Bool.not_eq_true', Bool.or_eq_false_iff] at this
  simp only [isDelim, Bool.or_eq_false_iff]
  exact ⟨⟨this.1.1.1.1.1, this.1.1.1.1.2⟩, this.1.1.1.2⟩

/-- A value's text never starts with a character that may follow a value. -/
private lemma render_cons (v : Json) : ∃ c cs, render v = c :: cs ∧ isDelim c = false := by
  cases hv : token? v with
  | some t =>
    obtain ⟨c, cs, rfl, -⟩ := token_cons hv
    exact ⟨c, cs, render_of_token hv, isDelim_of_mem_token hv c (by simp)⟩
  | none =>
    match v with
    | str s => exact ⟨_, _, rfl, by decide⟩
    | arr [] => exact ⟨_, _, rfl, by decide⟩
    | arr (x :: xs) => exact ⟨_, _, by rw [render], by decide⟩
    | obj [] => exact ⟨_, _, rfl, by decide⟩
    | obj ((k, v) :: kvs) => exact ⟨_, _, by rw [render], by decide⟩
    | null | bool true | bool false | int _ | float _ => cases hv

private lemma renderItems_delimited (xs : List Json) (r : List Char) :
    Delimited (renderItems xs ++ r) := by
  cases xs with
  | nil => exact delimited_cons (by decide)
  | cons x xs =>
    rw [renderItems]
    exact delimited_cons (by decide)

private lemma renderMembers_delimited (kvs : List (String × Json)) (r : List Char) :
    Delimited (renderMembers kvs ++ r) := by
  cases kvs with
  | nil => exact delimited_cons (by decide)
  | cons kv kvs =>
    rw [renderMembers]
    exact delimited_cons (by decide)

/-- A token and a value that opens with a quote, bracket or brace have different texts. -/
private lemma token_append_ne {v : Json} {t r r' : List Char} {c : Char} {cs : List Char}
    (h : token? v = some t) (hc : isTokenChar c = false) : t ++ r ≠ c :: cs ++ r' := by
  obtain ⟨d, ds, rfl, hd⟩ := token_cons h
  intro he
  obtain ⟨rfl, -⟩ : d = c ∧ _ := by simpa using he
  rw [hd] at hc
  cases hc

/-- The opening character of a value that is not a token. -/
private def opening : Json → Char
  | arr _ => '['
  | obj _ => '{'
  | _ => '"'

private lemma render_opening {v : Json} (h : token? v = none) :
    ∃ cs, render v = opening v :: cs := by
  match v with
  | str s => exact ⟨_, rfl⟩
  | arr [] => exact ⟨_, rfl⟩
  | arr (x :: xs) => exact ⟨_, by rw [render, opening]⟩
  | obj [] => exact ⟨_, rfl⟩
  | obj ((k, v) :: kvs) => exact ⟨_, by rw [render, opening]⟩
  | null | bool true | bool false | int _ | float _ => cases h

private lemma isTokenChar_opening (v : Json) : isTokenChar (opening v) = false := by
  cases v <;> rfl

private lemma opening_eq {v w : Json} {r r' : List Char} (hv : token? v = none)
    (hw : token? w = none) (h : render v ++ r = render w ++ r') : opening v = opening w := by
  obtain ⟨cs, hcs⟩ := render_opening hv
  obtain ⟨ds, hds⟩ := render_opening hw
  rw [hcs, hds] at h
  exact (List.cons.inj h).1

private lemma token_none_iff {v w : Json} {r r' : List Char}
    (h : render v ++ r = render w ++ r') : token? v = none ↔ token? w = none := by
  have key : ∀ {v w : Json} {r r' : List Char}, render v ++ r = render w ++ r' →
      token? v = none → token? w = none := by
    intro v w r r' h hv
    cases hw : token? w with
    | none => rfl
    | some t =>
      obtain ⟨cs, hcs⟩ := render_opening hv
      rw [hcs, render_of_token hw] at h
      exact absurd h.symm (token_append_ne hw (isTokenChar_opening v))
  exact ⟨key h, key h.symm⟩

private lemma render_append_inj_of_token {v w : Json} {t r r' : List Char} (hr : Delimited r)
    (hr' : Delimited r') (h : render v ++ r = render w ++ r') (hv : token? v = some t) :
    v = w ∧ r = r' := by
  cases hw : token? w with
  | none =>
    rw [(token_none_iff h).mpr hw] at hv
    cases hv
  | some u =>
    rw [render_of_token hv, render_of_token hw] at h
    obtain ⟨rfl, hr⟩ := token_append_inj (isDelim_of_mem_token hv) (isDelim_of_mem_token hw) hr hr' h
    exact ⟨token_inj hv hw, hr⟩

/-! ### The text determines the value -/

mutual

private theorem render_append_inj (v w : Json) {r r' : List Char} (hr : Delimited r)
    (hr' : Delimited r') (h : render v ++ r = render w ++ r') : v = w ∧ r = r' := by
  have hvw := token_none_iff h
  match v with
  | null | bool true | bool false | int _ | float _ =>
    exact render_append_inj_of_token hr hr' h rfl
  | str s =>
    have hw := hvw.mp rfl
    have ho := opening_eq rfl hw h
    match w with
    | str t =>
      obtain ⟨rfl, hr⟩ := quote_append_inj (by simpa only [render] using h)
      exact ⟨rfl, hr⟩
    | arr _ | obj _ => cases ho
    | null | bool true | bool false | int _ | float _ => cases hw
  | arr xs =>
    have hw := hvw.mp rfl
    have ho := opening_eq rfl hw h
    match xs, w with
    | [], arr [] => exact ⟨rfl, by simpa [render] using h⟩
    | x :: xs, arr (y :: ys) =>
      simp only [render, List.cons_append, List.append_assoc, List.cons.injEq, true_and] at h
      obtain ⟨hx, hxs⟩ := render_append_inj x y (renderItems_delimited _ _)
        (renderItems_delimited _ _) h
      obtain ⟨hxs, hr⟩ := renderItems_append_inj xs ys hxs
      exact ⟨by rw [hx, hxs], hr⟩
    | [], arr (y :: ys) =>
      obtain ⟨c, cs, hy, hc⟩ := render_cons y
      simp only [render, hy, List.cons_append, List.cons.injEq, true_and] at h
      rw [← h.1] at hc
      cases hc
    | x :: xs, arr [] =>
      obtain ⟨c, cs, hx, hc⟩ := render_cons x
      simp only [render, hx, List.cons_append, List.cons.injEq, true_and] at h
      rw [h.1] at hc
      cases hc
    | _, str _ | _, obj _ => cases ho
    | _, null | _, bool true | _, bool false | _, int _ | _, float _ => cases hw
  | obj kvs =>
    have hw := hvw.mp rfl
    have ho := opening_eq rfl hw h
    match kvs, w with
    | [], obj [] => exact ⟨rfl, by simpa [render] using h⟩
    | (k, v) :: kvs, obj ((k', v') :: kvs') =>
      simp only [render, List.cons_append, List.append_assoc, List.cons.injEq, true_and] at h
      obtain ⟨hk, hv⟩ := quote_append_inj h
      obtain ⟨hv, hkvs⟩ := render_append_inj v v' (renderMembers_delimited _ _)
        (renderMembers_delimited _ _) (List.cons.inj hv).2
      obtain ⟨hkvs, hr⟩ := renderMembers_append_inj kvs kvs' hkvs
      exact ⟨by rw [hk, hv, hkvs], hr⟩
    | [], obj ((k', v') :: kvs') => simp [render, quote] at h
    | (k, v) :: kvs, obj [] => simp [render, quote] at h
    | _, str _ | _, arr _ => cases ho
    | _, null | _, bool true | _, bool false | _, int _ | _, float _ => cases hw

private theorem renderItems_append_inj (xs ys : List Json) {r r' : List Char}
    (h : renderItems xs ++ r = renderItems ys ++ r') : xs = ys ∧ r = r' := by
  match xs, ys with
  | [], [] => exact ⟨rfl, by simpa [renderItems] using h⟩
  | x :: xs, y :: ys =>
    simp only [renderItems, List.cons_append, List.append_assoc, List.cons.injEq, true_and] at h
    obtain ⟨hx, hxs⟩ := render_append_inj x y (renderItems_delimited _ _)
      (renderItems_delimited _ _) h
    obtain ⟨hxs, hr⟩ := renderItems_append_inj xs ys hxs
    exact ⟨by rw [hx, hxs], hr⟩
  | [], _ :: _ | _ :: _, [] => simp [renderItems] at h

private theorem renderMembers_append_inj (kvs kvs' : List (String × Json)) {r r' : List Char}
    (h : renderMembers kvs ++ r = renderMembers kvs' ++ r') : kvs = kvs' ∧ r = r' := by
  match kvs, kvs' with
  | [], [] => exact ⟨rfl, by simpa [renderMembers] using h⟩
  | (k, v) :: kvs, (k', v') :: kvs' =>
    simp only [renderMembers, List.cons_append, List.append_assoc, List.cons.injEq, true_and] at h
    obtain ⟨hk, hv⟩ := quote_append_inj h
    obtain ⟨hv, hkvs⟩ := render_append_inj v v' (renderMembers_delimited _ _)
      (renderMembers_delimited _ _) (List.cons.inj hv).2
    obtain ⟨hkvs, hr⟩ := renderMembers_append_inj kvs kvs' hkvs
    exact ⟨by rw [hk, hv, hkvs], hr⟩
  | [], _ :: _ | _ :: _, [] => simp [renderMembers] at h

end

/-- The compact text determines the value. -/
theorem render_injective : Function.Injective render := by
  intro v w h
  have hnil : Delimited [] := by simp [Delimited]
  have happend : render v ++ [] = render w ++ [] := by rw [h]
  exact (render_append_inj v w hnil hnil happend).1

theorem dumps_injective : Function.Injective dumps := by
  intro v w h
  exact render_injective (String.ofList_injective h)

end Json
