import AxiomGrid.Lib.Hex
import AxiomGrid.Lib.Json

/-!
# Other JSON texts

The texts `json.dumps` writes with its options: keys in sorted order, characters outside ASCII as
escapes, separators with blanks, and indented lines. A `Style` collects the last three, and the
compact text of `Json.render` is one of them. The ASCII text determines the value as the compact one
does, since replacing its escapes gives that text.
-/

namespace Json

/-! ### Sorted keys -/

/-- The order of texts by code points. -/
def keyBefore (s t : String) : Bool := s.toList.lex t.toList fun a b => a.toNat < b.toNat

/-- Inserts a member behind those whose keys are not larger. -/
def insertKey {α : Type} (p : String × α) : List (String × α) → List (String × α)
  | [] => [p]
  | q :: qs => if keyBefore p.1 q.1 then p :: q :: qs else q :: insertKey p qs

/-- `sorted` by key. -/
def sortKeys {α : Type} (kvs : List (String × α)) : List (String × α) :=
  kvs.foldl (fun sorted p => insertKey p sorted) []

mutual

/-- The value with the members of every object sorted by key, as `sort_keys=True` writes them. Two
values that differ only in the order of members have the same sorted form. -/
def sorted : Json → Json
  | arr xs => arr (sortedItems xs)
  | obj kvs => obj (sortKeys (sortedMembers kvs))
  | v => v

def sortedItems : List Json → List Json
  | [] => []
  | x :: xs => sorted x :: sortedItems xs

def sortedMembers : List (String × Json) → List (String × Json)
  | [] => []
  | (k, v) :: kvs => (k, sorted v) :: sortedMembers kvs

end

lemma mem_insertKey {α : Type} {p q : String × α} {qs : List (String × α)}
    (h : p ∈ insertKey q qs) : p = q ∨ p ∈ qs := by
  induction qs with
  | nil => simpa [insertKey] using h
  | cons q' qs ih =>
    rw [insertKey] at h
    split_ifs at h
    · simpa using h
    · obtain rfl | h := List.mem_cons.mp h
      · simp
      · obtain rfl | h := ih h
        · simp
        · simp [h]

lemma mem_sortKeys {α : Type} {p : String × α} {kvs : List (String × α)} (h : p ∈ sortKeys kvs) :
    p ∈ kvs := by
  have hinv : ∀ (rest sorted : List (String × α)),
      p ∈ rest.foldl (fun sorted q => insertKey q sorted) sorted → p ∈ rest ∨ p ∈ sorted := by
    intro rest
    induction rest with
    | nil =>
      intro sorted h
      exact .inr h
    | cons q rest ih =>
      intro sorted h
      obtain h | h := ih _ h
      · exact .inl (List.mem_cons_of_mem q h)
      · obtain rfl | h := mem_insertKey h
        · exact .inl List.mem_cons_self
        · exact .inr h
  obtain h | h := hinv kvs [] h
  · exact h
  · cases h

/-! ### Styles -/

/-- The choices of a writer: how a character inside a string is written, what follows a comma and a
colon, and how a new line at a nesting depth starts. -/
structure Style where
  escape : Char → List Char
  commaGap : List Char
  colonGap : List Char
  newline : ℕ → List Char

/-- The four digits of a `\u` escape. -/
def hex4 (n : ℕ) : List Char :=
  [Nat.digitChar (n / 4096 % 16), Nat.digitChar (n / 256 % 16), Nat.digitChar (n / 16 % 16),
    Nat.digitChar (n % 16)]

/-- The `\u` escape of a character: one code unit, or the two of a surrogate pair. -/
def escapeUnicode (c : Char) : List Char :=
  if c.toNat < 0x10000 then '\\' :: 'u' :: hex4 c.toNat
  else
    '\\' :: 'u' :: (hex4 (0xd800 + (c.toNat - 0x10000) / 0x400) ++
      '\\' :: 'u' :: hex4 (0xdc00 + (c.toNat - 0x10000) % 0x400))

/-- The escape of one character with `ensure_ascii=True`. -/
def escapeAscii (c : Char) : List Char :=
  if c = '"' ∨ c = '\\' ∨ c = '\n' ∨ c = '\r' ∨ c = '\t' ∨ c = '\x0c' ∨ c = '\x08' then escapeChar c
  else if 32 ≤ c.toNat ∧ c.toNat ≤ 126 then [c]
  else escapeUnicode c

/-- `separators=(",", ":")`. -/
def Style.compact : Style := ⟨escapeAscii, [], [], fun _ => []⟩

/-- `ensure_ascii=False, separators=(",", ":")`. -/
def Style.compactUnicode : Style := ⟨escapeChar, [], [], fun _ => []⟩

/-- The default separators. -/
def Style.spaced : Style := ⟨escapeAscii, [' '], [' '], fun _ => []⟩

/-- `indent=2`. -/
def Style.indented : Style := ⟨escapeAscii, [], [' '], fun depth => '\n' :: List.replicate (2 * depth) ' '⟩

section Render

variable (style : Style)

/-- A string literal. -/
def quoteWith (s : String) : List Char := '"' :: (s.toList.flatMap style.escape ++ ['"'])

mutual

/-- The text of a value at a nesting depth. -/
def renderWith (depth : ℕ) : Json → List Char
  | null => "null".toList
  | bool true => "true".toList
  | bool false => "false".toList
  | int n => intText n
  | float x => x.text
  | str s => quoteWith style s
  | arr [] => ['[', ']']
  | arr (x :: xs) =>
    '[' :: (style.newline (depth + 1) ++ renderWith (depth + 1) x ++ renderItemsWith depth xs)
  | obj [] => ['{', '}']
  | obj ((k, v) :: kvs) =>
    '{' :: (style.newline (depth + 1) ++ quoteWith style k ++ ':' :: style.colonGap ++
      renderWith (depth + 1) v ++ renderMembersWith depth kvs)

/-- The items after the first one, up to the closing bracket. -/
def renderItemsWith (depth : ℕ) : List Json → List Char
  | [] => style.newline depth ++ [']']
  | x :: xs =>
    ',' :: (style.commaGap ++ style.newline (depth + 1) ++ renderWith (depth + 1) x ++
      renderItemsWith depth xs)

/-- The members after the first one, up to the closing brace. -/
def renderMembersWith (depth : ℕ) : List (String × Json) → List Char
  | [] => style.newline depth ++ ['}']
  | (k, v) :: kvs =>
    ',' :: (style.commaGap ++ style.newline (depth + 1) ++ quoteWith style k ++
      ':' :: style.colonGap ++ renderWith (depth + 1) v ++ renderMembersWith depth kvs)

end

/-- The text as a string. -/
def dumpsWith (v : Json) : String := String.ofList (renderWith style 0 v)

end Render

mutual

lemma renderWith_compactUnicode (depth : ℕ) (v : Json) :
    renderWith .compactUnicode depth v = render v := by
  match v with
  | null | bool true | bool false | int _ | float _ | arr [] | obj [] => rfl
  | str s =>
    rw [renderWith, render]
    rfl
  | arr (x :: xs) =>
    rw [renderWith, render, renderWith_compactUnicode _ x, renderItemsWith_compactUnicode _ xs]
    rfl
  | obj ((k, v) :: kvs) =>
    rw [renderWith, render, renderWith_compactUnicode _ v, renderMembersWith_compactUnicode _ kvs,
      List.append_assoc, List.append_assoc]
    rfl

lemma renderItemsWith_compactUnicode (depth : ℕ) (xs : List Json) :
    renderItemsWith .compactUnicode depth xs = renderItems xs := by
  match xs with
  | [] => rfl
  | x :: xs =>
    rw [renderItemsWith, renderItems, renderWith_compactUnicode _ x,
      renderItemsWith_compactUnicode _ xs]
    rfl

lemma renderMembersWith_compactUnicode (depth : ℕ) (kvs : List (String × Json)) :
    renderMembersWith .compactUnicode depth kvs = renderMembers kvs := by
  match kvs with
  | [] => rfl
  | (k, v) :: kvs =>
    rw [renderMembersWith, renderMembers, renderWith_compactUnicode _ v,
      renderMembersWith_compactUnicode _ kvs, List.append_assoc, List.append_assoc]
    rfl

end

/-! ### Reading strings -/

/-- The value of four hexadecimal digits. -/
def readHex4 : List Char → Option (ℕ × List Char)
  | a :: b :: c :: d :: cs => do
    let a ← hexDigit? a
    let b ← hexDigit? b
    let c ← hexDigit? c
    let d ← hexDigit? d
    some (4096 * a + 256 * b + 16 * c + d, cs)
  | _ => none

/-- The character of a `\u` escape, behind the `u`. A code unit of a surrogate pair stands only next
to the other one. -/
def readUnicode (cs : List Char) : Option (Char × List Char) := do
  let (n, cs) ← readHex4 cs
  if n < 0xd800 ∨ 0xe000 ≤ n then some (Char.ofNat n, cs)
  else if n < 0xdc00 then
    match cs with
    | '\\' :: 'u' :: cs => do
      let (m, cs) ← readHex4 cs
      if 0xdc00 ≤ m ∧ m < 0xe000 then
        some (Char.ofNat (0x10000 + 0x400 * (n - 0xd800) + (m - 0xdc00)), cs)
      else none
    | _ => none
  else none

/-- The characters of the short escapes. -/
def shortEscapes : List (Char × Char) :=
  [('"', '"'), ('\\', '\\'), ('/', '/'), ('b', '\x08'), ('f', '\x0c'), ('n', '\n'), ('r', '\r'),
    ('t', '\t')]

/-- The character of an escape, behind the backslash. -/
def readEscape : List Char → Option (Char × List Char)
  | [] => none
  | d :: cs => if d = 'u' then readUnicode cs else (shortEscapes.lookup d).map (·, cs)

/-- One character of a string: an escape, or a character that is neither a quote nor a control
character. -/
def readChar : List Char → Option (Char × List Char)
  | [] => none
  | c :: cs =>
    if c = '\\' then readEscape cs
    else if c = '"' ∨ c.toNat < 32 then none
    else some (c, cs)

/-- The characters of a string behind the opening quote, and the text behind the closing one; the
first argument bounds the number of characters. -/
def readString : ℕ → List Char → Option (List Char × List Char)
  | 0, _ => none
  | _ + 1, [] => none
  | n + 1, c :: cs =>
    if c = '"' then some ([], cs)
    else do
      let (d, cs) ← readChar (c :: cs)
      let (s, cs) ← readString n cs
      some (d :: s, cs)

lemma readHex4_hex4 {n : ℕ} (h : n < 65536) (cs : List Char) :
    readHex4 (hex4 n ++ cs) = some (n, cs) := by
  have hdigit : ∀ k < 16, hexDigit? (Nat.digitChar k) = some k := by decide
  simp only [hex4, List.cons_append, List.nil_append, readHex4,
    hdigit _ (Nat.mod_lt _ (by decide : 0 < 16)), Option.bind_eq_bind, Option.bind_some]
  congr 2
  omega

lemma readUnicode_hex4 {n : ℕ} (h : n < 0xd800 ∨ 0xe000 ≤ n) (hn : n < 65536) (cs : List Char) :
    readUnicode (hex4 n ++ cs) = some (Char.ofNat n, cs) := by
  rw [readUnicode, readHex4_hex4 hn]
  exact if_pos h

lemma readUnicode_pair {n m : ℕ} (hn : 0xd800 ≤ n ∧ n < 0xdc00) (hm : 0xdc00 ≤ m ∧ m < 0xe000)
    (cs : List Char) :
    readUnicode (hex4 n ++ '\\' :: 'u' :: (hex4 m ++ cs)) =
      some (Char.ofNat (0x10000 + 0x400 * (n - 0xd800) + (m - 0xdc00)), cs) := by
  have hlow : ¬(n < 0xd800 ∨ 0xe000 ≤ n) := by omega
  simp only [readUnicode, readHex4_hex4 (show n < 65536 by omega),
    readHex4_hex4 (show m < 65536 by omega), Option.bind_eq_bind, Option.bind_some, hlow, if_false,
    hn.2, if_true, hm, and_self]

/-- The `\u` escape of a character is read back. -/
lemma readChar_escapeUnicode (c : Char) (cs : List Char) :
    readChar (escapeUnicode c ++ cs) = some (c, cs) := by
  -- the code point of a character is not a surrogate
  have hc : c.toNat < 0xd800 ∨ 0xdfff < c.toNat ∧ c.toNat < 0x110000 := c.valid
  have hback := Char.ofNat_toNat c
  unfold escapeUnicode
  generalize c.toNat = n at hc hback
  split_ifs with h
  · have hu := readUnicode_hex4 (show n < 0xd800 ∨ 0xe000 ≤ n by omega) h cs
    rw [hback] at hu
    exact hu
  · have hhi : 0xd800 ≤ 0xd800 + (n - 0x10000) / 0x400 ∧
        0xd800 + (n - 0x10000) / 0x400 < 0xdc00 := by omega
    have hlo : 0xdc00 ≤ 0xdc00 + (n - 0x10000) % 0x400 ∧
        0xdc00 + (n - 0x10000) % 0x400 < 0xe000 := by omega
    have hu := readUnicode_pair hhi hlo cs
    have hval : 0x10000 + 0x400 * (0xd800 + (n - 0x10000) / 0x400 - 0xd800) +
        (0xdc00 + (n - 0x10000) % 0x400 - 0xdc00) = n := by omega
    rw [hval, hback] at hu
    simp only [List.cons_append, List.append_assoc]
    exact hu

/-- The short escapes, and the escapes of the control characters that have none. -/
lemma readChar_escapeChar (c : Char) (cs : List Char) :
    readChar (escapeChar c ++ cs) = some (c, cs) := by
  unfold escapeChar
  split_ifs with h₁ h₂ h₃ h₄ h₅ h₆ h₇ h₈
  · rw [h₁]; rfl
  · rw [h₂]; rfl
  · rw [h₃]; rfl
  · rw [h₄]; rfl
  · rw [h₅]; rfl
  · rw [h₆]; rfl
  · rw [h₇]; rfl
  · have hshort : ['\\', 'u', '0', '0', Nat.digitChar (c.toNat / 16), Nat.digitChar (c.toNat % 16)] =
        escapeUnicode c := by
      have hlt : c.toNat < 0x10000 := by omega
      have h0 : c.toNat / 4096 % 16 = 0 := by omega
      have h0' : c.toNat / 256 % 16 = 0 := by omega
      have h1 : c.toNat / 16 % 16 = c.toNat / 16 := by omega
      rw [escapeUnicode, if_pos hlt, hex4, h0, h0', h1]
      rfl
    rw [hshort, readChar_escapeUnicode]
  · have hctl : ¬(c = '"' ∨ c.toNat < 32) := not_or.mpr ⟨h₁, h₈⟩
    rw [List.singleton_append, readChar, if_neg h₂, if_neg hctl]

lemma readChar_escapeAscii (c : Char) (cs : List Char) :
    readChar (escapeAscii c ++ cs) = some (c, cs) := by
  unfold escapeAscii
  split_ifs with h₁ h₂
  · exact readChar_escapeChar c cs
  · rw [not_or, not_or] at h₁
    have hctl : ¬(c = '"' ∨ c.toNat < 32) := not_or.mpr ⟨h₁.1, by omega⟩
    rw [List.singleton_append, readChar, if_neg h₁.2.1, if_neg hctl]
  · exact readChar_escapeUnicode c cs

/-- A style whose strings and blanks a reader understands. -/
structure Style.Readable (style : Style) : Prop where
  escape : ∀ c cs, readChar (style.escape c ++ cs) = some (c, cs)
  commaGap : ∀ c ∈ style.commaGap, c = ' '
  colonGap : ∀ c ∈ style.colonGap, c = ' '
  newline : ∀ depth, ∀ c ∈ style.newline depth, c = ' ' ∨ c = '\n'

lemma Style.readable_compact : Style.compact.Readable where
  escape := readChar_escapeAscii
  commaGap := by simp [compact]
  colonGap := by simp [compact]
  newline := by simp [compact]

lemma Style.readable_compactUnicode : Style.compactUnicode.Readable where
  escape := readChar_escapeChar
  commaGap := by simp [compactUnicode]
  colonGap := by simp [compactUnicode]
  newline := by simp [compactUnicode]

lemma Style.readable_spaced : Style.spaced.Readable where
  escape := readChar_escapeAscii
  commaGap := by simp [spaced]
  colonGap := by simp [spaced]
  newline := by simp [spaced]

lemma Style.readable_indented : Style.indented.Readable where
  escape := readChar_escapeAscii
  commaGap := by simp [indented]
  colonGap := by simp [indented]
  newline := by
    intro depth c hc
    rcases List.mem_cons.mp hc with rfl | hc
    · exact .inr rfl
    · exact .inl (List.eq_of_mem_replicate hc)

variable {style : Style}

/-- A string literal is read back, with what follows it. -/
lemma readString_quoteWith (hstyle : style.Readable) (s : List Char) (cs : List Char) {n : ℕ}
    (hn : (s.flatMap style.escape).length < n) :
    readString n (s.flatMap style.escape ++ '"' :: cs) = some (s, cs) := by
  induction s generalizing n with
  | nil =>
    obtain ⟨m, rfl⟩ : ∃ m, n = m + 1 := ⟨n - 1, by simp at hn; omega⟩
    simp [readString]
  | cons c s ih =>
    have hread := hstyle.escape c (s.flatMap style.escape ++ '"' :: cs)
    -- an escape is not empty and does not open with the closing quote
    cases hesc : style.escape c with
    | nil =>
      have hself := hstyle.escape c ('"' :: cs)
      simp [hesc, readChar] at hself
    | cons d ds =>
      have hd : d ≠ '"' := by
        rintro rfl
        simp [hesc, readChar] at hread
      rw [List.flatMap_cons, hesc, List.length_append, List.length_cons] at hn
      obtain ⟨m, rfl⟩ : ∃ m, n = m + 1 := ⟨n - 1, by omega⟩
      rw [hesc, List.cons_append] at hread
      rw [List.flatMap_cons, hesc, List.append_assoc, List.cons_append, readString, if_neg hd, hread]
      simp only [Option.bind_eq_bind, Option.bind_some, ih (show _ < m by omega)]

lemma quoteWith_append_inj (hstyle : style.Readable) {s t : String} {r r' : List Char}
    (h : quoteWith style s ++ r = quoteWith style t ++ r') : s = t ∧ r = r' := by
  simp only [quoteWith, List.cons_append, List.append_assoc, List.nil_append, List.cons.injEq,
    true_and] at h
  set n := max (s.toList.flatMap style.escape).length (t.toList.flatMap style.escape).length + 1
  have hs := readString_quoteWith hstyle s.toList r (show _ < n by omega)
  have ht := readString_quoteWith hstyle t.toList r' (show _ < n by omega)
  rw [h, ht] at hs
  obtain ⟨hst, hr⟩ : t.toList = s.toList ∧ r' = r := by simpa using hs
  exact ⟨String.ext hst.symm, hr.symm⟩

/-! ### The ASCII text determines the value -/

/-- Replacing every string literal of an ASCII text by the one with its characters as they are. -/
private inductive Decodes : List Char → List Char → Prop
  | nil : Decodes [] []
  | char {c : Char} {cs ds : List Char} (hc : c ≠ '"') (h : Decodes cs ds) :
    Decodes (c :: cs) (c :: ds)
  | string (s : String) {cs ds : List Char} (h : Decodes cs ds) :
    Decodes (quoteWith .compact s ++ cs) (quote s ++ ds)

private lemma Decodes.unique {t d d' : List Char} (h : Decodes t d) (h' : Decodes t d') :
    d = d' := by
  induction h generalizing d' with
  | nil =>
    generalize ht : ([] : List Char) = t at h'
    cases h' with
    | nil => rfl
    | char | string => cases ht
  | @char c cs ds hc h ih =>
    generalize ht : c :: cs = t at h'
    cases h' with
    | nil => cases ht
    | char hc' h' =>
      cases ht
      rw [ih h']
    | string s h' =>
      obtain ⟨rfl, -⟩ := List.cons.inj ht
      exact absurd rfl hc
  | @string s cs ds h ih =>
    generalize ht : quoteWith .compact s ++ cs = t at h'
    cases h' with
    | nil => cases ht
    | char hc' h' =>
      obtain ⟨rfl, -⟩ := List.cons.inj ht
      exact absurd rfl hc'
    | string s' h' =>
      obtain ⟨rfl, rfl⟩ := quoteWith_append_inj Style.readable_compact ht
      rw [ih h']

/-- Text without quotes is not changed. -/
private lemma Decodes.append {t cs ds : List Char} (ht : ∀ c ∈ t, c ≠ '"') (h : Decodes cs ds) :
    Decodes (t ++ cs) (t ++ ds) := by
  induction t with
  | nil => exact h
  | cons c t ih =>
    exact .char (ht c List.mem_cons_self) (ih fun d hd => ht d (List.mem_cons_of_mem c hd))

private lemma ne_quote_of_mem_float {x : FloatRepr} : ∀ c ∈ x.text, c ≠ '"' := by
  rintro c hc rfl
  have hx := x.valid
  simp only [isFloatText, Bool.or_eq_true, beq_iff_eq, Bool.and_eq_true, List.all_eq_true] at hx
  rcases hx with ((hx | hx) | hx) | ⟨hx, -⟩
  · rw [hx] at hc
    revert hc
    decide
  · rw [hx] at hc
    revert hc
    decide
  · rw [hx] at hc
    revert hc
    decide
  · have := hx _ hc
    revert this
    decide

private lemma ne_quote_of_mem_int {n : ℤ} : ∀ c ∈ intText n, c ≠ '"' := by
  rintro c hc rfl
  cases n with
  | ofNat n =>
    have := Nat.isDigit_of_mem_toDigits (by decide) (by decide) hc
    revert this
    decide
  | negSucc n =>
    rcases List.mem_cons.mp hc with hc | hc
    · revert hc
      decide
    · have := Nat.isDigit_of_mem_toDigits (by decide) (by decide) hc
      revert this
      decide

mutual

private lemma decodes_render (depth : ℕ) (v : Json) {cs ds : List Char} (h : Decodes cs ds) :
    Decodes (renderWith .compact depth v ++ cs) (render v ++ ds) := by
  match v with
  | null | bool true | bool false | arr [] | obj [] =>
    rw [renderWith, render]
    exact h.append (by simp)
  | int n =>
    rw [renderWith, render]
    exact h.append ne_quote_of_mem_int
  | float x =>
    rw [renderWith, render]
    exact h.append ne_quote_of_mem_float
  | str s =>
    rw [renderWith, render]
    exact h.string s
  | arr (x :: xs) =>
    have hx := decodes_render (depth + 1) x (decodes_renderItems depth xs h)
    rw [renderWith, render]
    simp only [List.cons_append, List.append_assoc]
    exact hx.char (by decide)
  | obj ((k, v) :: kvs) =>
    have hv := decodes_render (depth + 1) v (decodes_renderMembers depth kvs h)
    have hk := (hv.char (show ':' ≠ '"' by decide)).string k
    rw [renderWith, render]
    simp only [List.cons_append, List.append_assoc]
    exact hk.char (by decide)

private lemma decodes_renderItems (depth : ℕ) (xs : List Json) {cs ds : List Char}
    (h : Decodes cs ds) :
    Decodes (renderItemsWith .compact depth xs ++ cs) (renderItems xs ++ ds) := by
  match xs with
  | [] =>
    rw [renderItemsWith, renderItems]
    exact h.append (t := [']']) (by simp)
  | x :: xs =>
    have hx := decodes_render (depth + 1) x (decodes_renderItems depth xs h)
    rw [renderItemsWith, renderItems]
    simp only [List.cons_append, List.append_assoc]
    exact hx.char (by decide)

private lemma decodes_renderMembers (depth : ℕ) (kvs : List (String × Json)) {cs ds : List Char}
    (h : Decodes cs ds) :
    Decodes (renderMembersWith .compact depth kvs ++ cs) (renderMembers kvs ++ ds) := by
  match kvs with
  | [] =>
    rw [renderMembersWith, renderMembers]
    exact h.append (t := ['}']) (by simp)
  | (k, v) :: kvs =>
    have hv := decodes_render (depth + 1) v (decodes_renderMembers depth kvs h)
    have hk := (hv.char (show ':' ≠ '"' by decide)).string k
    rw [renderMembersWith, renderMembers]
    simp only [List.cons_append, List.append_assoc]
    exact hk.char (by decide)

end

/-- The compact ASCII text determines the value. -/
theorem dumpsWith_compact_injective : Function.Injective (dumpsWith .compact) := by
  intro v w h
  have hvw : renderWith .compact 0 v = renderWith .compact 0 w := String.ofList_injective h
  have hv := decodes_render 0 v .nil
  have hw := decodes_render 0 w .nil
  rw [← hvw] at hw
  have hrender := hv.unique hw
  rw [List.append_nil, List.append_nil] at hrender
  exact render_injective hrender

end Json
