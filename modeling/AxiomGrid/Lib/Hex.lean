import AxiomGrid.Lib.Sha256

/-!
# Hexadecimal and UTF-8 texts of byte strings

`bytes.hex`, `bytes.fromhex` and `str.encode("utf-8")`. `fromhex` takes digits of either case and
skips ASCII white space between bytes, so many texts decode to one byte string; in the other
direction each byte string has one text.
-/

/-- The two digits of a byte. -/
def hexByte (b : UInt8) : List Char :=
  [Nat.digitChar (b.toNat / 16), Nat.digitChar (b.toNat % 16)]

/-- `bytes.hex()`. -/
def Bytes.hex (bs : Bytes) : String := String.ofList (bs.flatMap hexByte)

/-- The value of a hexadecimal digit. -/
def hexDigit? (c : Char) : Option ℕ :=
  if '0' ≤ c ∧ c ≤ '9' then some (c.toNat - '0'.toNat)
  else if 'a' ≤ c ∧ c ≤ 'f' then some (c.toNat - 'a'.toNat + 10)
  else if 'A' ≤ c ∧ c ≤ 'F' then some (c.toNat - 'A'.toNat + 10)
  else none

/-- ASCII white space. -/
def isAsciiSpace (c : Char) : Bool :=
  c = ' ' ∨ c = '\t' ∨ c = '\n' ∨ c = '\x0b' ∨ c = '\x0c' ∨ c = '\r'

/-- The bytes of a hexadecimal text. -/
def unhex : List Char → Option Bytes
  | [] => some []
  | [c] => if isAsciiSpace c then some [] else none
  | c :: d :: cs =>
    if isAsciiSpace c then unhex (d :: cs)
    else do
      let hi ← hexDigit? c
      let lo ← hexDigit? d
      let bs ← unhex cs
      some (UInt8.ofNat (16 * hi + lo) :: bs)

/-- `bytes.fromhex(s)`; `none` is the `ValueError`. -/
def Bytes.fromHex? (s : String) : Option Bytes := unhex s.toList

/-- `s.encode("utf-8")`. -/
def utf8 (s : String) : Bytes := s.toList.flatMap String.utf8EncodeChar

lemma utf8_ofList (cs : List Char) : utf8 (String.ofList cs) = cs.flatMap String.utf8EncodeChar := by
  rw [utf8, String.toList_ofList]

/-- `bs.decode("utf-8")`; `none` is the `UnicodeDecodeError`. -/
def utf8Decode? (bs : Bytes) : Option String :=
  bs.toByteArray.utf8Decode?.map fun cs => String.ofList cs.toList

private lemma hexDigit_digitChar (n : ℕ) (h : n < 16) :
    isAsciiSpace (Nat.digitChar n) = false ∧ hexDigit? (Nat.digitChar n) = some n := by
  revert n
  decide

lemma unhex_flatMap_hexByte (bs : Bytes) : unhex (bs.flatMap hexByte) = some bs := by
  induction bs with
  | nil => rfl
  | cons b bs ih =>
    have hb : b.toNat < 256 := b.toNat_lt
    obtain ⟨hspace, hhi⟩ := hexDigit_digitChar (b.toNat / 16) (by omega)
    obtain ⟨-, hlo⟩ := hexDigit_digitChar (b.toNat % 16) (by omega)
    have hval : UInt8.ofNat (16 * (b.toNat / 16) + b.toNat % 16) = b := by
      rw [Nat.div_add_mod, UInt8.ofNat_toNat]
    simp only [List.flatMap_cons, hexByte, List.cons_append, List.nil_append, unhex, hspace,
      Bool.false_eq_true, if_false, hhi, hlo, ih, Option.bind_eq_bind, Option.bind_some, hval]

/-- Decoding undoes encoding. -/
@[simp] theorem Bytes.fromHex?_hex (bs : Bytes) : Bytes.fromHex? bs.hex = some bs := by
  rw [Bytes.fromHex?, Bytes.hex, String.toList_ofList, unhex_flatMap_hexByte]

lemma Bytes.hex_injective : Function.Injective Bytes.hex := by
  intro a b h
  have := congrArg Bytes.fromHex? h
  simpa using this

/-- The text of a digest is not empty. -/
lemma sha256_hex_ne_empty (m : Bytes) : (sha256 m).hex ≠ "" := by
  intro h
  have hback := Bytes.fromHex?_hex (sha256 m)
  rw [h] at hback
  have hlength := congrArg (Option.map List.length) hback
  rw [Option.map_some, sha256_length] at hlength
  cases hlength

/-- A hexadecimal text is ASCII. -/
lemma Bytes.hex_ascii (bs : Bytes) : ∀ c ∈ bs.hex.toList, c.toNat < 128 := by
  intro c hc
  rw [Bytes.hex, String.toList_ofList, List.mem_flatMap] at hc
  obtain ⟨b, -, hc⟩ := hc
  have hb : b.toNat < 256 := b.toNat_lt
  have hdigit : ∀ n < 16, (Nat.digitChar n).toNat < 128 := by decide
  simp only [hexByte, List.mem_cons, List.not_mem_nil, or_false] at hc
  rcases hc with rfl | rfl
  · exact hdigit _ (by omega)
  · exact hdigit _ (by omega)

/-- A string is determined by its UTF-8 bytes. -/
lemma utf8_injective : Function.Injective utf8 := by
  intro s t h
  rw [← String.toByteArray_inj, ← String.ofList_toList (s := s), ← String.ofList_toList (s := t)]
  exact congrArg List.toByteArray h

/-- Decoding undoes encoding. -/
@[simp] lemma utf8Decode?_utf8 (s : String) : utf8Decode? (utf8 s) = some s := by
  have h : (utf8 s).toByteArray.utf8Decode? = some s.toList.toArray := List.utf8Decode?_utf8Encode
  rw [utf8Decode?, h, Option.map_some, List.toList_toArray, String.ofList_toList]
