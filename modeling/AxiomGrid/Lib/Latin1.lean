import AxiomGrid.Lib.Hex
import AxiomGrid.Lib.PyStr
import AxiomGrid.Lib.Trim

/-!
# Latin-1

Bytes as the characters with their numbers. A text whose UTF-8 bytes are read like this is another text,
unless it is ASCII, and so is what is left of it after trimming.
-/

namespace Latin1

/-- `data.decode("latin-1")`, or `byte as char` for every byte. -/
def decode (data : Bytes) : Str := data.map fun byte => Char.ofNat byte.toNat

/-- `text.encode("latin-1")` for a text of Latin-1. -/
def encode (text : Str) : Bytes := text.map fun c => UInt8.ofNat c.toNat

/-- The UTF-8 bytes of a text, each read as a character. -/
def reread (s : Str) : Str := s.flatMap fun c => decode (String.utf8EncodeChar c)

lemma decode_utf8 (s : Str) : decode (s.flatMap String.utf8EncodeChar) = reread s :=
  List.map_flatMap

lemma toNat_ofNat {n : ℕ} (h : n < 256) : (Char.ofNat n).toNat = n := by
  rw [Char.ofNat, dif_pos (Or.inl (by omega))]
  rfl

lemma toNat_lt_of_mem_decode {data : Bytes} {c : Char} (h : c ∈ decode data) : c.toNat < 256 := by
  obtain ⟨byte, -, rfl⟩ := List.mem_map.mp h
  rw [toNat_ofNat byte.toNat_lt]
  exact byte.toNat_lt

/-! ### Bytes of a character -/

lemma utf8EncodeChar_of_ascii {c : Char} (h : c.toNat < 128) :
    String.utf8EncodeChar c = [UInt8.ofNat c.toNat] :=
  if_pos (Nat.le_of_lt_succ h)

/-- The first byte of a character that is not ASCII, and the others. -/
lemma utf8EncodeChar_of_wide {c : Char} (h : 128 ≤ c.toNat) : ∃ lead rest,
    String.utf8EncodeChar c = lead :: rest ∧ 192 ≤ lead.toNat ∧
      (∀ byte ∈ rest, 128 ≤ byte.toNat ∧ byte.toNat < 192) ∧
      (192 ≤ c.toNat → c.toNat < 256 → lead.toNat = 195) := by
  change 128 ≤ c.val.toNat at h
  have hmax : c.val.toNat < 1114112 := by
    rcases c.valid with hlow | hhigh
    · omega
    · exact hhigh.2
  have hbyte : ∀ n < 64, 128 ≤ (UInt8.ofNat (n + 128)).toNat ∧ (UInt8.ofNat (n + 128)).toNat < 192 := by
    intro n hn
    rw [UInt8.toNat_ofNat']
    omega
  change ∃ lead rest, String.utf8EncodeChar c = lead :: rest ∧ 192 ≤ lead.toNat ∧
    (∀ byte ∈ rest, 128 ≤ byte.toNat ∧ byte.toNat < 192) ∧
    (192 ≤ c.val.toNat → c.val.toNat < 256 → lead.toNat = 195)
  rw [String.utf8EncodeChar, if_neg (by omega)]
  split_ifs with htwo hthree
  · refine ⟨_, _, rfl, ?_, ?_, fun hlow hhigh => ?_⟩
    · rw [UInt8.toNat_ofNat']
      omega
    · simpa using hbyte _ (Nat.mod_lt _ (by decide))
    · rw [UInt8.toNat_ofNat']
      omega
  · refine ⟨_, _, rfl, ?_, ?_, fun hlow hhigh => by omega⟩
    · rw [UInt8.toNat_ofNat']
      omega
    · simpa using ⟨hbyte _ (Nat.mod_lt _ (by decide)), hbyte _ (Nat.mod_lt _ (by decide))⟩
  · refine ⟨_, _, rfl, ?_, ?_, fun hlow hhigh => by omega⟩
    · rw [UInt8.toNat_ofNat']
      omega
    · simpa using ⟨hbyte _ (Nat.mod_lt _ (by decide)), hbyte _ (Nat.mod_lt _ (by decide)),
        hbyte _ (Nat.mod_lt _ (by decide))⟩

/-- An ASCII word begins the bytes of a text exactly if it begins the text. -/
lemma utf8_prefix_iff {w : Str} (hw : ∀ c ∈ w, c.toNat < 128) {s : Str} :
    w.flatMap String.utf8EncodeChar <+: s.flatMap String.utf8EncodeChar ↔ w <+: s := by
  induction w generalizing s with
  | nil => simp
  | cons c w ih =>
    rw [List.forall_mem_cons] at hw
    cases s with
    | nil =>
      rw [List.flatMap_cons, utf8EncodeChar_of_ascii hw.1]
      simp
    | cons d s =>
      rw [List.cons_prefix_cons, ← ih hw.2, List.flatMap_cons, List.flatMap_cons]
      constructor
      · intro h
        have hcd : c = d := by
          rw [utf8EncodeChar_of_ascii hw.1, List.singleton_append] at h
          by_cases hwide : 128 ≤ d.toNat
          · obtain ⟨first, rest, hcode, hfirst, -⟩ := utf8EncodeChar_of_wide hwide
            rw [hcode, List.cons_append, List.cons_prefix_cons] at h
            rw [← h.1, UInt8.toNat_ofNat_of_lt' (hw.1.trans (by decide))] at hfirst
            omega
          · rw [utf8EncodeChar_of_ascii (not_le.mp hwide), List.singleton_append,
              List.cons_prefix_cons] at h
            have hnat := congrArg UInt8.toNat h.1
            rw [UInt8.toNat_ofNat_of_lt' (hw.1.trans (by decide)),
              UInt8.toNat_ofNat_of_lt' ((not_le.mp hwide).trans (by decide))] at hnat
            rw [← Char.ofNat_toNat c, hnat, Char.ofNat_toNat]
        subst hcd
        exact ⟨rfl, (List.prefix_append_right_inj _).mp h⟩
      · rintro ⟨rfl, h⟩
        exact (List.prefix_append_right_inj _).mpr h

/-! ### Texts whose bytes are read -/

@[simp] lemma reread_nil : reread [] = [] := rfl

@[simp] lemma reread_cons (c : Char) (s : Str) :
    reread (c :: s) = decode (String.utf8EncodeChar c) ++ reread s := rfl

/-- ASCII is read as it is. -/
lemma reread_eq_self {s : Str} (h : ∀ c ∈ s, c.toNat < 128) : reread s = s := by
  induction s with
  | nil => rfl
  | cons c s ih =>
    rw [List.forall_mem_cons] at h
    rw [reread_cons, utf8EncodeChar_of_ascii h.1, ih h.2, decode, List.map_singleton,
      UInt8.toNat_ofNat_of_lt' (h.1.trans (by decide)), Char.ofNat_toNat]
    rfl

/-- `c` is not ASCII. -/
def isWide (c : Char) : Bool := 128 ≤ c.toNat

/-- `c` has the number of a byte that begins a character. -/
def isLead (c : Char) : Bool := 192 ≤ c.toNat && c.toNat < 256

/-- The first byte of a character, read as a character. -/
def lead (c : Char) : Char := (decode (String.utf8EncodeChar c)).headD c

lemma isLead_ofNat {n : ℕ} (h : n < 256) : isLead (Char.ofNat n) = decide (192 ≤ n) := by
  rw [isLead, toNat_ofNat h, decide_eq_true h, Bool.and_true]

/-- Every character that is not ASCII has one first byte. -/
lemma filter_isLead_reread (s : Str) : (reread s).filter isLead = (s.filter isWide).map lead := by
  induction s with
  | nil => rfl
  | cons c s ih =>
    rw [reread_cons, List.filter_append, ih]
    by_cases hwide : 128 ≤ c.toNat
    · obtain ⟨first, rest, hcode, hfirst, hrest, -⟩ := utf8EncodeChar_of_wide hwide
      have hnone : (decode rest).filter isLead = [] := by
        rw [List.filter_eq_nil_iff]
        intro d hd
        obtain ⟨byte, hbyte, rfl⟩ := List.mem_map.mp hd
        rw [isLead_ofNat byte.toNat_lt, decide_eq_true_eq, not_le]
        exact (hrest byte hbyte).2
      have hone : (decode (first :: rest)).filter isLead = [Char.ofNat first.toNat] := by
        rw [decode, List.map_cons, ← decode, List.filter_cons, hnone,
          if_pos (by rw [isLead_ofNat first.toNat_lt, decide_eq_true hfirst])]
      rw [hcode, hone, List.filter_cons_of_pos (by rw [isWide, decide_eq_true hwide]), List.map_cons,
        lead, hcode]
      rfl
    · have hnotLead : isLead c = false := by
        rw [isLead, decide_eq_false (by omega), Bool.false_and]
      have hself : decode (String.utf8EncodeChar c) = [c] := by
        have h := reread_eq_self (s := [c]) (by simpa using hwide)
        rwa [reread_cons, reread_nil, List.append_nil] at h
      rw [hself, List.filter_cons_of_neg (by simp [hnotLead]),
        List.filter_cons_of_neg (by simp [isWide, hwide])]
      rfl

/-- The numbers of the first bytes have the same first byte themselves, that of `Ã`. -/
lemma lead_of_isLead {c : Char} (h : isLead c = true) : lead c = Char.ofNat 195 := by
  simp only [isLead, Bool.and_eq_true, decide_eq_true_eq] at h
  obtain ⟨first, rest, hcode, -, -, hfirst⟩ := utf8EncodeChar_of_wide (c := c) (by omega)
  rw [lead, hcode, ← hfirst h.1 h.2]
  rfl

section Trim

variable {p : Char → Bool} (hlead : ∀ c, isLead c = true → p c = false)
include hlead

/-- If what is left after trimming is ASCII, the text was. -/
lemma ascii_of_trim_reread {s : Str} (h : ∀ c ∈ (reread s).trim p, c.toNat < 128) :
    ∀ c ∈ s, c.toNat < 128 := by
  have hnone : ((reread s).trim p).filter isLead = [] := by
    rw [List.filter_eq_nil_iff]
    intro c hc
    have := h c hc
    simp only [isLead, Bool.and_eq_true, decide_eq_true_eq]
    omega
  rw [List.filter_trim hlead, filter_isLead_reread, List.map_eq_nil_iff, List.filter_eq_nil_iff] at hnone
  intro c hc
  simpa [isWide] using hnone c hc

/-- What is left of a text after trimming is left of its bytes, read as characters, only if it is ASCII. If it
is not, its characters are first bytes of the others, so that all of them are `Ã`, which has another byte. -/
lemma trim_reread_eq_iff (hsecond : p (Char.ofNat 131) = false) {s : Str} :
    (reread s).trim p = s.trim p ↔ ∀ c ∈ s, c.toNat < 128 := by
  refine ⟨fun h => ?_, fun h => by rw [reread_eq_self h]⟩
  have hmap : (s.filter isWide).map lead = s.filter isLead := by
    rw [← filter_isLead_reread, ← List.filter_trim hlead, h, List.filter_trim hlead]
  have hsame : s.filter isLead = s.filter isWide := by
    refine (List.monotone_filter_right s fun c hc => ?_).eq_of_length ?_
    · simp only [isLead, isWide, Bool.and_eq_true, decide_eq_true_eq] at hc ⊢
      omega
    · rw [← hmap, List.length_map]
  have hall : ∀ c ∈ s.filter isWide, c = Char.ofNat 195 := by
    intro c hc
    rw [← hsame, ← hmap, List.mem_map] at hc
    obtain ⟨d, hd, rfl⟩ := hc
    rw [← hsame, List.mem_filter] at hd
    exact lead_of_isLead hd.2
  intro c hc
  by_contra hwide
  have hmem : Char.ofNat 195 ∈ s := by
    rwa [← hall c (List.mem_filter.mpr ⟨hc, by simpa [isWide] using hwide⟩)]
  -- its second byte is left, and does not stand for a character of the text
  have hleft : Char.ofNat 131 ∈ s.trim p := by
    rw [← h, List.mem_trim hsecond]
    exact List.mem_flatMap.mpr ⟨_, hmem, by decide⟩
  have hsecond := hall (Char.ofNat 131)
    (List.mem_filter.mpr ⟨(List.trim_infix s).subset hleft, by decide⟩)
  revert hsecond
  decide

end Trim

end Latin1
