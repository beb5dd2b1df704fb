import AxiomGrid.Lib.Collect
import AxiomGrid.Packs.Invoice

/-!
# Invoices line by line

What the pack emits for a field depends on which lines the chunks have, and not on their order or on the
chunks they are in: a candidate is found in one line, and what withholds a value is found in one line
too. Further lines give further candidates, so that a value can be lost but not replaced.
-/

namespace AxiomGrid.Packs.Invoice

open Pipeline Regex

/-! ### Lines -/

/-- The stripped lines of all chunks. -/
def lines (chunks : List Chunk) : List Str := chunks.flatMap chunkLines

lemma map_fst_records (chunks : List Chunk) : (records chunks).map Prod.fst = lines chunks := by
  rw [records, lines, List.map_flatMap]
  congr 1
  funext chunk
  rw [List.map_map]
  exact List.map_id _

lemma any_records (p : Str → Bool) (chunks : List Chunk) :
    ((records chunks).any fun record => p record.1) = (lines chunks).any p := by
  rw [← map_fst_records, List.any_map]
  rfl

lemma infix_stripBorder (line : Str) : stripBorder line <:+: line := by
  have hleft : (line.dropWhile isBorder) <:+ line := List.dropWhile_suffix _
  have hright : stripBorder line <+: line.dropWhile isBorder := by
    rw [← List.reverse_suffix, stripBorder, List.reverse_reverse]
    exact List.dropWhile_suffix _
  exact hright.isInfix.trans hleft.isInfix

/-- A line is a piece of the text of its chunk. -/
lemma mem_records {chunks : List Chunk} {record : Record} (h : record ∈ records chunks) :
    record.2 ∈ chunks ∧ record.1 <:+: record.2.text := by
  obtain ⟨chunk, hchunk, hrecord⟩ := List.mem_flatMap.mp h
  obtain ⟨line, hline, rfl⟩ := List.mem_map.mp hrecord
  obtain ⟨raw, hraw, rfl⟩ := List.mem_map.mp (List.mem_of_mem_filter hline)
  exact ⟨hchunk, (infix_stripBorder raw).trans (Str.mem_splitLines hraw).1⟩

lemma splitLines_go_cons {c : Char} {cs : Str} (h : c = '\r' → cs.head? ≠ some '\n') (line : Str) :
    Str.splitLines.go line (c :: cs) =
      if Str.isLineBreak c then line.reverse :: Str.splitLines.go [] cs
      else Str.splitLines.go (c :: line) cs := by
  rw [Str.splitLines.go]
  rintro cs' rfl rfl
  exact h rfl rfl

/-- The line that a break ends, and the lines after it. -/
lemma filter_go_break {p : Str → Bool} (hp : p [] = false) {br : Char}
    (hbr : Str.isLineBreak br = true) (line b : Str) :
    (Str.splitLines.go line (br :: b)).filter p =
      [line.reverse].filter p ++ (Str.splitLines.go [] b).filter p := by
  rw [← List.filter_append]
  by_cases hcrlf : br = '\r' ∧ b.head? = some '\n'
  · -- the two characters are one break
    obtain ⟨rfl, hhead⟩ := hcrlf
    obtain ⟨b, rfl⟩ := List.head?_eq_some_iff.mp hhead
    rw [Str.splitLines.go, splitLines_go_cons (fun h => absurd h (by decide)), if_pos (by decide)]
    simp [List.filter_cons, hp]
  · rw [splitLines_go_cons (fun hcr hhead => hcrlf ⟨hcr, hhead⟩), if_pos hbr]
    rfl

/-- A line break between two texts separates their lines. -/
lemma filter_splitLines_append {p : Str → Bool} (hp : p [] = false) {br : Char}
    (hbr : Str.isLineBreak br = true) (a b : Str) :
    (Str.splitLines (a ++ br :: b)).filter p =
      (Str.splitLines a).filter p ++ (Str.splitLines b).filter p := by
  suffices hgo : ∀ line : Str, (Str.splitLines.go line (a ++ br :: b)).filter p =
      (Str.splitLines.go line a).filter p ++ (Str.splitLines.go [] b).filter p from hgo []
  intro line
  have hend : ∀ (line : Str) (ls ms : List Str), ls.filter p = ms.filter p →
      (line :: ls).filter p = (line :: ms).filter p := by
    intro line ls ms h
    rw [List.filter_cons, List.filter_cons, h]
  fun_induction Str.splitLines.go line a with
  | case1 => rw [List.nil_append, filter_go_break hp hbr]; simp [hp]
  | case2 line hne => exact filter_go_break hp hbr line b
  | case3 line cs ih =>
    rw [← List.filter_append] at ih ⊢
    exact hend _ _ _ ih
  | case4 line c cs hnot hc ih =>
    by_cases hcr : c = '\r' ∧ cs = [] ∧ br = '\n'
    · -- the line break completes a carriage return
      obtain ⟨rfl, rfl, rfl⟩ := hcr
      rw [← List.filter_append]
      rfl
    · have hcons : c = '\r' → (cs ++ br :: b).head? ≠ some '\n' := by
        intro hc' hhead
        cases cs with
        | nil => exact hcr ⟨hc', rfl, Option.some.inj hhead⟩
        | cons d ds => exact hnot ds hc' (by rw [Option.some.inj hhead])
      rw [List.cons_append, splitLines_go_cons hcons, if_pos hc]
      rw [← List.filter_append] at ih ⊢
      exact hend _ _ _ ih
  | case5 line c cs hnot hc ih =>
    have hcons : c = '\r' → (cs ++ br :: b).head? ≠ some '\n' := by
      rintro rfl
      exact absurd (by decide) hc
    rw [List.cons_append, splitLines_go_cons hcons, if_neg hc]
    exact ih

/-- What separates two lines: a line break, or a carriage return and a line feed. -/
def IsSeparator (sep : Str) : Prop := (∃ br, Str.isLineBreak br = true ∧ sep = [br]) ∨ sep = ['\r', '\n']

lemma chunkLines_eq (chunk : Chunk) :
    chunkLines chunk = ((Str.splitLines chunk.text).filter (stripBorder · ≠ [])).map stripBorder := by
  rw [chunkLines, List.filter_map]
  rfl

/-- A chunk is cut between two lines. -/
lemma chunkLines_append {chunk left right : Chunk} {sep : Str} (hsep : IsSeparator sep)
    (h : chunk.text = left.text ++ sep ++ right.text) :
    chunkLines chunk = chunkLines left ++ chunkLines right := by
  have hp : decide (stripBorder [] ≠ []) = false := by decide
  rw [chunkLines_eq, chunkLines_eq, chunkLines_eq, ← List.map_append, h, List.append_assoc]
  obtain ⟨br, hbr, rfl⟩ | rfl := hsep
  · rw [List.singleton_append, filter_splitLines_append hp hbr]
  · rw [List.cons_append, filter_splitLines_append hp (by decide), List.singleton_append]
    congr 2
/-! ### What a line gives -/

/-- The fields whose values are found in single lines. -/
inductive Field where
  | number
  | invoiceDate
  | dueDate
  | currency
  | total
  | tax
  | terms

def Field.name : Field → String
  | number => "invoice_number"
  | invoiceDate => "invoice_date"
  | dueDate => "due_date"
  | currency => "currency"
  | total => "total_amount"
  | tax => "tax_amount"
  | terms => "payment_terms"

variable (env : Env) (self : InvoicePack)

/-- The values of a field in a line, with their spans; a short number needs a heading. -/
def read (headed : Bool) (line : Str) : Field → List (Str × Str)
  | .number => readNumber env headed line
  | .invoiceDate => readDate env (invoiceDateLabel env) line
  | .dueDate => readDate env (dueDateLabel env) line
  | .currency => readCodes env line ++ readSymbols line
  | .total => readTotal env line
  | .tax => readTax env line
  | .terms => readTerms env line

/-- The explicit candidate values of a field. -/
def explicit (field : Field) (lines : List Str) : List Str :=
  (lines.flatMap fun line => read env (lines.any (isHeading env)) line field).map Prod.fst

/-- The line leaves a field without a value. -/
def withholds (line : Str) : Field → Bool
  | .invoiceDate => isInvalidDate env (invoiceDateLabel env) line
  | .dueDate => isInvalidDate env (dueDateLabel env) line
  | .total => isNonfinal env line || isUnsafeTotal env line
  | _ => false

/-- The value of a field, from the lines alone. -/
def outcome (field : Field) (lines : List Str) : Option Str :=
  if lines.any (hasContext env) then
    if lines.any (withholds env · field) then none else Unanimous.common (explicit env field lines)
  else none

/-- The value of a field among some extractions. -/
def emitted (fieldName : String) (extractions : List Extraction) : Option Str :=
  (extractions.find? fun ext => ext.fieldName = fieldName.toList).map (·.value)

variable {env self}

lemma emitted_append (fieldName : String) (xs ys : List Extraction) :
    emitted fieldName (xs ++ ys) = (emitted fieldName xs).or (emitted fieldName ys) := by
  rw [emitted, List.find?_append, Option.map_or]
  rfl

lemma emitted_emit (fieldName other : String) (confidence : ℚ) (candidates : List Candidate) :
    emitted fieldName (self.emit env other confidence candidates) =
      if other = fieldName then Unanimous.common (candidates.map Candidate.value) else none := by
  rw [InvoicePack.emit, ← Unanimous.pick_map]
  cases Unanimous.pick Candidate.value candidates with
  | none => simp [emitted]
  | some candidate =>
    by_cases hname : other = fieldName
    · simp [emitted, InvoicePack.extraction, hname]
    · simp [emitted, InvoicePack.extraction, hname, String.toList_inj]

lemma emitted_lineItems {fieldName : String} (h : fieldName ≠ "line_items")
    (items : List (LineItem × Chunk)) :
    emitted fieldName (self.extractLineItems env items) = none := by
  cases items with
  | nil => rfl
  | cons entry items =>
    have hname : "line_items".toList ≠ fieldName.toList := fun heq => h (String.toList_inj.mp heq).symm
    rw [emitted, InvoicePack.extractLineItems, List.find?_cons_of_neg]
    · rfl
    · exact decide_eq_false hname ▸ Bool.false_ne_true

lemma values_scan (reads : Str → List (Str × Str)) (chunks : List Chunk) :
    (scan reads (records chunks)).map Candidate.value =
      ((lines chunks).flatMap reads).map Prod.fst := by
  rw [scan, ← map_fst_records, List.map_flatMap, List.map_flatMap, List.flatMap_map]
  congr 1
  funext record
  rw [List.map_map]
  rfl

lemma emitted_extractDate (fieldName other : String) (label : Pattern) (chunks : List Chunk) :
    emitted fieldName (self.extractDate env other label (records chunks)) =
      if other = fieldName then
        if (lines chunks).any (isInvalidDate env label) then none
        else Unanimous.common (((lines chunks).flatMap (readDate env label)).map Prod.fst)
      else none := by
  rw [InvoicePack.extractDate, any_records]
  split_ifs with hinvalid hname hname
  · rfl
  · rfl
  · rw [emitted_emit, if_pos hname, values_scan]
  · rw [emitted_emit, if_neg hname]

lemma emitted_extractTotal (fieldName : String) (chunks : List Chunk) :
    emitted fieldName (self.extractTotal env (records chunks)) =
      if "total_amount" = fieldName then
        if (lines chunks).any fun line => isNonfinal env line || isUnsafeTotal env line then none
        else Unanimous.common (((lines chunks).flatMap (readTotal env)).map Prod.fst)
      else none := by
  rw [InvoicePack.extractTotal, any_records fun line => isNonfinal env line || isUnsafeTotal env line]
  split_ifs with hunsafe hname hname
  · rfl
  · rfl
  · rw [emitted_emit, if_pos hname, values_scan]
  · rw [emitted_emit, if_neg hname]

/-- The value of a field is found in the lines. -/
lemma emitted_extract {chunks : List Chunk} {xs : List Extraction}
    (h : self.extract env chunks = .ok xs) (field : Field) :
    emitted field.name xs = outcome env field (lines chunks) := by
  rw [InvoicePack.extract] at h
  simp only [any_records] at h
  rw [outcome]
  by_cases hcontext : (lines chunks).any (hasContext env) = true
  · rw [if_pos hcontext] at h
    obtain ⟨items, -, rfl⟩ := Except.of_map_eq_ok h
    clear h
    rw [if_pos hcontext]
    simp only [emitted_append, emitted_extractDate, emitted_extractTotal,
      InvoicePack.extractNumber, InvoicePack.extractCurrency, emitted_emit, any_records, List.map_append,
      values_scan]
    rw [emitted_lineItems (by cases field <;> decide)]
    cases field with
    | currency =>
      have hfree : (lines chunks).any (withholds env · .currency) = false := by simp [withholds]
      rw [hfree, if_neg Bool.false_ne_true]
      simp only [Field.name, explicit, read, String.reduceEq, if_true, if_false, Option.none_or,
        Option.or_none]
      refine Unanimous.common_congr fun v => ?_
      simp only [List.mem_append, List.mem_map, List.mem_flatMap]
      grind
    | invoiceDate | dueDate | total =>
      simp only [Field.name, withholds, explicit, read, String.reduceEq, if_true, if_false,
        Option.none_or, Option.or_none]
      rfl
    | number | tax | terms => simp [Field.name, withholds, explicit, read]
  · rw [if_neg hcontext] at h
    cases h
    rw [if_neg hcontext]
    rfl

/-! ### More lines -/

/-- A line with a heading above it somewhere gives all that it gives without one. -/
lemma read_subset {headed headed' : Bool} (h : headed = true → headed' = true) (line : Str)
    (field : Field) : read env headed line field ⊆ read env headed' line field := by
  cases field with
  | number =>
    rw [read, readNumber, read, readNumber]
    cases fullmatch (labelledNumber env) line with
    | some m => exact List.Subset.refl _
    | none =>
      cases headed with
      | true => rw [h rfl]; exact List.Subset.refl _
      | false => exact List.nil_subset _
  | _ => exact List.Subset.refl _

lemma explicit_subset {ls ls' : List Str} (h : ls ⊆ ls') (field : Field) :
    explicit env field ls ⊆ explicit env field ls' := by
  have hheaded : ls.any (isHeading env) = true → ls'.any (isHeading env) = true := by
    simp only [List.any_eq_true]
    exact fun ⟨line, hline, hheading⟩ => ⟨line, h hline, hheading⟩
  intro v hv
  obtain ⟨found, hfound, rfl⟩ := List.mem_map.mp hv
  obtain ⟨line, hline, hread⟩ := List.mem_flatMap.mp hfound
  exact List.mem_map.mpr ⟨found, List.mem_flatMap.mpr ⟨line, h hline, read_subset hheaded line field hread⟩,
    rfl⟩

lemma outcome_eq_some {field : Field} {ls : List Str} {v : Str} (h : outcome env field ls = some v) :
    Unanimous.common (explicit env field ls) = some v := by
  rw [outcome] at h
  split_ifs at h
  exact h

/-- The same lines give the same value, whatever their order. -/
lemma outcome_congr {ls ls' : List Str} (h : ∀ line, line ∈ ls ↔ line ∈ ls') (field : Field) :
    outcome env field ls = outcome env field ls' := by
  have hany : ∀ p : Str → Bool, ls.any p = ls'.any p := by
    intro p
    rw [Bool.eq_iff_iff, List.any_eq_true, List.any_eq_true]
    simp only [h]
  rw [outcome, outcome, hany, hany]
  congr 2
  refine Unanimous.common_congr fun v => ⟨fun hv => ?_, fun hv => ?_⟩
  · exact explicit_subset (fun line hline => (h line).mp hline) field hv
  · exact explicit_subset (fun line hline => (h line).mpr hline) field hv

/-! ### Spans -/

lemma infix_captured {r : Grouped} {line g : Str} (h : captured r line = some g) : g <:+: line := by
  obtain ⟨m, hm, hg⟩ := Option.bind_eq_some_iff.mp h
  exact infix_of_fullmatch hm hg

lemma infix_itself {r : Grouped} {line : Str} {found : Str × Str}
    (h : found ∈ itself (captured r line)) : found.2 <:+: line := by
  obtain ⟨g, hg, rfl⟩ := Option.map_eq_some_iff.mp (Option.mem_toList.mp h)
  exact infix_captured hg

lemma infix_readAmount {r : Grouped} {line : Str} {found : Str × Str}
    (h : found ∈ readAmount (captured r line)) : found.2 <:+: line := by
  obtain ⟨g, hg, rfl⟩ := Option.map_eq_some_iff.mp (Option.mem_toList.mp h)
  exact infix_captured hg

lemma infix_readDate {label : Pattern} {line : Str} {found : Str × Str}
    (h : found ∈ readDate env label line) : found.2 <:+: line := by
  rw [readDate] at h
  cases hraw : rawDate env label line with
  | none =>
    rw [hraw] at h
    cases h
  | some raw =>
    rw [hraw] at h
    obtain ⟨parsed, -, rfl⟩ := Option.map_eq_some_iff.mp (Option.mem_toList.mp h)
    exact infix_captured hraw

lemma infix_readNumber {headed : Bool} {line : Str} {found : Str × Str}
    (h : found ∈ readNumber env headed line) : found.2 <:+: line := by
  rw [readNumber] at h
  cases hm : fullmatch (labelledNumber env) line with
  | some m =>
    rw [hm] at h
    refine @infix_itself (labelledNumber env) line found ?_
    rw [captured, hm]
    exact h
  | none =>
    rw [hm] at h
    simp only at h
    split_ifs at h
    · exact infix_itself h
    · cases h

/-- A code in parentheses is a piece of the line. -/
lemma infix_matchesFrom {r : Pattern} {fuel : ℕ} {before rest : Str} {m : Match}
    (h : m ∈ matchesFrom r fuel before rest) {g : Str} (hg : m.group = some g) : g <:+: rest := by
  induction fuel generalizing before rest with
  | zero => cases h
  | succ fuel ih =>
    rw [matchesFrom] at h
    cases hsearch : searchFrom r before rest with
    | none =>
      rw [hsearch] at h
      cases h
    | some found =>
      rw [hsearch] at h
      have hof := searchFrom_spec hsearch
      obtain rfl | h := List.mem_cons.mp h
      · refine (hof.group g hg).trans ⟨m.skipped, m.rest, hof.parts.symm⟩
      · exact (ih h).trans ⟨found.skipped ++ found.text, [], by rw [List.append_nil, ← hof.parts]⟩

lemma infix_readCodes {line : Str} {found : Str × Str} (h : found ∈ readCodes env line) :
    found.2 <:+: line := by
  obtain h | h := List.mem_append.mp (List.mem_of_mem_filter h)
  · obtain ⟨code, hcode, rfl⟩ := List.mem_map.mp h
    exact infix_captured (Option.mem_toList.mp hcode)
  · obtain ⟨code, hcode, rfl⟩ := List.mem_map.mp h
    obtain ⟨m, hm, hgroup⟩ := List.mem_filterMap.mp hcode
    exact infix_matchesFrom hm hgroup

lemma infix_readSymbols {line : Str} {found : Str × Str} (h : found ∈ readSymbols line) :
    found.2 <:+: line := by
  obtain ⟨entry, -, hentry⟩ := List.mem_filterMap.mp h
  split_ifs at hentry with hmem
  cases hentry
  exact List.singleton_infix_iff _ _ |>.mpr hmem

lemma infix_readTerms {line : Str} {found : Str × Str} (h : found ∈ readTerms env line) :
    found.2 <:+: line := by
  rw [readTerms] at h
  split at h
  · rename_i terms hterms
    rw [List.mem_singleton] at h
    exact h ▸ infix_captured hterms
  · split at h
    · rename_i terms hterms
      split_ifs at h
      · rw [List.mem_singleton] at h
        exact h ▸ infix_captured hterms
      · cases h
    · obtain ⟨text, htext, rfl⟩ := List.mem_map.mp h
      exact infix_captured (Option.mem_toList.mp htext)

/-- A candidate of the chunks: its span is a piece of the text of its chunk. -/
def Spanned (chunks : List Chunk) (candidate : Candidate) : Prop :=
  candidate.chunk ∈ chunks ∧ candidate.span <:+: candidate.chunk.text

lemma spanned_scan {reads : Str → List (Str × Str)} {chunks : List Chunk}
    (hreads : ∀ line, ∀ found ∈ reads line, found.2 <:+: line) :
    ∀ candidate ∈ scan reads (records chunks), Spanned chunks candidate := by
  intro candidate h
  obtain ⟨record, hrecord, h⟩ := List.mem_flatMap.mp h
  obtain ⟨found, hfound, rfl⟩ := List.mem_map.mp h
  obtain ⟨hchunk, hline⟩ := mem_records hrecord
  exact ⟨hchunk, (hreads _ found hfound).trans hline⟩

/-- A vendor is looked for among the records only. -/
lemma spanned_vendors {chunks : List Chunk} :
    ∀ candidate ∈ vendors env (records chunks), Spanned chunks candidate := by
  have hbelow : ∀ {line : Str} {rest : List Record} {candidate : Candidate},
      rest ⊆ records chunks → candidate ∈ vendorBelow env line rest → Spanned chunks candidate := by
    intro line rest candidate hrest h
    cases rest with
    | nil => cases h
    | cons record rest =>
      rw [vendorBelow] at h
      split_ifs at h
      · rw [List.mem_singleton] at h
        exact h ▸ mem_records (hrest List.mem_cons_self)
      · cases h
  have hat : ∀ {rest : List Record} {candidate : Candidate},
      rest ⊆ records chunks → candidate ∈ vendorAt env rest → Spanned chunks candidate := by
    intro rest candidate hrest h
    cases rest with
    | nil => cases h
    | cons record rest =>
      have hmore : rest ⊆ records chunks := fun r hr => hrest (List.mem_cons_of_mem _ hr)
      obtain ⟨hchunk, hline⟩ := mem_records (hrest List.mem_cons_self)
      rw [vendorAt] at h
      split at h
      · rename_i value hvalue
        split_ifs at h
        · rw [List.mem_singleton] at h
          exact h ▸ ⟨hchunk, (infix_captured hvalue).trans hline⟩
        · exact hbelow hmore h
      · exact hbelow hmore h
  intro candidate h
  rw [vendors] at h
  split at h
  · rw [preamble] at h
    split at h
    · rename_i value chunk hfind
      split_ifs at h
      · rw [List.mem_singleton] at h
        exact h ▸ mem_records (List.mem_of_mem_take (List.mem_of_find?_eq_some hfind))
      · cases h
    · cases h
  · obtain ⟨rest, hrest, h⟩ := List.mem_flatMap.mp h
    have hsuffix := (List.mem_tails _ _).mp (List.mem_of_mem_take hrest)
    exact hat hsuffix.subset h

/-- The description of an item is a piece of its line. -/
lemma infix_lineItem {line : Str} {item : LineItem} (h : lineItem env line = .ok (some item)) :
    item.description <:+: line := by
  have hstrip : ∀ {m : Cursor}, (∀ g, m.group? 1 = some g → g <:+: line) →
      Str.strip ((m.group? 1).getD []) <:+: line := by
    intro m hm
    cases hg : m.group? 1 with
    | none => exact List.nil_infix
    | some g => exact (Str.infix_strip g).trans (hm g hg)
  rw [lineItem] at h
  split at h
  · rename_i m hm
    obtain ⟨quantity, -, heq⟩ := Except.of_map_eq_ok h
    cases heq
    exact hstrip fun g hg => infix_of_searchGroups hm hg
  · split at h
    · rename_i m hm
      obtain ⟨quantity, -, heq⟩ := Except.of_map_eq_ok h
      cases heq
      exact hstrip fun g hg => infix_of_matchGroups hm hg
    · obtain ⟨m, hm, rfl⟩ := Option.map_eq_some_iff.mp (Except.ok.inj h)
      exact hstrip fun g hg => infix_of_matchGroups hm hg

lemma mem_lineItems {chunks : List Chunk} {items : List (LineItem × Chunk)}
    (h : lineItems env chunks = .ok items) {entry : LineItem × Chunk} (hentry : entry ∈ items) :
    entry.2 ∈ chunks ∧ entry.1.description <:+: entry.2.text := by
  obtain ⟨found, hfound, rfl⟩ := Except.of_map_eq_ok h
  obtain ⟨_, hmem, rfl⟩ := List.mem_filterMap.mp hentry
  obtain ⟨record, hrecord, hitem⟩ := List.exists_of_mem_mapM hfound hmem
  obtain ⟨item, hline, heq⟩ := Except.of_map_eq_ok hitem
  obtain ⟨item, rfl, rfl⟩ := Option.map_eq_some_iff.mp heq
  obtain ⟨chunk, hchunk, hrecord⟩ := List.mem_flatMap.mp hrecord
  obtain ⟨raw, hraw, rfl⟩ := List.mem_map.mp hrecord
  refine ⟨hchunk, (infix_lineItem hline).trans ?_⟩
  exact (Str.infix_strip raw).trans (Str.mem_splitLines hraw).1

/-- The span of an extraction is a piece of the text of a chunk with its id. -/
def SpanIn (chunks : List Chunk) (ext : Extraction) : Prop :=
  ∃ chunk ∈ chunks, chunk.chunkId = ext.chunkId ∧ ext.sourceSpan <:+: chunk.text

lemma spanIn_emit {chunks : List Chunk} {fieldName : String} {confidence : ℚ}
    {candidates : List Candidate} (h : ∀ candidate ∈ candidates, Spanned chunks candidate) :
    ∀ ext ∈ self.emit env fieldName confidence candidates, SpanIn chunks ext := by
  intro ext hext
  obtain ⟨candidate, hcandidate, rfl⟩ := List.mem_map.mp hext
  obtain ⟨hchunk, hspan⟩ := h candidate (Unanimous.mem_of_pick (Option.mem_toList.mp hcandidate))
  exact ⟨candidate.chunk, hchunk, rfl, hspan⟩

lemma spanIn_extractDate {chunks : List Chunk} {fieldName : String} {label : Pattern} :
    ∀ ext ∈ self.extractDate env fieldName label (records chunks), SpanIn chunks ext := by
  rw [InvoicePack.extractDate]
  split_ifs
  · exact List.forall_mem_nil _
  · exact spanIn_emit (spanned_scan fun _ _ => infix_readDate)

lemma spanIn_extract {chunks : List Chunk} {xs : List Extraction}
    (h : self.extract env chunks = .ok xs) : ∀ ext ∈ xs, SpanIn chunks ext := by
  simp only [InvoicePack.extract] at h
  split_ifs at h
  · obtain ⟨items, hitems, rfl⟩ := Except.of_map_eq_ok h
    simp only [List.forall_mem_append]
    refine ⟨⟨⟨⟨⟨⟨⟨⟨?_, ?_⟩, spanIn_extractDate⟩, spanIn_extractDate⟩, ?_⟩, ?_⟩, ?_⟩, ?_⟩, ?_⟩
    · exact spanIn_emit spanned_vendors
    · exact spanIn_emit (spanned_scan fun _ _ => infix_readNumber)
    · refine spanIn_emit (List.forall_mem_append.mpr ⟨?_, ?_⟩)
      · exact spanned_scan fun _ _ => infix_readCodes
      · exact spanned_scan fun _ _ => infix_readSymbols
    · rw [InvoicePack.extractTotal]
      split_ifs
      · exact List.forall_mem_nil _
      · exact spanIn_emit (spanned_scan fun _ _ => infix_readAmount)
    · exact spanIn_emit (spanned_scan fun _ _ => infix_readAmount)
    · exact spanIn_emit (spanned_scan fun _ _ => infix_readTerms)
    · cases items with
      | nil => exact List.forall_mem_nil _
      | cons entry items =>
        intro ext hext
        obtain rfl := List.mem_singleton.mp hext
        obtain ⟨hchunk, hspan⟩ := mem_lineItems hitems List.mem_cons_self
        exact ⟨entry.2, hchunk, rfl, hspan⟩
  · cases h
    exact List.forall_mem_nil _

/-! ### What the pack emits -/

variable (env self)

/-- The fields that are found in single lines depend on the lines alone, and spans are pieces of the
texts. -/
structure ByLines : Prop where
  /-- The lines decide about the values, in whatever order and chunks they are. -/
  same : ∀ chunks chunks' xs xs', self.extract env chunks = .ok xs →
    self.extract env chunks' = .ok xs' → (lines chunks).Perm (lines chunks') →
    ∀ field : Field, emitted field.name xs = emitted field.name xs'
  permuted : ∀ chunks chunks' : List Chunk, chunks.Perm chunks' → (lines chunks).Perm (lines chunks')
  /-- A chunk that is cut between two lines has the lines of its parts. -/
  split : ∀ (before after : List Chunk) (chunk left right : Chunk) (sep : Str), IsSeparator sep →
    chunk.text = left.text ++ sep ++ right.text →
    lines (before ++ chunk :: after) = lines (before ++ left :: right :: after)
  /-- Two different explicit values leave none. -/
  conflict : ∀ chunks xs, self.extract env chunks = .ok xs → ∀ (field : Field) (v w : Str),
    v ∈ explicit env field (lines chunks) → w ∈ explicit env field (lines chunks) → v ≠ w →
    emitted field.name xs = none
  /-- A further line does not make a value another one. -/
  further : ∀ chunks chunks' xs xs', self.extract env chunks = .ok xs →
    self.extract env chunks' = .ok xs' → ∀ line, (lines chunks').Perm (line :: lines chunks) →
    ∀ (field : Field) (v w : Str), emitted field.name xs = some v → emitted field.name xs' = some w →
    w = v
  span : ∀ chunks xs, self.extract env chunks = .ok xs → ∀ ext ∈ xs, SpanIn chunks ext

theorem extract_byLines : ByLines env self where
  same chunks chunks' xs xs' h h' hperm field := by
    rw [emitted_extract h, emitted_extract h']
    exact outcome_congr (fun _ => hperm.mem_iff) field
  permuted chunks chunks' hperm := hperm.flatMap_right _
  split before after chunk left right sep hsep htext := by
    simp only [lines, List.flatMap_append, List.flatMap_cons, chunkLines_append hsep htext,
      List.append_assoc]
  conflict chunks xs h field v w hv hw hne := by
    rw [emitted_extract h, outcome]
    split_ifs
    · rfl
    · exact Unanimous.common_eq_none_of_ne hv hw hne
    · rfl
  further chunks chunks' xs xs' h h' line hperm field v w hv hw := by
    rw [emitted_extract h] at hv
    rw [emitted_extract h'] at hw
    have hsub : lines chunks ⊆ lines chunks' :=
      fun l hl => hperm.mem_iff.mpr (List.mem_cons_of_mem line hl)
    exact Unanimous.common_eq_of_subset (explicit_subset hsub field) (outcome_eq_some hv)
      (outcome_eq_some hw)
  span chunks xs h := spanIn_extract h

namespace Sample

/-- Texts of ASCII characters; every float is one. -/
def plain : Env where
  u := asciiData
  isAlpha := Char.isAlpha
  readFloat _ := ⟨"1.0".toList, by decide⟩
  newId fieldName := fieldName

def invoice : Chunk where
  chunkId := "c".toList
  text := "Invoice No: A-17\nTotal due: $1,250.00".toList

end Sample

example : (InvoicePack.extract Sample.plain {} [Sample.invoice]).map (List.map fun ext =>
    (ext.fieldName, ext.value, ext.sourceSpan)) = .ok
      [("invoice_number".toList, "A-17".toList, "A-17".toList),
        ("total_amount".toList, "1250.00".toList, "1,250.00".toList)] := by
  decide +kernel

end AxiomGrid.Packs.Invoice
