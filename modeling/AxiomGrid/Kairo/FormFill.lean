import AxiomGrid.Kairo.PdfRedaction
import AxiomGrid.Lib.Dict

/-!
# Filling a form

`fill_form_fields` and `read_form_fields` of `kairo/pdf/engine.py`. The form is saved before it is judged,
and it is judged by whether any field was found, not by whether each value was filled in. A form is read by
name, so of fields that share one the last is read.
-/

namespace AxiomGrid.Kairo.FormFill

open Pdf (PdfEdit)

/-! ### Forms -/

/-- A value of pikepdf. -/
inductive Value where
  | string (text : String)
  | name (text : String)
  /-- Any other object, as it is shown. -/
  | other (shown : String)
  deriving DecidableEq

/-- `str(value)`. -/
def Value.shown : Value → String
  | string text => text
  | name text => text
  | other shown => shown

/-- The entries `/T`, `/FT`, `/V` and `/AS` of a field. -/
structure Field where
  t : Option String
  ft : Option String
  v : Option Value
  appearance : Option Value := none
  deriving DecidableEq

/-- `str(fld.get("/T", ""))`. -/
def Field.name (fld : Field) : String := fld.t.getD ""

/-- `str(fld.get("/FT", ""))`. -/
def Field.type (fld : Field) : String := fld.ft.getD ""

/-- `str(fld.get("/V", ""))`. -/
def Field.value (fld : Field) : String := (fld.v.map Value.shown).getD ""

structure AcroForm where
  fields : Option (List Field)
  needAppearances : Option Bool := none

/-- A PDF, as far as it is a form. -/
structure Document where
  acroForm : Option AcroForm

/-- `acroform["/Fields"]`, if there are any. -/
def Document.fields (pdf : Document) : Option (List Field) := pdf.acroForm.bind AcroForm.fields

/-- `FormFillError`. -/
inductive FormFillError where
  /-- "PDF has no AcroForm — no fields to fill." -/
  | noAcroForm
  /-- "AcroForm has no fields." -/
  | noFields
  /-- "No fields were filled. Available fields: …. Requested: …". -/
  | noneFilled (available requested : List String)

/-! ### Filling -/

/-- A field with a new value; one of another type keeps its own. -/
def Field.fill (newValue : String) (fld : Field) : Field :=
  if fld.type = "/Tx" then { fld with v := some (.string newValue) }
  else if fld.type = "/Btn" then
    if newValue ∈ ["/Yes", "/On", "/1", "true", "True"] then
      { fld with v := some (.name "/Yes"), appearance := fld.appearance.map fun _ => .name "/Yes" }
    else { fld with v := some (.name "/Off"), appearance := fld.appearance.map fun _ => .name "/Off" }
  else if fld.type = "/Ch" then { fld with v := some (.string newValue) }
  else fld

/-- The variables of the loop. -/
structure Filled where
  fields : List Field := []
  needAppearances : Option Bool
  edits : List PdfEdit := []
  filledCount : ℕ := 0

variable (fieldValues : Dict String String)

/-- A turn of the loop. -/
def Filled.step (s : Filled) (fld : Field) : Filled :=
  match fieldValues.get? fld.name with
  | none => { s with fields := s.fields ++ [fld] }
  | some newValue =>
    { fields := s.fields ++ [fld.fill newValue]
      needAppearances := some (s.needAppearances.getD true)
      edits := s.edits ++ [{
        action := "fill_form"
        target := fld.name
        oldValue := fld.value
        newValue
        rationale := "Filled AcroForm field via pikepdf content edit" }]
      filledCount := s.filledCount + 1 }

/-- What `fill_form_fields` returns or raises, and what it saves at the output path. -/
structure Outcome where
  result : Except FormFillError (List PdfEdit)
  saved : Option Document

/-- `fill_form_fields`. -/
def fillFormFields (pdf : Document) : Outcome :=
  match pdf.acroForm with
  | none => ⟨.error .noAcroForm, none⟩
  | some acroform =>
    match acroform.fields with
    | none => ⟨.error .noFields, none⟩
    | some fields =>
      let s := fields.foldl (Filled.step fieldValues) { needAppearances := acroform.needAppearances }
      let saved := some ⟨some ⟨some s.fields, s.needAppearances⟩⟩
      if s.filledCount = 0 then
        ⟨.error (.noneFilled (s.fields.map Field.name) (fieldValues.map Prod.fst)), saved⟩
      else ⟨.ok s.edits, saved⟩

/-- `read_form_fields`. -/
def readFormFields (pdf : Document) : Dict String String :=
  match pdf.fields with
  | none => []
  | some fields => fields.foldl (fun fieldsMap fld => fieldsMap.set fld.name fld.value) []

/-! ### What is filled -/

/-- A field after the loop. -/
def filled (fld : Field) : Field := ((fieldValues.get? fld.name).map fun v => fld.fill v).getD fld

/-- A field whose name is requested. -/
def isRequested (fld : Field) : Bool := (fieldValues.get? fld.name).isSome

@[simp] lemma name_fill (newValue : String) (fld : Field) : (fld.fill newValue).name = fld.name := by
  rw [Field.fill]
  split_ifs <;> rfl

@[simp] lemma name_filled (fld : Field) : (filled fieldValues fld).name = fld.name := by
  rw [filled]
  cases fieldValues.get? fld.name with
  | none => rfl
  | some v => exact name_fill v fld

lemma foldl_step (fields : List Field) (s : Filled) :
    (fields.foldl (Filled.step fieldValues) s).fields = s.fields ++ fields.map (filled fieldValues) ∧
      (fields.foldl (Filled.step fieldValues) s).filledCount =
        s.filledCount + (fields.filter (isRequested fieldValues)).length := by
  induction fields generalizing s with
  | nil => exact ⟨(List.append_nil _).symm, rfl⟩
  | cons fld fields ih =>
    obtain ⟨hfields, hcount⟩ := ih (s.step fieldValues fld)
    rw [List.foldl_cons, hfields, hcount]
    cases hget : fieldValues.get? fld.name with
    | none => simp [Filled.step, filled, isRequested, hget]
    | some v =>
      simp [Filled.step, filled, isRequested, hget]
      omega

/-- The last field of a name. -/
def lastField (fields : List Field) (name : String) : Option Field :=
  (fields.filter (·.name = name)).getLast?

lemma get?_readFormFields {pdf : Document} {fields : List Field} (h : pdf.fields = some fields)
    (name : String) :
    (readFormFields pdf).get? name = (lastField fields name).map Field.value := by
  simp only [readFormFields, h, lastField]
  clear h
  induction fields using List.reverseRecOn with
  | nil => rfl
  | append_singleton fields fld ih =>
    rw [List.foldl_append, List.foldl_cons, List.foldl_nil, Dict.get?_set, List.filter_append, ih]
    by_cases hname : fld.name = name
    · simp [hname]
    · simp [hname]

lemma lastField_map_filled (fields : List Field) (name : String) :
    lastField (fields.map (filled fieldValues)) name =
      (lastField fields name).map (filled fieldValues) := by
  rw [lastField, lastField, List.filter_map, List.getLast?_map]
  simp only [Function.comp_def, name_filled]

lemma name_of_lastField {fields : List Field} {name : String} {fld : Field}
    (h : lastField fields name = some fld) : fld.name = name := by
  have hmem := List.mem_filter.mp (List.mem_of_getLast? h)
  exact of_decide_eq_true hmem.2

lemma exists_lastField {fields : List Field} {fld : Field} (h : fld ∈ fields) :
    ∃ last, lastField fields fld.name = some last := by
  have hne : fields.filter (·.name = fld.name) ≠ [] :=
    List.ne_nil_of_mem (List.mem_filter.mpr ⟨h, decide_eq_true rfl⟩)
  exact ⟨_, List.getLast?_eq_some_getLast hne⟩

/-! ### What is asked for -/

/-- A type that is filled. -/
def Supported (fld : Field) : Prop := fld.type = "/Tx" ∨ fld.type = "/Btn" ∨ fld.type = "/Ch"

/-- Every requested name belongs to a field of a supported type. -/
def Fillable (fields : List Field) : Prop :=
  ∀ name v, fieldValues.get? name = some v → ∃ fld ∈ fields, fld.name = name ∧ Supported fld

/-- The requested text and choice fields are read with the requested values, and names that are not
requested with the old ones. -/
def ReadsBack (pdf pdf' : Document) : Prop :=
  (∀ fields, pdf.fields = some fields → ∀ fld ∈ fields, fld.type = "/Tx" ∨ fld.type = "/Ch" →
    ∀ v, fieldValues.get? fld.name = some v → (readFormFields pdf').get? fld.name = some v) ∧
  ∀ name, fieldValues.get? name = none → (readFormFields pdf').get? name = (readFormFields pdf).get? name

/-- The form is filled if that is possible, and else nothing is written. -/
def Fills (pdf : Document) : Prop :=
  let outcome := fillFormFields fieldValues pdf
  (Fillable fieldValues (pdf.fields.getD []) →
    ∃ edits pdf', outcome.result = .ok edits ∧ outcome.saved = some pdf' ∧
      ReadsBack fieldValues pdf pdf') ∧
  (¬Fillable fieldValues (pdf.fields.getD []) →
    (∃ e, outcome.result = .error e) ∧ outcome.saved = none)

/-- A field that shows a value when it is filled with it. -/
def Shows (v : String) (fld : Field) : Prop :=
  fld.type = "/Tx" ∨ fld.type = "/Ch" ∨ fld.type = "/Btn" ∧ (v = "/Yes" ∨ v = "/Off") ∨
    ¬Supported fld ∧ fld.value = v

lemma value_fill_iff (v : String) (fld : Field) : (fld.fill v).value = v ↔ Shows v fld := by
  rw [Field.fill, Shows, Supported]
  by_cases htx : fld.type = "/Tx"
  · simp [htx, Field.value, Value.shown]
  by_cases hbtn : fld.type = "/Btn"
  · rw [if_neg htx, if_pos hbtn]
    have hchoice : fld.type ≠ "/Ch" := by rw [hbtn]; decide
    simp only [hbtn, true_and, true_or, or_true, not_true_eq_false, false_and, or_false]
    split_ifs with hyes
    · have hoff : v ≠ "/Off" := by
        rintro rfl
        exact absurd hyes (by decide)
      simp [Field.value, Value.shown, hoff, eq_comm]
    · have hnot : v ≠ "/Yes" := by
        rintro rfl
        exact hyes (by decide)
      simp [Field.value, Value.shown, hnot, eq_comm]
  by_cases hch : fld.type = "/Ch"
  · simp [hch, Field.value, Value.shown]
  · simp [htx, hbtn, hch]

lemma fillable_nil_iff : Fillable fieldValues [] ↔ fieldValues = [] := by
  constructor
  · intro h
    cases fieldValues with
    | nil => rfl
    | cons entry rest =>
      obtain ⟨_, hmem, -⟩ := h entry.1 entry.2 (by rw [Dict.get?, if_pos rfl])
      cases hmem
  · rintro rfl name v h
    cases h

/-- A form is saved with what was filled, and nothing is returned if no field was found. -/
lemma fillFormFields_of_fields {pdf : Document} {fields : List Field} (h : pdf.fields = some fields) :
    (∃ pdf', (fillFormFields fieldValues pdf).saved = some pdf' ∧
      pdf'.fields = some (fields.map (filled fieldValues))) ∧
    ((∃ edits, (fillFormFields fieldValues pdf).result = .ok edits) ↔
      ∃ fld ∈ fields, isRequested fieldValues fld = true) := by
  obtain ⟨acroform, hform, hfields⟩ := Option.bind_eq_some_iff.mp h
  obtain ⟨hloop, hcount⟩ := foldl_step fieldValues fields { needAppearances := acroform.needAppearances }
  have hany : (∃ fld ∈ fields, isRequested fieldValues fld = true) ↔
      (fields.foldl (Filled.step fieldValues)
        { needAppearances := acroform.needAppearances }).filledCount ≠ 0 := by
    rw [hcount, Nat.zero_add, Ne, List.length_eq_zero_iff, List.filter_eq_nil_iff]
    simp
  rw [hany]
  simp only [fillFormFields, hform, hfields]
  split_ifs with hzero
  · refine ⟨⟨_, rfl, by rw [hloop]; rfl⟩, iff_of_false ?_ (not_not.mpr hzero)⟩
    rintro ⟨edits, hedits⟩
    cases hedits
  · exact ⟨⟨_, rfl, by rw [hloop]; rfl⟩, iff_of_true ⟨_, rfl⟩ hzero⟩

/-- What is read of a requested text or choice field is what the last field of its name shows. -/
lemma readsBack_iff {pdf pdf' : Document} {fields : List Field} (h : pdf.fields = some fields)
    (h' : pdf'.fields = some (fields.map (filled fieldValues))) :
    ReadsBack fieldValues pdf pdf' ↔
      ∀ fld ∈ fields, fld.type = "/Tx" ∨ fld.type = "/Ch" → ∀ v, fieldValues.get? fld.name = some v →
        ∀ last ∈ lastField fields fld.name, Shows v last := by
  have hread : ∀ name last, lastField fields name = some last →
      (readFormFields pdf').get? name = some (filled fieldValues last).value := by
    intro name last hlast
    rw [get?_readFormFields h', lastField_map_filled, hlast]
    rfl
  have hshows : ∀ {fld last : Field} {v : String}, lastField fields fld.name = some last →
      fieldValues.get? fld.name = some v →
      ((readFormFields pdf').get? fld.name = some v ↔ Shows v last) := by
    intro fld last v hlast hget
    rw [hread fld.name last hlast, filled, name_of_lastField hlast, hget, Option.some.injEq]
    exact value_fill_iff v last
  constructor
  · rintro ⟨hback, -⟩ fld hfld htype v hget last hlast
    exact (hshows hlast hget).mp (hback fields h fld hfld htype v hget)
  · intro hall
    refine ⟨fun fields' hfields' fld hfld htype v hget => ?_, fun name hget => ?_⟩
    · obtain rfl := Option.some.inj (h.symm.trans hfields')
      obtain ⟨last, hlast⟩ := exists_lastField hfld
      exact (hshows hlast hget).mpr (hall fld hfld htype v hget last hlast)
    · rw [get?_readFormFields h', get?_readFormFields h, lastField_map_filled]
      cases hlast : lastField fields name with
      | none => rfl
      | some last =>
        have hsame : filled fieldValues last = last := by
          rw [filled, name_of_lastField hlast, hget]
          rfl
        rw [Option.map_some, hsame]

/-- Without a form something is requested; in a form some field is, every requested name belongs to a
supported field, and the last field of the name of a text or choice field shows the value. -/
def Suits (pdf : Document) : Prop :=
  match pdf.fields with
  | none => fieldValues ≠ []
  | some fields =>
    (∃ fld ∈ fields, isRequested fieldValues fld = true) ∧ Fillable fieldValues fields ∧
      ∀ fld ∈ fields, fld.type = "/Tx" ∨ fld.type = "/Ch" → ∀ v, fieldValues.get? fld.name = some v →
        ∀ last ∈ lastField fields fld.name, Shows v last

lemma fillFormFields_of_none {pdf : Document} (h : pdf.fields = none) :
    (∃ e, (fillFormFields fieldValues pdf).result = .error e) ∧
      (fillFormFields fieldValues pdf).saved = none := by
  rw [fillFormFields]
  cases hform : pdf.acroForm with
  | none => exact ⟨⟨_, rfl⟩, rfl⟩
  | some acroform =>
    rw [Document.fields, hform, Option.bind_some] at h
    simp only [h, and_true]
    exact ⟨_, rfl⟩

/-- The form is filled as it should be, or refused, exactly if form and request suit each other. -/
theorem fills_iff_suits (pdf : Document) : Fills fieldValues pdf ↔ Suits fieldValues pdf := by
  rw [Fills, Suits]
  cases hfields : pdf.fields with
  | none =>
    obtain ⟨⟨e, herror⟩, hsaved⟩ := fillFormFields_of_none fieldValues hfields
    simp only [Option.getD_none, fillable_nil_iff]
    constructor
    · rintro ⟨hfill, -⟩ hnil
      obtain ⟨edits, -, hedits, -⟩ := hfill hnil
      rw [herror] at hedits
      cases hedits
    · exact fun hne => ⟨fun hnil => absurd hnil hne, fun _ => ⟨⟨e, herror⟩, hsaved⟩⟩
  | some fields =>
    obtain ⟨⟨pdf', hsaved, hfields'⟩, hok⟩ := fillFormFields_of_fields fieldValues hfields
    have hback := readsBack_iff fieldValues hfields hfields'
    simp only [Option.getD_some]
    constructor
    · rintro ⟨hfill, hrefuse⟩
      have hfillable : Fillable fieldValues fields := by
        -- what is refused is saved nevertheless
        by_contra hnot
        rw [hsaved] at hrefuse
        cases (hrefuse hnot).2
      obtain ⟨edits, pdf'', hedits, hsaved', hreads⟩ := hfill hfillable
      obtain rfl := Option.some.inj (hsaved.symm.trans hsaved')
      exact ⟨hok.mp ⟨edits, hedits⟩, hfillable, hback.mp hreads⟩
    · rintro ⟨hany, hfillable, hshows⟩
      obtain ⟨edits, hedits⟩ := hok.mpr hany
      exact ⟨fun _ => ⟨edits, pdf', hedits, hsaved, hback.mpr hshows⟩,
        fun hnot => absurd hfillable hnot⟩

namespace Sample

/-- A form with one text field. -/
def form : Document := ⟨some ⟨some [⟨some "Name", some "/Tx", none, none⟩], none⟩⟩

def request : Dict String String := [("Name", "Ada"), ("City", "Rome")]

end Sample

/-- A name that no field has is ignored if another one is filled. -/
theorem unknown_name_ignored :
    ¬Fillable Sample.request (Sample.form.fields.getD []) ∧
      (∃ edits, (fillFormFields Sample.request Sample.form).result = .ok edits) ∧
      ¬Fills Sample.request Sample.form := by
  have hnot : ¬Fillable Sample.request (Sample.form.fields.getD []) := by
    intro h
    obtain ⟨fld, hfld, hname, -⟩ := h "City" "Rome" (by decide)
    obtain rfl := List.mem_singleton.mp hfld
    exact absurd hname (by decide)
  have hok : ∃ edits, (fillFormFields Sample.request Sample.form).result = .ok edits := ⟨_, rfl⟩
  refine ⟨hnot, hok, ?_⟩
  rintro ⟨-, hrefuse⟩
  obtain ⟨⟨e, herror⟩, -⟩ := hrefuse hnot
  obtain ⟨edits, hedits⟩ := hok
  rw [herror] at hedits
  cases hedits

end AxiomGrid.Kairo.FormFill
