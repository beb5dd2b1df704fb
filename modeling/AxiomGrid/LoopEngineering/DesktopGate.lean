import AxiomGrid.LoopEngineering.Green

/-!
# The desktop gate

`G1` is green only with a report whose single run records clear the bar: the numbers are computed from
the records, and no summary in the report counts.
-/

namespace AxiomGrid.LoopEngineering

/-! ### The bar -/

/-- The bar of the desktop gate, record by record. -/
structure ClearsG1 (py : Platform) (rep : Record) (runs : List Record) : Prop where
  records : rep.get "runs" = .arr (runs.map .obj)
  hundred : 100 ≤ runs.length
  readback : 99 ≤ runs.countP fun r => isTrue (r.get "readback_match")
  injected : ∃ r ∈ runs, isTrue (Record.get r "tamper_injected") = true
  detected : ∀ r ∈ runs, isTrue (Record.get r "tamper_injected") = true →
    isTrue (Record.get r "tamper_detected") = true
  canaries : ∀ r ∈ runs, isTrue (Record.get r "canary_present") = true
  gapless : ∀ r ∈ runs, isTrue (Record.get r "gap") = false
  real : ∀ r ∈ runs, isTrue (Record.get r "synthetic") = false
  windows : Str.contains "windows 11".toList (lower py (pyStr py ((rep.lookup "os").getD (.str "")))) = true
  recorded : ∃ recording, orEmpty (rep.get "recording") = .obj recording ∧
    (Record.get recording "sha256").truthy = true

lemma ite_nil {c : Prop} [Decidable c] {x : String} {xs : List String}
    (h : (if c then x :: xs else []) = []) : ¬c := by
  split_ifs at h
  assumption

lemma mapM_asRecord {xs : List Json} {records : List Record} (h : xs.mapM asRecord = .ok records) :
    xs = records.map .obj := by
  induction xs generalizing records with
  | nil =>
    cases h
    rfl
  | cons x xs ih =>
    rw [List.mapM_cons] at h
    obtain ⟨record, hx, h⟩ := Except.of_bind_eq_ok h
    obtain ⟨rest, hxs, h⟩ := Except.of_bind_eq_ok h
    cases h
    rw [List.map_cons, ← ih hxs, asRecord_eq_ok.mp hx]

lemma tally_eq_zero {runs : List Record} {field : String} (h : tally runs field = 0) :
    ∀ r ∈ runs, isTrue (Record.get r field) = false := by
  intro r hr
  rw [tally, List.countP_eq_zero] at h
  exact Bool.eq_false_iff.mpr (h r hr)

lemma tally_eq_length {runs : List Record} {field : String} (h : tally runs field = runs.length) :
    ∀ r ∈ runs, isTrue (Record.get r field) = true := by
  rw [tally, List.countP_eq_length] at h
  exact h

/-- A report without problems clears the bar. -/
lemma clearsG1_of_problems {py : Platform} {rep recording : Record} {runs : List Record}
    (hruns : rep.get "runs" = .arr (runs.map .obj))
    (hrecording : orEmpty (rep.get "recording") = .obj recording)
    (h : problemsG1 py rep runs recording = []) : ClearsG1 py rep runs := by
  simp only [problemsG1, List.append_eq_nil_iff] at h
  obtain ⟨⟨⟨⟨⟨⟨⟨hsynthetic, hlength⟩, hreadback⟩, htamper⟩, hcanaries⟩, hgaps⟩, hos⟩, hsha⟩ := h
  have hinjected : runs.filter (fun r => isTrue (r.get "tamper_injected")) ≠ [] := by
    intro hnil
    rw [if_pos hnil] at htamper
    cases htamper
  rw [if_neg hinjected] at htamper
  obtain ⟨r, hr⟩ := List.exists_mem_of_ne_nil _ hinjected
  have hcaught := tally_eq_length (not_not.mp (ite_nil htamper))
  exact
    { records := hruns
      hundred := not_lt.mp (ite_nil hlength)
      readback := not_lt.mp (ite_nil hreadback)
      injected := ⟨r, (List.mem_filter.mp hr).1, (List.mem_filter.mp hr).2⟩
      detected := fun x hx hinj => hcaught x (List.mem_filter.mpr ⟨hx, hinj⟩)
      canaries := tally_eq_length (not_not.mp (ite_nil hcanaries))
      gapless := tally_eq_zero (not_not.mp (ite_nil hgaps))
      real := tally_eq_zero (by simpa using ite_nil hsynthetic)
      windows := by simpa using ite_nil hos
      recorded := ⟨recording, hrecording, by simpa using ite_nil hsha⟩ }

/-- The validator accepts only a file whose records clear the bar. -/
lemma validateG1Desktop_ok {py : Platform} {w : World} {path message : String}
    (h : validateG1Desktop py w path = .ok message) :
    ∃ rep runs, loadFile? py w path = some (.obj rep) ∧ ClearsG1 py rep runs := by
  obtain ⟨rep, hrep, h⟩ := Except.of_bind_eq_ok h
  obtain ⟨runs, hruns, h⟩ := Except.of_bind_eq_ok h
  obtain ⟨records, hrecords, h⟩ := Except.of_bind_eq_ok h
  obtain ⟨recording, hrecording, h⟩ := Except.of_bind_eq_ok h
  obtain ⟨_, hproblems, h⟩ := Except.of_bind_eq_ok h
  rw [asList_eq_ok, mapM_asRecord hrecords] at hruns
  rw [asRecord_eq_ok] at hrecording
  rw [require_eq_ok, List.isEmpty_iff] at hproblems
  refine ⟨rep, records, ?_, clearsG1_of_problems hruns hrecording hproblems⟩
  obtain ⟨v, hv, hdict⟩ := Except.of_bind_eq_ok hrep
  rw [asRecord_eq_ok] at hdict
  subst hdict
  unfold loadJson at hv
  split at hv
  · cases hv
    assumption
  · cases hv

/-- The desktop gate is green only if a file of that time, with the digest that the evidence records,
holds a report whose run records clear the bar. Only task `T3` feeds the gate, and the gate cannot be
attested itself. -/
theorem executeAll_desktop_gate (py : Platform) (s : State)
    (hfresh : ∀ gid g, s.gates.get? gid = some g → g.status ≠ .done)
    (hfeeds : ∀ t ∈ s.tasks, t.feeds = some "G1" → t.id = "T3") (journal : List (World × Command)) {g : Gate}
    (hg : (executeAll py s journal).gates.get? "G1" = some g) (hdone : g.status = .done) :
    ∃ step ∈ journal, ∃ record path content rep runs, g.evidence = some record ∧
      record.artifact = .str path ∧ step.1.read? (resolve py.here path) = some content ∧
      lower py (sha256 content).hex = lower py (pyStr py record.artifactSha256) ∧
      (utf8Decode? content).bind (Json.loads py.readFloat) = some (.obj rep) ∧ ClearsG1 py rep runs := by
  obtain ⟨w, tid, note, evidence, reopen, roots, base, record, hmem, htid, hevidence, hsub⟩ :=
    earnedGate_of_done hfresh "G1" g hg hdone
  obtain ⟨m, art, signer, -, -, -, -, -, ⟨path, content, hpath, hread, hdigest, hvalid⟩, hartifact, hsha, -⟩ := hsub
  refine ⟨_, hmem, record, path, content, ?_⟩
  have htask : tid = "T3" := by
    rcases htid with rfl | ⟨t, ht, rfl, hfed, -⟩
    · -- no validator is registered for the gate
      simp [validate, validators, List.lookup_cons] at hvalid
    · exact hfeeds t ht hfed
  subst htask
  obtain ⟨rep, runs, hload, hclears⟩ := validateG1Desktop_ok hvalid
  rw [loadFile?, hread] at hload
  exact ⟨rep, runs, hevidence, hartifact.trans hpath, hread, by rw [hsha, hdigest], hload, hclears⟩

namespace Sample

theorem executeAll_desktop_gate_board :
    ∃ step ∈ boardJournal, ∃ record path content rep runs,
      (record : EvidenceRecord).artifact = .str path ∧ step.1.read? (resolve platform.here path) = some content ∧
      lower platform (sha256 content).hex = lower platform (pyStr platform record.artifactSha256) ∧
      (utf8Decode? content).bind (Json.loads platform.readFloat) = some (.obj rep) ∧
      ClearsG1 platform rep runs := by
  obtain ⟨green, message, hgates, -⟩ := executeAll_journal
  have hfresh : ∀ gid g, board.gates.get? gid = some g → g.status ≠ .done := by
    intro gid g hg
    have hmem := Dict.mem_of_get? hg
    simp only [board, List.mem_singleton, Prod.mk.injEq] at hmem
    rw [hmem.2]
    decide
  have hfeeds : ∀ t ∈ board.tasks, t.feeds = some "G1" → t.id = "T3" := by
    simp [board, Task.feeds]
  have hg : (executeAll platform board boardJournal).gates.get? "G1" =
      some { status := .done, deps := ["T3"], evidence := some green } := by
    rw [hgates]
    rfl
  obtain ⟨step, hstep, record, path, content, rep, runs, -, hrest⟩ :=
    executeAll_desktop_gate platform board hfresh hfeeds boardJournal hg rfl
  exact ⟨step, hstep, record, path, content, rep, runs, hrest⟩

end Sample

end AxiomGrid.LoopEngineering
