import AxiomGrid.Legal.Execute

/-!
# Redlining to a temporary file

`execute` has the pipeline write to a temporary file next to the output and moves it over the output
once it has been read back. Without a document this changes nothing; otherwise the temporary file is
left behind or the output is replaced.
-/

namespace AxiomGrid.Legal

/-- The temporary file next to the output. -/
def tmpPath (tmpName : String) (inputs : Inputs) : FilePath := inputs.outputPath.dropLast ++ [tmpName]

section

variable (oracles : Oracles) (faults : Faults) (tmpName : String) (inputs : Inputs) (fs : FileSystem)

/-- `mkstemp` finds the name free and succeeds, as do the closing and the removal of the empty file. -/
structure TempReady : Prop where
  outputDir : faults .makeOutputDir = none
  temp : faults .makeTemp = none
  absent : fs.files (tmpPath tmpName inputs) = none
  unlinked : fs.links (tmpPath tmpName inputs) = none
  close : faults .closeTemp = none
  unlink : faults .unlinkTemp = none

/-- The temporary file cannot be made. -/
def TempMissing : Prop :=
  faults .makeOutputDir ≠ none ∨ faults .makeTemp ≠ none ∨
    fs.files (tmpPath tmpName inputs) ≠ none ∨ fs.links (tmpPath tmpName inputs) ≠ none

/-- The runs that come to nothing: without a temporary file, without a document from the pipeline,
or with a refusal whose document is removed. -/
inductive Abandoned : Prop where
  | noTemp (h : TempMissing faults tmpName inputs fs)
  | unwritten (ready : TempReady faults tmpName inputs fs)
      (h : (oracles.redlineContract inputs.sourceBytes inputs.playbookBytes).written = none)
  | refused (ready : TempReady faults tmpName inputs fs) (result : RedlineResult)
      (h : (oracles.redlineContract inputs.sourceBytes inputs.playbookBytes).result = .ok result)
      (hok : result.ok = false) (hunlink : faults .unlinkRefused = none)

/-- The output has been replaced by the document of the pipeline. -/
structure Replaced (redlined : Bytes) (result : RedlineResult) : Prop where
  ready : TempReady faults tmpName inputs fs
  outcome : oracles.redlineContract inputs.sourceBytes inputs.playbookBytes = ⟨some redlined, .ok result⟩
  ok : result.ok = true
  verified : oracles.verifyDocxTrackedChanges redlined (expectedChanges result) = .ok ()
  replace : faults .replaceOutput = none

end

section

variable {oracles : Oracles} {faults : Faults} {tmpName : String} {inputs : Inputs}
  {fs : FileSystem}

lemma failIf_eq_ok {fault : Option Fault} {a : Unit} : failIf fault = .ok a ↔ fault = none := by
  cases fault <;> simp [failIf]

lemma failIf_of_none {fault : Option Fault} (h : fault = none) : failIf fault = .ok () :=
  failIf_eq_ok.mpr h

lemma exists_failIf {fault : Option Fault} (h : fault ≠ none) : ∃ e, failIf fault = .error e := by
  cases fault with
  | none => exact absurd rfl h
  | some f => exact ⟨f.message, rfl⟩

/-! ### Until the pipeline runs -/

lemma publish_of_tempMissing (h : TempMissing faults tmpName inputs fs) :
    ∃ e, publish oracles faults tmpName inputs fs = (.error e, fs) := by
  rw [publish]
  by_cases hdir : faults .makeOutputDir = none
  · rw [failIf_of_none hdir, Io.bind_ofExcept_ok]
    by_cases htemp : faults .makeTemp = none
    · have hexists : (!fs.isFile (tmpPath tmpName inputs) && !fs.isSymlink (tmpPath tmpName inputs)) =
          false := by
        obtain h | h | h | h := h
        · exact absurd hdir h
        · exact absurd htemp h
        · simp [FileSystem.isFile, Option.isSome_iff_ne_none.mpr h]
        · simp [FileSystem.isSymlink, Option.isSome_iff_ne_none.mpr h]
      rw [tmpPath] at hexists
      refine ⟨"File exists", ?_⟩
      simp only [failIf_of_none htemp, Io.bind_ofExcept_ok, Io.bind_read, hexists, require,
        Bool.false_eq_true, if_false, Io.bind_ofExcept_error]
    · obtain ⟨e, he⟩ := exists_failIf htemp
      refine ⟨e, ?_⟩
      simp only [he, Io.bind_ofExcept_error]
  · obtain ⟨e, he⟩ := exists_failIf hdir
    refine ⟨e, ?_⟩
    rw [he, Io.bind_ofExcept_error]

/-! ### The document of the pipeline -/

/-- `publish` from the call of the pipeline on. -/
def redlineTemp (oracles : Oracles) (faults : Faults) (tmp : FilePath) (inputs : Inputs) :
    Io (Bytes × RedlineResult) := do
  let outcome := oracles.redlineContract inputs.sourceBytes inputs.playbookBytes
  Io.modify fun fs => outcome.written.elim fs (fs.write tmp)
  let result ← Io.ofExcept outcome.result
  if result.ok then pure () else do
    Io.ofExcept (failIf (faults .unlinkRefused))
    Io.modify fun fs => fs.remove tmp
    Io.raise result.error
  match outcome.written with
  | none => Io.raise "No such file or directory"
  | some redlined =>
    Io.ofExcept (oracles.verifyDocxTrackedChanges redlined (expectedChanges result))
    Io.ofExcept (failIf (faults .replaceOutput))
    Io.modify fun fs => (fs.remove tmp).write inputs.outputPath redlined
    Io.ofExcept (failIf (faults .readOutput))
    let fs ← Io.read
    let outputBytes ← Io.ofExcept (readRegular fs inputs.outputPath)
    return (outputBytes, result)

/-- Once the name is free, the temporary file is made, and is left there if it cannot be closed or
removed. -/
lemma publish_of_free (hdir : faults .makeOutputDir = none) (htemp : faults .makeTemp = none)
    (habsent : fs.files (tmpPath tmpName inputs) = none)
    (hunlinked : fs.links (tmpPath tmpName inputs) = none) :
    publish oracles faults tmpName inputs fs = (do
      Io.ofExcept (failIf (faults .closeTemp))
      Io.ofExcept (failIf (faults .unlinkTemp))
      Io.modify fun fs => fs.remove (tmpPath tmpName inputs)
      redlineTemp oracles faults (tmpPath tmpName inputs) inputs) (fs.write (tmpPath tmpName inputs) []) := by
  have hfree : (!fs.isFile (inputs.outputPath.dropLast ++ [tmpName]) &&
      !fs.isSymlink (inputs.outputPath.dropLast ++ [tmpName])) = true := by
    rw [tmpPath] at habsent hunlinked
    simp [FileSystem.isFile, FileSystem.isSymlink, habsent, hunlinked]
  rw [publish, failIf_of_none hdir, Io.bind_ofExcept_ok]
  simp only [failIf_of_none htemp, Io.bind_ofExcept_ok, Io.bind_read, hfree, require, if_true, Io.bind_modify]
  rfl

lemma publish_of_ready (ready : TempReady faults tmpName inputs fs) :
    publish oracles faults tmpName inputs fs =
      redlineTemp oracles faults (tmpPath tmpName inputs) inputs fs := by
  rw [publish_of_free ready.outputDir ready.temp ready.absent ready.unlinked, failIf_of_none ready.close,
    Io.bind_ofExcept_ok, failIf_of_none ready.unlink, Io.bind_ofExcept_ok, Io.bind_modify,
    FileSystem.remove_write ready.absent]

/-- A run that comes to nothing changes nothing. -/
lemma publish_of_abandoned (h : Abandoned oracles faults tmpName inputs fs) :
    ∃ e, publish oracles faults tmpName inputs fs = (.error e, fs) := by
  cases h with
  | noTemp h => exact publish_of_tempMissing h
  | unwritten ready h =>
    rw [publish_of_ready ready, redlineTemp]
    simp only [Io.bind_modify, h, Option.elim_none]
    cases hresult : (oracles.redlineContract inputs.sourceBytes inputs.playbookBytes).result with
    | error e => exact ⟨e, rfl⟩
    | ok result =>
      rw [Io.bind_ofExcept_ok]
      cases hok : result.ok with
      | true => exact ⟨_, rfl⟩
      | false =>
        simp only [Bool.false_eq_true, if_false]
        cases hunlink : faults .unlinkRefused with
        | some f => exact ⟨f.message, rfl⟩
        | none =>
          have habsent := FileSystem.remove_of_absent ready.absent
          refine ⟨result.error, ?_⟩
          change (_, fs.remove (tmpPath tmpName inputs)) = _
          rw [habsent]
  | refused ready result h hok hunlink =>
    refine ⟨result.error, ?_⟩
    rw [publish_of_ready ready, redlineTemp]
    simp only [Io.bind_modify, h, Io.bind_ofExcept_ok, hok, Bool.false_eq_true, if_false, failIf_of_none hunlink]
    cases hwritten : (oracles.redlineContract inputs.sourceBytes inputs.playbookBytes).written with
    | none =>
      change (_, fs.remove (tmpPath tmpName inputs)) = _
      rw [FileSystem.remove_of_absent ready.absent]
    | some redlined =>
      change (_, (fs.write (tmpPath tmpName inputs) redlined).remove (tmpPath tmpName inputs)) = _
      rw [FileSystem.remove_write ready.absent]

/-- Reading the replaced output back. -/
def readBack (faults : Faults) (inputs : Inputs) (result : RedlineResult) (fs : FileSystem) :
    Except String (Bytes × RedlineResult) := do
  failIf (faults .readOutput)
  let outputBytes ← readRegular fs inputs.outputPath
  return (outputBytes, result)

lemma readBack_eq_ok {result result' : RedlineResult} {redlined outputBytes : Bytes}
    (h : readBack faults inputs result (fs.write inputs.outputPath redlined) = .ok (outputBytes, result')) :
    outputBytes = redlined ∧ outputBytes.length ≤ maxBytes := by
  obtain ⟨_, -, h⟩ := Except.of_bind_eq_ok h
  obtain ⟨bytes, hread, h⟩ := Except.of_bind_eq_ok h
  cases h
  obtain ⟨-, hfile, hlength⟩ := readRegular_eq_ok.mp hread
  rw [FileSystem.files_write_self] at hfile
  cases hfile
  exact ⟨rfl, hlength⟩

lemma publish_of_replaced {redlined : Bytes} {result : RedlineResult}
    (h : Replaced oracles faults tmpName inputs fs redlined result) :
    publish oracles faults tmpName inputs fs =
      (readBack faults inputs result (fs.write inputs.outputPath redlined),
        fs.write inputs.outputPath redlined) := by
  rw [publish_of_ready h.ready, redlineTemp]
  simp only [Io.bind_modify, h.outcome, Option.elim_some, Io.bind_ofExcept_ok, h.ok, if_true, h.verified,
    failIf_of_none h.replace]
  rw [FileSystem.remove_write h.ready.absent, readBack]
  cases failIf (faults .readOutput) with
  | error e => rfl
  | ok _ =>
    rw [Io.bind_ofExcept_ok, Io.bind_read]
    cases readRegular (fs.write inputs.outputPath redlined) inputs.outputPath with
    | error e => rfl
    | ok outputBytes => rfl

/-- A document that is neither removed nor moved over the output stays in the temporary file. -/
lemma publish_of_written {redlined : Bytes} (ready : TempReady faults tmpName inputs fs)
    (hwritten : (oracles.redlineContract inputs.sourceBytes inputs.playbookBytes).written = some redlined)
    (h : ¬ Abandoned oracles faults tmpName inputs fs) :
    (∃ e, publish oracles faults tmpName inputs fs =
        (.error e, fs.write (tmpPath tmpName inputs) redlined)) ∨
      ∃ result, Replaced oracles faults tmpName inputs fs redlined result := by
  rw [publish_of_ready ready, redlineTemp]
  cases houtcome : oracles.redlineContract inputs.sourceBytes inputs.playbookBytes with
  | mk written outcome =>
    rw [houtcome] at hwritten
    subst hwritten
    simp only [Io.bind_modify, Option.elim_some]
    cases outcome with
    | error e => exact .inl ⟨e, rfl⟩
    | ok result =>
      rw [Io.bind_ofExcept_ok]
      cases hok : result.ok with
      | false =>
        have hrefused : faults .unlinkRefused ≠ none :=
          fun hnone => h (.refused ready result (by rw [houtcome]) hok hnone)
        obtain ⟨e, he⟩ := exists_failIf hrefused
        rw [he]
        exact .inl ⟨e, rfl⟩
      | true =>
        simp only [if_true]
        cases hverified : oracles.verifyDocxTrackedChanges redlined (expectedChanges result) with
        | error e => exact .inl ⟨e, rfl⟩
        | ok _ =>
          by_cases hreplace : faults .replaceOutput = none
          · exact .inr ⟨result, ready, houtcome, hok, hverified, hreplace⟩
          · obtain ⟨e, he⟩ := exists_failIf hreplace
            rw [he]
            exact .inl ⟨e, rfl⟩

/-- A run that does not come to nothing leaves the temporary file behind or replaces the output. -/
lemma publish_of_not_abandoned (h : ¬ Abandoned oracles faults tmpName inputs fs) :
    fs.files (tmpPath tmpName inputs) = none ∧
      ((∃ e content, publish oracles faults tmpName inputs fs =
          (.error e, fs.write (tmpPath tmpName inputs) content)) ∨
        ∃ redlined result, Replaced oracles faults tmpName inputs fs redlined result) := by
  obtain ⟨hdir, htemp, habsent, hunlinked⟩ : faults .makeOutputDir = none ∧ faults .makeTemp = none ∧
      fs.files (tmpPath tmpName inputs) = none ∧ fs.links (tmpPath tmpName inputs) = none := by
    have htemp : ¬ TempMissing faults tmpName inputs fs := fun hmissing => h (.noTemp hmissing)
    simpa only [TempMissing, not_or, not_not] using htemp
  refine ⟨habsent, ?_⟩
  by_cases hclose : faults .closeTemp = none
  swap
  · obtain ⟨e, he⟩ := exists_failIf hclose
    rw [publish_of_free hdir htemp habsent hunlinked, he, Io.bind_ofExcept_error]
    exact .inl ⟨e, [], rfl⟩
  by_cases hunlink : faults .unlinkTemp = none
  swap
  · obtain ⟨e, he⟩ := exists_failIf hunlink
    rw [publish_of_free hdir htemp habsent hunlinked, failIf_of_none hclose, Io.bind_ofExcept_ok, he,
      Io.bind_ofExcept_error]
    exact .inl ⟨e, [], rfl⟩
  have ready : TempReady faults tmpName inputs fs := ⟨hdir, htemp, habsent, hunlinked, hclose, hunlink⟩
  cases hwritten : (oracles.redlineContract inputs.sourceBytes inputs.playbookBytes).written with
  | none => exact absurd (.unwritten ready hwritten) h
  | some redlined =>
    obtain ⟨e, hleft⟩ | ⟨result, hreplaced⟩ := publish_of_written ready hwritten h
    · exact .inl ⟨e, redlined, hleft⟩
    · exact .inr ⟨redlined, result, hreplaced⟩

end

end AxiomGrid.Legal
