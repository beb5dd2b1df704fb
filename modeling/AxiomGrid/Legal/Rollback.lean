import AxiomGrid.Legal.Honest

/-!
# What a run that raises leaves behind

`execute` removes its temporary file only when the pipeline reports a refusal. An exception of the
pipeline or of the read-back check leaves the temporary file next to the output, and a failure after
the output has been replaced leaves the new output and whatever part of the bundle has been written.
-/

namespace AxiomGrid.Legal

section

variable (tmpName : String) (inputs : Inputs) (fs : FileSystem)

/-- The output, the files of the bundle and the temporary file are as they were. -/
structure Undone (bundleDir : String) (fs' : FileSystem) : Prop where
  output : fs'.files inputs.outputPath = fs.files inputs.outputPath
  bundle : ∀ name ∈ bundleNames, ∀ p,
    fs.resolve ((RawPath.parse bundleDir).join (.parse name)) = some p → fs'.files p = fs.files p
  temp : fs'.files (tmpPath tmpName inputs) = fs.files (tmpPath tmpName inputs)

end

section

variable {oracles : Oracles} {faults : Faults} {tmpName : String} {inputs : Inputs}
  {fs fs' : FileSystem}

lemma Undone.refl (bundleDir : String) : Undone tmpName inputs fs bundleDir fs :=
  ⟨rfl, fun _ _ _ _ => rfl, rfl⟩

/-! ### After the output is replaced -/

variable {bundleDir : String} {redlined : Bytes}

/-- The links are those of `fs`, and the output is `redlined`. -/
structure Kept (inputs : Inputs) (redlined : Bytes) (fs s : FileSystem) : Prop where
  links : s.links = fs.links
  cwd : s.cwd = fs.cwd
  output : s.files inputs.outputPath = some redlined

lemma Kept.resolve {s : FileSystem} (h : Kept inputs redlined fs s) (path : RawPath) :
    s.resolve path = fs.resolve path := by
  rw [FileSystem.resolve, FileSystem.resolve, h.links, h.cwd]

lemma writeFile_kept {fault : Option Fault} {p : FilePath} {content : Bytes} (hp : p ≠ inputs.outputPath) :
    Io.Preserves (Kept inputs redlined fs) (writeFile fault p content) := by
  have hwrite : ∀ content s, Kept inputs redlined fs s → Kept inputs redlined fs (s.write p content) := by
    intro content s hs
    exact ⟨hs.links, hs.cwd, (FileSystem.files_write_of_ne hp.symm content).trans hs.output⟩
  cases fault with
  | none => exact .modify (hwrite content)
  | some f =>
    refine .bind (.modify ?_) fun _ => .raise _
    intro s hs
    cases hpartial : f.partialContent with
    | none => exact hs
    | some part => exact hwrite part s hs

lemma copyFile_kept {fault : Option Fault} {src : FilePath} {dst : RawPath}
    (hdst : fs.resolve dst ≠ some inputs.outputPath) :
    Io.Preserves (Kept inputs redlined fs) (copyFile fault src dst) := by
  refine .bind_read fun s hs => ?_
  refine .bind_ofExcept fun target htarget => ?_
  refine .bind_ofExcept fun _ _ => ?_
  rw [resolvePath_eq_ok, hs.resolve] at htarget
  cases s.files src with
  | none => exact .raise _
  | some content =>
    refine writeFile_kept ?_
    rintro rfl
    exact hdst htarget

variable {ed : Ed25519} {codec : JsonCodec} {now : ℤ} {runId root : String}
  {proposal approval : Record} {keys : Dict String String} {observerKey : Key}

lemma copyFiles_kept (hapart : ∀ name ∈ bundleNames,
      fs.resolve ((RawPath.parse bundleDir).join (.parse name)) ≠ some inputs.outputPath) :
    Io.Preserves (Kept inputs redlined fs) (copyFiles faults inputs (.parse bundleDir)) := by
  refine .bind (.ofExcept _) fun _ => ?_
  refine .bind (copyFile_kept (hapart "source.docx" (by decide))) fun _ => ?_
  refine .bind (copyFile_kept (hapart "playbook.json" (by decide))) fun _ => ?_
  exact copyFile_kept (hapart "output.docx" (by decide))

/-- `execute` from the copies on. -/
def bundleUp (ed : Ed25519) (codec : JsonCodec) (faults : Faults) (runId : String)
    (proposal approval : Record) (keys : Dict String String) (observerKey : Key) (bundleDir : String)
    (inputs : Inputs) (published : Bytes × RedlineResult) : Io Record := do
  let bundle := RawPath.parse bundleDir
  copyFiles faults inputs bundle
  let intentSha ← Io.ofExcept (proposal.item "intent_sha256")
  let approvalId ← Io.ofExcept (approval.item "approval_id")
  let base := basePayload inputs published.1 published.2 intentSha approvalId
  let events ← Io.ofExcept (eventChain ed (eventPayload base) observerKey 0 .null eventTypes)
  let manifest := manifestOf runId bundleFiles proposal approval
    (Dict.set keys observerKey.keyId observerKey.publicKey) observerKey.keyId events
  let fs ← Io.read
  let target ← Io.ofExcept (resolvePath fs (bundle.join (.parse "bundle.json")))
  writeFile (faults .writeManifest) target (codec.dumpsIndent (.obj manifest))
  return manifest

lemma execute_of_prepare
    (h : prepare ed faults now fs root proposal approval keys observerKey = .ok inputs) :
    execute ed codec oracles faults now tmpName runId root proposal approval keys observerKey bundleDir fs =
      (publish oracles faults tmpName inputs >>=
        bundleUp ed codec faults runId proposal approval keys observerKey bundleDir inputs) fs := by
  rw [execute, Io.bind_read, h, Io.bind_ofExcept_ok]
  rfl

/-- Whatever happens to the bundle, the output stays replaced. -/
lemma bundleUp_kept (hapart : ∀ name ∈ bundleNames,
      fs.resolve ((RawPath.parse bundleDir).join (.parse name)) ≠ some inputs.outputPath)
    (published : Bytes × RedlineResult) :
    Io.Preserves (Kept inputs redlined fs)
      (bundleUp ed codec faults runId proposal approval keys observerKey bundleDir inputs published) := by
  refine .bind (copyFiles_kept hapart) fun _ => ?_
  refine .bind (.ofExcept _) fun intentSha => ?_
  refine .bind (.ofExcept _) fun approvalId => ?_
  refine .bind (.ofExcept _) fun events => ?_
  refine .bind_read fun s hs => ?_
  refine .bind_ofExcept fun target htarget => ?_
  rw [resolvePath_eq_ok, hs.resolve] at htarget
  refine .bind (writeFile_kept ?_) fun _ => .pure _
  rintro rfl
  exact hapart "bundle.json" (by decide) htarget

/-! ### The whole run -/

lemma execute_of_prepare_error {e : String}
    (h : prepare ed faults now fs root proposal approval keys observerKey = .error e) :
    execute ed codec oracles faults now tmpName runId root proposal approval keys observerKey bundleDir fs =
      (.error e, fs) := by
  rw [execute, Io.bind_read, h, Io.bind_ofExcept_error]

lemma execute_of_publish_error {e : String} {fs₁ : FileSystem}
    (h : prepare ed faults now fs root proposal approval keys observerKey = .ok inputs)
    (hpublish : publish oracles faults tmpName inputs fs = (.error e, fs₁)) :
    execute ed codec oracles faults now tmpName runId root proposal approval keys observerKey bundleDir fs =
      (.error e, fs₁) := by
  rw [execute_of_prepare h, Io.bind_of_error hpublish]

/-- A run that raises has changed nothing if it has not come to a document, and otherwise has left
the temporary file or the new output behind. -/
theorem execute_raised_undone {e : String}
    (h : execute ed codec oracles faults now tmpName runId root proposal approval keys observerKey
      bundleDir fs = (.error e, fs')) :
    (∀ e', prepare ed faults now fs root proposal approval keys observerKey = .error e' → fs' = fs) ∧
    ∀ inputs, prepare ed faults now fs root proposal approval keys observerKey = .ok inputs →
      (Abandoned oracles faults tmpName inputs fs →
        fs' = fs ∧ Undone tmpName inputs fs bundleDir fs') ∧
      (Undone tmpName inputs fs bundleDir fs' →
        -- the document is new at the output path, which is none of the names of the bundle
        (∀ redlined, (oracles.redlineContract inputs.sourceBytes inputs.playbookBytes).written =
          some redlined → fs.files inputs.outputPath ≠ some redlined) →
        (∀ name ∈ bundleNames,
          fs.resolve ((RawPath.parse bundleDir).join (.parse name)) ≠ some inputs.outputPath) →
        Abandoned oracles faults tmpName inputs fs) := by
  refine ⟨?_, ?_⟩
  · intro e' hprepare
    rw [execute_of_prepare_error hprepare] at h
    cases h
    rfl
  intro inputs hprepare
  refine ⟨?_, ?_⟩
  · intro habandoned
    obtain ⟨e', hpublish⟩ := publish_of_abandoned habandoned
    rw [execute_of_publish_error hprepare hpublish] at h
    cases h
    exact ⟨rfl, .refl bundleDir⟩
  · intro hundone hnew hapart
    by_contra habandoned
    obtain ⟨habsent, ⟨e', content, hpublish⟩ | ⟨redlined, result, hreplaced⟩⟩ :=
      publish_of_not_abandoned habandoned
    · rw [execute_of_publish_error hprepare hpublish] at h
      cases h
      have htemp := hundone.temp.trans habsent
      rw [FileSystem.files_write_self] at htemp
      cases htemp
    · have hkept : Kept inputs redlined fs (execute ed codec oracles faults now tmpName runId root proposal
          approval keys observerKey bundleDir fs).2 := by
        rw [execute_of_prepare hprepare]
        refine Io.Preserves.bind_of_state ?_ (bundleUp_kept hapart)
        rw [publish_of_replaced hreplaced]
        exact ⟨rfl, rfl, FileSystem.files_write_self ..⟩
      rw [h] at hkept
      have hwritten : (oracles.redlineContract inputs.sourceBytes inputs.playbookBytes).written =
          some redlined := by rw [hreplaced.outcome]
      exact hnew redlined hwritten (hundone.output.symm.trans hkept.output)

end

namespace Sample

/-- The read-back check raises an `AssertionError`. -/
def mismatching : Oracles where
  redlineContract := oracles.redlineContract
  verifyDocxTrackedChanges _ _ := .error "tracked changes differ"

/-- The pipeline refuses the contract after it has written a document. -/
def refusing : Oracles where
  redlineContract _ _ := ⟨some redlined, .ok { ok := false, error := "no clause found" }⟩
  verifyDocxTrackedChanges := oracles.verifyDocxTrackedChanges

lemma exists_prepared : ∃ proposal approval,
    prepare ed (fun _ => none) 1000 fs "/w" proposal approval keys (key "observer" 3) =
      .ok (inputs ["w", "redlined.docx"]) := by
  obtain ⟨proposal, hproposal⟩ := exists_proposal source "redlined.docx"
  obtain ⟨intentSha, sig, -, happroval⟩ := exists_approval hproposal
  exact ⟨proposal, _, prepare_sample hproposal happroval rfl rfl⟩

lemma ready : TempReady (fun _ => none) ".kairo-1.docx" (inputs ["w", "redlined.docx"]) fs :=
  ⟨rfl, rfl, rfl, rfl, rfl, rfl⟩

end Sample

/-- The pipeline refuses: the run raises and changes nothing. -/
theorem execute_raised_undone_refusal : ∃ proposal approval fs',
    execute Sample.ed Sample.codec Sample.refusing (fun _ => none) 1000 ".kairo-1.docx" "r" "/w"
      proposal approval Sample.keys (Sample.key "observer" 3) "/b" Sample.fs =
        (.error "no clause found", fs') ∧ fs' = Sample.fs := by
  obtain ⟨proposal, approval, hprepare⟩ := Sample.exists_prepared
  have habandoned : Abandoned Sample.refusing (fun _ => none) ".kairo-1.docx"
      (Sample.inputs ["w", "redlined.docx"]) Sample.fs := .refused Sample.ready _ rfl rfl rfl
  have hpublish : publish Sample.refusing (fun _ => none) ".kairo-1.docx"
      (Sample.inputs ["w", "redlined.docx"]) Sample.fs =
        (.error "no clause found", (Sample.fs.write ["w", ".kairo-1.docx"] Sample.redlined).remove
          ["w", ".kairo-1.docx"]) := by
    rw [publish_of_ready Sample.ready]
    rfl
  refine ⟨proposal, approval, _, execute_of_publish_error hprepare hpublish, ?_⟩
  have hexecute : execute Sample.ed Sample.codec Sample.refusing (fun _ => none) 1000 ".kairo-1.docx" "r"
      "/w" proposal approval Sample.keys (Sample.key "observer" 3) "/b" Sample.fs = _ :=
    execute_of_publish_error hprepare hpublish
  exact (((execute_raised_undone hexecute).2 _ hprepare).1 habandoned).1

/-- The read-back check fails: the run raises, and the temporary file stays next to the output. -/
theorem execute_mismatch_leaves_temp : ∃ proposal approval fs',
    prepare Sample.ed (fun _ => none) 1000 Sample.fs "/w" proposal approval Sample.keys
      (Sample.key "observer" 3) = .ok (Sample.inputs ["w", "redlined.docx"]) ∧
    execute Sample.ed Sample.codec Sample.mismatching (fun _ => none) 1000 ".kairo-1.docx" "r" "/w"
      proposal approval Sample.keys (Sample.key "observer" 3) "/b" Sample.fs =
        (.error "tracked changes differ", fs') ∧
    Sample.fs.files ["w", ".kairo-1.docx"] = none ∧
    fs'.files ["w", ".kairo-1.docx"] = some Sample.redlined ∧
    ¬ Undone ".kairo-1.docx" (Sample.inputs ["w", "redlined.docx"]) Sample.fs "/b" fs' := by
  obtain ⟨proposal, approval, hprepare⟩ := Sample.exists_prepared
  have hpublish : publish Sample.mismatching (fun _ => none) ".kairo-1.docx"
      (Sample.inputs ["w", "redlined.docx"]) Sample.fs =
        (.error "tracked changes differ", Sample.fs.write ["w", ".kairo-1.docx"] Sample.redlined) := by
    rw [publish_of_ready Sample.ready]
    rfl
  have hleft : (Sample.fs.write ["w", ".kairo-1.docx"] Sample.redlined).files ["w", ".kairo-1.docx"] =
      some Sample.redlined := FileSystem.files_write_self ..
  refine ⟨proposal, approval, _, hprepare, execute_of_publish_error hprepare hpublish, rfl, hleft, ?_⟩
  intro hundone
  have htemp := hleft.symm.trans hundone.temp
  cases htemp

end AxiomGrid.Legal
