import AxiomGrid.Legal.Approval
import AxiomGrid.Legal.TempFile

/-!
# What execution writes

A successful `execute` writes the redlined document to the output path, and then four files into the
bundle directory. The copies are taken from the paths of the source and of the playbook after the
output has been replaced, while the events record the hashes from before.
-/

namespace AxiomGrid.Legal

variable {fs fs' : FileSystem}

lemma writeFile_eq_ok {fault : Option Fault} {p : FilePath} {content : Bytes} {a : Unit} :
    writeFile fault p content fs = (.ok a, fs') ↔ fault = none ∧ fs' = fs.write p content := by
  cases fault with
  | none =>
    rw [writeFile, Io.modify_eq_ok]
    simp [eq_comm]
  | some f =>
    simp only [reduceCtorEq, false_and, iff_false]
    intro h
    obtain ⟨_, _, -, h⟩ := Io.of_bind_eq_ok h
    cases h

/-! ### The checks before -/

section

variable {ed : Ed25519} {faults : Faults} {now : ℤ} {root : String} {proposal approval : Record}
  {keys : Dict String String} {observerKey : Key} {inputs : Inputs}

/-- What holds after the checks. -/
structure Prepared (ed : Ed25519) (fs : FileSystem) (proposal approval : Record)
    (keys : Dict String String) (observerKey : Key) (inputs : Inputs) : Prop where
  producer : Json.pyEq (.str observerKey.keyId) (proposal.get "producer_key_id") = false
  principal : Json.pyEq (.str observerKey.keyId) (approval.get "principal") = false
  source : readRegular fs inputs.sourcePath = .ok inputs.sourceBytes
  playbook : readRegular fs inputs.playbookPath = .ok inputs.playbookBytes
  approved : Approved ed proposal approval keys

lemma prepared_of_prepare (h : prepare ed faults now fs root proposal approval keys observerKey =
    .ok inputs) : Prepared ed fs proposal approval keys observerKey inputs := by
  obtain ⟨_, hobserver, h⟩ := Except.of_bind_eq_ok h
  obtain ⟨rootp, -, h⟩ := Except.of_bind_eq_ok h
  obtain ⟨sourcePath, -, h⟩ := Except.of_bind_eq_ok h
  obtain ⟨playbookPath, -, h⟩ := Except.of_bind_eq_ok h
  obtain ⟨outputPath, -, h⟩ := Except.of_bind_eq_ok h
  obtain ⟨_, -, h⟩ := Except.of_bind_eq_ok h
  obtain ⟨_, -, h⟩ := Except.of_bind_eq_ok h
  obtain ⟨_, -, h⟩ := Except.of_bind_eq_ok h
  obtain ⟨sourceBytes, hsource, h⟩ := Except.of_bind_eq_ok h
  obtain ⟨_, -, h⟩ := Except.of_bind_eq_ok h
  obtain ⟨playbookBytes, hplaybook, h⟩ := Except.of_bind_eq_ok h
  obtain ⟨sourceSha, -, h⟩ := Except.of_bind_eq_ok h
  obtain ⟨playbookSha, -, h⟩ := Except.of_bind_eq_ok h
  obtain ⟨_, -, h⟩ := Except.of_bind_eq_ok h
  obtain ⟨_, hverify, h⟩ := Except.of_bind_eq_ok h
  cases h
  rw [require_eq_ok, Bool.and_eq_true, Bool.and_eq_true, Bool.not_eq_true', Bool.not_eq_true'] at hobserver
  exact ⟨hobserver.1.2, hobserver.2, hsource, hplaybook, approved_of_verifyApproval hverify⟩

end

/-! ### Redlining -/

section

variable {oracles : Oracles} {faults : Faults} {tmpName : String} {inputs : Inputs}
  {outputBytes : Bytes} {result : RedlineResult}

/-- After publishing, the output path holds the redlined document, and nothing else has changed. -/
lemma publish_spec (h : publish oracles faults tmpName inputs fs = (.ok (outputBytes, result), fs')) :
    (oracles.redlineContract inputs.sourceBytes inputs.playbookBytes).written = some outputBytes ∧
      outputBytes.length ≤ maxBytes ∧ fs' = fs.write inputs.outputPath outputBytes := by
  have habandoned : ¬ Abandoned oracles faults tmpName inputs fs := by
    intro habandoned
    obtain ⟨e, hpublish⟩ := publish_of_abandoned habandoned
    rw [hpublish] at h
    cases h
  obtain ⟨-, ⟨e, content, hpublish⟩ | ⟨redlined, result', hreplaced⟩⟩ :=
    publish_of_not_abandoned habandoned
  · rw [hpublish] at h
    cases h
  · rw [publish_of_replaced hreplaced, Prod.mk.injEq] at h
    obtain ⟨rfl, hlength⟩ := readBack_eq_ok h.1
    exact ⟨by rw [hreplaced.outcome], hlength, h.2.symm⟩

/-- Redlining succeeds when the oracles do and nothing fails. -/
lemma publish_ok {redlined : Bytes}
    (hfresh : fs.files (inputs.outputPath.dropLast ++ [tmpName]) = none)
    (hlink : fs.links (inputs.outputPath.dropLast ++ [tmpName]) = none)
    (hredline : oracles.redlineContract inputs.sourceBytes inputs.playbookBytes =
      ⟨some redlined, .ok result⟩) (hok : result.ok = true)
    (hverify : oracles.verifyDocxTrackedChanges redlined (expectedChanges result) = .ok ())
    (houtput : fs.links inputs.outputPath = none) (hlength : redlined.length ≤ maxBytes) :
    publish oracles (fun _ => none) tmpName inputs fs =
      (.ok (redlined, result), fs.write inputs.outputPath redlined) := by
  have hread : readRegular (fs.write inputs.outputPath redlined) inputs.outputPath = .ok redlined :=
    readRegular_eq_ok.mpr ⟨houtput, FileSystem.files_write_self .., hlength⟩
  simp only [publish, failIf, Io.bind_ofExcept_ok, Io.bind_read, FileSystem.isFile, hfresh,
    FileSystem.isSymlink, hlink, Option.isSome_none, Bool.not_false, Bool.and_true, require, if_true,
    hredline, Io.bind_modify, Option.elim_some, hok, hverify,
    FileSystem.remove_write hfresh, hread]
  rfl

end

/-! ### The bundle -/

/-- The names that `execute` writes in the bundle directory. -/
def bundleNames : List String := ["source.docx", "playbook.json", "output.docx", "bundle.json"]

/-- Where the names of the bundle directory lead. -/
def Places (fs : FileSystem) (bundleDir : String) (place : String → FilePath) : Prop :=
  ∀ name ∈ bundleNames,
    fs.resolve ((RawPath.parse bundleDir).join (.parse name)) = some (place name)

/-- The copies and the manifest in the order in which they are written. Once the output has been
replaced, its path holds the redlined document, whatever it held before. -/
def bundleWrites (inputs : Inputs) (redlined text : Bytes) (place : String → FilePath) :
    List (FilePath × Bytes) :=
  let current (path : FilePath) (content : Bytes) :=
    if path = inputs.outputPath then redlined else content
  [(place "source.docx", current inputs.sourcePath inputs.sourceBytes),
    (place "playbook.json", current inputs.playbookPath inputs.playbookBytes),
    (place "output.docx", redlined), (place "bundle.json", text)]

lemma copyFile_spec {fault : Option Fault} {src target : FilePath} {dst : RawPath} {a : Unit}
    (h : copyFile fault src dst fs = (.ok a, fs')) (htarget : fs.resolve dst = some target) :
    ∃ content, fs.files src = some content ∧ fs' = fs.write target content := by
  obtain ⟨_, fs₁, h₁, h⟩ := Io.of_bind_eq_ok h
  obtain ⟨rfl, rfl⟩ := Io.read_eq_ok.mp h₁
  obtain ⟨target', fs₂, h₂, h⟩ := Io.of_bind_eq_ok h
  obtain ⟨hresolved, rfl⟩ := Io.ofExcept_eq_ok.mp h₂
  rw [resolvePath_eq_ok, htarget] at hresolved
  cases hresolved
  obtain ⟨_, fs₃, h₃, h⟩ := Io.of_bind_eq_ok h
  obtain ⟨-, rfl⟩ := Io.ofExcept_eq_ok.mp h₃
  cases hsrc : fs.files src with
  | none =>
    rw [hsrc] at h
    cases h
  | some content =>
    rw [hsrc] at h
    exact ⟨content, rfl, (writeFile_eq_ok.mp h).2⟩

lemma copyFile_ok {src target : FilePath} {dst : RawPath} {content : Bytes}
    (hsrc : fs.files src = some content) (htarget : fs.resolve dst = some target)
    (hne : target ≠ src) :
    copyFile none src dst fs = (.ok (), fs.write target content) := by
  have hrequire : decide (target ≠ src) = true := decide_eq_true hne
  simp only [copyFile, Io.bind_read, resolvePath_eq_ok.mpr htarget, Io.bind_ofExcept_ok, hrequire,
    require, if_true, hsrc]
  rfl

variable {ed : Ed25519} {codec : JsonCodec} {oracles : Oracles} {faults : Faults} {now : ℤ}
  {tmpName runId root bundleDir : String} {proposal approval manifest : Record}
  {keys : Dict String String} {observerKey : Key} {inputs : Inputs} {place : String → FilePath}

/-- What the copies leave in the bundle, if they lie apart from what they are copies of. -/
lemma copyFiles_spec {redlined : Bytes} {a : Unit} (hplaces : Places fs bundleDir place)
    (hsource : fs.files inputs.sourcePath = some inputs.sourceBytes)
    (hplaybook : fs.files inputs.playbookPath = some inputs.playbookBytes)
    (hsourceApart : place "source.docx" ≠ inputs.playbookPath ∧ place "source.docx" ≠ inputs.outputPath)
    (hplaybookApart : place "playbook.json" ≠ inputs.outputPath)
    (h : copyFiles faults inputs (.parse bundleDir) (fs.write inputs.outputPath redlined) =
      (.ok a, fs')) (text : Bytes) :
    fs'.write (place "bundle.json") text =
      (fs.write inputs.outputPath redlined).writeAll (bundleWrites inputs redlined text place) := by
  obtain ⟨_, fs₁, h₁, h⟩ := Io.of_bind_eq_ok h
  obtain ⟨-, rfl⟩ := Io.ofExcept_eq_ok.mp h₁
  obtain ⟨_, fs₂, h₂, h⟩ := Io.of_bind_eq_ok h
  obtain ⟨sourceCopy, hsourceCopy, rfl⟩ := copyFile_spec h₂ (hplaces "source.docx" (by decide))
  obtain ⟨_, fs₃, h₃, h⟩ := Io.of_bind_eq_ok h
  obtain ⟨playbookCopy, hplaybookCopy, rfl⟩ := copyFile_spec h₃ (hplaces "playbook.json" (by decide))
  obtain ⟨outputCopy, houtputCopy, rfl⟩ := copyFile_spec h (hplaces "output.docx" (by decide))
  have hcurrent : ∀ path content, fs.files path = some content →
      (fs.write inputs.outputPath redlined).files path =
        some (if path = inputs.outputPath then redlined else content) := by
    intro path content hcontent
    split_ifs with hpath
    · subst hpath
      exact FileSystem.files_write_self ..
    · rw [FileSystem.files_write_of_ne hpath]
      exact hcontent
  rw [hcurrent _ _ hsource] at hsourceCopy
  rw [FileSystem.files_write_of_ne hsourceApart.1.symm, hcurrent _ _ hplaybook] at hplaybookCopy
  rw [FileSystem.files_write_of_ne hplaybookApart.symm,
    FileSystem.files_write_of_ne hsourceApart.2.symm, FileSystem.files_write_self] at houtputCopy
  cases hsourceCopy
  cases hplaybookCopy
  cases houtputCopy
  rfl

/-- What a successful run of `execute` has done: `redlined` is at the output path, `events` record
the run, and `copied` is the state before the manifest is written. -/
structure Executed (ed : Ed25519) (codec : JsonCodec) (oracles : Oracles) (runId bundleDir : String)
    (proposal approval : Record) (keys : Dict String String) (observerKey : Key) (inputs : Inputs)
    (place : String → FilePath) (fs fs' : FileSystem) (manifest : Record) (redlined : Bytes)
    (result : RedlineResult) (intentSha approvalId : Json) (events : List Json)
    (copied : FileSystem) : Prop where
  written : (oracles.redlineContract inputs.sourceBytes inputs.playbookBytes).written = some redlined
  length_le : redlined.length ≤ maxBytes
  chain : eventChain ed (eventPayload (basePayload inputs redlined result intentSha approvalId))
    observerKey 0 .null eventTypes = .ok events
  manifest_eq : manifest = manifestOf runId bundleFiles proposal approval
    (Dict.set keys observerKey.keyId observerKey.publicKey) observerKey.keyId events
  copy : ∃ faults a, copyFiles faults inputs (.parse bundleDir)
    (fs.write inputs.outputPath redlined) = (.ok a, copied)
  final : fs' = copied.write (place "bundle.json") (codec.dumpsIndent (.obj manifest))

lemma links_copyFile {fault : Option Fault} {src : FilePath} {dst : RawPath} {a : Unit}
    (h : copyFile fault src dst fs = (.ok a, fs')) : fs'.links = fs.links ∧ fs'.cwd = fs.cwd := by
  have hresolved : ∃ target, fs.resolve dst = some target := by
    obtain ⟨_, fs₁, h₁, h⟩ := Io.of_bind_eq_ok h
    obtain ⟨rfl, rfl⟩ := Io.read_eq_ok.mp h₁
    obtain ⟨target, _, h₂, -⟩ := Io.of_bind_eq_ok h
    exact ⟨target, resolvePath_eq_ok.mp (Io.ofExcept_eq_ok.mp h₂).1⟩
  obtain ⟨target, htarget⟩ := hresolved
  obtain ⟨content, -, rfl⟩ := copyFile_spec h htarget
  exact ⟨rfl, rfl⟩

lemma links_copyFiles {bundle : RawPath} {a : Unit}
    (h : copyFiles faults inputs bundle fs = (.ok a, fs')) :
    fs'.links = fs.links ∧ fs'.cwd = fs.cwd := by
  obtain ⟨_, fs₁, h₁, h⟩ := Io.of_bind_eq_ok h
  obtain ⟨-, rfl⟩ := Io.ofExcept_eq_ok.mp h₁
  obtain ⟨_, fs₂, h₂, h⟩ := Io.of_bind_eq_ok h
  obtain ⟨_, fs₃, h₃, h⟩ := Io.of_bind_eq_ok h
  obtain ⟨hlinks₁, hcwd₁⟩ := links_copyFile h₂
  obtain ⟨hlinks₂, hcwd₂⟩ := links_copyFile h₃
  obtain ⟨hlinks₃, hcwd₃⟩ := links_copyFile h
  exact ⟨hlinks₃.trans (hlinks₂.trans hlinks₁), hcwd₃.trans (hcwd₂.trans hcwd₁)⟩

lemma execute_spec (hplaces : Places fs bundleDir place)
    (hprepare : prepare ed faults now fs root proposal approval keys observerKey = .ok inputs)
    (h : execute ed codec oracles faults now tmpName runId root proposal approval keys observerKey
      bundleDir fs = (.ok manifest, fs')) :
    ∃ redlined result intentSha approvalId events copied,
      Executed ed codec oracles runId bundleDir proposal approval keys observerKey inputs place fs fs'
        manifest redlined result intentSha approvalId events copied := by
  obtain ⟨_, fs₁, h₁, h⟩ := Io.of_bind_eq_ok h
  obtain ⟨rfl, rfl⟩ := Io.read_eq_ok.mp h₁
  obtain ⟨inputs', fs₂, h₂, h⟩ := Io.of_bind_eq_ok h
  obtain ⟨hinputs, rfl⟩ := Io.ofExcept_eq_ok.mp h₂
  cases hprepare.symm.trans hinputs
  obtain ⟨⟨redlined, result⟩, fs₃, h₃, h⟩ := Io.of_bind_eq_ok h
  obtain ⟨hwritten, hlength, rfl⟩ := publish_spec h₃
  obtain ⟨_, copied, hcopy, h⟩ := Io.of_bind_eq_ok h
  obtain ⟨intentSha, fs₄, h₄, h⟩ := Io.of_bind_eq_ok h
  obtain ⟨-, rfl⟩ := Io.ofExcept_eq_ok.mp h₄
  obtain ⟨approvalId, fs₅, h₅, h⟩ := Io.of_bind_eq_ok h
  obtain ⟨-, rfl⟩ := Io.ofExcept_eq_ok.mp h₅
  obtain ⟨events, fs₆, h₆, h⟩ := Io.of_bind_eq_ok h
  obtain ⟨hevents, rfl⟩ := Io.ofExcept_eq_ok.mp h₆
  obtain ⟨_, fs₇, h₇, h⟩ := Io.of_bind_eq_ok h
  obtain ⟨rfl, rfl⟩ := Io.read_eq_ok.mp h₇
  obtain ⟨target, fs₈, h₈, h⟩ := Io.of_bind_eq_ok h
  obtain ⟨htarget, rfl⟩ := Io.ofExcept_eq_ok.mp h₈
  obtain ⟨_, fs₉, h₉, h⟩ := Io.of_bind_eq_ok h
  obtain ⟨rfl, rfl⟩ := Io.pure_eq_ok.mp h
  obtain ⟨-, rfl⟩ := writeFile_eq_ok.mp h₉
  obtain ⟨hlinks, hcwd⟩ := links_copyFiles hcopy
  have hresolve : copied.resolve ((RawPath.parse bundleDir).join (.parse "bundle.json")) =
      some (place "bundle.json") := by
    rw [FileSystem.resolve, hlinks, hcwd]
    exact hplaces "bundle.json" (by decide)
  rw [resolvePath_eq_ok, hresolve] at htarget
  cases htarget
  exact ⟨redlined, result, intentSha, approvalId, events, _, hwritten, hlength, hevents, rfl,
    ⟨faults, _, hcopy⟩, rfl⟩

/-- Copying succeeds when the files are there and lie apart from the bundle. -/
lemma copyFiles_ok {sourceCopy playbookCopy outputCopy : Bytes} (hplaces : Places fs bundleDir place)
    (hsource : fs.files inputs.sourcePath = some sourceCopy)
    (hplaybook : fs.files inputs.playbookPath = some playbookCopy)
    (houtput : fs.files inputs.outputPath = some outputCopy)
    (hapart : ∀ name, place name ≠ inputs.sourcePath ∧ place name ≠ inputs.playbookPath ∧
      place name ≠ inputs.outputPath) :
    ∃ copied, copyFiles (fun _ => none) inputs (.parse bundleDir) fs = (.ok (), copied) := by
  have hcopySource := copyFile_ok hsource (hplaces "source.docx" (by decide)) (hapart _).1
  have hplaybook' := (FileSystem.files_write_of_ne (hapart "source.docx").2.1.symm sourceCopy).trans
    hplaybook
  have hcopyPlaybook := copyFile_ok hplaybook' (hplaces "playbook.json" (by decide)) (hapart _).2.1
  have houtput' := (FileSystem.files_write_of_ne (hapart "playbook.json").2.2.symm playbookCopy).trans
    ((FileSystem.files_write_of_ne (hapart "source.docx").2.2.symm sourceCopy).trans houtput)
  have hcopyOutput := copyFile_ok houtput' (hplaces "output.docx" (by decide)) (hapart _).2.2
  refine ⟨((fs.write (place "source.docx") sourceCopy).write (place "playbook.json") playbookCopy).write
    (place "output.docx") outputCopy, ?_⟩
  simp only [copyFiles, failIf, Io.bind_ofExcept_ok, Io.bind_of_ok hcopySource,
    Io.bind_of_ok hcopyPlaybook]
  exact hcopyOutput

/-- Execution succeeds when its phases do. -/
lemma execute_ok {redlined : Bytes} {result : RedlineResult} {intentSha approvalId : Json}
    {events : List Json} {published copied : FileSystem} {a : Unit} {target : FilePath}
    (hprepare : prepare ed (fun _ => none) now fs root proposal approval keys observerKey = .ok inputs)
    (hpublish : publish oracles (fun _ => none) tmpName inputs fs = (.ok (redlined, result), published))
    (hcopy : copyFiles (fun _ => none) inputs (.parse bundleDir) published = (.ok a, copied))
    (hintent : proposal.item "intent_sha256" = .ok intentSha)
    (happroval : approval.item "approval_id" = .ok approvalId)
    (hevents : eventChain ed (eventPayload (basePayload inputs redlined result intentSha approvalId))
      observerKey 0 .null eventTypes = .ok events)
    (htarget : published.resolve ((RawPath.parse bundleDir).join (.parse "bundle.json")) = some target) :
    ∃ manifest, execute ed codec oracles (fun _ => none) now tmpName runId root proposal approval
      keys observerKey bundleDir fs =
        (.ok manifest, copied.write target (codec.dumpsIndent (.obj manifest))) := by
  refine ⟨manifestOf runId bundleFiles proposal approval
    (Dict.set keys observerKey.keyId observerKey.publicKey) observerKey.keyId events, ?_⟩
  obtain ⟨hlinks, hcwd⟩ := links_copyFiles hcopy
  rw [FileSystem.resolve, ← hlinks, ← hcwd] at htarget
  simp only [execute, Io.bind_read, hprepare, Io.bind_ofExcept_ok, Io.bind_of_ok hpublish,
    Io.bind_of_ok hcopy, hintent, happroval, hevents, resolvePath_eq_ok.mpr htarget, writeFile,
    Io.bind_modify]
  rfl

end AxiomGrid.Legal
