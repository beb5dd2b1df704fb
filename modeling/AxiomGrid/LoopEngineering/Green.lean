import AxiomGrid.LoopEngineering.Steps

/-!
# No fake green

Whatever commands are given, and whatever they find around them, a task or a gate is done only by a
script that passed or by a signed manifest with an artifact that its validator accepted.
-/

namespace AxiomGrid.LoopEngineering

/-! ### What an accepted attestation rests on -/

/-- The manifest names the target, and a signer of the trust roots has signed it. -/
def SignedBy (py : Platform) (w : World) (tid roots : String) (m : Record) (signer : String) : Prop :=
  m.get "target" = .str tid ∧ m.get "signer" = .str signer ∧
    ∃ (signers : Record) (pub sig : String) (key signature : Bytes),
      loadTrustRoots py w roots = .ok (.obj signers) ∧ signers.get signer = .str pub ∧ Base64.decode? pub = some key ∧
      m.get "signature" = .str sig ∧ Base64.decode? sig = some signature ∧
      py.ed.verify key signature (signedBody m) = true

/-- The manifest is at most 45 days old and not from the future. -/
def Fresh (py : Platform) (w : World) (createdAt : Json) : Prop :=
  ∃ created, parseTs py createdAt = .ok created ∧ created.micros ≤ w.now + dayMicros ∧
    (w.now - created.micros) / dayMicros ≤ 45

/-- A file with the digest that the manifest declares, which the validator of the target accepts. -/
def ValidArtifact (py : Platform) (w : World) (tid : String) (art : Record) (validated : String) : Prop :=
  ∃ path content, art.get "path" = .str path ∧ w.read? (resolve py.here path) = some content ∧
    lower py (sha256 content).hex = lower py (pyStr py (art.get "sha256")) ∧
    validate py w tid (resolve py.here path) = .ok validated

/-- The record of evidence stands for a manifest that is signed, fresh and made for the commit, with a
valid artifact. -/
def Substantiated (py : Platform) (w : World) (tid evidence roots : String) (commit : Json)
    (record : EvidenceRecord) : Prop :=
  ∃ (m art : Record) (signer : String), loadFile? py w (resolve py.here evidence) = some (.obj m) ∧
    m.get "artifact" = .obj art ∧ SignedBy py w tid roots m signer ∧ Fresh py w (m.get "created_at") ∧
    (commit.truthy = true → pyStr py (m.get "base_commit") = pyStr py commit) ∧
    ValidArtifact py w tid art record.validated ∧
    record.artifact = art.get "path" ∧ record.artifactSha256 = art.get "sha256" ∧
    record.signer = .str signer ∧ record.baseCommit = m.get "base_commit" ∧
    record.createdAt = m.get "created_at"

section

variable {py : Platform} {w : World}

lemma loadManifest_ok {cand : String} {v : Json} (h : loadManifest py w cand = .ok v) :
    loadFile? py w cand = some v := by
  unfold loadManifest at h
  split at h
  · cases h
    assumption
  · cases h

lemma sha256File_ok {path digest : String} (h : sha256File w path = .ok digest) :
    ∃ content, w.read? path = some content ∧ digest = (sha256 content).hex := by
  unfold sha256File at h
  split at h
  · cases h
    exact ⟨_, ‹_›, rfl⟩
  · cases h

/-- What the check of the artifact finds. -/
lemma checkArtifact_ok {artifact : Json} {apath : String} (h : checkArtifact py w artifact = .ok apath) :
    ∃ art path content, artifact = .obj art ∧ Record.get art "path" = .str path ∧
      apath = resolve py.here path ∧ w.read? apath = some content ∧
      lower py (sha256 content).hex = lower py (pyStr py (Record.get art "sha256")) := by
  obtain ⟨art, hart, h⟩ := Except.of_bind_eq_ok h
  obtain ⟨_, -, h⟩ := Except.of_bind_eq_ok h
  obtain ⟨path, hpath, h⟩ := Except.of_bind_eq_ok h
  obtain ⟨_, -, h⟩ := Except.of_bind_eq_ok h
  obtain ⟨actual, hactual, h⟩ := Except.of_bind_eq_ok h
  obtain ⟨_, hsame, h⟩ := Except.of_bind_eq_ok h
  cases h
  obtain ⟨content, hread, rfl⟩ := sha256File_ok hactual
  rw [require_eq_ok] at hsame
  exact ⟨art, path, content, asDict_eq_ok.mp hart, asPath_eq_ok.mp hpath, rfl, hread,
    of_decide_eq_true hsame⟩

lemma checkFresh_ok {createdAt : Json} {u : Unit} (h : checkFresh py w createdAt 45 = .ok u) :
    Fresh py w createdAt := by
  obtain ⟨created, hcreated, h⟩ := Except.of_bind_eq_ok h
  obtain ⟨_, -, h⟩ := Except.of_bind_eq_ok h
  obtain ⟨_, hfuture, h⟩ := Except.of_bind_eq_ok h
  rw [require_eq_ok] at hfuture h
  exact ⟨created, hcreated, of_decide_eq_true hfuture, of_decide_eq_true h⟩

/-- What the common checks of a manifest find. -/
lemma checkManifestCommon_ok {manifest commit : Json} {tid apath : String}
    (h : checkManifestCommon py w manifest tid commit = .ok apath) :
    ∃ m, manifest = .obj m ∧ Record.get m "target" = .str tid ∧ Fresh py w (Record.get m "created_at") ∧
      (commit.truthy = true → pyStr py (Record.get m "base_commit") = pyStr py commit) ∧
      checkArtifact py w (Record.get m "artifact") = .ok apath := by
  obtain ⟨m, hm, h⟩ := Except.of_bind_eq_ok h
  obtain ⟨_, -, h⟩ := Except.of_bind_eq_ok h
  obtain ⟨_, -, h⟩ := Except.of_bind_eq_ok h
  obtain ⟨_, htarget, h⟩ := Except.of_bind_eq_ok h
  obtain ⟨env, -, h⟩ := Except.of_bind_eq_ok h
  obtain ⟨_, -, h⟩ := Except.of_bind_eq_ok h
  obtain ⟨_, hfresh, h⟩ := Except.of_bind_eq_ok h
  obtain ⟨_, hcommit, h⟩ := Except.of_bind_eq_ok h
  rw [require_eq_ok] at htarget hcommit
  refine ⟨m, asDict_eq_ok.mp hm, Json.pyEq_str_right.mp htarget, checkFresh_ok hfresh, ?_, h⟩
  intro htruthy
  rw [htruthy, Bool.not_true, Bool.false_or] at hcommit
  exact of_decide_eq_true hcommit

lemma b64decode?_some {v : Json} {bs : Bytes} (h : b64decode? v = some bs) :
    ∃ s, v = .str s ∧ Base64.decode? s = some bs := by
  cases v with
  | str s => exact ⟨s, rfl, h⟩
  | _ => cases h

/-- What the check of the signature finds. -/
lemma verifySignature_ok {m : Record} {roots signer : Json}
    (h : verifySignature py m roots = .ok signer) :
    ∃ signers name pub sig key signature, roots = .obj signers ∧ signer = .str name ∧
      m.get "signer" = .str name ∧ Record.get signers name = .str pub ∧ Base64.decode? pub = some key ∧
      m.get "signature" = .str sig ∧ Base64.decode? sig = some signature ∧
      py.ed.verify key signature (signedBody m) = true := by
  obtain ⟨_, -, h⟩ := Except.of_bind_eq_ok h
  obtain ⟨signers, hroots, h⟩ := Except.of_bind_eq_ok h
  obtain ⟨_, -, h⟩ := Except.of_bind_eq_ok h
  obtain ⟨_, hpub, h⟩ := Except.of_bind_eq_ok h
  obtain ⟨_, hvalid, h⟩ := Except.of_bind_eq_ok h
  cases h
  rw [require_eq_ok] at hpub hvalid
  unfold signatureValid at hvalid
  split at hvalid
  · rename_i key signature hkey hsignature
    obtain ⟨pub, hpub', hkey'⟩ := b64decode?_some hkey
    obtain ⟨sig, hsig, hsignature'⟩ := b64decode?_some hsignature
    -- only a text is a key of the trust roots
    cases hname : m.get "signer" with
    | str name =>
      rw [hname, Record.getJson] at hpub'
      exact ⟨signers, name, pub, sig, key, signature, asRecord_eq_ok.mp hroots, rfl, rfl, hpub', hkey', hsig,
        hsignature', hvalid⟩
    | _ =>
      rw [hname, Record.getJson] at hpub
      · cases hpub
      · rintro k ⟨⟩
  · cases hvalid

/-- An attestation that is accepted is substantiated. -/
lemma verifyAttestationEvidence_ok {tid evidence roots message : String} {commit : Json}
    {artifact : Option String} {record : EvidenceRecord}
    (h : verifyAttestationEvidence py w tid evidence roots commit artifact = .ok (record, message)) :
    Substantiated py w tid evidence roots commit record := by
  obtain ⟨_, -, h⟩ := Except.of_bind_eq_ok h
  obtain ⟨_, -, h⟩ := Except.of_bind_eq_ok h
  obtain ⟨manifest, hmanifest, h⟩ := Except.of_bind_eq_ok h
  obtain ⟨trustRoots, hroots, h⟩ := Except.of_bind_eq_ok h
  obtain ⟨apath, hcommon, h⟩ := Except.of_bind_eq_ok h
  obtain ⟨m, hm, h⟩ := Except.of_bind_eq_ok h
  obtain ⟨art, hart, h⟩ := Except.of_bind_eq_ok h
  obtain ⟨_, -, h⟩ := Except.of_bind_eq_ok h
  obtain ⟨signer, hsigner, h⟩ := Except.of_bind_eq_ok h
  obtain ⟨detail, hdetail, h⟩ := Except.of_bind_eq_ok h
  cases h
  rw [asRecord_eq_ok] at hm hart
  subst hm
  obtain ⟨m', hm', htarget, hfresh, hcommit, hartifact⟩ := checkManifestCommon_ok hcommon
  cases hm'
  obtain ⟨art', path, content, hart', hpath, rfl, hread, hdigest⟩ := checkArtifact_ok hartifact
  rw [hart] at hart'
  cases hart'
  obtain ⟨signers, name, pub, sig, key, signature, rfl, rfl, hname, hpub, hkey, hsig, hsignature, hverify⟩ :=
    verifySignature_ok hsigner
  exact ⟨m, art, name, loadManifest_ok hmanifest, hart,
    ⟨htarget, hname, signers, pub, sig, key, signature, hroots, hpub, hkey, hsig, hsignature, hverify⟩, hfresh,
    hcommit, ⟨path, content, hpath, hread, hdigest, hdetail⟩, rfl, rfl, rfl, rfl, rfl⟩

end

/-! ### Runs -/

section

variable {py : Platform} {s s' : State} {journal : List (World × Command)}

lemma executeAll_concat (py : Platform) (s : State) (journal : List (World × Command))
    (step : World × Command) :
    executeAll py s (journal ++ [step]) = execute py (executeAll py s journal) step := by
  simp [executeAll]

lemma forall₂_of_mem_right {R : Task → Task → Prop} {xs ys : List Task} (h : List.Forall₂ R xs ys)
    {y : Task} (hy : y ∈ ys) : ∃ x ∈ xs, R x y := by
  induction h with
  | nil => cases hy
  | cons hr _ ih =>
    rcases List.mem_cons.mp hy with rfl | hy
    · exact ⟨_, List.mem_cons_self, hr⟩
    · obtain ⟨x, hx, hxy⟩ := ih hy
      exact ⟨x, List.mem_cons_of_mem _ hx, hxy⟩

/-- The rule for what holds of every task: it holds at first, and a step of a command keeps it. It may
speak about the commands so far. -/
theorem tasks_induction {P : List (World × Command) → Task → Prop} (init : ∀ t ∈ s.tasks, P [] t)
    (mono : ∀ journal step t, P journal t → P (journal ++ [step]) t)
    (keep : ∀ journal w c s' t t', c.perform py w (executeAll py s journal) = .ok s' →
      executeAll py s (journal ++ [(w, c)]) = s' → P journal t →
      TaskStep py w (executeAll py s journal) s' c t t' → P (journal ++ [(w, c)]) t') :
    ∀ t ∈ (executeAll py s journal).tasks, P journal t := by
  induction journal using List.reverseRecOn with
  | nil => exact init
  | append_singleton journal step ih =>
    intro t' ht'
    rw [executeAll_concat] at ht'
    obtain ⟨-, hsame⟩ | ⟨-, -, hperform⟩ := execute_cases py (executeAll py s journal) step
    · rw [hsame] at ht'
      exact mono journal step t' (ih t' ht')
    · obtain ⟨t, ht, hstep⟩ := forall₂_of_mem_right (tasks_perform hperform) ht'
      exact keep journal step.1 step.2 _ t t' hperform (executeAll_concat py s journal step) (ih t ht) hstep

lemma settings_executeAll (py : Platform) (s : State) (journal : List (World × Command)) :
    (executeAll py s journal).settings = s.settings := by
  induction journal using List.reverseRecOn with
  | nil => rfl
  | append_singleton journal step ih =>
    rw [executeAll_concat]
    obtain ⟨-, hsame⟩ | ⟨-, -, hperform⟩ := execute_cases py (executeAll py s journal) step
    · rw [hsame, ih]
    · rw [settings_perform hperform, ih]

lemma expectedCommit_executeAll (py : Platform) (s : State) (journal : List (World × Command))
    (base : String) : expectedCommit (executeAll py s journal) base = expectedCommit s base := by
  have hhead := congrArg Prod.fst (settings_executeAll py s journal)
  rw [expectedCommit, expectedCommit, show (executeAll py s journal).headCommit = s.headCommit from hhead]

/-! ### Tasks that are done -/

/-- A command of the journal has earned the task its status: a run whose scripts passed, or an
attestation with the evidence that the task carries. -/
def Earned (py : Platform) (s : State) (journal : List (World × Command)) (t : Task) : Prop :=
  ∃ w c, (w, c) ∈ journal ∧
    ((t.oracle.type = "script" ∧ c = .run t.id ∧ ∃ output, runOracle py w t.oracle = .ok (true, output)) ∨
    (t.oracle.type ≠ "script" ∧ ∃ note evidence reopen roots base record,
      c = .attest t.id true note evidence reopen roots base ∧ t.evidence = some record ∧
      Substantiated py w t.id evidence roots (expectedCommit s base) record))

/-- The last attempt of the task passed. -/
def LastPassed (t : Task) : Prop := ∃ a, t.attempts.getLast? = some a ∧ a.passed = true

lemma Earned.mono {journal' : List (World × Command)} {t : Task} (h : Earned py s journal t) :
    Earned py s (journal ++ journal') t := by
  obtain ⟨w, c, hmem, hearned⟩ := h
  exact ⟨w, c, List.mem_append_left _ hmem, hearned⟩

lemma earned_of_done (hfresh : ∀ t ∈ s.tasks, t.status ≠ .done) :
    ∀ t ∈ (executeAll py s journal).tasks, t.status = .done → Earned py s journal t ∧ LastPassed t := by
  refine tasks_induction (P := fun journal t => t.status = .done → Earned py s journal t ∧ LastPassed t)
    (fun t ht hdone => absurd hdone (hfresh t ht)) ?_ ?_
  · intro journal step t h hdone
    exact ⟨(h hdone).1.mono, (h hdone).2⟩
  · intro journal w c s' t t' _ _ ih hstep hdone
    have hmem : (w, c) ∈ journal ++ [(w, c)] := by simp
    cases hstep with
    | kept => exact ⟨(ih hdone).1.mono, (ih hdone).2⟩
    | promoted => cases hdone
    | @ran passed output attempts hc _ _ _ hscript horacle hattempts =>
      -- only a run that passed leaves the task done
      obtain rfl : passed = true := by
        by_contra hpassed
        rw [Bool.not_eq_true] at hpassed
        subst hpassed
        simp only [recordedStatus, Bool.false_eq_true, if_false] at hdone
        split_ifs at hdone
      refine ⟨⟨w, c, hmem, .inl ⟨hscript, hc, output, horacle⟩⟩, ?_⟩
      exact ⟨recordedAttempt py w true output "script", by simp [hattempts], rfl⟩
    | attestedFail => cases hdone
    | @attestedPass note evidence roots base message reopen record hc _ _ hscript haccepted =>
      rw [expectedCommit_executeAll] at haccepted
      refine ⟨⟨w, c, hmem, .inr ⟨hscript, note, evidence, reopen, roots, base, record, hc, rfl,
        verifyAttestationEvidence_ok haccepted⟩⟩, ?_⟩
      exact ⟨attestedAttempt w true message, by simp, rfl⟩
    | wontFixed => cases hdone
    | reset =>
      dsimp only at hdone
      split_ifs at hdone

/-! ### Gates that are done -/

/-- What the commands read of a task and never change. -/
def Task.fixed (t : Task) : String × List String × Oracle × Option String × Option ℤ :=
  (t.id, t.deps, t.oracle, t.gate, t.maxIterations)

lemma TaskStep.fixed {w : World} {c : Command} {t t' : Task} (h : TaskStep py w s s' c t t') :
    t'.fixed = t.fixed := by
  cases h <;> rfl

/-- Every task is one of the tasks at first, with what happened to it. -/
lemma exists_fixed :
    ∀ t ∈ (executeAll py s journal).tasks, ∃ t₀ ∈ s.tasks, t₀.fixed = t.fixed := by
  refine tasks_induction (P := fun _ t => ∃ t₀ ∈ s.tasks, t₀.fixed = t.fixed)
    (fun t ht => ⟨t, ht, rfl⟩) (fun _ _ _ h => h) ?_
  intro journal w c s' t t' _ _ ih hstep
  rw [hstep.fixed]
  exact ih

/-- An attestation of the journal has earned the gate its status: one of the gate itself or of a task that
feeds it, with the evidence that the gate carries. -/
def EarnedGate (py : Platform) (s : State) (journal : List (World × Command)) (gid : String) (g : Gate) :
    Prop :=
  ∃ w tid note evidence reopen roots base record,
    (w, .attest tid true note evidence reopen roots base) ∈ journal ∧
    (tid = gid ∨ ∃ t ∈ s.tasks, t.id = tid ∧ t.feeds = some gid ∧ t.oracle.type ≠ "script") ∧
    g.evidence = some record ∧ Substantiated py w tid evidence roots (expectedCommit s base) record

lemma EarnedGate.mono {journal' : List (World × Command)} {gid : String} {g : Gate}
    (h : EarnedGate py s journal gid g) : EarnedGate py s (journal ++ journal') gid g := by
  obtain ⟨w, tid, note, evidence, reopen, roots, base, record, hmem, hrest⟩ := h
  exact ⟨w, tid, note, evidence, reopen, roots, base, record, List.mem_append_left _ hmem, hrest⟩

lemma earnedGate_of_done (hfresh : ∀ gid g, s.gates.get? gid = some g → g.status ≠ .done) :
    ∀ gid g, (executeAll py s journal).gates.get? gid = some g → g.status = .done →
      EarnedGate py s journal gid g := by
  induction journal using List.reverseRecOn with
  | nil => exact fun gid g hg hdone => absurd hdone (hfresh gid g hg)
  | append_singleton journal step ih =>
    intro gid g' hg' hdone
    rw [executeAll_concat] at hg'
    obtain ⟨-, hsame⟩ | ⟨-, -, hperform⟩ := execute_cases py (executeAll py s journal) step
    · rw [hsame] at hg'
      exact (ih gid g' hg' hdone).mono
    · obtain ⟨w, c⟩ := step
      have hmem : (w, c) ∈ journal ++ [(w, c)] := by simp
      obtain ⟨g, hg, hstep⟩ := gates_perform hperform gid g' hg'
      cases hstep with
      | kept => exact (ih gid _ hg hdone).mono
      | pended => cases hdone
      | @attested note evidence roots base message reopen record hc hdeps haccepted =>
        rw [expectedCommit_executeAll] at haccepted
        exact ⟨w, gid, note, evidence, reopen, roots, base, record, hc ▸ hmem, .inl rfl, rfl,
          verifyAttestationEvidence_ok haccepted⟩
      | @fed note evidence roots base message reopen record t ht hfeeds hscript hc haccepted =>
        rw [expectedCommit_executeAll] at haccepted
        obtain ⟨t₀, ht₀, hfixed⟩ := exists_fixed t ht
        simp only [Task.fixed, Prod.mk.injEq] at hfixed
        obtain ⟨hid, -, horacle, hgate, -⟩ := hfixed
        refine ⟨w, t.id, note, evidence, reopen, roots, base, record, hc ▸ hmem, .inr ?_, rfl,
          verifyAttestationEvidence_ok haccepted⟩
        refine ⟨t₀, ht₀, hid, ?_, ?_⟩
        · rw [Task.feeds, hgate]
          exact hfeeds
        · rw [horacle]
          exact hscript
      | wontFixed => cases hdone

end

/-- No fake green: from a state with nothing done, in every run of commands, under any outcome of scripts
and any files, a task that is done has a last attempt that passed and was earned by a command of the
run, and a gate that is done was earned by an attestation: of the gate, or of a task that feeds it. -/
theorem executeAll_no_fake_green (py : Platform) (s : State)
    (htasks : ∀ t ∈ s.tasks, t.status ≠ .done)
    (hgates : ∀ gid g, s.gates.get? gid = some g → g.status ≠ .done)
    (journal : List (World × Command)) :
    (∀ t ∈ (executeAll py s journal).tasks, t.status = .done →
      Earned py s journal t ∧ LastPassed t) ∧
    ∀ gid g, (executeAll py s journal).gates.get? gid = some g → g.status = .done →
      EarnedGate py s journal gid g :=
  ⟨earned_of_done htasks, earnedGate_of_done hgates⟩

/-! ### A green board -/

namespace Sample

open Json (dumpsWith FloatFree DistinctKeys)

def key : Bytes := List.replicate 32 7

/-- A run record, and a report of a hundred of them. -/
def runRecord : Record :=
  [("readback_match", .bool true), ("tamper_injected", .bool true), ("tamper_detected", .bool true),
    ("canary_present", .bool true), ("gap", .bool false)]

def report : Record :=
  [("os", .str "Windows 11"), ("recording", .obj [("sha256", .str "r")]),
    ("runs", .arr (List.replicate 100 (.obj runRecord)))]

/-- The bytes of a JSON file. -/
def fileOf (v : Record) : Bytes := utf8 (dumpsWith .indented (.obj v))

/-- A manifest for an artifact with this digest, before it is signed. -/
def unsigned (digest : String) : Record :=
  [("target", .str "T3"), ("base_commit", .str "c"), ("created_at", .str "t"),
    ("env", .obj [("os", .str "w"), ("toolchain", .str "p"), ("lockfile_sha256", .str "l")]),
    ("artifact", .obj [("path", .str "r.json"), ("sha256", .str digest)]), ("signer", .str "founder")]

def manifestOf (digest signature : String) : Record := unsigned digest ++ [("signature", .str signature)]

/-- The manifest of the report. -/
def digest : String := (sha256 (fileOf report)).hex

def signature : Bytes := key ++ canonical (.obj (unsigned digest))

def manifest : Record := manifestOf digest (Base64.encode signature)

def trustRoots : Record := [("signers", .obj [("founder", .str (Base64.encode key))])]

/-- The files of the board; scripts pass. -/
def world : World where
  node path :=
    if path = "/loop/e.json" then some (.file (fileOf manifest))
    else if path = "/loop/r.json" then some (.file (fileOf report))
    else if path = "/loop/roots.json" then some (.file (fileOf trustRoots))
    else none
  now := 0
  nowText := "t"
  script _ := .exited 0 "" ""
  jsonError _ := ""

/-- A task with a script, one that is attested and feeds the desktop gate, and the gate. -/
def board : State where
  maxIterations := 4
  gates := [("G1", { status := .blocked, deps := ["T3"] })]
  tasks :=
    [{ id := "T0", status := .pending, oracle := { type := "script", cmd := ["check.py"] } },
      { id := "T3", deps := ["T0"], status := .blocked, oracle := { type := "attestation" },
        gate := some "G1" }]
  history := []

/-- The script is run, then the second task is attested. -/
def boardJournal : List (World × Command) :=
  [(world, .run "T0"), (world, .attest "T3" true "" "e.json" false "/loop/roots.json" "")]

lemma load_fileOf {w : World} {v : Record} {path : String} (hread : w.read? path = some (fileOf v))
    (hfloats : FloatFree (.obj v)) (hkeys : DistinctKeys (.obj v)) :
    loadFile? platform w path = some (.obj v) := by
  rw [loadFile?, hread, Option.bind_some, fileOf, utf8Decode?_utf8, Option.bind_some]
  exact Json.loads_dumpsWith Json.Style.readable_indented (Json.FloatFree.readsBack _ hfloats) hkeys

lemma load_manifest : loadFile? platform world "/loop/e.json" = some (.obj manifest) := by
  apply load_fileOf rfl
  · simp [manifest, manifestOf, unsigned, FloatFree, Json.FloatFreeMembers]
  · simp [manifest, manifestOf, unsigned, DistinctKeys, Json.DistinctKeysMembers]

lemma load_trustRoots : loadFile? platform world "/loop/roots.json" = some (.obj trustRoots) := by
  apply load_fileOf rfl
  · simp [trustRoots, FloatFree, Json.FloatFreeMembers]
  · simp [trustRoots, DistinctKeys, Json.DistinctKeysMembers]

lemma load_report : loadFile? platform world "/loop/r.json" = some (.obj report) := by
  apply load_fileOf rfl
  · simp [report, FloatFree, Json.FloatFreeMembers, runRecord, List.replicate, Json.FloatFreeItems]
  · simp [report, DistinctKeys, Json.DistinctKeysMembers, runRecord, List.replicate, Json.DistinctKeysItems]

lemma artifact_ok {w : World} {content : Bytes} {d : String} (hread : w.read? "/loop/r.json" = some content)
    (hpath : w.pathExists "/loop/r.json" = true) (hd : d = (sha256 content).hex) (hne : d ≠ "") :
    checkArtifact platform w (.obj [("path", .str "r.json"), ("sha256", .str d)]) = .ok "/loop/r.json" := by
  have hfile : sha256File w "/loop/r.json" = .ok d := by rw [sha256File, hread, hd]
  have hresolve : resolve platform.here "r.json" = "/loop/r.json" := by decide
  simp [checkArtifact, asDict, Json.members?, throwIf, Record.get, List.lookup_cons, Json.truthy, hne, asPath, Json.str?,
    hresolve, hpath, require, hfile, pyStr]

/-- The manifest passes the common checks. -/
lemma common_ok {w : World} {content : Bytes} {d sig : String} (hnow : w.now = 0)
    (hread : w.read? "/loop/r.json" = some content)
    (hpath : w.pathExists "/loop/r.json" = true) (hd : d = (sha256 content).hex) (hne : d ≠ "") (hsig : sig ≠ "") :
    checkManifestCommon platform w (.obj (manifestOf d sig)) "T3" .null = .ok "/loop/r.json" := by
  have hfresh : checkFresh platform w (.str "t") 45 = .ok () := by
    simp [checkFresh, parseTs, pyStr, platform, throwIf, require, hnow, dayMicros]
  have hartifact := artifact_ok hread hpath hd hne
  have hany : (manifestOf d sig).any (fun p => p.2.truthy) = true := rfl
  have hfields : requireFields (manifestOf d sig) manifestFields
      (fun field => "manifest missing required field '" ++ field ++ "'") = .ok () := by
    simp [requireFields, manifestFields, require, Record.get, manifestOf, unsigned, List.lookup_cons, Json.truthy, hsig]
  have htarget : Record.get (manifestOf d sig) "target" = .str "T3" := rfl
  have henv : Record.get (manifestOf d sig) "env" =
      .obj [("os", .str "w"), ("toolchain", .str "p"), ("lockfile_sha256", .str "l")] := rfl
  have hcreated : Record.get (manifestOf d sig) "created_at" = .str "t" := rfl
  have hart : Record.get (manifestOf d sig) "artifact" =
      .obj [("path", .str "r.json"), ("sha256", .str d)] := rfl
  have henvFields : requireFields [("os", .str "w"), ("toolchain", .str "p"), ("lockfile_sha256", .str "l")]
      envFields (fun k => "manifest.env missing '" ++ k ++ "' (environment provenance required)") = .ok () := rfl
  have heq : Json.pyEq (.str "T3") (.str "T3") = true := Json.pyEq_str_right.mpr rfl
  have hcommit : Json.truthy .null = false := rfl
  rw [checkManifestCommon]
  simp only [asDict, Json.members?, Except.ok_bind, hany, require, if_true, hfields, htarget, heq, henv,
    asRecord, henvFields, hcreated, hfresh, hcommit, Bool.not_false, Bool.true_or, hart, hartifact]

lemma mapM_replicate (n : ℕ) (r : Record) :
    (List.replicate n (Json.obj r)).mapM asRecord = .ok (List.replicate n r) := by
  induction n with
  | zero => rfl
  | succ n ih =>
    rw [List.replicate_succ, List.mapM_cons, ih]
    rfl

lemma validate_ok {w : World} (hload : loadFile? platform w "/loop/r.json" = some (.obj report)) :
    ∃ message, validate platform w "T3" "/loop/r.json" = .ok message := by
  have hproblems : problemsG1 platform report (List.replicate 100 runRecord) [("sha256", .str "r")] = [] := by
    decide +kernel
  have hreport : loadReport platform w "/loop/r.json" "G1 run report" = .ok report := by
    rw [loadReport, loadJson, hload]
    rfl
  have hruns : Record.get report "runs" = .arr (List.replicate 100 (.obj runRecord)) := rfl
  have hrecording : orEmpty (Record.get report "recording") = .obj [("sha256", .str "r")] := rfl
  rw [validate, show validators.lookup "T3" = some validateG1Desktop from rfl]
  dsimp only
  rw [validateG1Desktop, hreport, Except.ok_bind, hruns]
  simp only [asList, Json.items?, Except.ok_bind, mapM_replicate, hrecording, asRecord, asDict, Json.members?, hproblems,
    require, List.isEmpty_nil, if_true]
  exact ⟨_, rfl⟩

/-- A manifest that is signed with a key of the trust roots. -/
lemma signature_ok {d : String} {pub : Bytes} (hpub : pub ≠ []) :
    verifySignature platform (manifestOf d (Base64.encode (pub ++ canonical (.obj (unsigned d)))))
      (.obj [("founder", .str (Base64.encode pub))]) = .ok (.str "founder") := by
  generalize hsig : pub ++ canonical (.obj (unsigned d)) = sig
  have hsigNe : Base64.encode sig ≠ "" := by
    rw [Ne, Base64.encode_eq_empty_iff, ← hsig]
    simp [hpub]
  have hpubNe : Base64.encode pub ≠ "" := by rwa [Ne, Base64.encode_eq_empty_iff]
  have hbody : signedBody (manifestOf d (Base64.encode sig)) = canonical (.obj (unsigned d)) := rfl
  have hvalid : signatureValid platform (manifestOf d (Base64.encode sig)) (.str (Base64.encode pub))
      (.str (Base64.encode sig)) = true := by
    simp only [signatureValid, b64decode?, Base64.decode?_encode, hbody]
    exact decide_eq_true hsig.symm
  have hsigner : Record.get (manifestOf d (Base64.encode sig)) "signer" = .str "founder" := rfl
  have hsignature : Record.get (manifestOf d (Base64.encode sig)) "signature" = .str (Base64.encode sig) := rfl
  have hroot : Record.getJson [("founder", .str (Base64.encode pub))] (.str "founder") =
      .str (Base64.encode pub) := rfl
  have htruthy : Json.truthy (.str "founder") = true := rfl
  have htruthySig : Json.truthy (.str (Base64.encode sig)) = true := decide_eq_true hsigNe
  have htruthyPub : Json.truthy (.str (Base64.encode pub)) = true := decide_eq_true hpubNe
  rw [verifySignature]
  simp only [hsigner, hsignature, htruthy, htruthySig, Bool.and_self, asRecord, asDict, Json.members?,
    Except.ok_bind, require, throwIf, if_true, hashable, Bool.not_true, Bool.false_eq_true, if_false, hroot,
    htruthyPub, hvalid]
  rfl

lemma read_report : world.read? "/loop/r.json" = some (fileOf report) := rfl

lemma exists_files : world.pathExists "/loop/e.json" = true ∧ world.pathExists "/loop/r.json" = true ∧
    world.pathExists "/loop/roots.json" = true := ⟨rfl, rfl, rfl⟩

lemma manifest_ok : loadManifest platform world "/loop/e.json" = .ok (.obj manifest) := by
  rw [loadManifest, load_manifest]

lemma roots_ok : loadTrustRoots platform world "/loop/roots.json" =
    .ok (.obj [("founder", .str (Base64.encode key))]) := by
  rw [loadTrustRoots, exists_files.2.2, if_neg (by simp), load_trustRoots]
  rfl

lemma manifest_common : checkManifestCommon platform world (.obj manifest) "T3" .null = .ok "/loop/r.json" := by
  apply common_ok rfl read_report exists_files.2.1 rfl (sha256_hex_ne_empty _)
  rw [Ne, Base64.encode_eq_empty_iff]
  simp [signature, key]

lemma manifest_signed : verifySignature platform manifest (.obj [("founder", .str (Base64.encode key))]) =
      .ok (.str "founder") := signature_ok (by simp [key])

/-- The checks one after the other. -/
lemma accepted_of {w : World} {evidence roots apath detail : String} {m art : Record} {trustRoots signer : Json}
    (hevidence : evidence ≠ "") (hexists : w.pathExists (resolve platform.here evidence) = true)
    (hmanifest : loadManifest platform w (resolve platform.here evidence) = .ok (.obj m))
    (hroots : loadTrustRoots platform w roots = .ok trustRoots)
    (hcommon : checkManifestCommon platform w (.obj m) "T3" .null = .ok apath)
    (hart : m.get "artifact" = .obj art) (hsigned : verifySignature platform m trustRoots = .ok signer)
    (hvalid : validate platform w "T3" apath = .ok detail) :
    ∃ record message, verifyAttestationEvidence platform w "T3" evidence roots .null none =
      .ok (record, message) := by
  have hrequired : ∀ path : Str, ((none : Option String).getD "").toList.isSuffixOf path = true := by
    intro path
    rw [List.isSuffixOf_iff_suffix]
    exact List.nil_suffix
  rw [verifyAttestationEvidence]
  simp only [require, hevidence, hexists, hmanifest, hroots, hcommon, asRecord, asDict, Json.members?, hart, hsigned,
    hvalid, hrequired, Except.ok_bind, if_true, ne_eq, not_false_eq_true, decide_true]
  exact ⟨_, _, rfl⟩

/-- The evidence is accepted. -/
lemma evidence_ok : ∃ record message,
    verifyAttestationEvidence platform world "T3" "e.json" "/loop/roots.json" .null none =
      .ok (record, message) := by
  obtain ⟨detail, hdetail⟩ := validate_ok load_report
  have hresolve : resolve platform.here "e.json" = "/loop/e.json" := by decide
  have hart : Record.get manifest "artifact" = .obj [("path", .str "r.json"), ("sha256", .str digest)] := rfl
  refine accepted_of (by decide) ?_ ?_ roots_ok manifest_common hart manifest_signed hdetail
  · rw [hresolve, exists_files.1]
  · rw [hresolve, manifest_ok]

/-- The board after the script has passed. -/
def ranEvent : Event :=
  logEntry world "genesis" "oracle_run"
    [("task", .str "T0"), ("passed", .bool true), ("signature", .str "PASS")]

def ranTask : Task :=
  { id := "T0", status := .done, oracle := { type := "script", cmd := ["check.py"] },
    attempts := [recordedAttempt platform world true "" "script"] }

def attestedTask : Task :=
  { id := "T3", deps := ["T0"], status := .pending, oracle := { type := "attestation" }, gate := some "G1" }

def afterRun : State := { board with tasks := [ranTask, attestedTask], history := [ranEvent] }

lemma executeAll_pair (py : Platform) (s : State) (step step' : World × Command) :
    executeAll py s [step, step'] = execute py (execute py s step) step' := rfl

lemma execute_run : execute platform board (world, .run "T0") = afterRun :=
  execute_of_perform (show Intact [] from rfl) rfl

/-- An attestation that is accepted turns its task and the gate green. -/
lemma attest_ok {py : Platform} {w : World} {s : State} {prev evidence roots message : String}
    {record : EvidenceRecord} (htasks : s.tasks = [ranTask, attestedTask])
    (hgates : s.gates = [("G1", { status := .blocked, deps := ["T3"] })]) (hhead : s.headCommit = .null)
    (hlast : lastHash s.history = some prev)
    (haccepted : verifyAttestationEvidence py w "T3" evidence roots .null none = .ok (record, message)) :
    ∃ s', Command.perform py w s (.attest "T3" true "" evidence false roots "") = .ok s' ∧
      s'.gates = [("G1", { status := .done, deps := ["T3"], evidence := some record })] ∧
      s'.tasks = [ranTask, { attestedTask with
        attempts := [attestedAttempt w true message], status := .done, evidence := some record }] := by
  obtain ⟨head, maxIterations, gates, tasks, history⟩ := s
  dsimp only at htasks hgates hhead hlast
  subst htasks hgates hhead
  rw [Command.perform, cmdAttest]
  generalize hs : refreshBlocked _ = s₁
  have hs₁ : s₁ = ⟨.null, maxIterations, [("G1", { status := .blocked, deps := ["T3"] })],
      [ranTask, attestedTask], history⟩ := by
    rw [← hs]
    rfl
  have hstatus : attestedStatus s₁ "T3" = .ok .pending := by
    rw [hs₁]
    rfl
  have hguard : ∀ e : Refusal, throwIf (decide ((Status.pending = .done ∨ Status.pending = .wontFix) ∧
      (!false) = true)) e = .ok () := fun _ => rfl
  have hcommit : expectedCommit s₁ "" = .null := by
    rw [hs₁]
    rfl
  have hartifact : requiredArtifact s₁ "T3" = none := by
    rw [hs₁]
    rfl
  have hlast₁ : lastHash s₁.history = some prev := by rw [hs₁, hlast]
  simp only [hstatus, Except.ok_bind, hguard, hcommit, hartifact, haccepted, refuseFailure, log, hlast₁]
  rw [hs₁]
  exact ⟨_, rfl, rfl, rfl⟩

/-- The tasks and the gate when all is green. -/
lemma executeAll_journal : ∃ record message,
    (executeAll platform board boardJournal).gates = [("G1", { status := .done, deps := ["T3"], evidence := some record })] ∧
    (executeAll platform board boardJournal).tasks =
      [ranTask, { attestedTask with
        attempts := [attestedAttempt world true message], status := .done, evidence := some record }] := by
  obtain ⟨record, message, haccepted⟩ := evidence_ok
  have hintact : Intact afterRun.history := (show Intact [] from rfl).log rfl (by simp [ownKeys])
  obtain ⟨prev, -, hhash⟩ := (hashed_logEntry world "genesis" "oracle_run"
    (show ∀ k ∈ ownKeys, k ∉ List.map Prod.fst
      [("task", Json.str "T0"), ("passed", .bool true), ("signature", .str "PASS")] by simp [ownKeys])).1
  have hlast := lastHash_iff.mpr (show tip Event.hash (.str "genesis") afterRun.history = _ from hhash)
  obtain ⟨s, hs, hgates, htasks⟩ := @attest_ok platform world afterRun _ _ _ _ _ rfl rfl rfl hlast haccepted
  have hrun : executeAll platform board boardJournal = s := by
    rw [boardJournal, executeAll_pair, execute_run]
    exact execute_of_perform hintact hs
  rw [hrun]
  exact ⟨record, message, hgates, htasks⟩

/-- Both tasks are done and the gate is green. -/
theorem executeAll_no_fake_green_board :
    (∀ t ∈ (executeAll platform board boardJournal).tasks, t.status = .done →
      Earned platform board boardJournal t ∧ LastPassed t) ∧
    ∀ gid g, (executeAll platform board boardJournal).gates.get? gid = some g → g.status = .done →
      EarnedGate platform board boardJournal gid g := by
  apply executeAll_no_fake_green platform board
  · simp [board]
  · intro gid g hg
    have hmem := Dict.mem_of_get? hg
    simp only [board, List.mem_singleton, Prod.mk.injEq] at hmem
    rw [hmem.2]
    decide

end Sample

end AxiomGrid.LoopEngineering
