import AxiomGrid.Lib.LexicalPath
import AxiomGrid.Lib.PyLower

/-!
# The file gate

`ToolGate::validate_file_access` of `phantom-core/src/governance/mod.rs`. The gate compares texts: a path
is admitted if it begins like an allowed directory and not like a system directory. A file system reads
components, and steps up from an allowed directory lead out of it.
-/

namespace AxiomGrid.Phantom

open LexicalPath

structure ToolGate where
  allowedPaths : List Str

namespace ToolGate

variable (u : UnicodeData)

/-- The test for a system directory. -/
def isBlocked (path : Str) : Bool :=
  "c:\\windows".toList.isPrefixOf (Str.lower u path) || "/etc".toList.isPrefixOf path

/-- `validate_file_access`. -/
def validateFileAccess (self : ToolGate) (path : Str) : Bool :=
  if isBlocked u path then false
  else self.allowedPaths.any fun allowed => allowed.isPrefixOf path

/-! ### Paths -/

inductive Platform where
  | unix
  | windows
  deriving DecidableEq

def Platform.isSeparator : Platform → Char → Bool
  | unix, c => c == '/'
  | windows, c => c == '/' || c == '\\'

/-- What may stand before the first separator of an absolute path. -/
def Platform.IsRoot : Platform → Str → Prop
  | unix, root => root = []
  | windows, root => root = [] ∨ ∃ letter, root = [letter, ':']

def IsAbsolute (platform : Platform) (path : Str) : Prop :=
  ∃ root c rest, path = root ++ c :: rest ∧ platform.IsRoot root ∧ platform.isSeparator c = true

/-- The path is an allowed directory or lies below one. -/
def Inside (platform : Platform) (self : ToolGate) (path : Str) : Prop :=
  ∃ dir ∈ self.allowedPaths, Below platform.isSeparator dir path

/-! ### Prefixes -/

lemma prefix_of_prefix_append_cons {w a b : Str} {c : Char} (hc : c ∉ w) (h : w <+: a ++ c :: b) :
    w <+: a := by
  induction w generalizing a with
  | nil => exact List.nil_prefix
  | cons d w ih =>
    rw [List.mem_cons, not_or] at hc
    cases a with
    | nil =>
      rw [List.nil_append, List.cons_prefix_cons] at h
      exact absurd h.1.symm hc.1
    | cons e a =>
      rw [List.cons_append, List.cons_prefix_cons] at h
      exact List.cons_prefix_cons.mpr ⟨h.1, ih hc.2 h.2⟩

/-- Whether a lower case begins with a word without sigmas does not depend on what follows. -/
lemma prefix_lowerIn {w : Str} (hw : 'σ' ∉ w ∧ 'ς' ∉ w) {before s after : Str} (after' : Str)
    (h : w <+: Str.lowerIn u before s after) : w <+: Str.lowerIn u before s after' := by
  induction s generalizing before w with
  | nil => exact h
  | cons c s ih =>
    rw [Str.lowerIn] at h ⊢
    by_cases hsigma : c = 'Σ'
    · -- a word that goes on here begins with a sigma
      cases w with
      | nil => exact List.nil_prefix
      | cons d w =>
        rw [Str.lowerChar, if_pos hsigma, List.singleton_append, List.cons_prefix_cons] at h
        have hd : d ∈ ['σ', 'ς'] := by
          rw [h.1]
          split_ifs
          · simp
          · simp
        simp only [List.mem_cons, List.not_mem_nil, or_false] at hd
        rcases hd with rfl | rfl
        · exact absurd List.mem_cons_self hw.1
        · exact absurd List.mem_cons_self hw.2
    · have hsame : Str.lowerChar u before c (s ++ after') = Str.lowerChar u before c (s ++ after) := by
        rw [Str.lowerChar, Str.lowerChar, if_neg hsigma, if_neg hsigma]
      rw [hsame]
      generalize Str.lowerChar u before c (s ++ after) = front at h
      rcases List.prefix_or_prefix_of_prefix h (List.prefix_append _ _) with hfront | ⟨w', rfl⟩
      · exact hfront.trans (List.prefix_append _ _)
      · rw [List.prefix_append_right_inj] at h ⊢
        simp only [List.mem_append, not_or] at hw
        exact ih ⟨hw.1.2, hw.2.2⟩ h

lemma windows_prefix_append (a b : Str) :
    "c:\\windows".toList <+: Str.lower u a → "c:\\windows".toList <+: Str.lower u (a ++ b) := by
  rw [Str.lower_eq_lowerIn, Str.lower_append]
  intro h
  exact (prefix_lowerIn u (by decide) b h).trans (List.prefix_append _ _)

/-- What begins with a blocked directory is blocked. -/
lemma isBlocked_append {dir : Str} (h : isBlocked u dir = true) (rest : Str) :
    isBlocked u (dir ++ rest) = true := by
  simp only [isBlocked, Bool.or_eq_true, List.isPrefixOf_iff_prefix] at h ⊢
  exact h.imp (windows_prefix_append u dir rest) fun h => h.trans (List.prefix_append _ _)

/-- What goes on after a separator is blocked only if the directory is. -/
lemma isBlocked_of_append {dir : Str} (hne : dir ≠ []) (hslash : Str.IsLowered u '/') {rest : Str}
    (h : isBlocked u (dir ++ '/' :: rest) = true) : isBlocked u dir = true := by
  simp only [isBlocked, Bool.or_eq_true, List.isPrefixOf_iff_prefix] at h ⊢
  refine h.imp (fun h => ?_) fun h => ?_
  · rw [Str.lower_append, Str.lower.go, Str.lowerChar, if_neg hslash.1, if_neg hslash.2.1,
      hslash.2.2] at h
    rw [Str.lower_eq_lowerIn]
    exact prefix_lowerIn u (by decide) [] (prefix_of_prefix_append_cons (by decide) h)
  · cases dir with
    | nil => exact absurd rfl hne
    | cons c dir =>
      have hetc : "/etc".toList = '/' :: "etc".toList := by decide
      rw [hetc, List.cons_append, List.cons_prefix_cons] at h
      rw [hetc, List.cons_prefix_cons]
      exact ⟨h.1, prefix_of_prefix_append_cons (by decide) h.2⟩

/-! ### What is admitted -/

lemma validateFileAccess_iff {self : ToolGate} {path : Str} :
    validateFileAccess u self path = true ↔
      isBlocked u path = false ∧ ∃ dir ∈ self.allowedPaths, dir <+: path := by
  rw [validateFileAccess]
  cases isBlocked u path with
  | true => simp
  | false => simp [List.isPrefixOf_iff_prefix]

variable {u}

/-- The gate admits only what is inside the allowed directories exactly if every allowed directory is
blocked itself or has an allowed directory at its root: from any other one, steps up lead out. A path that
goes on after a separator without a step up is inside. -/
theorem validateFileAccess_inside_iff (hslash : Str.IsLowered u '/') (platform : Platform)
    {self : ToolGate} (habsolute : ∀ dir ∈ self.allowedPaths, IsAbsolute platform dir) :
    ((∀ path, validateFileAccess u self path = true → Inside platform self path) ↔
      ∀ dir ∈ self.allowedPaths, isBlocked u dir = true ∨ ∃ top ∈ self.allowedPaths,
        resolve platform.isSeparator top = ((resolve platform.isSeparator dir).1, [])) ∧
    ∀ dir ∈ self.allowedPaths, ∀ c rest, platform.isSeparator c = true →
      "..".toList ∉ rest.splitOnP platform.isSeparator →
      Inside platform self (dir ++ c :: rest) := by
  have hsep : platform.isSeparator '/' = true := by cases platform <;> rfl
  have hdot : platform.isSeparator '.' = false := by cases platform <;> rfl
  refine ⟨⟨fun hinside dir hdir => ?_, fun htop path hpath => ?_⟩, fun dir hdir c rest hc hrest =>
    ⟨dir, hdir, below_append_cons hc hrest⟩⟩
  · by_cases hblocked : isBlocked u dir = true
    · exact .inl hblocked
    obtain ⟨root, c, tail, hsplit, -⟩ := habsolute dir hdir
    have hne : dir ≠ [] := by simp [hsplit]
    -- a path that starts in the directory and steps up to the root
    obtain ⟨rest, hclimb, hrest⟩ := exists_climb hsep hdot dir
    have hadmitted : validateFileAccess u self (dir ++ rest) = true := by
      refine (validateFileAccess_iff u).mpr ⟨?_, dir, hdir, List.prefix_append _ _⟩
      rw [← Bool.not_eq_true]
      rcases hrest with rfl | ⟨steps, rfl⟩
      · rwa [List.append_nil]
      · exact mt (isBlocked_of_append u hne hslash) hblocked
    obtain ⟨top, htop, hroot, hnames⟩ := hinside _ hadmitted
    rw [hclimb] at hroot hnames
    exact .inr ⟨top, htop, Prod.ext hroot (List.prefix_nil.mp hnames)⟩
  · obtain ⟨hblocked, dir, hdir, rest, rfl⟩ := (validateFileAccess_iff u).mp hpath
    obtain ⟨top, htop, heq⟩ := (htop dir hdir).resolve_left fun h => by
      rw [isBlocked_append u h rest] at hblocked
      cases hblocked
    obtain ⟨root, c, tail, hsplit, -, hc⟩ := habsolute dir hdir
    refine ⟨top, htop, ?_⟩
    rw [Below, heq, root_append (by simp [hsplit]) hc]
    exact ⟨rfl, List.nil_prefix⟩

namespace Sample

/-- The directory of the default gate. -/
def home : ToolGate := ⟨["/home/user/.kairo-phantom".toList]⟩

end Sample

theorem validateFileAccess_inside_iff_home :
    (∀ path, validateFileAccess asciiData Sample.home path = true → Inside .unix Sample.home path) ↔
      ∀ dir ∈ Sample.home.allowedPaths, isBlocked asciiData dir = true ∨
        ∃ top ∈ Sample.home.allowedPaths,
          resolve Platform.unix.isSeparator top = ((resolve Platform.unix.isSeparator dir).1, []) :=
  (validateFileAccess_inside_iff (by decide) .unix (by
    intro dir hdir
    obtain rfl := List.mem_singleton.mp hdir
    exact ⟨[], '/', "home/user/.kairo-phantom".toList, by decide, rfl, rfl⟩)).1

/-- Steps up to a system directory, and a sibling whose name begins like the directory. -/
theorem steps_up_admitted :
    validateFileAccess asciiData Sample.home "/home/user/.kairo-phantom/../../../etc/passwd".toList = true ∧
      ¬ Inside .unix Sample.home "/home/user/.kairo-phantom/../../../etc/passwd".toList ∧
      validateFileAccess asciiData Sample.home "/home/user/.kairo-phantom-evil/run".toList = true ∧
      ¬ Inside .unix Sample.home "/home/user/.kairo-phantom-evil/run".toList := by
  simp only [Inside, Sample.home, List.mem_singleton, exists_eq_left]
  decide +kernel

end ToolGate

end AxiomGrid.Phantom
