import Mathlib.Data.List.Basic
import Mathlib.Data.List.Induction
import Mathlib.Logic.Function.Basic
import AxiomGrid.Lib.Sha256

/-!
# A file system with symbolic links

Regular files and symbolic links at absolute paths. `Path.resolve` follows links and removes `..`, and
keeps components that do not exist. The modelled programs write and replace regular files and never
create a link, so the links are the same throughout a run.

`Io` is a computation that reads and writes files and may raise; what it wrote before it raised
stays. Failures of the operating system are not derived from the state: programs take them as
parameters.
-/

/-- The components of an absolute path. -/
abbrev FilePath := List String

/-- A path as it is written: `..` is kept, and it may be relative. -/
structure RawPath where
  absolute : Bool
  parts : List String
  deriving DecidableEq

namespace RawPath

/-- `Path(text)`. -/
def parse (text : String) : RawPath where
  absolute := text.toList.head? = some '/'
  parts := ((text.toList.splitOnP (· == '/')).map String.ofList).filter fun p => p ≠ "" ∧ p ≠ "."

/-- `a / b`. -/
def join (a b : RawPath) : RawPath := if b.absolute then b else ⟨a.absolute, a.parts ++ b.parts⟩

/-- An absolute path that needs no resolving. -/
def ofPath (p : FilePath) : RawPath := ⟨true, p⟩

end RawPath

/-- No component is `..`, and neither the path nor a directory above it is a link. -/
def PlainPath (links : FilePath → Option RawPath) (p : FilePath) : Prop :=
  ".." ∉ p ∧ ∀ q, q <+: p → q ≠ [] → links q = none

namespace PlainPath

variable {links : FilePath → Option RawPath} {p q : FilePath}

lemma nil : PlainPath links [] := by
  constructor
  · simp
  · intro q hq hne
    exact absurd (List.prefix_nil.mp hq) hne

lemma of_prefix (hp : PlainPath links p) (hq : q <+: p) : PlainPath links q := by
  constructor
  · intro hdots
    exact hp.1 (hq.subset hdots)
  · intro r hr hne
    exact hp.2 r (hr.trans hq) hne

lemma concat (hp : PlainPath links p) {part : String} (hdots : part ≠ "..")
    (hlink : links (p ++ [part]) = none) : PlainPath links (p ++ [part]) := by
  constructor
  · rw [List.mem_append, List.mem_singleton, not_or]
    exact ⟨hp.1, hdots.symm⟩
  · intro q hq hne
    obtain rfl | hq := List.prefix_concat_iff.mp hq
    · exact hlink
    · exact hp.2 q hq hne

end PlainPath

/-- The links and the contents of the regular files. -/
structure FileSystem where
  links : FilePath → Option RawPath
  files : FilePath → Option Bytes
  /-- The working directory. -/
  cwd : FilePath
  cwd_plain : PlainPath links cwd

namespace FileSystem

/-! ### Resolving a path -/

/-- Walks along `parts` from the directory `done` up to the first link, which `follow` takes over. -/
def walk (links : FilePath → Option RawPath) (follow : FilePath → List String → Option FilePath) :
    FilePath → List String → Option FilePath
  | done, [] => some done
  | done, part :: parts =>
    if part = ".." then walk links follow done.dropLast parts
    else
      match links (done ++ [part]) with
      | none => walk links follow (done ++ [part]) parts
      | some target => follow (if target.absolute then [] else done) (target.parts ++ parts)

/-- Walks along `parts` through at most `n` links; `none` stands for a loop of links. -/
def resolveParts (links : FilePath → Option RawPath) :
    ℕ → FilePath → List String → Option FilePath
  | 0 => walk links fun _ _ => none
  | n + 1 => walk links (resolveParts links n)

def maxLinks : ℕ := 40

/-- `path.resolve()`; `none` is the exception for a loop of links. -/
def resolve (fs : FileSystem) (path : RawPath) : Option FilePath :=
  resolveParts fs.links maxLinks (if path.absolute then [] else fs.cwd) path.parts

section

variable {links : FilePath → Option RawPath}

/-- Where a walk ends, neither the path nor a directory above it is a link. -/
lemma walk_plain {follow : FilePath → List String → Option FilePath}
    (hfollow : ∀ done parts p, PlainPath links done → follow done parts = some p → PlainPath links p)
    {done : FilePath} {parts : List String} {p : FilePath} (hdone : PlainPath links done)
    (h : walk links follow done parts = some p) : PlainPath links p := by
  induction parts generalizing done with
  | nil =>
    cases h
    exact hdone
  | cons part parts ih =>
    rw [walk] at h
    split_ifs at h with hdots
    · exact ih (hdone.of_prefix (List.dropLast_prefix done)) h
    · cases hlink : links (done ++ [part]) with
      | none =>
        rw [hlink] at h
        exact ih (hdone.concat hdots hlink) h
      | some target =>
        rw [hlink] at h
        refine hfollow _ _ p ?_ h
        split_ifs
        · exact .nil
        · exact hdone

lemma resolveParts_plain {n : ℕ} {done : FilePath} {parts : List String} {p : FilePath}
    (hdone : PlainPath links done) (h : resolveParts links n done parts = some p) :
    PlainPath links p := by
  induction n generalizing done parts p with
  | zero =>
    refine walk_plain ?_ hdone h
    intro _ _ _ _ h
    cases h
  | succ n ih =>
    refine walk_plain ?_ hdone h
    intro done parts p hdone h
    exact ih hdone h

/-- A walk goes along components that are no links and no `..` as it is told. -/
lemma walk_append_of_plain (follow : FilePath → List String → Option FilePath) {done : FilePath}
    {parts : List String} (h : PlainPath links (done ++ parts)) (more : List String) :
    walk links follow done (parts ++ more) = walk links follow (done ++ parts) more := by
  induction parts generalizing done with
  | nil => simp
  | cons part parts ih =>
    have hdots : part ≠ ".." := by
      rintro rfl
      exact h.1 (by simp)
    have hlink : links (done ++ [part]) = none := by
      refine h.2 _ ?_ (by simp)
      exact ⟨parts, by simp⟩
    rw [List.cons_append, walk, if_neg hdots, hlink]
    simp only
    rw [ih (by simpa using h)]
    simp

/-- A walk along more components first goes where the walk along fewer goes. -/
lemma walk_append {follow : FilePath → List String → Option FilePath} {more : List String}
    {reached : FilePath → Prop} {p : FilePath}
    (hfollow : ∀ done parts, follow done (parts ++ more) = some p →
      ∃ q, follow done parts = some q ∧ reached q)
    (hmore : ∀ q, walk links follow q more = some p → reached q) {done : FilePath} {parts : List String}
    (h : walk links follow done (parts ++ more) = some p) :
    ∃ q, walk links follow done parts = some q ∧ reached q := by
  induction parts generalizing done with
  | nil => exact ⟨done, rfl, hmore done h⟩
  | cons part parts ih =>
    rw [List.cons_append, walk] at h
    rw [walk]
    split_ifs at h ⊢ with hdots
    · exact ih h
    · cases hpart : links (done ++ [part]) with
      | none =>
        rw [hpart] at h
        exact ih h
      | some target =>
        rw [hpart] at h
        simp only [← List.append_assoc] at h
        exact hfollow _ _ h

lemma resolveParts_append {more : List String} {p : FilePath} {n : ℕ} {done : FilePath}
    {parts : List String} (h : resolveParts links n done (parts ++ more) = some p) :
    ∃ q, resolveParts links n done parts = some q ∧ ∃ m ≤ n, resolveParts links m q more = some p := by
  induction n generalizing done parts with
  | zero =>
    refine walk_append (fun _ _ h => ?_) (fun q hq => ⟨0, le_rfl, hq⟩) h
    cases h
  | succ n ih =>
    refine walk_append (fun done parts h => ?_) (fun q hq => ⟨n + 1, le_rfl, hq⟩) h
    obtain ⟨q, hq, m, hm, hmore⟩ := ih h
    exact ⟨q, hq, m, Nat.le_succ_of_le hm, hmore⟩

/-- A walk that may follow more links goes to the same place. -/
lemma walk_mono {follow follow' : FilePath → List String → Option FilePath} {p : FilePath}
    (hfollow : ∀ done parts, follow done parts = some p → follow' done parts = some p)
    {done : FilePath} {parts : List String} (h : walk links follow done parts = some p) :
    walk links follow' done parts = some p := by
  induction parts generalizing done with
  | nil => exact h
  | cons part parts ih =>
    rw [walk] at h ⊢
    split_ifs at h ⊢ with hdots
    · exact ih h
    · cases hpart : links (done ++ [part]) with
      | none =>
        rw [hpart] at h
        exact ih h
      | some target =>
        rw [hpart] at h
        exact hfollow _ _ h

lemma resolveParts_succ {n : ℕ} {done : FilePath} {parts : List String} {p : FilePath}
    (h : resolveParts links n done parts = some p) : resolveParts links (n + 1) done parts = some p := by
  induction n generalizing done parts with
  | zero =>
    refine walk_mono (fun _ _ h => ?_) h
    cases h
  | succ n ih => exact walk_mono (fun _ _ h => ih h) h

lemma resolveParts_mono {m n : ℕ} (hmn : m ≤ n) {done : FilePath} {parts : List String} {p : FilePath}
    (h : resolveParts links m done parts = some p) : resolveParts links n done parts = some p := by
  induction hmn with
  | refl => exact h
  | step _ ih => exact resolveParts_succ ih

end

variable {fs : FileSystem}

lemma resolve_plain {path : RawPath} {p : FilePath} (h : fs.resolve path = some p) :
    PlainPath fs.links p := by
  refine resolveParts_plain ?_ h
  split_ifs
  · exact .nil
  · exact fs.cwd_plain

/-- A path that is resolved stays as it is. -/
lemma resolve_ofPath {p : FilePath} (h : PlainPath fs.links p) : fs.resolve (.ofPath p) = some p := by
  have hwalk := walk_append_of_plain (resolveParts fs.links (maxLinks - 1))
    (List.nil_append p |>.symm ▸ h) ([] : List String)
  rw [List.append_nil, List.nil_append] at hwalk
  exact hwalk

/-- Resolving a directory first, and then a path in it. -/
lemma resolve_join_ofPath {path more : RawPath} {directory p : FilePath} (hmore : more.absolute = false)
    (hdirectory : fs.resolve path = some directory) (h : fs.resolve (path.join more) = some p) :
    fs.resolve ((RawPath.ofPath directory).join more) = some p := by
  simp only [RawPath.join, hmore, Bool.false_eq_true, if_false] at h ⊢
  obtain ⟨q, hq, m, hm, hp⟩ := resolveParts_append h
  rw [resolve] at hdirectory
  rw [hdirectory] at hq
  cases hq
  have hplain : PlainPath fs.links ([] ++ directory) := resolve_plain hdirectory
  have hwalk := walk_append_of_plain (resolveParts fs.links (maxLinks - 1)) hplain more.parts
  exact hwalk.trans (resolveParts_mono hm hp)

/-- An absolute path leads to the same place wherever one is. -/
lemma resolve_congr {fs' : FileSystem} {path : RawPath} (hlinks : fs'.links = fs.links)
    (h : path.absolute = true) : fs'.resolve path = fs.resolve path := by
  simp only [resolve, h, if_true, hlinks]

/-! ### Contents -/

/-- `path.is_file()` for a path that is resolved. -/
def isFile (fs : FileSystem) (p : FilePath) : Bool := (fs.files p).isSome

/-- `path.is_symlink()`. -/
def isSymlink (fs : FileSystem) (p : FilePath) : Bool := (fs.links p).isSome

/-- What `open` with `O_NOFOLLOW` reads: the directories above the file may be links, the file itself may
not, and it has to be a regular file. -/
def openNoFollow (fs : FileSystem) (p : FilePath) : Option Bytes := do
  let name ← p.getLast?
  let directory ← fs.resolve (.ofPath p.dropLast)
  if fs.isSymlink (directory ++ [name]) then none else fs.files (directory ++ [name])

/-- Where no link has changed, the file that is opened is the one that was resolved. -/
lemma openNoFollow_of_plain {p : FilePath} (h : PlainPath fs.links p) {content : Bytes}
    (hopen : fs.openNoFollow p = some content) : fs.files p = some content := by
  simp only [openNoFollow, Option.bind_eq_bind, Option.bind_eq_some_iff] at hopen
  obtain ⟨name, hname, directory, hdirectory, hread⟩ := hopen
  rw [resolve_ofPath (h.of_prefix (List.dropLast_prefix p)), Option.some.injEq] at hdirectory
  subst hdirectory
  rw [List.dropLast_append_getLast? name hname] at hread
  split_ifs at hread
  exact hread

/-- The state after `p` is written. -/
def write (fs : FileSystem) (p : FilePath) (content : Bytes) : FileSystem :=
  { fs with files := Function.update fs.files p (some content) }

/-- The state after `p` is removed. -/
def remove (fs : FileSystem) (p : FilePath) : FileSystem :=
  { fs with files := Function.update fs.files p none }

@[simp] lemma resolve_write (p : FilePath) (content : Bytes) (path : RawPath) :
    (fs.write p content).resolve path = fs.resolve path := rfl

@[simp] lemma resolve_remove (p : FilePath) (path : RawPath) :
    (fs.remove p).resolve path = fs.resolve path := rfl

@[simp] lemma links_write (p : FilePath) (content : Bytes) : (fs.write p content).links = fs.links := rfl

@[simp] lemma links_remove (p : FilePath) : (fs.remove p).links = fs.links := rfl

@[simp] lemma files_write_self (p : FilePath) (content : Bytes) :
    (fs.write p content).files p = some content := Function.update_self ..

lemma files_write_of_ne {p q : FilePath} (h : q ≠ p) (content : Bytes) :
    (fs.write p content).files q = fs.files q := Function.update_of_ne h ..

/-- Writing a file and removing it changes nothing where there was no file. -/
lemma remove_write {p : FilePath} (h : fs.files p = none) (content : Bytes) :
    (fs.write p content).remove p = fs := by
  have hfiles : Function.update (Function.update fs.files p (some content)) p none = fs.files := by
    rw [Function.update_idem, ← h, Function.update_eq_self]
  simp only [write, remove, hfiles]

lemma remove_of_absent {p : FilePath} (h : fs.files p = none) : fs.remove p = fs := by
  have hfiles : Function.update fs.files p none = fs.files := by
    rw [← h, Function.update_eq_self]
  simp only [remove, hfiles]

/-- The state after several writes. -/
def writeAll (fs : FileSystem) (writes : List (FilePath × Bytes)) : FileSystem :=
  writes.foldl (fun fs w => fs.write w.1 w.2) fs

/-- The content that the last write to `p` leaves there. -/
def lastWritten (writes : List (FilePath × Bytes)) (p : FilePath) : Option Bytes :=
  writes.foldl (fun last w => if p = w.1 then some w.2 else last) none

lemma files_writeAll (writes : List (FilePath × Bytes)) (p : FilePath) :
    (fs.writeAll writes).files p = (lastWritten writes p).or (fs.files p) := by
  induction writes using List.reverseRecOn with
  | nil => rfl
  | append_singleton writes w ih =>
    rw [writeAll, List.foldl_append, List.foldl_cons, List.foldl_nil] at *
    rw [lastWritten, List.foldl_append, List.foldl_cons, List.foldl_nil]
    split_ifs with hp
    · subst hp
      simp
    · rw [files_write_of_ne hp]
      exact ih

end FileSystem

/-! ### Computations -/

/-- A computation that may raise, with the file system as its state. -/
def Io (α : Type) : Type := FileSystem → Except String α × FileSystem

namespace Io

variable {α β : Type}

instance : Monad Io where
  pure a := fun fs => (.ok a, fs)
  bind x f := fun fs =>
    match x fs with
    | (.ok a, fs) => f a fs
    | (.error e, fs) => (.error e, fs)

/-- Reads the state. -/
def read : Io FileSystem := fun fs => (.ok fs, fs)

def modify (f : FileSystem → FileSystem) : Io Unit := fun fs => (.ok (), f fs)

def ofExcept (x : Except String α) : Io α := fun fs => (x, fs)

def raise (message : String) : Io α := fun fs => (.error message, fs)

lemma of_bind_eq_ok {x : Io α} {f : α → Io β} {b : β} {fs fs' : FileSystem}
    (h : (x >>= f) fs = (.ok b, fs')) : ∃ a fs₁, x fs = (.ok a, fs₁) ∧ f a fs₁ = (.ok b, fs') := by
  cases hx : x fs with
  | mk result fs₁ =>
    change (match x fs with
      | (.ok a, fs) => f a fs
      | (.error e, fs) => (.error e, fs)) = (.ok b, fs') at h
    rw [hx] at h
    cases result with
    | error e => cases h
    | ok a => exact ⟨a, fs₁, rfl, h⟩

lemma bind_of_ok {x : Io α} {f : α → Io β} {a : α} {fs fs₁ : FileSystem} (h : x fs = (.ok a, fs₁)) :
    (x >>= f) fs = f a fs₁ := by
  change (match x fs with
    | (.ok a, fs) => f a fs
    | (.error e, fs) => (.error e, fs)) = f a fs₁
  rw [h]

lemma bind_of_error {x : Io α} {f : α → Io β} {e : String} {fs fs₁ : FileSystem}
    (h : x fs = (.error e, fs₁)) : (x >>= f) fs = (.error e, fs₁) := by
  change (match x fs with
    | (.ok a, fs) => f a fs
    | (.error e, fs) => (.error e, fs)) = (.error e, fs₁)
  rw [h]

@[simp] lemma bind_read (f : FileSystem → Io β) (fs : FileSystem) : (read >>= f) fs = f fs fs := rfl

@[simp] lemma bind_modify (g : FileSystem → FileSystem) (f : Unit → Io β) (fs : FileSystem) :
    (modify g >>= f) fs = f () (g fs) := rfl

@[simp] lemma bind_ofExcept_ok (a : α) (f : α → Io β) (fs : FileSystem) :
    (ofExcept (.ok a) >>= f) fs = f a fs := rfl

@[simp] lemma bind_ofExcept_error (e : String) (f : α → Io β) (fs : FileSystem) :
    (ofExcept (.error e) >>= f) fs = (.error e, fs) := rfl

lemma pure_eq_ok {a b : α} {fs fs' : FileSystem} :
    (pure a : Io α) fs = (.ok b, fs') ↔ a = b ∧ fs = fs' := by
  change ((.ok a, fs) : Except String α × FileSystem) = (.ok b, fs') ↔ _
  simp

lemma read_eq_ok {fs s fs' : FileSystem} : read fs = (.ok s, fs') ↔ fs = s ∧ fs = fs' := by
  simp [read]

lemma modify_eq_ok {f : FileSystem → FileSystem} {fs fs' : FileSystem} {a : Unit} :
    modify f fs = (.ok a, fs') ↔ f fs = fs' := by
  simp [modify]

lemma ofExcept_eq_ok {x : Except String α} {a : α} {fs fs' : FileSystem} :
    ofExcept x fs = (.ok a, fs') ↔ x = .ok a ∧ fs = fs' := by
  simp [ofExcept]

/-! ### Invariants of a computation, whether it returns or raises -/

/-- A computation that starts in `P` ends in `P`. -/
def Preserves (P : FileSystem → Prop) (x : Io α) : Prop := ∀ fs, P fs → P (x fs).2

namespace Preserves

variable {P : FileSystem → Prop}

/-- An invariant that the first part has set up. -/
lemma bind_of_state {x : Io α} {f : α → Io β} {fs : FileSystem} (hx : P (x fs).2)
    (hf : ∀ a, Preserves P (f a)) : P ((x >>= f) fs).2 := by
  change P (match x fs with
    | (.ok a, fs) => f a fs
    | (.error e, fs) => (.error e, fs)).2
  cases hx' : x fs with
  | mk result fs₁ =>
    rw [hx'] at hx
    cases result with
    | error e => exact hx
    | ok a => exact hf a fs₁ hx

lemma bind {x : Io α} {f : α → Io β} (hx : Preserves P x) (hf : ∀ a, Preserves P (f a)) :
    Preserves P (x >>= f) := by
  intro fs hfs
  exact bind_of_state (hx fs hfs) hf

/-- What a computation reads satisfies the invariant. -/
lemma bind_read {f : FileSystem → Io β} (hf : ∀ fs, P fs → Preserves P (f fs)) :
    Preserves P (read >>= f) := by
  intro fs hfs
  exact hf fs hfs fs hfs

lemma pure (a : α) : Preserves P (Pure.pure a : Io α) := fun _ hfs => hfs

lemma ofExcept (x : Except String α) : Preserves P (Io.ofExcept x) := fun _ hfs => hfs

lemma raise (message : String) : Preserves P (Io.raise message : Io α) := fun _ hfs => hfs

lemma modify {f : FileSystem → FileSystem} (hf : ∀ fs, P fs → P (f fs)) :
    Preserves P (Io.modify f) := hf

/-- Only a successful check lets the computation go on. -/
lemma bind_ofExcept {x : Except String α} {f : α → Io β}
    (hf : ∀ a, x = .ok a → Preserves P (f a)) : Preserves P (Io.ofExcept x >>= f) := by
  intro fs hfs
  cases x with
  | error e => exact hfs
  | ok a => exact hf a rfl fs hfs

end Preserves

end Io
