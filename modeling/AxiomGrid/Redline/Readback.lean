import AxiomGrid.Lib.Pool
import AxiomGrid.Redline.Document

/-!
# The read-back oracle

`verify_docx_tracked_changes` of `kairo/oracles/docx_tracked_changes.py`, on the XML tree of the body
of a document: it extracts the revisions, and each expected change takes the first revision of its
kind out of a pool that has its text, its author and a date. Comments and processing instructions,
whose tags are no names, are left out of the tree, and so is the opening of the file.
-/

namespace AxiomGrid.Redline.Readback

/-! ### The tree of a document -/

/-- A tag or an attribute with its namespace. -/
structure QName where
  space : String
  name : String
  deriving DecidableEq

/-- An element; `text` is what stands before its first child. -/
inductive Xml where
  | elem (tag : QName) (attributes : List (QName × Str)) (text : Option Str) (children : List Xml)

/-- `_q(tag)`. -/
def q (tag : String) : QName := ⟨"http://schemas.openxmlformats.org/wordprocessingml/2006/main", tag⟩

namespace Xml

def tag : Xml → QName
  | elem tag _ _ _ => tag

def children : Xml → List Xml
  | elem _ _ _ children => children

/-- `elem.text or ""`. -/
def textOrEmpty : Xml → Str
  | elem _ _ text _ => text.getD []

/-- `elem.get(name)`. -/
def get (x : Xml) (name : QName) : Option Str :=
  match x with
  | elem _ attributes _ _ => attributes.lookup name

mutual

/-- `elem.iter()`: the element and all below it, in document order. -/
def iter : Xml → List Xml
  | elem tag attributes text children =>
    elem tag attributes text children :: iterAll children

def iterAll : List Xml → List Xml
  | [] => []
  | x :: xs => iter x ++ iterAll xs

end

/-- The texts of the elements with a tag, one after the other. -/
def joinTexts (x : Xml) (tag : QName) : Str :=
  (x.iter.filter fun e => e.tag = tag).flatMap textOrEmpty

mutual

/-- What `_walk` adds to the original and to the final stream for one child. -/
def walk (inIns inDel : Bool) : Xml → Str × Str
  | elem tag _ text children =>
    if tag.name = "ins" then walkAll true inDel children
    else if tag.name = "del" then walkAll inIns true children
    else if tag.name = "t" then
      (if !inIns && !inDel then text.getD [] else [], if !inDel then text.getD [] else [])
    else if tag.name = "delText" then (text.getD [], [])
    else walkAll inIns inDel children

/-- `_walk`. -/
def walkAll (inIns inDel : Bool) : List Xml → Str × Str
  | [] => ([], [])
  | x :: xs =>
    ((walk inIns inDel x).1 ++ (walkAll inIns inDel xs).1,
      (walk inIns inDel x).2 ++ (walkAll inIns inDel xs).2)

end

/-- `reconstruct_original_and_final`. -/
def reconstruct (nfc : Nfc) (body : Xml) : Str × Str :=
  let streams := (body.iter.filter fun e => e.tag = q "p").map fun p => walkAll false false p.children
  (norm nfc (Str.joinLines (streams.map Prod.fst)), norm nfc (Str.joinLines (streams.map Prod.snd)))

end Xml

/-! ### Revisions and expected changes -/

/-- `Revision.kind`. -/
inductive Kind where
  | ins
  | del
  deriving DecidableEq

/-- `Revision`. -/
structure Revision where
  kind : Kind
  text : Str
  author : Option Str
  date : Option Str
  deriving DecidableEq

/-- The revision of an element, if it is one. -/
def revision? (x : Xml) : Option Revision :=
  if x.tag.name = "ins" then some ⟨.ins, x.joinTexts (q "t"), x.get (q "author"), x.get (q "date")⟩
  else if x.tag.name = "del" then
    some ⟨.del, x.joinTexts (q "delText"), x.get (q "author"), x.get (q "date")⟩
  else none

/-- `extract_revisions`. -/
def extractRevisions (body : Xml) : List Revision := body.iter.filterMap revision?

/-- An entry of `expected_changes`; `none` is a key that is missing, or the value `None`. -/
structure Change where
  oldText : Option Str
  newText : Option Str
  author : Option Str
  deriving DecidableEq

namespace Change

/-- `ch.get("old", "") or ""`. -/
def old (ch : Change) : Str := ch.oldText.getD []

/-- `ch.get("new", "") or ""`. -/
def new (ch : Change) : Str := ch.newText.getD []

end Change

/-- The assertions that may fail, with what their messages are made of. -/
inductive Failure where
  /-- "expected_changes must be a non-empty list of changes" -/
  | noChanges
  /-- "… revision for … is missing a w:author attribute" -/
  | missingAuthor (kind : Kind) (want : Str)
  /-- "… revision for … is missing a w:date attribute" -/
  | missingDate (kind : Kind) (want : Str)
  /-- "expected … tracked revision with text … (author=…) not found in …" -/
  | notFound (kind : Kind) (want : Str) (author : Option Str)
  /-- "change … specifies neither 'old' nor 'new'" -/
  | emptyChange (change : Change)
  /-- "unintended tracked revisions present: …" -/
  | extraRevisions (extra : List (Kind × Str))
  /-- "rejecting changes did not recover the original text: …" -/
  | originalText (expected got : Str)
  /-- "accepting changes did not produce the expected final text: …" -/
  | finalText (expected got : Str)
  deriving DecidableEq

/-- The keyword arguments with their defaults. -/
structure Options where
  requireAuthor : Bool := true
  requireDate : Bool := true
  forbidExtraRevisions : Bool := true
  originalText : Option Str := none
  finalText : Option Str := none

/-! ### The oracle -/

/-- `not (value and value.strip())`. -/
def isBlank : Option Str → Bool
  | none => true
  | some s => Str.strip s = []

section

variable (nfc : Nfc) (options : Options)

/-- Whether `_match` takes a revision, goes on, or raises. -/
def matchTest (want : Str) (kind : Kind) (author : Option Str) (r : Revision) :
    Except Failure Bool :=
  if norm nfc r.text ≠ norm nfc want then .ok false
  else if options.requireAuthor && isBlank r.author then .error (.missingAuthor kind want)
  else if ∃ a ∈ author, norm nfc (r.author.getD []) ≠ norm nfc a then .ok false
  else if options.requireDate && isBlank r.date then .error (.missingDate kind want)
  else .ok true

/-- `_match`: the pool without the revision that was found. -/
def matchRevision (pool : List Revision) (want : Str) (kind : Kind) (author : Option Str) :
    Except Failure (List Revision) := do
  match ← Pool.take (matchTest nfc options want kind author) pool with
  | some rest => .ok rest
  | none => .error (.notFound kind want author)

/-- One side of a change: a text that is not empty is taken out of the pool. -/
def matchSide (pool : List Revision) (text : Str) (kind : Kind) (author : Option Str) :
    Except Failure (List Revision) :=
  if text ≠ [] then matchRevision nfc options pool text kind author else .ok pool

/-- `ins_pool` and `del_pool`. -/
structure Pools where
  inss : List Revision
  dels : List Revision

/-- One turn of the loop over the expected changes. -/
def matchChange (pools : Pools) (ch : Change) : Except Failure Pools :=
  if ch.old = [] ∧ ch.new = [] then .error (.emptyChange ch)
  else do
    let dels ← matchSide nfc options pools.dels ch.old .del ch.author
    let inss ← matchSide nfc options pools.inss ch.new .ins ch.author
    .ok ⟨inss, dels⟩

/-- The revisions of one kind. -/
def ofKind (kind : Kind) (revs : List Revision) : List Revision :=
  revs.filter fun r => r.kind = kind

/-- The comparison of the texts that are recovered. -/
def checkTexts (body : Xml) : Except Failure Bool :=
  let recovered := body.reconstruct nfc
  match options.originalText.filter fun t => recovered.1 ≠ norm nfc t with
  | some t => .error (.originalText (norm nfc t) recovered.1)
  | none =>
    match options.finalText.filter fun t => recovered.2 ≠ norm nfc t with
    | some t => .error (.finalText (norm nfc t) recovered.2)
    | none => .ok true

/-- `verify_docx_tracked_changes`. -/
def verifyDocxTrackedChanges (body : Xml) (changes : List Change) : Except Failure Bool :=
  if changes = [] then .error .noChanges
  else do
    let revs := extractRevisions body
    let pools ← changes.foldlM (matchChange nfc options) ⟨ofKind .ins revs, ofKind .del revs⟩
    if options.forbidExtraRevisions && !(pools.inss.isEmpty && pools.dels.isEmpty) then
      .error (.extraRevisions ((pools.inss ++ pools.dels).map fun r => (r.kind, r.text)))
    else checkTexts nfc options body

end

/-! ### What is accepted -/

section

variable (nfc : Nfc)

/-- The normalised text of a revision. -/
def normText (r : Revision) : Str := norm nfc r.text

/-- The normalised texts, of those that are not empty, on one side of the changes. -/
def wanted (side : Change → Str) (changes : List Change) : List Str :=
  ((changes.map side).filter fun t => t ≠ []).map (norm nfc)

/-- A revision with an author, the named one up to normalisation if one is named, and a date. -/
structure Marked (author : Option Str) (r : Revision) : Prop where
  author_nonblank : isBlank r.author = false
  author_named : ∀ a ∈ author, norm nfc (r.author.getD []) = norm nfc a
  date_nonblank : isBlank r.date = false

/-- Some revisions were taken out of a pool for the wanted texts. -/
def Taken (author : Option Str) (pool rest : List Revision) (wants : List Str) : Prop :=
  ∃ taken, pool.Perm (taken ++ rest) ∧ taken.map (normText nfc) = wants ∧
    ∀ r ∈ taken, Marked nfc author r

variable {nfc} {author : Option Str}

lemma matchTest_of_marked {r : Revision} (h : Marked nfc author r) (want : Str) (kind : Kind) :
    matchTest nfc {} want kind author r = .ok (decide (normText nfc r = norm nfc want)) := by
  by_cases htext : norm nfc r.text = norm nfc want
  · simp only [matchTest, normText, htext, h.author_nonblank, h.date_nonblank]
    simpa using h.author_named
  · simp [matchTest, normText, htext]

lemma marked_of_matchTest {r : Revision} {want : Str} {kind : Kind}
    (h : matchTest nfc {} want kind author r = .ok true) :
    normText nfc r = norm nfc want ∧ Marked nfc author r := by
  rw [matchTest] at h
  split_ifs at h with htext hauthor hnamed hdate
  · cases h
  · cases h
  · simp only [Bool.true_and, Bool.not_eq_true] at hauthor hdate
    refine ⟨not_not.mp htext, hauthor, ?_, hdate⟩
    intro a ha
    by_contra hne
    exact hnamed ⟨a, ha, hne⟩

lemma Taken.trans {pool mid rest : List Revision} {wants wants' : List Str}
    (h : Taken nfc author pool mid wants) (h' : Taken nfc author mid rest wants') :
    Taken nfc author pool rest (wants ++ wants') := by
  obtain ⟨taken, hperm, htexts, hmarked⟩ := h
  obtain ⟨taken', hperm', htexts', hmarked'⟩ := h'
  refine ⟨taken ++ taken', ?_, ?_, ?_⟩
  · rw [List.append_assoc]
    exact hperm.trans (hperm'.append_left taken)
  · rw [List.map_append, htexts, htexts']
  · intro r hr
    exact (List.mem_append.mp hr).elim (hmarked r) (hmarked' r)

/-- A pool that is used up held the wanted texts. -/
lemma Taken.all {pool : List Revision} {wants : List Str} (h : Taken nfc author pool [] wants) :
    (pool.map (normText nfc)).Perm wants ∧ ∀ r ∈ pool, Marked nfc author r := by
  obtain ⟨taken, hperm, htexts, hmarked⟩ := h
  rw [List.append_nil] at hperm
  refine ⟨htexts ▸ hperm.map (normText nfc), fun r hr => hmarked r (hperm.subset hr)⟩

/-- The texts that one side of a change wants. -/
def wants (nfc : Nfc) (text : Str) : List Str := if text ≠ [] then [norm nfc text] else []

lemma wanted_cons (side : Change → Str) (ch : Change) (changes : List Change) :
    wanted nfc side (ch :: changes) = wants nfc (side ch) ++ wanted nfc side changes := by
  by_cases h : side ch = [] <;> simp [wanted, wants, h]

lemma taken_of_matchSide {pool rest : List Revision} {text : Str} {kind : Kind}
    (h : matchSide nfc {} pool text kind author = .ok rest) :
    Taken nfc author pool rest (wants nfc text) := by
  rw [matchSide] at h
  rw [wants]
  split_ifs at h ⊢ with htext
  · rw [matchRevision] at h
    cases htake : Pool.take (matchTest nfc {} text kind author) pool with
    | error e =>
      rw [htake] at h
      cases h
    | ok found =>
      rw [htake] at h
      cases found with
      | none => cases h
      | some rest' =>
        cases h
        obtain ⟨r, hperm, hr⟩ := Pool.perm_of_take htake
        obtain ⟨htexts, hmarked⟩ := marked_of_matchTest hr
        refine ⟨[r], hperm, by rw [List.map_singleton, htexts], ?_⟩
        rw [List.forall_mem_singleton]
        exact hmarked
  · cases h
    exact ⟨[], .refl _, rfl, by simp⟩

lemma matchSide_ok {pool : List Revision} {text : Str} {others : List Str} (kind : Kind)
    (hmarked : ∀ r ∈ pool, Marked nfc author r)
    (hperm : (pool.map (normText nfc)).Perm (wants nfc text ++ others)) :
    ∃ rest, matchSide nfc {} pool text kind author = .ok rest ∧ (∀ r ∈ rest, Marked nfc author r) ∧
      (rest.map (normText nfc)).Perm others := by
  rw [wants] at hperm
  rw [matchSide]
  split_ifs at hperm ⊢ with htext
  · have htest : ∀ r ∈ pool, matchTest nfc {} text kind author r =
        .ok (decide (normText nfc r = norm nfc text)) :=
      fun r hr => matchTest_of_marked (hmarked r hr) text kind
    obtain ⟨rest, htake, hsub, hrest⟩ := Pool.exists_take htest hperm
    refine ⟨rest, ?_, fun r hr => hmarked r (hsub hr), hrest⟩
    rw [matchRevision, htake]
    rfl
  · exact ⟨pool, rfl, hmarked, hperm⟩

/-- The loop takes a marked revision for each wanted text. -/
lemma taken_of_foldlM {changes : List Change} {pools pools' : Pools}
    (hauthor : ∀ ch ∈ changes, ch.author = author)
    (h : changes.foldlM (matchChange nfc {}) pools = .ok pools') :
    (∀ ch ∈ changes, ch.old ≠ [] ∨ ch.new ≠ []) ∧
      Taken nfc author pools.dels pools'.dels (wanted nfc Change.old changes) ∧
      Taken nfc author pools.inss pools'.inss (wanted nfc Change.new changes) := by
  induction changes generalizing pools with
  | nil =>
    cases h
    refine ⟨by simp, ?_, ?_⟩
    · exact ⟨[], .refl _, rfl, by simp⟩
    · exact ⟨[], .refl _, rfl, by simp⟩
  | cons ch changes ih =>
    rw [List.forall_mem_cons] at hauthor
    rw [List.foldlM_cons, matchChange, hauthor.1] at h
    split_ifs at h with hempty
    · cases h
    · cases hdels : matchSide nfc {} pools.dels ch.old .del author with
      | error e =>
        rw [hdels] at h
        cases h
      | ok dels =>
        cases hinss : matchSide nfc {} pools.inss ch.new .ins author with
        | error e =>
          rw [hdels, hinss] at h
          cases h
        | ok inss =>
          rw [hdels, hinss] at h
          obtain ⟨hsome, htakenDels, htakenInss⟩ := ih hauthor.2 h
          rw [wanted_cons, wanted_cons, List.forall_mem_cons]
          refine ⟨⟨not_and_or.mp hempty, hsome⟩, ?_, ?_⟩
          · exact (taken_of_matchSide hdels).trans htakenDels
          · exact (taken_of_matchSide hinss).trans htakenInss

/-- On marked revisions with the wanted texts the loop empties the pools, in whatever order they
stand. -/
lemma foldlM_of_perm {changes : List Change} {pools : Pools}
    (hauthor : ∀ ch ∈ changes, ch.author = author)
    (hsome : ∀ ch ∈ changes, ch.old ≠ [] ∨ ch.new ≠ [])
    (hdels : ∀ r ∈ pools.dels, Marked nfc author r) (hinss : ∀ r ∈ pools.inss, Marked nfc author r)
    (hold : (pools.dels.map (normText nfc)).Perm (wanted nfc Change.old changes))
    (hnew : (pools.inss.map (normText nfc)).Perm (wanted nfc Change.new changes)) :
    changes.foldlM (matchChange nfc {}) pools = .ok ⟨[], []⟩ := by
  induction changes generalizing pools with
  | nil =>
    obtain ⟨inss, dels⟩ := pools
    obtain rfl : dels = [] := List.map_eq_nil_iff.mp hold.eq_nil
    obtain rfl : inss = [] := List.map_eq_nil_iff.mp hnew.eq_nil
    rfl
  | cons ch changes ih =>
    rw [List.forall_mem_cons] at hauthor hsome
    rw [wanted_cons] at hold hnew
    obtain ⟨dels, hdelsOk, hdels', hold'⟩ := matchSide_ok .del hdels hold
    obtain ⟨inss, hinssOk, hinss', hnew'⟩ := matchSide_ok .ins hinss hnew
    rw [List.foldlM_cons, matchChange, if_neg (not_and_or.mpr hsome.1), hauthor.1, hdelsOk, hinssOk]
    exact @ih ⟨inss, dels⟩ hauthor.2 hsome.2 hdels' hinss' hold' hnew'

end

/-- The document holds the wanted texts as its deletions and insertions, each once, all of them with an
author and a date. -/
structure Accepts (nfc : Nfc) (author : Option Str) (revs : List Revision) (changes : List Change) :
    Prop where
  deletions : ((ofKind .del revs).map (normText nfc)).Perm (wanted nfc Change.old changes)
  insertions : ((ofKind .ins revs).map (normText nfc)).Perm (wanted nfc Change.new changes)
  some_text : ∀ ch ∈ changes, ch.old ≠ [] ∨ ch.new ≠ []
  marked : ∀ r ∈ revs, Marked nfc author r

/-- With the default arguments, and changes that all name the same author or none, the oracle accepts
exactly the documents with the wanted revisions. -/
theorem verifyDocxTrackedChanges_iff (nfc : Nfc) (body : Xml) (changes : List Change)
    (author : Option Str) (hne : changes ≠ []) (hauthor : ∀ ch ∈ changes, ch.author = author) :
    verifyDocxTrackedChanges nfc {} body changes = .ok true ↔
      Accepts nfc author (extractRevisions body) changes := by
  rw [verifyDocxTrackedChanges, if_neg hne]
  constructor
  · intro h
    cases hloop : changes.foldlM (matchChange nfc {})
        ⟨ofKind .ins (extractRevisions body), ofKind .del (extractRevisions body)⟩ with
    | error e =>
      simp only [hloop] at h
      cases h
    | ok pools =>
      simp only [hloop, bind, Except.bind] at h
      split_ifs at h with hextra
      obtain ⟨inss, dels⟩ := pools
      obtain ⟨rfl, rfl⟩ : inss = [] ∧ dels = [] := by simpa using hextra
      obtain ⟨hsome, htakenDels, htakenInss⟩ := taken_of_foldlM hauthor hloop
      refine ⟨htakenDels.all.1, htakenInss.all.1, hsome, fun r hr => ?_⟩
      cases hkind : r.kind with
      | ins => exact htakenInss.all.2 r (by simp [ofKind, hr, hkind])
      | del => exact htakenDels.all.2 r (by simp [ofKind, hr, hkind])
  · intro h
    have hmarked (kind : Kind) : ∀ r ∈ ofKind kind (extractRevisions body), Marked nfc author r :=
      fun r hr => h.marked r (List.mem_of_mem_filter hr)
    have hloop : changes.foldlM (matchChange nfc {})
        ⟨ofKind .ins (extractRevisions body), ofKind .del (extractRevisions body)⟩ = .ok ⟨[], []⟩ :=
      foldlM_of_perm hauthor h.some_text (hmarked .del) (hmarked .ins) h.deletions h.insertions
    simp only [hloop]
    rfl

/-! ### A document -/

/-- A body with one inserted word, by the given author. -/
def insertedBy (author : String) : Xml :=
  .elem (q "body") [] none [.elem (q "p") [] none [.elem (q "ins")
    [(q "author", author.toList), (q "date", "2024-01-01T00:00:00Z".toList)] none
    [.elem (q "r") [] none [.elem (q "t") [] (some "shall".toList) []]]]]

/-- The change that expects it. -/
def expectedInsertion : Change := ⟨none, some "shall".toList, some "Kairo Legal".toList⟩

lemma verify_insertedBy :
    verifyDocxTrackedChanges Nfc.ofNormalised {} (insertedBy "Kairo Legal") [expectedInsertion] =
      .ok true := by
  decide

theorem verifyDocxTrackedChanges_iff_insertion :
    [expectedInsertion] ≠ [] ∧
      Accepts Nfc.ofNormalised (some "Kairo Legal".toList)
        (extractRevisions (insertedBy "Kairo Legal")) [expectedInsertion] := by
  refine ⟨List.cons_ne_nil _ _, ?_⟩
  refine (verifyDocxTrackedChanges_iff Nfc.ofNormalised (insertedBy "Kairo Legal")
    [expectedInsertion] (some "Kairo Legal".toList) (List.cons_ne_nil _ _) ?_).mp verify_insertedBy
  rw [List.forall_mem_singleton]
  rfl

/-- The author of a revision may differ from the named one in its white space. -/
theorem verify_accepts_other_author :
    verifyDocxTrackedChanges Nfc.ofNormalised {} (insertedBy "Kairo  Legal") [expectedInsertion] =
        .ok true ∧
      (extractRevisions (insertedBy "Kairo  Legal")).map Revision.author =
        [some "Kairo  Legal".toList] ∧
      expectedInsertion.author ≠ some "Kairo  Legal".toList := by
  decide

end AxiomGrid.Redline.Readback
