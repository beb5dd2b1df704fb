import AxiomGrid.Lib.Champion
import AxiomGrid.Lib.Dict
import AxiomGrid.Lib.FloatOrder
import AxiomGrid.Pipeline.DataModel
import Mathlib.Data.Prod.Lex

/-!
# Merging the extractions of two devices

`merge_extractions` of `kairo/sync/sync_manager.py`. The local loop overwrites whatever a field held,
and only the remote loop compares. Two devices that merge each other's extractions agree exactly when
every field has one extraction that wins in both directions; then merging again changes nothing.
-/

namespace AxiomGrid.Sync

open Champion
open Pipeline (GroundingMethod)

/-- `_CASCADE_DEPTH`. -/
def cascadeDepth : GroundingMethod → ℕ
  | .visual => 4
  | .semantic => 3
  | .fuzzy => 2
  | .exact => 1
  | .block => 0

/-- An extraction as a manifest lists it. Its `method` is the value of a `GroundingMethod`. -/
structure Extraction where
  field : String
  value : String
  confidence : PyFloat
  method : GroundingMethod
  chunkId : String := ""
  deriving DecidableEq

/-- One remote extraction. -/
def mergeRemote (merged : Dict String Extraction) (ext : Extraction) : Dict String Extraction :=
  match merged.get? ext.field with
  | none => merged.set ext.field ext
  | some existing =>
    if PyFloat.lt existing.confidence ext.confidence then merged.set ext.field ext
    else if PyFloat.eq ext.confidence existing.confidence then
      if cascadeDepth existing.method < cascadeDepth ext.method then merged.set ext.field ext
      else merged
    else merged

/-- `merged` behind both loops. -/
def mergedDict (localExts remoteExts : List Extraction) : Dict String Extraction :=
  remoteExts.foldl mergeRemote (Dict.setAll [] Extraction.field localExts)

/-- `merge_extractions`. -/
def mergeExtractions (localExts remoteExts : List Extraction) : List Extraction :=
  (mergedDict localExts remoteExts).map Prod.snd

/-- The extraction a list holds for a field. -/
def extractionOf (field : String) (exts : List Extraction) : Option Extraction :=
  exts.find? fun ext => ext.field = field

/-- The extractions of one field. -/
def ofField (field : String) (exts : List Extraction) : List Extraction :=
  exts.filter fun ext => ext.field = field

/-- Two devices that merge each other's extractions hold the same extraction for every field, and
merging the result with either side, in either direction, changes none. -/
structure Converges (localExts remoteExts : List Extraction) : Prop where
  comm : ∀ field, extractionOf field (mergeExtractions localExts remoteExts) =
    extractionOf field (mergeExtractions remoteExts localExts)
  again : ∀ side ∈ [localExts, remoteExts], ∀ field,
    extractionOf field (mergeExtractions (mergeExtractions localExts remoteExts) side) =
        extractionOf field (mergeExtractions localExts remoteExts) ∧
      extractionOf field (mergeExtractions side (mergeExtractions localExts remoteExts)) =
        extractionOf field (mergeExtractions localExts remoteExts)

/-! ### The ranking -/

/-- The remote loop replaces `existing` by `ext`: a higher confidence, or the same and a deeper stage
of the cascade. -/
def Beats (ext existing : Extraction) : Prop :=
  PyFloat.lt existing.confidence ext.confidence = true ∨
    PyFloat.eq ext.confidence existing.confidence = true ∧
      cascadeDepth existing.method < cascadeDepth ext.method

instance (ext existing : Extraction) : Decidable (Beats ext existing) :=
  inferInstanceAs (Decidable (_ ∨ _))

/-- The same confidence and the same depth. -/
def Ties (ext existing : Extraction) : Prop :=
  PyFloat.eq ext.confidence existing.confidence = true ∧
    cascadeDepth ext.method = cascadeDepth existing.method

/-- The place of an extraction whose confidence is a number. -/
def rank (ext : Extraction) : WithBot (WithTop ℚ) ×ₗ ℕ :=
  toLex (ext.confidence.place, cascadeDepth ext.method)

lemma beats_iff {ext existing : Extraction} : Beats ext existing ↔
    ext.confidence ≠ .nan ∧ existing.confidence ≠ .nan ∧ rank existing < rank ext := by
  rw [Beats, PyFloat.lt_iff, PyFloat.eq_iff, rank, rank, Prod.Lex.toLex_lt_toLex]
  constructor
  · rintro (⟨hexisting, hext, hlt⟩ | ⟨⟨hext, hexisting, heq⟩, hdepth⟩)
    · exact ⟨hext, hexisting, .inl hlt⟩
    · exact ⟨hext, hexisting, .inr ⟨heq.symm, hdepth⟩⟩
  · rintro ⟨hext, hexisting, hlt | ⟨heq, hdepth⟩⟩
    · exact .inl ⟨hexisting, hext, hlt⟩
    · exact .inr ⟨⟨hext, hexisting, heq.symm⟩, hdepth⟩

lemma ties_iff {ext existing : Extraction} : Ties ext existing ↔
    ext.confidence ≠ .nan ∧ existing.confidence ≠ .nan ∧ rank existing = rank ext := by
  rw [Ties, PyFloat.eq_iff, rank, rank, toLex_inj, Prod.mk.injEq]
  constructor
  · rintro ⟨⟨hext, hexisting, heq⟩, hdepth⟩
    exact ⟨hext, hexisting, heq.symm, hdepth.symm⟩
  · rintro ⟨hext, hexisting, heq, hdepth⟩
    exact ⟨⟨hext, hexisting, heq.symm⟩, hdepth.symm⟩

/-- An extraction whose confidence is NaN is out of the race. -/
lemma ranking : Ranking Beats Ties where
  irrefl a h := lt_irrefl _ (beats_iff.mp h).2.2
  trans h h' := by
    rw [beats_iff] at h h' ⊢
    exact ⟨h.1, h'.2.1, h'.2.2.trans h.2.2⟩
  of_ties h h' := by
    rw [ties_iff] at h
    rw [beats_iff] at h' ⊢
    exact ⟨h.1, h'.2.1, h.2.2 ▸ h'.2.2⟩
  total {a b c} h h' := by
    rw [beats_iff] at h h'
    rw [beats_iff, ties_iff, beats_iff]
    obtain hlt | heq | hgt := lt_trichotomy (rank a) (rank b)
    · exact .inr (.inr ⟨h'.1, h.1, hlt⟩)
    · exact .inr (.inl ⟨h.1, h'.1, heq.symm⟩)
    · exact .inl ⟨h.1, h'.1, hgt⟩

/-! ### One field -/

lemma mergeRemote_of_some {merged : Dict String Extraction} {ext existing : Extraction}
    (h : merged.get? ext.field = some existing) :
    mergeRemote merged ext =
      if Beats ext existing then merged.set ext.field ext else merged := by
  simp only [mergeRemote, h]
  by_cases hbeats : Beats ext existing
  · rw [if_pos hbeats]
    obtain hlt | ⟨heq, hdepth⟩ := hbeats
    · rw [if_pos hlt]
    · rw [if_pos heq, if_pos hdepth, ite_self]
  · rw [if_neg hbeats]
    rw [Beats, not_or, not_and] at hbeats
    rw [if_neg hbeats.1]
    split_ifs with heq hdepth
    · exact absurd hdepth (hbeats.2 heq)
    · rfl
    · rfl

lemma get?_mergeRemote_of_ne {merged : Dict String Extraction} {ext : Extraction} {field : String}
    (h : ext.field ≠ field) : (mergeRemote merged ext).get? field = merged.get? field := by
  cases hget : merged.get? ext.field with
  | none => simp only [mergeRemote, hget, Dict.get?_set, if_neg h]
  | some existing =>
    rw [mergeRemote_of_some hget]
    split_ifs
    · rw [Dict.get?_set, if_neg h]
    · rfl

lemma get?_mergeRemote (merged : Dict String Extraction) (ext : Extraction) :
    (mergeRemote merged ext).get? ext.field =
      some (((merged.get? ext.field).map fun existing =>
        if Beats ext existing then ext else existing).getD ext) := by
  cases hget : merged.get? ext.field with
  | none => simp [mergeRemote, hget, Dict.get?_set]
  | some existing =>
    rw [mergeRemote_of_some hget]
    split_ifs with hbeats
    · simp [Dict.get?_set, hbeats]
    · simp [hget, hbeats]

/-- The remote extractions of a field challenge the one that is there. -/
lemma get?_foldl_mergeRemote (merged : Dict String Extraction) (exts : List Extraction)
    (field : String) :
    (exts.foldl mergeRemote merged).get? field =
      ((merged.get? field).or (ofField field exts).head?).map fun start =>
        champion Beats start (ofField field exts) := by
  induction exts generalizing merged with
  | nil => simp [ofField, champion]
  | cons ext exts ih =>
    rw [List.foldl_cons, ih, ofField, ofField, List.filter_cons]
    by_cases hfield : ext.field = field
    · subst hfield
      rw [get?_mergeRemote, if_pos (by simp), List.head?_cons]
      cases merged.get? ext.field with
      | none => simp [champion]
      | some existing => simp [champion]
    · rw [get?_mergeRemote_of_ne hfield, if_neg (by simpa using hfield)]

lemma get?_mergedDict (localExts remoteExts : List Extraction) (field : String) :
    (mergedDict localExts remoteExts).get? field =
      merged Beats (ofField field localExts) (ofField field remoteExts) := by
  rw [mergedDict, get?_foldl_mergeRemote, Dict.get?_setAll, merged, incumbent, Dict.get?, Option.or_none]
  rfl

/-! ### The merged list -/

/-- Every extraction stands under its field, and every field once. -/
structure Keyed (d : Dict String Extraction) : Prop where
  key : ∀ entry ∈ d, entry.2.field = entry.1
  nodup : (d.map Prod.fst).Nodup

lemma Keyed.set {d : Dict String Extraction} (h : Keyed d) (ext : Extraction) :
    Keyed (d.set ext.field ext) := by
  refine ⟨fun entry hentry => ?_, Dict.nodup_set h.nodup _ _⟩
  obtain rfl | hentry := Dict.mem_set hentry
  · rfl
  · exact h.key entry hentry

lemma Keyed.mergeRemote {d : Dict String Extraction} (h : Keyed d) (ext : Extraction) :
    Keyed (mergeRemote d ext) := by
  cases hget : d.get? ext.field with
  | none => simpa only [Sync.mergeRemote, hget] using h.set ext
  | some existing =>
    rw [mergeRemote_of_some hget]
    split_ifs
    · exact h.set ext
    · exact h

lemma keyed_mergedDict (localExts remoteExts : List Extraction) :
    Keyed (mergedDict localExts remoteExts) := by
  refine List.foldlRecOn remoteExts Sync.mergeRemote ?_ fun d hd ext _ => hd.mergeRemote ext
  exact List.foldlRecOn localExts _ ⟨by simp, .nil⟩ fun d hd ext _ => hd.set ext

/-- The merged list holds what the dictionary holds. -/
lemma Keyed.ofField {d : Dict String Extraction} (h : Keyed d) (field : String) :
    ofField field (d.map Prod.snd) = (d.get? field).toList := by
  obtain ⟨hkey, hnodup⟩ := h
  induction d with
  | nil => rfl
  | cons entry d ih =>
    rw [List.forall_mem_cons] at hkey
    rw [List.map_cons, List.nodup_cons] at hnodup
    have hrest := ih hkey.2 hnodup.2
    rw [Sync.ofField] at hrest ⊢
    rw [List.map_cons, List.filter_cons, hrest, Dict.get?, hkey.1]
    by_cases hentry : entry.1 = field
    · have hnone : Dict.get? d field = none :=
        Dict.get?_eq_none fun other hother heq =>
          hnodup.1 (List.mem_map.mpr ⟨other, hother, heq.trans hentry.symm⟩)
      rw [if_pos hentry, if_pos (by simpa using hentry), hnone]
      rfl
    · rw [if_neg hentry, if_neg (by simpa using hentry)]

lemma ofField_mergeExtractions (localExts remoteExts : List Extraction) (field : String) :
    ofField field (mergeExtractions localExts remoteExts) =
      (merged Beats (ofField field localExts) (ofField field remoteExts)).toList := by
  rw [mergeExtractions, (keyed_mergedDict _ _).ofField, get?_mergedDict]

lemma extractionOf_mergeExtractions (localExts remoteExts : List Extraction) (field : String) :
    extractionOf field (mergeExtractions localExts remoteExts) =
      merged Beats (ofField field localExts) (ofField field remoteExts) := by
  rw [extractionOf, ← List.head?_filter, ← ofField, ofField_mergeExtractions, Option.head?_toList]

/-! ### Convergence -/

/-- What both orders of merging agree on is not changed by merging again. -/
lemma merged_toList {xs ys : List Extraction} (h : merged Beats xs ys = merged Beats ys xs) :
    merged Beats (merged Beats xs ys).toList xs = merged Beats xs ys ∧
      merged Beats xs (merged Beats xs ys).toList = merged Beats xs ys := by
  cases hmerged : merged Beats xs ys with
  | none =>
    rw [merged, Option.map_eq_none_iff, incumbent, Option.or_eq_none_iff,
      List.getLast?_eq_none_iff, List.head?_eq_none_iff] at hmerged
    rw [hmerged.1]
    exact ⟨rfl, rfl⟩
  | some e => exact merged_again ranking hmerged (h ▸ hmerged)

/-- Two devices converge exactly when for every field one extraction wins on both of them: none of
either side beats it, and on each device it is the one that was there (the last of that side, or the
first of the other one where this side has none) or it beats that one and comes first among those it
ties with. -/
theorem converges_iff (localExts remoteExts : List Extraction) :
    Converges localExts remoteExts ↔ ∀ field start start',
      incumbent (ofField field localExts) (ofField field remoteExts) = some start →
      incumbent (ofField field remoteExts) (ofField field localExts) = some start' →
        ∃ e, Wins Beats Ties start (ofField field remoteExts) e ∧
          Wins Beats Ties start' (ofField field localExts) e := by
  simp only [← merged_comm_iff ranking]
  constructor
  · intro h field
    simpa only [extractionOf_mergeExtractions] using h.comm field
  · intro h
    refine ⟨fun field => ?_, fun side hside field => ?_⟩
    · simpa only [extractionOf_mergeExtractions] using h field
    · simp only [extractionOf_mergeExtractions, ofField_mergeExtractions]
      simp only [List.mem_cons, List.not_mem_nil, or_false] at hside
      obtain rfl | rfl := hside
      · exact merged_toList (h field)
      · rw [h field]
        exact merged_toList (h field).symm

namespace Sample

/-- A device that read a field twice, the second time with less confidence. -/
def vendorTwice : List Extraction :=
  [⟨"vendor", "A", .fin (9 / 10), .exact, ""⟩, ⟨"vendor", "B", .fin (1 / 10), .exact, ""⟩]

/-- The other device takes the first reading, and this one keeps the second. -/
theorem mergeExtractions_vendorTwice :
    extractionOf "vendor" (mergeExtractions vendorTwice []) =
        some ⟨"vendor", "B", .fin (1 / 10), .exact, ""⟩ ∧
      extractionOf "vendor" (mergeExtractions [] vendorTwice) =
        some ⟨"vendor", "A", .fin (9 / 10), .exact, ""⟩ := by
  decide +kernel

end Sample

end AxiomGrid.Sync
