import Mathlib.Data.List.Induction
import Mathlib.Order.Lattice

/-!
# Sliding windows

A limiter keeps the times of the requests it has admitted in a queue. At a request the times at the
front that have expired are dropped, and the request is admitted if fewer than the limit are left.
Only the front is looked at and refused requests leave no trace, but where older times expire first
and what has expired stays so, the times that are left are all admitted times that have not expired.
-/

namespace SlidingWindow

variable {τ : Type*} (expired : τ → τ → Bool) (limit : ℕ)

/-- A request at the time `now`: whether it is admitted, and the new queue. -/
def request (queue : List τ) (now : τ) : Bool × List τ :=
  let kept := queue.dropWhile (expired now)
  if limit ≤ kept.length then (false, kept) else (true, kept ++ [now])

/-- A request, with the log of all times at which one was admitted. -/
def serve (s : List τ × List τ) (now : τ) : List τ × List τ :=
  let answer := request expired limit s.1 now
  (answer.2, if answer.1 then s.2 ++ [now] else s.2)

/-- The queue and the log after some requests. -/
def run (nows : List τ) : List τ × List τ := nows.foldl (serve expired limit) ([], [])

@[simp] lemma run_nil : run expired limit [] = ([], []) := rfl

lemma run_concat (nows : List τ) (now : τ) :
    run expired limit (nows ++ [now]) = serve expired limit (run expired limit nows) now := by
  rw [run, List.foldl_append]
  rfl

lemma serve_eq (s : List τ × List τ) (now : τ) :
    serve expired limit s now =
      if limit ≤ (s.1.dropWhile (expired now)).length then (s.1.dropWhile (expired now), s.2)
      else (s.1.dropWhile (expired now) ++ [now], s.2 ++ [now]) := by
  by_cases hfull : limit ≤ (s.1.dropWhile (expired now)).length
  · simp [serve, request, hfull]
  · simp [serve, request, hfull]

/-- The queue is never longer than the limit. -/
lemma length_run_le (nows : List τ) : (run expired limit nows).1.length ≤ limit := by
  induction nows using List.reverseRecOn with
  | nil => exact Nat.zero_le _
  | append_singleton nows now ih =>
    have hkept := (List.dropWhile_sublist (expired now) (l := (run expired limit nows).1)).length_le
    rw [run_concat, serve_eq]
    split_ifs with hfull
    · exact hkept.trans ih
    · rw [List.length_append, List.length_singleton]
      omega

variable [LinearOrder τ]

/-- Older times expire first, and what has expired stays so. -/
structure Expires : Prop where
  older : ∀ {now s t}, s ≤ t → expired now t = true → expired now s = true
  later : ∀ {now now' t}, now ≤ now' → expired now t = true → expired now' t = true

variable {expired limit}

/-- Where older times expire first, the expired ones are at the front. -/
lemma Expires.dropWhile_eq_filter (h : Expires expired) {now : τ} {times : List τ}
    (hsorted : times.Pairwise (· ≤ ·)) :
    times.dropWhile (expired now) = times.filter fun t => !expired now t := by
  induction times with
  | nil => rfl
  | cons t times ih =>
    rw [List.pairwise_cons] at hsorted
    cases ht : expired now t with
    | true => rw [List.dropWhile_cons_of_pos ht, ih hsorted.2, List.filter_cons_of_neg (by simp [ht])]
    | false =>
      rw [List.dropWhile_cons_of_neg (by simp [ht]), List.filter_cons_of_pos (by simp [ht])]
      have hfresh : ∀ s ∈ times, (!expired now s) = true := by
        intro s hs
        by_contra hexpired
        have := h.older (hsorted.1 s hs) (by simpa using hexpired)
        simp [ht] at this
      rw [List.filter_eq_self.mpr hfresh]

/-- What the queue is after some requests, of which none is later than `last`. -/
structure Tracked (expired : τ → τ → Bool) (last : τ) (s : List τ × List τ) : Prop where
  sorted : s.2.Pairwise (· ≤ ·)
  past : ∀ t ∈ s.2, t ≤ last
  queue : ∃ gone, s.2 = gone ++ s.1 ∧ ∀ t ∈ gone, expired last t = true

/-- At a later time the queue holds every admitted time that has not expired. -/
lemma Tracked.kept (h : Expires expired) {last now : τ} {s : List τ × List τ}
    (hs : Tracked expired last s) (hnow : last ≤ now) :
    s.1.dropWhile (expired now) = s.2.filter fun t => !expired now t := by
  obtain ⟨gone, hlog, hgone⟩ := hs.queue
  have hsorted := hs.sorted
  rw [hlog, List.pairwise_append] at hsorted
  have hnone : (gone.filter fun t => !expired now t) = [] := by
    rw [List.filter_eq_nil_iff]
    intro t ht
    simp [h.later hnow (hgone t ht)]
  rw [h.dropWhile_eq_filter hsorted.2.1, hlog, List.filter_append, hnone, List.nil_append]

lemma Tracked.serve (h : Expires expired) {last now : τ} {s : List τ × List τ}
    (hs : Tracked expired last s) (hnow : last ≤ now) :
    Tracked expired now (SlidingWindow.serve expired limit s now) := by
  obtain ⟨gone, hlog, hgone⟩ := hs.queue
  have hsplit : s.2 = (gone ++ s.1.takeWhile (expired now)) ++ s.1.dropWhile (expired now) := by
    rw [List.append_assoc, List.takeWhile_append_dropWhile, hlog]
  have hfront : ∀ t ∈ gone ++ s.1.takeWhile (expired now), expired now t = true := by
    intro t ht
    rcases List.mem_append.mp ht with ht | ht
    · exact h.later hnow (hgone t ht)
    · exact List.all_eq_true.mp List.all_takeWhile t ht
  have hpast : ∀ t ∈ s.2, t ≤ now := fun t ht => (hs.past t ht).trans hnow
  rw [serve_eq]
  split_ifs with hfull
  · exact ⟨hs.sorted, hpast, _, hsplit, hfront⟩
  · refine ⟨?_, ?_, _, ?_, hfront⟩
    · rw [List.pairwise_append]
      exact ⟨hs.sorted, List.pairwise_singleton _ _, by simpa using hpast⟩
    · simpa [or_imp, forall_and] using hpast
    · simp only
      rw [← List.append_assoc, ← hsplit]

/-- After requests in the order of time. -/
lemma tracked_run (h : Expires expired) {nows : List τ} {last : τ}
    (hsorted : (nows ++ [last]).Pairwise (· ≤ ·)) : Tracked expired last (run expired limit nows) := by
  induction nows using List.reverseRecOn generalizing last with
  | nil => exact ⟨.nil, by simp, [], rfl, by simp⟩
  | append_singleton nows now ih =>
    rw [List.pairwise_append] at hsorted
    obtain ⟨hnows, -, hlast⟩ := hsorted
    have hle : now ≤ last := hlast now (by simp) last (by simp)
    have htracked : Tracked expired now (serve expired limit (run expired limit nows) now) :=
      (ih hnows).serve h le_rfl
    obtain ⟨hs, hpast, gone, hlog, hgone⟩ := htracked
    rw [run_concat]
    exact ⟨hs, fun t ht => (hpast t ht).trans hle, gone, hlog, fun t ht => h.later hle (hgone t ht)⟩

/-- A request is admitted exactly if fewer than the limit of the admitted times have not expired. -/
theorem request_iff (h : Expires expired) {nows : List τ} {now : τ}
    (hsorted : (nows ++ [now]).Pairwise (· ≤ ·)) :
    (request expired limit (run expired limit nows).1 now).1 = true ↔
      (run expired limit nows).2.countP (fun t => !expired now t) < limit := by
  rw [request, (tracked_run h hsorted).kept h le_rfl, List.countP_eq_length_filter]
  split_ifs with hfull
  · simpa using hfull
  · simpa using hfull

/-- In a window in which no time has expired at a later one, at most the limit are admitted. -/
theorem countP_run_le (h : Expires expired) {inside : τ → Bool}
    (hinside : ∀ s t, inside s = true → inside t = true → s ≤ t → expired t s = false) {nows : List τ}
    (hsorted : nows.Pairwise (· ≤ ·)) : (run expired limit nows).2.countP inside ≤ limit := by
  induction nows using List.reverseRecOn with
  | nil => simp
  | append_singleton nows now ih =>
    have htracked : Tracked expired now (run expired limit nows) := tracked_run h hsorted
    have ih := ih (List.pairwise_append.mp hsorted).1
    rw [run_concat, serve]
    split_ifs with hadmitted
    · rw [request_iff h hsorted] at hadmitted
      rw [List.countP_append, List.countP_singleton]
      split_ifs with hnow
      · -- the times in the window have not expired now
        have hfresh : (run expired limit nows).2.countP inside ≤
            (run expired limit nows).2.countP fun t => !expired now t :=
          List.countP_mono_left fun t ht hin => by
            simp [hinside t now hin hnow (htracked.past t ht)]
        omega
      · exact ih
    · exact ih

end SlidingWindow
