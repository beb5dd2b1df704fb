import AxiomGrid.Lib.SlidingWindow
import Mathlib.Data.Int.Basic
import Mathlib.Tactic.Common

/-!
# Rate limits

`RateLimiter` of `phantom-core/src/cua/cua_gate.rs` and `SessionGovernor` of
`phantom-core/src/governance/mod.rs`. An `Instant` is a number of nanoseconds, and `duration_since` is
zero for a later one. The critical section of the governor's lock is one step. Both are sliding
windows; at the boundary of the window the limiter has forgotten an action, the governor has not.
-/

namespace AxiomGrid.Phantom

/-- `Duration::from_secs`, in nanoseconds. -/
def fromSecs (secs : UInt64) : ℕ := secs.toNat * 1000000000

structure RateLimiter where
  /-- The times of the recent actions, oldest first. -/
  timestamps : List ℕ
  maxPerWindow : UInt32
  windowSeconds : UInt64

namespace RateLimiter

def new (max : UInt32) (seconds : UInt64) : RateLimiter := ⟨[], max, seconds⟩

/-- `check_and_increment`, at the time `now`. The length is compared as a `u32`. -/
def checkAndIncrement (self : RateLimiter) (now : ℕ) : Bool × RateLimiter :=
  let window := fromSecs self.windowSeconds
  let timestamps := self.timestamps.dropWhile fun front => window ≤ now - front
  if self.maxPerWindow ≤ UInt32.ofNat timestamps.length then (false, { self with timestamps })
  else (true, { self with timestamps := timestamps ++ [now] })

/-- A call, with the times of the calls that were admitted. -/
def call (s : RateLimiter × List ℕ) (now : ℕ) : RateLimiter × List ℕ :=
  let answer := s.1.checkAndIncrement now
  (answer.2, if answer.1 then s.2 ++ [now] else s.2)

/-- The limiter after some calls, and the times of those that were admitted. -/
def calls (self : RateLimiter) (nows : List ℕ) : RateLimiter × List ℕ :=
  nows.foldl call (self, [])

end RateLimiter

structure SessionGovernor where
  recentStarts : List ℕ
  maxPerMinute : ℕ

namespace SessionGovernor

def new (maxPerMinute : ℕ) : SessionGovernor := ⟨[], maxPerMinute⟩

/-- `check_and_record`, at the time `now`. -/
def checkAndRecord (self : SessionGovernor) (now : ℕ) : Bool × SessionGovernor :=
  let window := fromSecs 60
  let recentStarts := self.recentStarts.dropWhile fun front => window < now - front
  if self.maxPerMinute ≤ recentStarts.length then (false, { self with recentStarts })
  else (true, { self with recentStarts := recentStarts ++ [now] })

def call (s : SessionGovernor × List ℕ) (now : ℕ) : SessionGovernor × List ℕ :=
  let answer := s.1.checkAndRecord now
  (answer.2, if answer.1 then s.2 ++ [now] else s.2)

def calls (self : SessionGovernor) (nows : List ℕ) : SessionGovernor × List ℕ :=
  nows.foldl call (self, [])

end SessionGovernor

/-! ### The two as sliding windows -/

open SlidingWindow

/-- Expired after `window`, the boundary included. -/
def expiredAt (window now t : ℕ) : Bool := window ≤ now - t

/-- Expired after `window`, the boundary not included. -/
def expiredAfter (window now t : ℕ) : Bool := window < now - t

lemma expires_expiredAt (window : ℕ) : Expires (expiredAt window) where
  older hst h := by
    simp only [expiredAt, decide_eq_true_eq] at h ⊢
    omega
  later hle h := by
    simp only [expiredAt, decide_eq_true_eq] at h ⊢
    omega

lemma expires_expiredAfter (window : ℕ) : Expires (expiredAfter window) where
  older hst h := by
    simp only [expiredAfter, decide_eq_true_eq] at h ⊢
    omega
  later hle h := by
    simp only [expiredAfter, decide_eq_true_eq] at h ⊢
    omega

/-- A queue that is not longer than the limit is not longer than a `u32` counts. -/
lemma RateLimiter.checkAndIncrement_eq {queue : List ℕ} {max : UInt32} (seconds : UInt64) (now : ℕ)
    (hlength : queue.length ≤ max.toNat) :
    RateLimiter.checkAndIncrement ⟨queue, max, seconds⟩ now =
      ((request (expiredAt (fromSecs seconds)) max.toNat queue now).1,
        ⟨(request (expiredAt (fromSecs seconds)) max.toNat queue now).2, max, seconds⟩) := by
  have hkept : (queue.dropWhile (expiredAt (fromSecs seconds) now)).length < 2 ^ 32 :=
    (List.dropWhile_sublist _).length_le.trans_lt (hlength.trans_lt max.toNat_lt)
  have hfull : max ≤ UInt32.ofNat (queue.dropWhile (expiredAt (fromSecs seconds) now)).length ↔
      max.toNat ≤ (queue.dropWhile (expiredAt (fromSecs seconds) now)).length := by
    rw [UInt32.le_iff_toNat_le, UInt32.toNat_ofNat_of_lt' hkept]
  simp only [RateLimiter.checkAndIncrement, request]
  by_cases h : max.toNat ≤ (queue.dropWhile (expiredAt (fromSecs seconds) now)).length
  · rw [if_pos h]
    exact if_pos (hfull.mpr h)
  · rw [if_neg h]
    exact if_neg (mt hfull.mp h)

lemma RateLimiter.calls_eq (max : UInt32) (seconds : UInt64) (nows : List ℕ) :
    (RateLimiter.new max seconds).calls nows =
      (⟨(run (expiredAt (fromSecs seconds)) max.toNat nows).1, max, seconds⟩,
        (run (expiredAt (fromSecs seconds)) max.toNat nows).2) := by
  induction nows using List.reverseRecOn with
  | nil => rfl
  | append_singleton nows now ih =>
    have hcalls : (RateLimiter.new max seconds).calls (nows ++ [now]) =
        call ((RateLimiter.new max seconds).calls nows) now := by
      rw [calls, List.foldl_append]
      rfl
    rw [hcalls, ih, call, checkAndIncrement_eq seconds now (length_run_le _ _ nows), run_concat]
    rfl

lemma SessionGovernor.checkAndRecord_eq (queue : List ℕ) (maxPerMinute now : ℕ) :
    SessionGovernor.checkAndRecord ⟨queue, maxPerMinute⟩ now =
      ((request (expiredAfter (fromSecs 60)) maxPerMinute queue now).1,
        ⟨(request (expiredAfter (fromSecs 60)) maxPerMinute queue now).2, maxPerMinute⟩) := by
  simp only [SessionGovernor.checkAndRecord, request]
  by_cases h : maxPerMinute ≤ (queue.dropWhile (expiredAfter (fromSecs 60) now)).length
  · rw [if_pos h]
    exact if_pos h
  · rw [if_neg h]
    exact if_neg h

lemma SessionGovernor.calls_eq (maxPerMinute : ℕ) (nows : List ℕ) :
    (SessionGovernor.new maxPerMinute).calls nows =
      (⟨(run (expiredAfter (fromSecs 60)) maxPerMinute nows).1, maxPerMinute⟩,
        (run (expiredAfter (fromSecs 60)) maxPerMinute nows).2) := by
  induction nows using List.reverseRecOn with
  | nil => rfl
  | append_singleton nows now ih =>
    have hcalls : (SessionGovernor.new maxPerMinute).calls (nows ++ [now]) =
        call ((SessionGovernor.new maxPerMinute).calls nows) now := by
      rw [calls, List.foldl_append]
      rfl
    rw [hcalls, ih, call, checkAndRecord_eq, run_concat]
    rfl

/-! ### Over whole runs -/

/-- How many of some times lie after `start` and at most `window` later. -/
def countHalfOpen (start : ℤ) (window : ℕ) (times : List ℕ) : ℕ :=
  times.countP fun t : ℕ => start < (t : ℤ) ∧ (t : ℤ) ≤ start + window

/-- How many of some times lie at `start` or at most `window` later. -/
def countClosed (start : ℤ) (window : ℕ) (times : List ℕ) : ℕ :=
  times.countP fun t : ℕ => start ≤ (t : ℤ) ∧ (t : ℤ) ≤ start + window

lemma countP_fresh_at {window now : ℕ} {times : List ℕ} (hpast : ∀ t ∈ times, t ≤ now) :
    (times.countP fun t => !expiredAt window now t) =
      countHalfOpen ((now : ℤ) - window) window times := by
  refine List.countP_congr fun t ht => ?_
  have := hpast t ht
  simp only [expiredAt, Bool.not_eq_eq_eq_not, Bool.not_true, decide_eq_false_iff_not,
    decide_eq_true_eq]
  omega

lemma countP_fresh_after {window now : ℕ} {times : List ℕ} (hpast : ∀ t ∈ times, t ≤ now) :
    (times.countP fun t => !expiredAfter window now t) =
      countClosed ((now : ℤ) - window) window times := by
  refine List.countP_congr fun t ht => ?_
  have := hpast t ht
  simp only [expiredAfter, Bool.not_eq_eq_eq_not, Bool.not_true, decide_eq_false_iff_not,
    decide_eq_true_eq]
  omega

lemma RateLimiter.checkAndIncrement_iff (max : UInt32) (seconds : UInt64) {nows : List ℕ} {now : ℕ}
    (hclock : (nows ++ [now]).Pairwise (· ≤ ·)) :
    (((RateLimiter.new max seconds).calls nows).1.checkAndIncrement now).1 = true ↔
      countHalfOpen ((now : ℤ) - fromSecs seconds) (fromSecs seconds)
        ((RateLimiter.new max seconds).calls nows).2 < max.toNat := by
  have hexpires := expires_expiredAt (fromSecs seconds)
  have htracked : Tracked _ now (run (expiredAt (fromSecs seconds)) max.toNat nows) :=
    tracked_run hexpires hclock
  rw [calls_eq, checkAndIncrement_eq seconds now (length_run_le _ _ nows),
    request_iff hexpires hclock, countP_fresh_at htracked.past]

lemma SessionGovernor.checkAndRecord_iff (maxPerMinute : ℕ) {nows : List ℕ} {now : ℕ}
    (hclock : (nows ++ [now]).Pairwise (· ≤ ·)) :
    (((SessionGovernor.new maxPerMinute).calls nows).1.checkAndRecord now).1 = true ↔
      countClosed ((now : ℤ) - fromSecs 60) (fromSecs 60)
        ((SessionGovernor.new maxPerMinute).calls nows).2 < maxPerMinute := by
  have hexpires := expires_expiredAfter (fromSecs 60)
  have htracked : Tracked _ now (run (expiredAfter (fromSecs 60)) maxPerMinute nows) :=
    tracked_run hexpires hclock
  rw [calls_eq, checkAndRecord_eq, request_iff hexpires hclock, countP_fresh_after htracked.past]

lemma RateLimiter.countHalfOpen_le (max : UInt32) (seconds : UInt64) {nows : List ℕ}
    (hclock : nows.Pairwise (· ≤ ·)) (start : ℤ) :
    countHalfOpen start (fromSecs seconds) ((RateLimiter.new max seconds).calls nows).2 ≤
      max.toNat := by
  rw [calls_eq]
  refine countP_run_le (expires_expiredAt _) (fun s t hs ht hle => ?_) hclock
  simp only [expiredAt, decide_eq_true_eq, decide_eq_false_iff_not] at hs ht ⊢
  omega

lemma SessionGovernor.countClosed_le (maxPerMinute : ℕ) {nows : List ℕ}
    (hclock : nows.Pairwise (· ≤ ·)) (start : ℤ) :
    countClosed start (fromSecs 60) ((SessionGovernor.new maxPerMinute).calls nows).2 ≤
      maxPerMinute := by
  rw [calls_eq]
  refine countP_run_le (expires_expiredAfter _) (fun s t hs ht hle => ?_) hclock
  simp only [expiredAfter, decide_eq_true_eq, decide_eq_false_iff_not] at hs ht ⊢
  omega

/-- With a clock that does not run backwards a call is admitted exactly if fewer calls than the
maximum were admitted in the window before it, and no window of that length ever holds more. -/
theorem rate_limits {nows : List ℕ} {now : ℕ} (hclock : (nows ++ [now]).Pairwise (· ≤ ·)) :
    (∀ max seconds, ((((RateLimiter.new max seconds).calls nows).1.checkAndIncrement now).1 = true ↔
        countHalfOpen ((now : ℤ) - fromSecs seconds) (fromSecs seconds)
          ((RateLimiter.new max seconds).calls nows).2 < max.toNat) ∧
      ∀ start, countHalfOpen start (fromSecs seconds)
        ((RateLimiter.new max seconds).calls (nows ++ [now])).2 ≤ max.toNat) ∧
    ∀ maxPerMinute,
      ((((SessionGovernor.new maxPerMinute).calls nows).1.checkAndRecord now).1 = true ↔
        countClosed ((now : ℤ) - fromSecs 60) (fromSecs 60)
          ((SessionGovernor.new maxPerMinute).calls nows).2 < maxPerMinute) ∧
      ∀ start, countClosed start (fromSecs 60)
        ((SessionGovernor.new maxPerMinute).calls (nows ++ [now])).2 ≤ maxPerMinute := by
  refine ⟨fun max seconds => ⟨?_, ?_⟩, fun maxPerMinute => ⟨?_, ?_⟩⟩
  · exact RateLimiter.checkAndIncrement_iff max seconds hclock
  · exact RateLimiter.countHalfOpen_le max seconds hclock
  · exact SessionGovernor.checkAndRecord_iff maxPerMinute hclock
  · exact SessionGovernor.countClosed_le maxPerMinute hclock

/-- Two actions in two seconds, and a third at their end. -/
theorem rate_limits_third :
    countHalfOpen 0 (fromSecs 2)
      ((RateLimiter.new 2 2).calls ([0, 1000000000] ++ [2000000000])).2 ≤ 2 :=
  ((rate_limits (by decide)).1 2 2).2 0

end AxiomGrid.Phantom
