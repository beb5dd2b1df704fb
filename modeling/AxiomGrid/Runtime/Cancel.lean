import AxiomGrid.Runtime.Server

/-!
# Cancelling the running generation

A finished or abandoned request may leave its sender in the slot. Such a sender can still be taken
by a `/cancel` request, but its receiver is gone: it was dropped before the permit was released. So
a signal is delivered only to the generation that holds the permit, and the sender of a generation
that is still listening is in the slot unless a `/cancel` request has taken it.
-/

namespace AxiomGrid.Runtime

open Transition

/-- The permit is held from its acquisition to its drop. -/
def PreviewPc.holdsPermit : PreviewPc → Bool
  | .arm | .selecting | .selected _ | .disarm _ | .release _ => true
  | _ => false

/-- The receiver is alive. -/
def PreviewPc.listening : PreviewPc → Bool
  | .selecting | .selected _ => true
  | _ => false

/-- `arm_cancel` has not run yet. -/
def PreviewPc.unarmed : PreviewPc → Bool
  | .check | .acquire | .arm => true
  | _ => false

lemma PreviewPc.holdsPermit_of_listening {pc : PreviewPc} (h : pc.listening = true) :
    pc.holdsPermit = true := by
  cases pc <;> first | rfl | cases h

namespace Generation

variable {κ : Type*} {g : Generation κ}

/-- The channel fits the point the generation has reached. -/
structure Sound (g : Generation κ) : Prop where
  unarmed : g.pc.unarmed = true → g.channel = none
  armed : g.pc.listening = true → g.channel.isSome = true
  receiver : ∀ ch ∈ g.channel, ch.receiver = g.pc.listening

lemma Sound.modify {f : Oneshot κ → Oneshot κ} (h : g.Sound)
    (hf : ∀ ch, (f ch).receiver = ch.receiver) : (g.modify f).Sound where
  unarmed hpc := by
    have hnone := h.unarmed hpc
    simp [Generation.modify, hnone]
  armed hpc := by
    have hsome := h.armed hpc
    simpa [Generation.modify] using hsome
  receiver ch hch := by
    obtain ⟨ch₀, hch₀, rfl⟩ := Option.map_eq_some_iff.mp hch
    rw [hf]
    exact h.receiver ch₀ hch₀

/-- The signal of the request `j` has arrived in the channel. -/
def Signalled (g : Generation κ) (j : κ) : Prop := ∃ ch, g.channel = some ch ∧ ch.value = some j

lemma Signalled.of_modify {f : Oneshot κ → Oneshot κ} {j : κ} (hf : ∀ ch, (f ch).value = ch.value)
    (h : (g.modify f).Signalled j) : g.Signalled j := by
  obtain ⟨ch, hch, hv⟩ := h
  obtain ⟨ch₀, hch₀, rfl⟩ := Option.map_eq_some_iff.mp hch
  exact ⟨ch₀, hch₀, (hf ch₀).symm.trans hv⟩

/-- A step between two points that are alike for the channel. -/
lemma Sound.goto (h : g.Sound) {pc : PreviewPc} (hu : pc.unarmed = true → g.pc.unarmed = true)
    (hl : pc.listening = g.pc.listening) : Sound { g with pc } where
  unarmed hpc := h.unarmed (hu hpc)
  armed hpc := h.armed (hl ▸ hpc)
  receiver ch hch := (h.receiver ch hch).trans hl.symm

/-- The receiver is dropped on the way out of `select!`. -/
lemma Sound.drop (g : Generation κ) {pc : PreviewPc} (hu : pc.unarmed = false)
    (hl : pc.listening = false) : Sound { g.modify Oneshot.dropReceiver with pc } where
  unarmed hpc := by
    rw [hu] at hpc
    cases hpc
  armed hpc := by
    rw [hl] at hpc
    cases hpc
  receiver ch hch := by
    obtain ⟨ch₀, -, rfl⟩ := Option.map_eq_some_iff.mp hch
    exact hl.symm

end Generation

namespace AppState

variable {ι κ : Type*} {s s' : AppState ι κ} {i i' : ι} {j : κ}

/-! ### The invariant -/

/-- The sender of a generation is in the slot, or a `/cancel` request has taken it. -/
def Stored (s : AppState ι κ) (i : ι) : Prop :=
  s.cancelSlot = some i ∨ ∃ j, s.cancels j = .send i

/-- What holds in every state. -/
structure Inv (s : AppState ι κ) : Prop where
  sound : ∀ i, (s.generations i).Sound
  /-- The permit is free and nobody holds it, or one generation holds it. -/
  permit : (s.slots = 1 ∧ ∀ i, (s.generations i).pc.holdsPermit = false) ∨
    (s.slots = 0 ∧ ∃ i, ∀ i', (s.generations i').pc.holdsPermit = true ↔ i' = i)
  /-- A stored or taken sender belongs to a generation that has armed its handle. -/
  armed : ∀ i, s.Stored i → (s.generations i).channel.isSome = true
  /-- The sender of a generation that listens and was not signalled is alive and within reach. -/
  within : ∀ i, (s.generations i).pc.listening = true → ∀ ch ∈ (s.generations i).channel,
    ch.value = none → ch.sender = true ∧ s.Stored i

namespace Inv

lemma init (context : ι → Str) : Inv (.init context : AppState ι κ) where
  sound _ :=
    { unarmed := fun _ => rfl
      armed := fun h => by cases h
      receiver := fun ch hch => by cases hch }
  permit := .inl ⟨rfl, fun _ => rfl⟩
  armed i h := by
    rcases h with h | ⟨j, h⟩ <;> cases h
  within i h := by cases h

variable (h : Inv s)
include h

/-- Two generations never hold the permit at once. -/
lemma holder_unique (hi : (s.generations i).pc.holdsPermit = true)
    (hi' : (s.generations i').pc.holdsPermit = true) : i = i' := by
  rcases h.permit with ⟨-, hfree⟩ | ⟨-, k, hk⟩
  · rw [hfree i] at hi
    cases hi
  · rw [(hk i).mp hi, (hk i').mp hi']

/-- While one generation holds the permit and does not listen, no generation listens. -/
lemma not_listening (hi : (s.generations i).pc.holdsPermit = true)
    (hl : (s.generations i).pc.listening = false) : (s.generations i').pc.listening = false := by
  by_contra hi'
  have hi' : (s.generations i').pc.listening = true := by simpa using hi'
  obtain rfl := h.holder_unique hi (PreviewPc.holdsPermit_of_listening hi')
  rw [hl] at hi'
  cases hi'

/-- Only the generation that holds the permit has a live receiver. -/
lemma holdsPermit_of_receiver {ch : Oneshot κ} (hch : (s.generations i).channel = some ch)
    (hr : ch.receiver = true) : (s.generations i).pc.holdsPermit = true :=
  PreviewPc.holdsPermit_of_listening (((h.sound i).receiver ch hch).symm.trans hr)

omit h

/-! ### One step of a generation -/

/-- The permit stays where it is when no generation passes a point where it is taken or given back. -/
lemma permit_congr (h : Inv s) (hs : s'.slots = s.slots)
    (hp : ∀ k, (s'.generations k).pc.holdsPermit = (s.generations k).pc.holdsPermit) :
    (s'.slots = 1 ∧ ∀ i, (s'.generations i).pc.holdsPermit = false) ∨
    (s'.slots = 0 ∧ ∃ i, ∀ i', (s'.generations i').pc.holdsPermit = true ↔ i' = i) := by
  simpa only [hs, hp] using h.permit

variable [DecidableEq ι]

/-- A generation moves between two points that are alike for the channel. -/
lemma move (h : Inv s) {pc : PreviewPc} {slots : ℕ}
    (hl : pc.listening = (s.generations i).pc.listening)
    (hu : pc.unarmed = true → (s.generations i).pc.unarmed = true)
    (hp : (slots = 1 ∧ ∀ k, ((s.goto i pc).generations k).pc.holdsPermit = false) ∨
      (slots = 0 ∧ ∃ k, ∀ k', ((s.goto i pc).generations k').pc.holdsPermit = true ↔ k' = k)) :
    Inv { s.goto i pc with slots } := by
  have hkeep : ∀ k, ((s.goto i pc).generations k).channel = (s.generations k).channel ∧
      ((s.goto i pc).generations k).pc.listening = (s.generations k).pc.listening := by
    intro k
    by_cases hk : k = i
    · subst hk
      simp [hl]
    · simp [hk]
  constructor
  · intro k
    by_cases hk : k = i
    · subst hk
      simpa using (h.sound k).goto hu hl
    · simpa [hk] using h.sound k
  · exact hp
  · intro k hk
    rw [(hkeep k).1]
    exact h.armed k hk
  · intro k hk
    rw [(hkeep k).1]
    exact h.within k ((hkeep k).2 ▸ hk)

/-- A move that neither takes nor gives back the permit. -/
lemma goto (h : Inv s) {pc : PreviewPc} (hp : pc.holdsPermit = (s.generations i).pc.holdsPermit)
    (hl : pc.listening = (s.generations i).pc.listening)
    (hu : pc.unarmed = true → (s.generations i).pc.unarmed = true) : Inv (s.goto i pc) := by
  have hslots : (s.goto i pc).slots = s.slots := rfl
  refine h.move hl hu (h.permit_congr hslots fun k => ?_)
  by_cases hk : k = i
  · subst hk
    simpa using hp
  · simp [hk]

/-- A generation takes the permit. -/
lemma acquire (h : Inv s) (hpc : (s.generations i).pc = .acquire) (hs : 0 < s.slots) :
    Inv { s.goto i .arm with slots := s.slots - 1 } := by
  obtain ⟨hone, hfree⟩ : s.slots = 1 ∧ ∀ i, (s.generations i).pc.holdsPermit = false := by
    rcases h.permit with hfree | ⟨hzero, -⟩
    · exact hfree
    · omega
  refine h.move (by rw [hpc]; rfl) (fun _ => by rw [hpc]; rfl) (.inr ⟨by simp [hone], i, fun k => ?_⟩)
  by_cases hk : k = i
  · subst hk
    simp [PreviewPc.holdsPermit]
  · simp [hk, hfree k]

/-- A generation gives the permit back. -/
lemma release (h : Inv s) {r : Option Preview} (hpc : (s.generations i).pc = .release r) :
    Inv { s.goto i (.done r) with slots := s.slots + 1 } := by
  have hi : (s.generations i).pc.holdsPermit = true := by
    rw [hpc]
    rfl
  have hzero : s.slots = 0 := by
    rcases h.permit with ⟨-, hfree⟩ | ⟨hzero, -⟩
    · rw [hfree i] at hi
      cases hi
    · exact hzero
  refine h.move (by rw [hpc]; rfl) (fun hu => by cases hu) (.inl ⟨by simp [hzero], fun k => ?_⟩)
  by_cases hk : k = i
  · subst hk
    simp [PreviewPc.holdsPermit]
  · by_contra hholds
    have hholds : (s.generations k).pc.holdsPermit = true := by simpa [hk] using hholds
    exact hk (h.holder_unique hholds hi)

lemma replaceSlot_pc (slot : Option ι) (k : ι) :
    ((s.replaceSlot slot).generations k).pc = (s.generations k).pc := by
  rcases replaceSlot_generations s slot k with hk | hk <;> (rw [hk]; try rfl)

lemma replaceSlot_isSome (slot : Option ι) (k : ι) :
    ((s.replaceSlot slot).generations k).channel.isSome = (s.generations k).channel.isSome := by
  rcases replaceSlot_generations s slot k with hk | hk <;>
    simp [hk, Generation.modify]

lemma replaceSlot_sound (h : Inv s) (slot : Option ι) (k : ι) :
    ((s.replaceSlot slot).generations k).Sound := by
  rcases replaceSlot_generations s slot k with hk | hk <;> rw [hk]
  · exact h.sound k
  · exact (h.sound k).modify fun ch => rfl

/-- A generation arms its handle. No other one listens, so the sender it replaces is not needed. -/
lemma armCancel (h : Inv s) (hpc : (s.generations i).pc = .arm) : Inv (s.armCancel i) := by
  have hi : (s.generations i).pc.holdsPermit = true := by
    rw [hpc]
    rfl
  have hl : ∀ k, (s.generations k).pc.listening = false := fun k =>
    h.not_listening hi (by rw [hpc]; rfl)
  unfold AppState.armCancel
  constructor
  · intro k
    by_cases hk : k = i
    · subst hk
      rw [setGeneration_self]
      refine ⟨fun hu => ?_, fun _ => rfl, fun ch hch => ?_⟩
      · cases hu
      · cases hch
        rfl
    · rw [setGeneration_ne _ _ hk]
      exact h.replaceSlot_sound _ k
  · refine h.permit_congr (replaceSlot_slots s) fun k => ?_
    by_cases hk : k = i
    · subst hk
      rw [setGeneration_self, hi]
      rfl
    · rw [setGeneration_ne _ _ hk, replaceSlot_pc]
  · intro k hk
    by_cases hki : k = i
    · subst hki
      simp
    · rw [setGeneration_ne _ _ hki, replaceSlot_isSome]
      refine h.armed k (.inr ?_)
      rcases hk with hk | hk
      · exact absurd (by simpa using hk.symm) hki
      · simpa using hk
  · intro k hk
    by_cases hki : k = i
    · subst hki
      rw [setGeneration_self]
      intro ch hch _
      cases hch
      exact ⟨rfl, .inl (by simp)⟩
    · rw [setGeneration_ne _ _ hki, replaceSlot_pc, hl k] at hk
      cases hk

/-- A generation disarms its handle after `select!`. -/
lemma disarmCancel (h : Inv s) {r : Preview} (hpc : (s.generations i).pc = .disarm r) :
    Inv (s.disarmCancel.goto i (.release (some r))) := by
  have hi : (s.generations i).pc.holdsPermit = true := by
    rw [hpc]
    rfl
  have hl : ∀ k, (s.generations k).pc.listening = false := fun k =>
    h.not_listening hi (by rw [hpc]; rfl)
  have hs : Inv s.disarmCancel := by
    unfold AppState.disarmCancel
    constructor
    · exact h.replaceSlot_sound none
    · exact h.permit_congr (replaceSlot_slots s) fun k => by rw [replaceSlot_pc]
    · intro k hk
      rw [replaceSlot_isSome]
      refine h.armed k (.inr ?_)
      rcases hk with hk | hk
      · simp at hk
      · simpa using hk
    · intro k hk
      rw [replaceSlot_pc, hl k] at hk
      cases hk
  have hpc' : (s.disarmCancel.generations i).pc = .disarm r := (replaceSlot_pc none i).trans hpc
  exact hs.goto (by rw [hpc']; rfl) (by rw [hpc']; rfl) fun hu => by cases hu

/-- The receiver is dropped, by `select!` or with the handler. -/
lemma dropReceiver (h : Inv s) (hpc : (s.generations i).pc.listening = true) {pc : PreviewPc}
    (hp : pc.holdsPermit = true) (hl : pc.listening = false) (hu : pc.unarmed = false) :
    Inv ((s.modifyChannel i Oneshot.dropReceiver).goto i pc) := by
  have hi := PreviewPc.holdsPermit_of_listening hpc
  constructor
  · intro k
    by_cases hk : k = i
    · subst hk
      simpa using Generation.Sound.drop (s.generations k) hu hl
    · simpa [hk] using h.sound k
  · refine h.permit_congr rfl fun k => ?_
    by_cases hk : k = i
    · subst hk
      simp [hp, hi]
    · simp [hk]
  · intro k hk
    have hch := h.armed k hk
    by_cases hki : k = i
    · subst hki
      simpa [Generation.modify] using hch
    · simpa [hki] using hch
  · intro k hk
    by_cases hki : k = i
    · subst hki
      simp [hl] at hk
    · rw [goto_ne _ hki, modifyChannel_ne _ hki] at hk ⊢
      exact h.within k hk

/-! ### One step of a `/cancel` request -/

omit [DecidableEq ι]

/-- A step that leaves the generations alone and every sender within reach. -/
lemma of_stored (h : Inv s) (hg : s'.generations = s.generations) (hslots : s'.slots = s.slots)
    (hstored : ∀ k, s'.Stored k ↔ s.Stored k) : Inv s' := by
  constructor
  · simpa only [hg] using h.sound
  · simpa only [hg, hslots] using h.permit
  · simpa only [hg, hstored] using h.armed
  · simpa only [hg, hstored] using h.within

variable [DecidableEq κ]

/-- A `/cancel` request takes the stored sender. -/
lemma take (h : Inv s) {g : ι} (hj : s.cancels j = .start) (hg : s.cancelSlot = some g) :
    Inv { s.setCancel j (.send g) with cancelSlot := none } := by
  refine h.of_stored rfl rfl fun k => ?_
  constructor
  · rintro (hk | ⟨j', hk⟩)
    · cases hk
    · by_cases hjj : j' = j
      · subst hjj
        simp only [setCancel, Function.update_self, CancelPc.send.injEq] at hk
        exact .inl (hk ▸ hg)
      · simp only [setCancel, Function.update_of_ne hjj] at hk
        exact .inr ⟨j', hk⟩
  · rintro (hk | ⟨j', hk⟩)
    · obtain rfl : g = k := Option.some.inj (hg.symm.trans hk)
      exact .inr ⟨j, by simp [setCancel]⟩
    · refine .inr ⟨j', ?_⟩
      have hjj : j' ≠ j := by
        rintro rfl
        rw [hj] at hk
        cases hk
      simpa [setCancel, hjj] using hk

/-- A `/cancel` request that has nothing to send. -/
lemma setCancel_done (h : Inv s) {b : Bool} (hj : s.cancels j = .start) :
    Inv (s.setCancel j (.done b)) := by
  refine h.of_stored rfl rfl fun k => or_congr Iff.rfl (exists_congr fun j' => ?_)
  by_cases hjj : j' = j
  · subst hjj
    simp [setCancel, hj]
  · simp [setCancel, hjj]

variable [DecidableEq ι]

/-- A `/cancel` request sends. A generation that was listening has the signal afterwards. -/
lemma send (h : Inv s) {g : ι} {b : Bool} (hj : s.cancels j = .send g) :
    Inv ((s.modifyChannel g fun ch => (ch.send j).2).setCancel j (.done b)) := by
  have hother : ∀ k, k ≠ g →
      (((s.modifyChannel g fun ch => (ch.send j).2).setCancel j (.done b)).Stored k ↔ s.Stored k) := by
    intro k hk
    refine or_congr Iff.rfl (exists_congr fun j' => ?_)
    by_cases hjj : j' = j
    · subst hjj
      simp [setCancel, hj, hk.symm]
    · simp [setCancel, hjj]
  constructor
  · intro k
    by_cases hk : k = g
    · subst hk
      simpa [setCancel] using (h.sound k).modify fun ch => ch.send_receiver j
    · simpa [setCancel, hk] using h.sound k
  · refine h.permit_congr rfl fun k => ?_
    by_cases hk : k = g
    · subst hk
      simp [setCancel, Generation.modify]
    · simp [setCancel, hk]
  · intro k hk
    by_cases hkg : k = g
    · subst hkg
      simpa [setCancel, Generation.modify] using h.armed k (.inr ⟨j, hj⟩)
    · simpa [setCancel, hkg] using h.armed k ((hother k hkg).mp hk)
  · intro k hk ch hch hv
    by_cases hkg : k = g
    · subst hkg
      simp only [setCancel, modifyChannel_self, Generation.modify] at hk hch
      obtain ⟨ch₀, hch₀, rfl⟩ := Option.map_eq_some_iff.mp hch
      have hr : ch₀.receiver = true := ((h.sound k).receiver ch₀ hch₀).trans hk
      rw [Oneshot.send_value hr] at hv
      cases hv
    · simp only [setCancel, modifyChannel_ne s hkg] at hk hch
      have hin := h.within k hk ch hch hv
      exact ⟨hin.1, (hother k hkg).mpr hin.2⟩

end Inv

/-! ### Every step and every run -/

variable [DecidableEq ι]

lemma Inv.preview (h : Inv s) (hs : s.preview i = some s') : Inv s' := by
  cases hpc : (s.generations i).pc with
  | check =>
    simp only [AppState.preview, hpc] at hs
    split at hs <;> cases hs
    · exact h.goto (by rw [hpc]; rfl) (by rw [hpc]; rfl) fun hu => by cases hu
    · exact h.goto (by rw [hpc]; rfl) (by rw [hpc]; rfl) fun _ => by rw [hpc]; rfl
  | acquire =>
    simp only [AppState.preview, hpc] at hs
    split at hs <;> cases hs
    · rename_i hslots
      exact h.acquire hpc hslots
    · exact h.goto (by rw [hpc]; rfl) (by rw [hpc]; rfl) fun hu => by cases hu
  | arm =>
    simp only [AppState.preview, hpc] at hs
    cases hs
    exact h.armCancel hpc
  | selecting => simp [AppState.preview, hpc] at hs
  | selected r =>
    simp only [AppState.preview, hpc] at hs
    cases hs
    exact h.dropReceiver (by rw [hpc]; rfl) rfl rfl rfl
  | disarm r =>
    simp only [AppState.preview, hpc] at hs
    cases hs
    exact h.disarmCancel hpc
  | release r =>
    simp only [AppState.preview, hpc] at hs
    cases hs
    exact h.release hpc
  | done r => simp [AppState.preview, hpc] at hs

variable [DecidableEq κ]

lemma Inv.cancelGeneration (h : Inv s) (hs : s.cancelGeneration j = some s') : Inv s' := by
  cases hj : s.cancels j with
  | start =>
    simp only [AppState.cancelGeneration, hj] at hs
    split at hs <;> cases hs
    · exact h.setCancel_done hj
    · rename_i g hg
      exact h.take hj hg
  | send g =>
    simp only [AppState.cancelGeneration, hj] at hs
    split at hs <;> cases hs
    exact h.send hj
  | done b => simp [AppState.cancelGeneration, hj] at hs

lemma Inv.step (h : Inv s) {a : Action ι κ} (hs : s.step a = some s') : Inv s' := by
  cases a with
  | preview i => exact h.preview hs
  | complete i r =>
    simp only [AppState.step] at hs
    split at hs <;> cases hs
    rename_i hpc
    exact h.goto (by rw [hpc]; rfl) (by rw [hpc]; rfl) fun hu => by cases hu
  | observe i =>
    simp only [AppState.step] at hs
    split at hs
    · rename_i hpc
      split at hs <;> cases hs
      exact h.goto (by rw [hpc]; rfl) (by rw [hpc]; rfl) fun hu => by cases hu
    · cases hs
  | disconnect i =>
    simp only [AppState.step] at hs
    split at hs <;> cases hs
    · rename_i hpc
      exact h.goto (by rw [hpc]; rfl) (by rw [hpc]; rfl) fun hu => by cases hu
    · rename_i hpc
      exact h.dropReceiver (by rw [hpc]; rfl) rfl rfl rfl
  | cancel j => exact h.cancelGeneration hs

lemma Inv.run {context : ι → Str} {acts : List (Action ι κ)}
    (h : Transition.run AppState.step (.init context) acts = some s) : Inv s :=
  run_invariant AppState.step (fun _ _ _ hi hs => hi.step hs) (Inv.init context) h

/-! ### Where a signal comes from -/

omit [DecidableEq κ] in
lemma signalled_goto {k : ι} {pc : PreviewPc} (h : ((s.goto k pc).generations i).Signalled j) :
    (s.generations i).Signalled j := by
  by_cases hi : i = k
  · subst hi
    rw [goto_self] at h
    exact h
  · rwa [goto_ne s hi] at h

omit [DecidableEq κ] in
lemma signalled_modifyChannel {k : ι} {f : Oneshot κ → Oneshot κ}
    (hf : ∀ ch, (f ch).value = ch.value) (h : ((s.modifyChannel k f).generations i).Signalled j) :
    (s.generations i).Signalled j := by
  by_cases hi : i = k
  · subst hi
    rw [modifyChannel_self] at h
    exact h.of_modify hf
  · rwa [modifyChannel_ne s hi] at h

omit [DecidableEq κ] in
lemma signalled_replaceSlot {slot : Option ι}
    (h : ((s.replaceSlot slot).generations i).Signalled j) : (s.generations i).Signalled j := by
  rcases replaceSlot_generations s slot i with hi | hi <;> rw [hi] at h
  · exact h
  · exact h.of_modify Oneshot.dropSender_value

omit [DecidableEq κ] in
lemma signalled_preview {k : ι} (hs : s.preview k = some s') (h : (s'.generations i).Signalled j) :
    (s.generations i).Signalled j := by
  cases hpc : (s.generations k).pc with
  | check | acquire =>
    simp only [AppState.preview, hpc] at hs
    split at hs <;> (cases hs; exact signalled_goto h)
  | arm =>
    simp only [AppState.preview, hpc] at hs
    cases hs
    by_cases hi : i = k
    · subst hi
      -- a new channel has no value
      obtain ⟨ch, hch, hv⟩ := h
      simp only [armCancel, setGeneration_self, Option.some.injEq] at hch
      subst hch
      cases hv
    · rw [armCancel, setGeneration_ne _ _ hi] at h
      exact signalled_replaceSlot h
  | selected r =>
    simp only [AppState.preview, hpc] at hs
    cases hs
    exact signalled_modifyChannel Oneshot.dropReceiver_value (signalled_goto h)
  | disarm r =>
    simp only [AppState.preview, hpc] at hs
    cases hs
    exact signalled_replaceSlot (signalled_goto h)
  | release r =>
    simp only [AppState.preview, hpc] at hs
    cases hs
    exact signalled_goto h
  | selecting | done r => simp [AppState.preview, hpc] at hs

/-- A signal that is there after a step was there before it, or the step is that of the `/cancel`
request which sent it, with the sender of this generation. -/
lemma signalled_step {a : Action ι κ} (hs : s.step a = some s') (h : (s'.generations i).Signalled j) :
    (s.generations i).Signalled j ∨ s.cancels j = .send i := by
  cases a with
  | preview k => exact .inl (signalled_preview hs h)
  | complete k r =>
    simp only [AppState.step] at hs
    split at hs <;> cases hs
    exact .inl (signalled_goto h)
  | observe k =>
    simp only [AppState.step] at hs
    split at hs
    · split at hs <;> cases hs
      exact .inl (signalled_goto h)
    · cases hs
  | disconnect k =>
    simp only [AppState.step] at hs
    split at hs <;> cases hs
    · exact .inl (signalled_goto h)
    · exact .inl (signalled_modifyChannel Oneshot.dropReceiver_value (signalled_goto h))
  | cancel j' =>
    simp only [AppState.step, AppState.cancelGeneration] at hs
    split at hs
    · split at hs <;> (cases hs; exact .inl h)
    · rename_i g hg
      split at hs <;> cases hs
      by_cases hi : i = g
      · subst hi
        obtain ⟨ch, hch, hv⟩ := h
        simp only [setCancel, modifyChannel_self, Generation.modify] at hch
        obtain ⟨ch₀, hch₀, rfl⟩ := Option.map_eq_some_iff.mp hch
        rcases Oneshot.value_of_send hv with hv | rfl
        · exact .inl ⟨ch₀, hch₀, hv⟩
        · exact .inr hg
      · simp only [setCancel, modifyChannel_ne s hi] at h
        exact .inl h
    · cases hs

omit [DecidableEq κ] in
lemma preview_cancels {k : ι} (hs : s.preview k = some s') : s'.cancels = s.cancels := by
  cases hpc : (s.generations k).pc with
  | check | acquire =>
    simp only [AppState.preview, hpc] at hs
    split at hs <;> (cases hs; rfl)
  | arm | disarm r =>
    simp only [AppState.preview, hpc] at hs
    cases hs
    exact replaceSlot_cancels s
  | selected r | release r =>
    simp only [AppState.preview, hpc] at hs
    cases hs
    rfl
  | selecting | done r => simp [AppState.preview, hpc] at hs

omit [DecidableEq κ] in
lemma preview_pc {k : ι} (hs : s.preview k = some s') (hi : i ≠ k) :
    (s'.generations i).pc = (s.generations i).pc := by
  cases hpc : (s.generations k).pc with
  | check | acquire =>
    simp only [AppState.preview, hpc] at hs
    split at hs <;> (cases hs; simp [hi])
  | arm =>
    simp only [AppState.preview, hpc] at hs
    cases hs
    rw [armCancel, setGeneration_ne _ _ hi]
    exact Inv.replaceSlot_pc _ i
  | disarm r =>
    simp only [AppState.preview, hpc] at hs
    cases hs
    rw [goto_ne _ hi]
    exact Inv.replaceSlot_pc _ i
  | selected r | release r =>
    simp only [AppState.preview, hpc] at hs
    cases hs
    simp [hi]
  | selecting | done r => simp [AppState.preview, hpc] at hs

/-- A generation moves only in its own steps. -/
lemma step_pc {a : Action ι κ} (hs : s.step a = some s') :
    (s'.generations i).pc = (s.generations i).pc ∨
      a = .preview i ∨ (∃ r, a = .complete i r) ∨ a = .observe i ∨ a = .disconnect i := by
  cases a with
  | preview k =>
    by_cases hi : i = k
    · exact .inr (.inl (hi ▸ rfl))
    · exact .inl (preview_pc hs hi)
  | complete k r =>
    simp only [AppState.step] at hs
    split at hs <;> cases hs
    by_cases hi : i = k
    · exact .inr (.inr (.inl ⟨r, hi ▸ rfl⟩))
    · exact .inl (by simp [hi])
  | observe k =>
    simp only [AppState.step] at hs
    split at hs
    · split at hs <;> cases hs
      by_cases hi : i = k
      · exact .inr (.inr (.inr (.inl (hi ▸ rfl))))
      · exact .inl (by simp [hi])
    · cases hs
  | disconnect k =>
    by_cases hi : i = k
    · exact .inr (.inr (.inr (.inr (hi ▸ rfl))))
    · simp only [AppState.step] at hs
      split at hs <;> cases hs
      · exact .inl (by simp [hi])
      · exact .inl (by simp [hi])
  | cancel j' =>
    simp only [AppState.step, AppState.cancelGeneration] at hs
    split at hs
    · split at hs <;> (cases hs; exact .inl rfl)
    · rename_i g hg
      split at hs <;> cases hs
      by_cases hi : i = g
      · subst hi
        exact .inl (by simp [setCancel, Generation.modify])
      · exact .inl (by simp [setCancel, hi])
    · cases hs

/-- A `/cancel` request that has answered does nothing more. -/
lemma cancels_done_step {a : Action ι κ} (hs : s.step a = some s') {b : Bool}
    (h : s.cancels j = .done b) : s'.cancels j = .done b := by
  cases a with
  | preview k =>
    rw [preview_cancels hs]
    exact h
  | complete k r =>
    simp only [AppState.step] at hs
    split at hs <;> cases hs
    exact h
  | observe k =>
    simp only [AppState.step] at hs
    split at hs
    · split at hs <;> cases hs
      exact h
    · cases hs
  | disconnect k =>
    simp only [AppState.step] at hs
    split at hs <;> cases hs
    · exact h
    · exact h
  | cancel j' =>
    have hne : ∀ pc, s.cancels j' = pc → (∀ b', pc ≠ .done b') → j ≠ j' := by
      rintro pc hpc hb rfl
      exact hb b (hpc.symm.trans h)
    simp only [AppState.step, AppState.cancelGeneration] at hs
    split at hs
    · rename_i hj'
      have hjj := hne _ hj' fun b' => nofun
      split at hs
      · cases hs
        simpa [setCancel, hjj] using h
      · cases hs
        simpa [setCancel, hjj] using h
    · rename_i g hj'
      have hjj := hne _ hj' fun b' => nofun
      split at hs <;> cases hs
      simpa [setCancel, hjj] using h
    · cases hs

/-- A `/cancel` request takes a sender in its own first step only. -/
lemma cancels_send_step {a : Action ι κ} (hs : s.step a = some s') (h : s'.cancels j = .send i) :
    s.cancels j = .send i ∨ (a = .cancel j ∧ s.cancels j = .start) := by
  cases a with
  | preview k =>
    rw [preview_cancels hs] at h
    exact .inl h
  | complete k r =>
    simp only [AppState.step] at hs
    split at hs <;> cases hs
    exact .inl h
  | observe k =>
    simp only [AppState.step] at hs
    split at hs
    · split at hs <;> cases hs
      exact .inl h
    · cases hs
  | disconnect k =>
    simp only [AppState.step] at hs
    split at hs <;> cases hs
    · exact .inl h
    · exact .inl h
  | cancel j' =>
    by_cases hj : j = j'
    · subst hj
      simp only [AppState.step, AppState.cancelGeneration] at hs
      split at hs
      · rename_i hstart
        exact .inr ⟨rfl, hstart⟩
      · split at hs <;> cases hs
        simp [setCancel] at h
      · cases hs
    · simp only [AppState.step, AppState.cancelGeneration] at hs
      split at hs
      · split at hs <;> (cases hs; exact .inl (by simpa [setCancel, hj] using h))
      · split at hs <;> cases hs
        exact .inl (by simpa [setCancel, hj] using h)
      · cases hs

/-- A signal that was sent before a generation armed its handle never arrives there. -/
lemma not_signalled_run {acts : List (Action ι κ)} {b : Bool} (hi : Inv s)
    (hj : s.cancels j = .done b) (hpc : (s.generations i).pc.unarmed = true)
    (h : Transition.run AppState.step s acts = some s') : ¬ (s'.generations i).Signalled j := by
  have hstart : ¬ (s.generations i).Signalled j := by
    rintro ⟨ch, hch, -⟩
    rw [(hi.sound i).unarmed hpc] at hch
    cases hch
  refine (run_invariant AppState.step
    (P := fun t => t.cancels j = .done b ∧ ¬ (t.generations i).Signalled j) ?_ ⟨hj, hstart⟩ h).2
  rintro t a t' ⟨hdone, hnot⟩ hs
  refine ⟨cancels_done_step hs hdone, fun hsig => ?_⟩
  rcases signalled_step hs hsig with hsig | hsend
  · exact hnot hsig
  · rw [hdone] at hsend
    cases hsend

/-- A `/cancel` request that answers true has put its signal into a live receiver. -/
lemma Inv.delivered (h : Inv s) (hs : s.step (.cancel j) = some s')
    (hj : s'.cancels j = .done true) :
    ∃ g ch, s.cancels j = .send g ∧ (s.generations g).channel = some ch ∧ ch.receiver = true ∧
      (s.generations g).pc.holdsPermit = true ∧ (s'.generations g).Signalled j := by
  simp only [AppState.step, AppState.cancelGeneration] at hs
  split at hs
  · split at hs <;> (cases hs; simp [setCancel] at hj)
  · rename_i g hg
    split at hs <;> cases hs
    rename_i ch hch
    have hr : ch.receiver = true := Oneshot.receiver_of_send (by simpa [setCancel] using hj)
    refine ⟨g, ch, hg, hch, hr, h.holdsPermit_of_receiver hch hr, (ch.send j).2, ?_,
      Oneshot.send_value hr⟩
    simp [setCancel, Generation.modify, hch]
  · cases hs

omit [DecidableEq ι] [DecidableEq κ] in
/-- The sender of a generation that listens is in the slot until a `/cancel` request takes it. -/
lemma Inv.cancelSlot_eq (h : Inv s) (hpc : (s.generations i).pc.listening = true)
    (hfree : ∀ j, s.cancels j ≠ .send i) (hnot : ∀ j, ¬ (s.generations i).Signalled j) :
    s.cancelSlot = some i := by
  obtain ⟨ch, hch⟩ := Option.isSome_iff_exists.mp ((h.sound i).armed hpc)
  have hv : ch.value = none := by
    cases hv : ch.value with
    | none => rfl
    | some j => exact absurd ⟨ch, hch, hv⟩ (hnot j)
  rcases (h.within i hpc ch hch hv).2 with hslot | ⟨j, hj⟩
  · exact hslot
  · exact absurd hj (hfree j)

/-- `select!` takes the branch of the receiver only for a signal. -/
lemma Inv.observed (h : Inv s) (hs : s.step (.observe i) = some s') :
    ∃ j, (s.generations i).Signalled j := by
  simp only [AppState.step] at hs
  split at hs
  · rename_i hpc
    split at hs
    · rename_i hready
      obtain ⟨ch, hch, hready⟩ := (Option.any_eq_true _ _).mp hready
      cases hv : ch.value with
      | some j => exact ⟨j, ch, hch, hv⟩
      | none =>
        have hsender := (h.within i (by rw [hpc]; rfl) ch hch hv).1
        simp [Oneshot.isReady, hv, hsender] at hready
    · cases hs
  · cases hs

/-- In every state that any interleaving of the requests reaches: at most one generation holds the
permit; a `/cancel` request that answers true has signalled a generation with a live receiver that
holds the permit at that moment; a signal that has been sent never arrives at a generation that arms
its handle later, and a generation is aborted only by a signal; and the slot holds the sender of a
generation that is inside `select!` unless a `/cancel` request has taken it. -/
theorem cancel_reaches_running {context : ι → Str} {acts : List (Action ι κ)}
    (h : Transition.run AppState.step (.init context) acts = some s) :
    (∀ i i', (s.generations i).pc.holdsPermit = true → (s.generations i').pc.holdsPermit = true →
      i = i') ∧
    (∀ j s', s.step (.cancel j) = some s' → s'.cancels j = .done true →
      ∃ g ch, s.cancels j = .send g ∧ (s.generations g).channel = some ch ∧ ch.receiver = true ∧
        (s.generations g).pc.holdsPermit = true ∧ (s'.generations g).Signalled j) ∧
    (∀ j b i acts' s', s.cancels j = .done b → (s.generations i).pc.unarmed = true →
      Transition.run AppState.step s acts' = some s' → ¬ (s'.generations i).Signalled j) ∧
    (∀ i s', s.step (.observe i) = some s' → ∃ j, (s.generations i).Signalled j) ∧
    (∀ i, (s.generations i).pc.listening = true → (∀ j, s.cancels j ≠ .send i) →
      (∀ j, ¬ (s.generations i).Signalled j) → s.cancelSlot = some i) := by
  have hi := Inv.run h
  exact ⟨fun i i' => hi.holder_unique, fun j s' => hi.delivered,
    fun j b i acts' s' hj hpc => not_signalled_run hi hj hpc, fun i s' => hi.observed,
    fun i => hi.cancelSlot_eq⟩

/-- A first generation is abandoned inside `select!` and leaves its sender behind; a `/cancel` request
takes it while a second generation is about to arm its handle, and a second one takes the handle of
that generation. -/
def staleRun : List (Action Bool Bool) :=
  [.preview false, .preview false, .preview false, .disconnect false, .preview false,
    .preview true, .preview true, .cancel false, .preview true, .cancel false, .cancel true]

/-- The first request answers false, the second one true, and the second generation is aborted. -/
theorem cancel_reaches_running_staleRun :
    ∃ s s', Transition.run AppState.step (.init fun _ => "hello".toList) staleRun = some s ∧
      s.step (.cancel true) = some s' ∧ s.cancels false = .done false ∧
      s'.cancels true = .done true ∧ ¬ (s'.generations true).Signalled false ∧
      (s'.generations true).Signalled true := by
  have hrun : Transition.run AppState.step (.init fun _ => "hello".toList) staleRun = some _ := rfl
  obtain ⟨-, hdelivered, -⟩ := cancel_reaches_running hrun
  obtain ⟨g, ch, hg, -, -, -, hsig⟩ := hdelivered true _ rfl rfl
  refine ⟨_, _, hrun, rfl, rfl, rfl, ?_, ?_⟩
  · rintro ⟨ch, hch, hv⟩
    cases hch
    cases hv
  · cases hg
    exact hsig

end AppState

end AxiomGrid.Runtime
