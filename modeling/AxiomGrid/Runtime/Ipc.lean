import AxiomGrid.Runtime.Bridge
import AxiomGrid.Runtime.Cancel

/-!
# The overlay and the runtime together

The calls of `PhantomBridge::materialize` and `cancel_active` of
`phantom-overlay/src-tauri/src/phantom_bridge.rs` over the handlers of `axiom-runtime/src/lib.rs`. The
two processes share only the messages: a call sends at most one `/materialize` and, once the user has
cancelled it, at most one `/cancel`. A message that has been sent arrives at any later moment or never,
also when the call that sent it is over. Neither message says which call it belongs to.

A connection may break at any moment, so the handler of `/materialize` can be dropped whether or not
the overlay still waits for it.
-/

namespace AxiomGrid.Runtime

open Transition

/-- The point a call of `materialize` has reached. -/
inductive MaterializePc where
  | idle
  /-- The lease is held; the HTTP client and the token are next. -/
  | setup
  /-- Inside `select!`. -/
  | selecting
  /-- The user has cancelled; the request is dropped and `abort_runtime_generation` starts. -/
  | aborting
  /-- `/cancel` has been sent and its acknowledgement is awaited. -/
  | acknowledging
  /-- The lease is about to be dropped. -/
  | returning
  | done
  deriving DecidableEq, Repr

/-- The state of both processes and of the messages between them. -/
structure Ipc (ι : Type*) where
  bridge : Bridge ι := {}
  calls : ι → MaterializePc := fun _ => .idle
  /-- The calls whose `/materialize` has been sent. -/
  materializeSent : ι → Bool := fun _ => false
  /-- The calls whose `/cancel` has been sent. -/
  cancelSent : ι → Bool := fun _ => false
  runtime : AppState ι ι
  /-- The calls that were given a lease, the latest last. -/
  admitted : List ι := []

/-- What happens next. -/
inductive IpcAction (ι : Type*) where
  /-- `materialize` is called; `address` is where the lease is allocated. -/
  | materialize (i : ι) (address : ℕ)
  /-- The client and the token are there. -/
  | start (i : ι)
  /-- The request future sends `/materialize`. -/
  | post (i : ι)
  /-- `select!` takes the branch of the receiver. -/
  | signal (i : ι)
  /-- `abort_runtime_generation` sends `/cancel`. -/
  | postCancel (i : ι)
  /-- The call is over: the setup failed, a request was answered, failed or timed out, or the whole
  future is dropped. -/
  | leave (i : ι)
  /-- The lease is dropped. -/
  | release (i : ι)
  | cancelActive
  /-- The runtime goes on. -/
  | runtime (a : Action ι ι)

namespace Ipc

variable {ι : Type*}

/-- Both processes before any call. -/
def init (context : ι → Str) : Ipc ι where
  runtime := .init context

/-- The message that starts the handler of an action has been sent. -/
def sent (s : Ipc ι) : Action ι ι → Bool
  | .preview i | .complete i _ | .observe i | .disconnect i => s.materializeSent i
  | .cancel k => s.cancelSent k

variable [DecidableEq ι]

/-- The call `i` at a new point. -/
def goto (s : Ipc ι) (i : ι) (pc : MaterializePc) : Ipc ι :=
  { s with calls := Function.update s.calls i pc }

/-- The call `i` drops the receiver of its lease on the way to a new point. -/
def dropReceiver (s : Ipc ι) (i : ι) (pc : MaterializePc) : Option (Ipc ι) :=
  (s.bridge.step (.dropReceiver i)).map fun bridge => { s.goto i pc with bridge }

/-- One step of the two processes; `none` when the action is not possible. -/
def step (s : Ipc ι) : IpcAction ι → Option (Ipc ι)
  | .materialize i address =>
    match s.calls i with
    | .idle =>
      match s.bridge.reserve i address with
      | .error _ => some (s.goto i .done)
      | .ok bridge => some { s.goto i .setup with bridge, admitted := s.admitted ++ [i] }
    | _ => none
  | .start i =>
    match s.calls i with
    | .setup => some (s.goto i .selecting)
    | _ => none
  | .post i =>
    match s.calls i with
    | .selecting => some { s with materializeSent := Function.update s.materializeSent i true }
    | _ => none
  | .signal i =>
    match s.calls i, s.bridge.leases i with
    | .selecting, some lease =>
      match lease.channel.value with
      | some () => s.dropReceiver i .aborting
      | none => if lease.channel.sender then none else s.dropReceiver i .returning
    | _, _ => none
  | .postCancel i =>
    match s.calls i with
    | .aborting =>
      some { s.goto i .acknowledging with cancelSent := Function.update s.cancelSent i true }
    | _ => none
  | .leave i =>
    match s.calls i with
    | .setup | .selecting | .aborting | .acknowledging => s.dropReceiver i .returning
    | _ => none
  | .release i =>
    match s.calls i with
    | .returning => (s.bridge.step (.dropLease i)).map fun bridge => { s.goto i .done with bridge }
    | _ => none
  | .cancelActive => some { s with bridge := s.bridge.cancelActive.2 }
  | .runtime a =>
    if s.sent a then (s.runtime.step a).map fun runtime => { s with runtime } else none

/-! ### The invariant -/

/-- The call `i` was admitted after the call `k`. -/
def Later (s : Ipc ι) (k i : ι) : Prop := [k, i].Sublist s.admitted

/-- The signal of the call `k` aborts the generation of the call `i`. -/
def Aborts (s : Ipc ι) (k i : ι) : Prop :=
  (s.runtime.generations i).Signalled k ∧ ∃ s', s.step (.runtime (.observe i)) = some s'

/-- If the runtime receives the `/cancel` of the call `k`, that call still holds its lease. -/
def Prompt (k : ι) (s : Ipc ι) : IpcAction ι → Prop
  | .runtime (.cancel j) => j = k → s.runtime.cancels k = .start → s.bridge.Alive k
  | _ => True

deriving instance DecidableEq for CancelPc

instance Bridge.decidableAlive (b : Bridge ι) (i : ι) : Decidable (b.Alive i) :=
  decidable_of_iff ((b.leases i).any MaterializeLease.alive = true) (Option.any_eq_true _ _)

instance Prompt.decidable (k : ι) (s : Ipc ι) : (a : IpcAction ι) → Decidable (Prompt k s a)
  | .runtime (.cancel j) =>
    inferInstanceAs (Decidable (j = k → s.runtime.cancels k = .start → s.bridge.Alive k))
  | .runtime (.preview _) | .runtime (.complete _ _) | .runtime (.observe _) | .runtime (.disconnect _)
  | .materialize _ _ | .start _ | .post _ | .signal _ | .postCancel _ | .leave _ | .release _
  | .cancelActive => inferInstanceAs (Decidable True)

/-- What holds in every state of a run in which the `/cancel` of the call `k` is not late. -/
structure Inv (k : ι) (s : Ipc ι) : Prop where
  bridge : s.bridge.Inv
  runtime : s.runtime.Inv
  /-- A call that was admitted has begun. -/
  begun : ∀ i ∈ s.admitted, s.calls i ≠ .idle
  unsent : ∀ i, s.calls i = .idle → s.materializeSent i = false
  /-- The runtime has not seen a message that was not sent. -/
  unseen : ∀ i, s.materializeSent i = false → (s.runtime.generations i).pc = .check
  /-- No call is admitted while another one holds its lease. -/
  newest : ∀ j i, s.bridge.Alive j → ¬ s.Later j i
  taken : ∀ i, s.runtime.cancels k = .send i → ¬ s.Later k i
  signalled : ∀ i, (s.runtime.generations i).Signalled k → ¬ s.Later k i

variable {s s' : Ipc ι} {i j k : ι}

omit [DecidableEq ι] in
lemma Inv.init (context : ι → Str) : Inv k (.init context) where
  bridge := .inl ⟨rfl, fun i hi => by obtain ⟨lease, hl, -⟩ := hi; cases hl⟩
  runtime := AppState.Inv.init context
  begun := nofun
  unsent _ _ := rfl
  unseen _ _ := rfl
  newest _ _ _ hl := nomatch hl
  taken _ _ hl := nomatch hl
  signalled _ _ hl := nomatch hl

omit [DecidableEq ι] in
/-- A call that has not sent its message has no channel in the runtime. -/
lemma Inv.channel_eq_none (h : Inv k s) (hi : s.materializeSent i = false) :
    (s.runtime.generations i).channel = none := by
  refine (h.runtime.sound i).unarmed ?_
  rw [h.unseen i hi]
  rfl

/-! ### The steps of the overlay -/

omit [DecidableEq ι] in
/-- A step of the overlay that admits no call. -/
lemma Inv.overlay (h : Inv k s) (hr : s'.runtime = s.runtime) (had : s'.admitted = s.admitted)
    (hb : s'.bridge.Inv) (halive : ∀ k, s'.bridge.Alive k → s.bridge.Alive k)
    (hidle : ∀ i, s'.calls i = .idle → s.calls i = .idle)
    (hsent : ∀ i, s'.materializeSent i = s.materializeSent i ∨
      s'.materializeSent i = true ∧ s'.calls i ≠ .idle) : Inv k s' where
  bridge := hb
  runtime := hr ▸ h.runtime
  begun i hi hc := h.begun i (had ▸ hi) (hidle i hc)
  unsent i hc := by
    rcases hsent i with heq | ⟨-, hne⟩
    · rw [heq]
      exact h.unsent i (hidle i hc)
    · exact absurd hc hne
  unseen i hi := by
    rcases hsent i with heq | ⟨htrue, -⟩
    · rw [hr]
      exact h.unseen i (heq ▸ hi)
    · rw [htrue] at hi
      cases hi
  newest j i hj := by
    rw [Later, had]
    exact h.newest j i (halive j hj)
  taken i hi := by
    rw [Later, had]
    exact h.taken i (hr ▸ hi)
  signalled i hi := by
    rw [Later, had]
    exact h.signalled i (hr ▸ hi)

/-- A call that has begun does not become idle again. -/
lemma calls_goto_idle {pc : MaterializePc} (hpc : pc ≠ .idle) (h : (s.goto i pc).calls j = .idle) :
    s.calls j = .idle := by
  by_cases hj : j = i
  · subst hj
    exact absurd (by simpa [goto] using h) hpc
  · simpa [goto, hj] using h

lemma Inv.goto (h : Inv k s) {pc : MaterializePc} (hpc : pc ≠ .idle) : Inv k (s.goto i pc) :=
  h.overlay rfl rfl h.bridge (fun _ hk => hk) (fun _ hk => calls_goto_idle hpc hk) fun _ => .inl rfl

/-- A call moves on while the bridge takes a step that hands out no lease. -/
lemma Inv.goto_bridge (h : Inv k s) {pc : MaterializePc} (hpc : pc ≠ .idle) {bridge : Bridge ι}
    (hb : bridge.Inv) (halive : ∀ k, bridge.Alive k → s.bridge.Alive k) :
    Inv k { s.goto i pc with bridge } :=
  h.overlay rfl rfl hb halive (fun _ hk => calls_goto_idle hpc hk) fun _ => .inl rfl

lemma Inv.dropReceiver (h : Inv k s) {pc : MaterializePc} (hpc : pc ≠ .idle)
    (hs : s.dropReceiver i pc = some s') : Inv k s' := by
  obtain ⟨bridge, hstep, rfl⟩ := Option.map_eq_some_iff.mp hs
  refine h.goto_bridge hpc (h.bridge.step hstep) fun k hk => ?_
  simp only [Bridge.step] at hstep
  split at hstep <;> cases hstep
  rename_i lease hi
  rcases Bridge.alive_of_setLease hk with ⟨rfl, halive⟩ | ⟨-, hk⟩
  · exact ⟨lease, hi, halive⟩
  · exact hk

lemma Inv.release (h : Inv k s) {bridge : Bridge ι}
    (hstep : s.bridge.step (.dropLease i) = some bridge) : Inv k { s.goto i .done with bridge } := by
  refine h.goto_bridge (by decide) (h.bridge.step hstep) fun k hk => ?_
  simp only [Bridge.step] at hstep
  split at hstep
  · cases hstep
  · rename_i lease hi
    split at hstep <;> cases hstep
    rename_i halive
    -- the slot was that of the only lease alive, so none is left
    obtain ⟨hinv, -, hslot⟩ := h.bridge.dropLease hi halive
    rcases hinv with ⟨-, hnone⟩ | ⟨_, _, _, -, hactive, -⟩
    · exact absurd hk (hnone k)
    · rw [hslot] at hactive
      cases hactive

lemma Inv.cancelActive (h : Inv k s) : Inv k { s with bridge := s.bridge.cancelActive.2 } := by
  refine h.overlay rfl rfl h.bridge.cancelActive ?_ (fun _ hk => hk) fun _ => .inl rfl
  intro k hk
  rcases h.bridge.cancelActive_cases with hc | ⟨i, lease, active, hi, -, hheld, -, -, hc⟩
  · rwa [hc] at hk
  · simp only [hc] at hk
    rcases Bridge.alive_of_setLease hk with ⟨rfl, -⟩ | ⟨-, hk⟩
    · exact ⟨lease, hi, hheld.1⟩
    · exact hk

omit [DecidableEq ι] in
/-- Two calls in order of admission, when one more is admitted. -/
lemma sublist_concat {l : List ι} {j : ι} (h : [k, j].Sublist (l ++ [i])) :
    [k, j].Sublist l ∨ (j = i ∧ k ∈ l) := by
  obtain ⟨l₁, l₂, heq, hl₁, hl₂⟩ := List.sublist_append_iff.mp h
  rcases List.sublist_singleton.mp hl₂ with rfl | rfl
  · rw [List.append_nil] at heq
    exact .inl (heq ▸ hl₁)
  · have hpair : [k] ++ [j] = l₁ ++ [i] := heq
    obtain ⟨rfl, hji⟩ := List.append_inj' hpair rfl
    exact .inr ⟨List.singleton_inj.mp hji, List.singleton_sublist.mp hl₁⟩

/-- A call is admitted. It is later than every other one, but the runtime has not seen it yet. -/
lemma Inv.admitted (h : Inv k s) {address : ℕ} {bridge : Bridge ι} (hidle : s.calls i = .idle)
    (hr : s.bridge.reserve i address = .ok bridge) :
    Inv k { s.goto i .setup with bridge, admitted := s.admitted ++ [i] } := by
  have hunsent := h.unsent i hidle
  have hnot : i ∉ s.admitted := fun hi => h.begun i hi hidle
  have hchannel := h.channel_eq_none hunsent
  have hcall : ∀ k, (s.goto i .setup).calls k = .idle → s.calls k = .idle := fun k hk =>
    calls_goto_idle (by decide) hk
  refine ⟨h.bridge.reserve hr, h.runtime, ?_, fun k hk => h.unsent k (hcall k hk), h.unseen, ?_, ?_, ?_⟩
  · intro k hk hkidle
    rcases List.mem_append.mp hk with hk | hk
    · exact h.begun k hk (hcall k hkidle)
    · obtain rfl := List.mem_singleton.mp hk
      simp [Ipc.goto] at hkidle
  · intro j j' hj hl
    have hji : j = i := h.bridge.eq_of_alive_reserve hr hj
    rcases sublist_concat hl with hl | ⟨-, hmem⟩
    · exact hnot (hji ▸ hl.subset (List.mem_cons_self ..))
    · exact hnot (hji ▸ hmem)
  · intro j hk hl
    rcases sublist_concat hl with hl | ⟨rfl, -⟩
    · exact h.taken j hk hl
    · have hsome := h.runtime.armed j (.inr ⟨k, hk⟩)
      rw [hchannel] at hsome
      cases hsome
  · intro j hk hl
    rcases sublist_concat hl with hl | ⟨rfl, -⟩
    · exact h.signalled j hk hl
    · obtain ⟨ch, hch, -⟩ := hk
      cases hchannel.symm.trans hch

/-! ### The steps of the runtime -/

/-- A generation whose message was not sent stays where it is. -/
lemma pc_of_unsent {a : Action ι ι} {runtime : AppState ι ι} (hsent : s.sent a = true)
    (hs : s.runtime.step a = some runtime) (hi : s.materializeSent i = false) :
    (runtime.generations i).pc = (s.runtime.generations i).pc := by
  rcases AppState.step_pc hs (i := i) with hpc | rfl | ⟨r, rfl⟩ | rfl | rfl
  · exact hpc
  all_goals
    rw [sent, hi] at hsent
    cases hsent

lemma Inv.runtime_step (h : Inv k s) {a : Action ι ι} (hok : Prompt k s (.runtime a))
    (hsent : s.sent a = true) {runtime : AppState ι ι} (hs : s.runtime.step a = some runtime) :
    Inv k { s with runtime } where
  bridge := h.bridge
  runtime := h.runtime.step hs
  begun := h.begun
  unsent := h.unsent
  unseen i hi := (pc_of_unsent hsent hs hi).trans (h.unseen i hi)
  newest := h.newest
  taken i hi := by
    rcases AppState.cancels_send_step hs hi with hi | ⟨rfl, hstart⟩
    · exact h.taken i hi
    · exact h.newest k i (hok rfl hstart)
  signalled i hi := by
    rcases AppState.signalled_step hs hi with hi | hsend
    · exact h.signalled i hi
    · exact h.taken i hsend

/-! ### Every run -/

lemma Inv.step (h : Inv k s) {a : IpcAction ι} (hok : Prompt k s a) (hs : s.step a = some s') : Inv k s' := by
  cases a with
  | materialize i address =>
    simp only [Ipc.step] at hs
    split at hs
    · rename_i hidle
      split at hs <;> cases hs
      · exact h.goto (by decide)
      · rename_i hr
        exact h.admitted hidle hr
    · cases hs
  | start i =>
    simp only [Ipc.step] at hs
    split at hs <;> cases hs
    exact h.goto (by decide)
  | post i =>
    simp only [Ipc.step] at hs
    split at hs <;> cases hs
    rename_i hpc
    refine h.overlay rfl rfl h.bridge (fun _ hk => hk) (fun _ hk => hk) fun k => ?_
    by_cases hk : k = i
    · subst hk
      exact .inr (by simp [hpc])
    · exact .inl (by simp [hk])
  | signal i =>
    simp only [Ipc.step] at hs
    split at hs
    · split at hs
      · exact h.dropReceiver (by decide) hs
      · split at hs
        · cases hs
        · exact h.dropReceiver (by decide) hs
    · cases hs
  | postCancel i =>
    simp only [Ipc.step] at hs
    split at hs <;> cases hs
    exact h.overlay rfl rfl h.bridge (fun _ hk => hk) (fun _ hk => calls_goto_idle (by decide) hk)
      fun _ => .inl rfl
  | leave i =>
    simp only [Ipc.step] at hs
    split at hs
    · exact h.dropReceiver (by decide) hs
    · exact h.dropReceiver (by decide) hs
    · exact h.dropReceiver (by decide) hs
    · exact h.dropReceiver (by decide) hs
    · cases hs
  | release i =>
    simp only [Ipc.step] at hs
    split at hs
    · obtain ⟨bridge, hstep, rfl⟩ := Option.map_eq_some_iff.mp hs
      exact h.release hstep
    · cases hs
  | cancelActive =>
    cases hs
    exact h.cancelActive
  | runtime a =>
    simp only [Ipc.step] at hs
    split at hs
    · rename_i hsent
      obtain ⟨runtime, hstep, rfl⟩ := Option.map_eq_some_iff.mp hs
      exact h.runtime_step hok hsent hstep
    · cases hs

/-- In every run of the two processes in which the runtime does not receive the `/cancel` of a call after
that call has given up its lease, the cancel never aborts the generation of a later call. -/
theorem not_aborts_later {context : ι → Str} {acts : List (IpcAction ι)}
    (hrun : Transition.run Ipc.step (.init context) acts = some s)
    (hprompt : Each Ipc.step (Prompt k) (.init context) acts) (hlater : s.Later k i) :
    ¬ s.Aborts k i := by
  have hinv : Inv k s :=
    run_invariant_of_each Ipc.step (fun _ _ _ h hok hs => h.step hok hs) (Inv.init context) hprompt hrun
  rintro ⟨hsignalled, -⟩
  exact hinv.signalled i hsignalled hlater

/-- A first call is cancelled while its generation runs. -/
def cancelledCall : List (IpcAction Bool) :=
  [.materialize false 16, .start false, .post false, .runtime (.preview false), .runtime (.preview false),
    .runtime (.preview false), .cancelActive, .signal false, .postCancel false]

/-- The first call returns, the runtime drops its handler, and a second call is made. -/
def secondCall : List (IpcAction Bool) :=
  [.leave false, .release false, .runtime (.disconnect false), .runtime (.preview false),
    .materialize true 16, .start true, .post true, .runtime (.preview true), .runtime (.preview true),
    .runtime (.preview true)]

/-- The runtime receives the `/cancel` of the first call. -/
def receivedCancel : List (IpcAction Bool) := [.runtime (.cancel false), .runtime (.cancel false)]

/-- The `/cancel` arrives while its acknowledgement is awaited; the second generation goes on. -/
theorem not_aborts_later_prompt :
    ∃ s, Transition.run Ipc.step (.init fun _ => "hello".toList)
        (cancelledCall ++ receivedCancel ++ secondCall) = some s ∧ s.Later false true ∧
      (s.runtime.generations true).pc = .selecting ∧ ¬ s.Aborts false true := by
  have hrun : Transition.run Ipc.step (.init fun _ => "hello".toList)
      (cancelledCall ++ receivedCancel ++ secondCall) = some _ := rfl
  have hprompt : Each Ipc.step (Prompt false) (.init fun _ => "hello".toList)
      (cancelledCall ++ receivedCancel ++ secondCall) := by decide +kernel
  have hlater : [false, true].Sublist [false, true] := List.Sublist.refl _
  exact ⟨_, hrun, hlater, rfl, not_aborts_later hrun hprompt hlater⟩

/-- The acknowledgement times out, a second call is admitted, and the `/cancel` of the first one aborts
the generation of the second. -/
theorem late_cancel_aborts_later :
    ∃ s, Transition.run Ipc.step (.init fun _ => "hello".toList)
        (cancelledCall ++ secondCall ++ receivedCancel) = some s ∧ s.Later false true ∧
      s.Aborts false true := by
  refine ⟨_, rfl, List.Sublist.refl _, ⟨_, rfl, rfl⟩, ⟨_, rfl⟩⟩

end Ipc

end AxiomGrid.Runtime
