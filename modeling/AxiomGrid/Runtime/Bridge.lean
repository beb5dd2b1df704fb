import AxiomGrid.Lib.Oneshot
import AxiomGrid.Lib.Transition

/-!
# The overlay's materialize lease

`MaterializeLease` and `PhantomBridge::cancel_active` of
`phantom-overlay/src-tauri/src/phantom_bridge.rs`. One slot holds the active request: the `Arc` that
identifies its owner, and the sender of its cancellation channel until a cancel has consumed it. The
three operations are critical sections of the slot's lock. A lease compares its own `Arc` with the
slot's by address; an address may be used again once the request is over.

A lease and the receiver of its channel are dropped independently.
-/

namespace AxiomGrid.Runtime

open Transition

/-- `ActiveMaterialize`: the address of the owner, and the request whose sender is stored. -/
structure ActiveMaterialize (ι : Type*) where
  owner : ℕ
  cancelTx : Option ι

/-- `MaterializeLease`, and the channel made with it. -/
structure MaterializeLease where
  owner : ℕ
  alive : Bool := true
  channel : Oneshot Unit := {}

/-- The slot, and the leases handed out so far. -/
structure Bridge (ι : Type*) where
  slot : Option (ActiveMaterialize ι) := none
  leases : ι → Option MaterializeLease := fun _ => none

namespace Bridge

variable {ι : Type*}

/-- The lease of the request `i` is alive. -/
def Alive (s : Bridge ι) (i : ι) : Prop := ∃ lease, s.leases i = some lease ∧ lease.alive = true

/-- The slot is that of the request `i`. -/
def Owns (s : Bridge ι) (i : ι) : Prop :=
  ∃ lease active, s.leases i = some lease ∧ s.slot = some active ∧ active.owner = lease.owner

variable [DecidableEq ι] (s : Bridge ι)

/-- The state with a new value for one lease. -/
def setLease (i : ι) (lease : MaterializeLease) : Bridge ι :=
  { s with leases := Function.update s.leases i (some lease) }

/-- `MaterializeLease::reserve`, for the request `i`; `address` is where the `Arc` is allocated. -/
def reserve (i : ι) (address : ℕ) : Except String (Bridge ι) :=
  match s.slot with
  | some _ => .error "A materialize request is already active"
  | none =>
    .ok { s.setLease i { owner := address } with
      slot := some { owner := address, cancelTx := some i } }

/-- `Drop` of a lease. A sender that is still in the slot goes with it. -/
def dropLease (i : ι) (lease : MaterializeLease) : Bridge ι :=
  match s.slot with
  | some active =>
    if active.owner = lease.owner then
      { s.setLease i { lease with alive := false, channel := lease.channel.dropSender } with
        slot := none }
    else s.setLease i { lease with alive := false }
  | none => s.setLease i { lease with alive := false }

/-- `PhantomBridge::cancel_active`. -/
def cancelActive : Bool × Bridge ι :=
  match s.slot with
  | none => (false, s)
  | some active =>
    match active.cancelTx with
    | none => (false, s)
    | some i =>
      match s.leases i with
      | none => (false, s)
      | some lease =>
        ((lease.channel.send ()).1,
          { s.setLease i { lease with channel := (lease.channel.send ()).2 } with
            slot := some { active with cancelTx := none } })

end Bridge

/-- A call of one of the operations, or the drop of a receiver. -/
inductive LeaseAction (ι : Type*) where
  | reserve (i : ι) (address : ℕ)
  | dropLease (i : ι)
  | dropReceiver (i : ι)
  | cancelActive

namespace Bridge

variable {ι : Type*} [DecidableEq ι]

/-- One step. A request reserves at most one lease, and drops it once. -/
def step (s : Bridge ι) : LeaseAction ι → Option (Bridge ι)
  | .reserve i address =>
    match s.leases i with
    | some _ => none
    | none =>
      match s.reserve i address with
      | .error _ => some s
      | .ok s => some s
  | .dropLease i =>
    match s.leases i with
    | none => none
    | some lease => if lease.alive then some (s.dropLease i lease) else none
  | .dropReceiver i =>
    match s.leases i with
    | none => none
    | some lease => some (s.setLease i { lease with channel := lease.channel.dropReceiver })
  | .cancelActive => some s.cancelActive.2

/-! ### The invariant -/

variable {s s' : Bridge ι} {i k : ι}

/-- The channel of the request that owns the slot: its sender is in the slot, or it is used up. -/
def Held (active : ActiveMaterialize ι) (i : ι) (lease : MaterializeLease) : Prop :=
  lease.alive = true ∧ active.owner = lease.owner ∧ (∀ k, active.cancelTx = some k → k = i) ∧
    (active.cancelTx = some i → lease.channel.value = none)

/-- The slot is empty and no lease is alive, or it belongs to the only lease that is. -/
def Inv (s : Bridge ι) : Prop :=
  (s.slot = none ∧ ∀ i, ¬ s.Alive i) ∨
    ∃ i lease active, s.leases i = some lease ∧ s.slot = some active ∧ Held active i lease ∧
      ∀ k, s.Alive k → k = i

lemma setLease_leases_self (lease : MaterializeLease) : (s.setLease i lease).leases i = some lease :=
  Function.update_self ..

lemma setLease_leases_ne (lease : MaterializeLease) (h : k ≠ i) :
    (s.setLease i lease).leases k = s.leases k :=
  Function.update_of_ne h ..

/-- A new value for a lease changes what is alive at that lease only. -/
lemma alive_of_setLease {lease : MaterializeLease} (h : (s.setLease i lease).Alive k) :
    (k = i ∧ lease.alive = true) ∨ (k ≠ i ∧ s.Alive k) := by
  obtain ⟨lease', hk, ha⟩ := h
  by_cases hki : k = i
  · subst hki
    rw [setLease_leases_self, Option.some.injEq] at hk
    subst hk
    exact .inl ⟨rfl, ha⟩
  · rw [setLease_leases_ne _ hki] at hk
    exact .inr ⟨hki, lease', hk, ha⟩

lemma Inv.reserve (h : Inv s) {address : ℕ} (hs : s.reserve i address = .ok s') : Inv s' := by
  unfold Bridge.reserve at hs
  split at hs
  · cases hs
  · rename_i hslot
    cases hs
    have hnone : ∀ k, ¬ s.Alive k := by
      rcases h with ⟨-, hnone⟩ | ⟨_, _, active, -, hactive, -⟩
      · exact hnone
      · rw [hslot] at hactive
        cases hactive
    refine .inr ⟨i, { owner := address }, _, setLease_leases_self _, rfl, ⟨rfl, rfl, ?_, fun _ => rfl⟩, ?_⟩
    · intro k hk
      exact (Option.some.inj hk).symm
    · intro k hk
      rcases alive_of_setLease hk with ⟨hki, -⟩ | ⟨-, hk⟩
      · exact hki
      · exact absurd hk (hnone k)

/-- After an admission only the new lease is alive. -/
lemma Inv.eq_of_alive_reserve (h : Inv s) {address : ℕ} (hs : s.reserve i address = .ok s')
    (hk : s'.Alive k) : k = i := by
  have hi : s'.Alive i := by
    unfold Bridge.reserve at hs
    split at hs <;> cases hs
    exact ⟨{ owner := address }, setLease_leases_self _, rfl⟩
  rcases h.reserve hs with ⟨-, hnone⟩ | ⟨j, _, _, -, -, -, honly⟩
  · exact absurd hi (hnone i)
  · rw [honly k hk, honly i hi]

lemma Inv.dropLease (h : Inv s) {lease : MaterializeLease} (hi : s.leases i = some lease)
    (ha : lease.alive = true) :
    Inv (s.dropLease i lease) ∧ s.Owns i ∧ (s.dropLease i lease).slot = none := by
  rcases h with ⟨-, hnone⟩ | ⟨k, lease', active, hk, hactive, ⟨-, howner, -⟩, honly⟩
  · exact absurd ⟨lease, hi, ha⟩ (hnone i)
  · obtain rfl := honly i ⟨lease, hi, ha⟩
    obtain rfl : lease' = lease := Option.some.inj (hk.symm.trans hi)
    have hown : s.Owns i := ⟨lease', active, hi, hactive, howner⟩
    simp only [Bridge.dropLease, hactive, howner, if_true]
    refine ⟨.inl ⟨rfl, fun k halive => ?_⟩, hown, trivial⟩
    rcases alive_of_setLease halive with ⟨-, hfalse⟩ | ⟨hne, halive⟩
    · cases hfalse
    · exact hne (honly k halive)

/-- The receiver of a request goes; the lease stays as it is. -/
lemma Inv.dropReceiver (h : Inv s) {lease : MaterializeLease} (hi : s.leases i = some lease) :
    Inv (s.setLease i { lease with channel := lease.channel.dropReceiver }) := by
  have halive : ∀ k, (s.setLease i { lease with channel := lease.channel.dropReceiver }).Alive k →
      s.Alive k := by
    intro k hk
    rcases alive_of_setLease hk with ⟨rfl, hl⟩ | ⟨-, hk⟩
    · exact ⟨lease, hi, hl⟩
    · exact hk
  rcases h with ⟨hslot, hnone⟩ | ⟨k, lease₀, active, hk, hactive, hheld, honly⟩
  · exact .inl ⟨hslot, fun k hk => hnone k (halive k hk)⟩
  · by_cases hki : k = i
    · subst hki
      obtain rfl : lease₀ = lease := Option.some.inj (hk.symm.trans hi)
      exact .inr ⟨k, _, active, setLease_leases_self _, hactive, hheld,
        fun j hj => honly j (halive j hj)⟩
    · exact .inr ⟨k, lease₀, active, (setLease_leases_ne _ hki).trans hk, hactive, hheld,
        fun j hj => honly j (halive j hj)⟩

/-- The cancellation signal has been put into the channel of the request `i`. -/
def Delivered (s : Bridge ι) (i : ι) : Prop :=
  ∃ lease, s.leases i = some lease ∧ lease.channel.value = some ()

/-- `cancel_active` returns true in this state, for the lease of the request `i`. -/
structure Cancels (s : Bridge ι) (i : ι) : Prop where
  alive : s.Alive i
  owns : s.Owns i
  returned : s.cancelActive.1 = true
  unsent : ¬ s.Delivered i
  delivered : s.cancelActive.2.Delivered i

/-- `cancel_active` does nothing, or it uses up the sender of the lease that owns the slot. -/
lemma Inv.cancelActive_cases (h : Inv s) :
    s.cancelActive = (false, s) ∨
    ∃ i lease active, s.leases i = some lease ∧ s.slot = some active ∧ Held active i lease ∧
      (∀ k, s.Alive k → k = i) ∧ lease.channel.value = none ∧
      s.cancelActive = ((lease.channel.send ()).1,
        { s.setLease i { lease with channel := (lease.channel.send ()).2 } with
          slot := some { active with cancelTx := none } }) := by
  rcases h with ⟨hslot, -⟩ | ⟨i, lease, active, hi, hactive, hheld, honly⟩
  · exact .inl (by simp [Bridge.cancelActive, hslot])
  · cases htx : active.cancelTx with
    | none => exact .inl (by simp [Bridge.cancelActive, hactive, htx])
    | some k =>
      obtain rfl := hheld.2.2.1 k htx
      exact .inr ⟨k, lease, active, hi, hactive, hheld, honly, hheld.2.2.2 htx,
        by simp [Bridge.cancelActive, hactive, htx, hi]⟩

lemma Inv.cancelActive (h : Inv s) : Inv s.cancelActive.2 := by
  rcases h.cancelActive_cases with hc | ⟨i, lease, active, hi, hactive, hheld, honly, -, hc⟩
  · rwa [hc]
  · rw [hc]
    refine .inr ⟨i, _, _, setLease_leases_self _, rfl, ⟨hheld.1, hheld.2.1, nofun, nofun⟩, ?_⟩
    intro k hk
    rcases alive_of_setLease hk with ⟨hki, -⟩ | ⟨-, hk⟩
    · exact hki
    · exact honly k hk

/-- When `cancel_active` returns true, it has signalled the lease that owns the slot. -/
lemma Inv.cancels (h : Inv s) (ht : s.cancelActive.1 = true) : ∃ i, s.Cancels i := by
  rcases h.cancelActive_cases with hc | ⟨i, lease, active, hi, hactive, hheld, -, hv, hc⟩
  · rw [hc] at ht
    cases ht
  · refine ⟨i, ⟨lease, hi, hheld.1⟩, ⟨lease, active, hi, hactive, hheld.2.1⟩, ht, ?_, ?_⟩
    · rintro ⟨lease', hi', hv'⟩
      obtain rfl : lease' = lease := Option.some.inj (hi'.symm.trans hi)
      rw [hv] at hv'
      cases hv'
    · rw [hc] at ht ⊢
      exact ⟨_, setLease_leases_self _, Oneshot.send_value (Oneshot.receiver_of_send ht)⟩

/-! ### Every run -/

lemma Inv.step (h : Inv s) {a : LeaseAction ι} (hs : s.step a = some s') : Inv s' := by
  cases a with
  | reserve i address =>
    simp only [Bridge.step] at hs
    split at hs
    · cases hs
    · split at hs <;> cases hs
      · exact h
      · rename_i hr
        exact h.reserve hr
  | dropLease i =>
    simp only [Bridge.step] at hs
    split at hs
    · cases hs
    · rename_i lease hi
      split at hs <;> cases hs
      rename_i ha
      exact (h.dropLease hi ha).1
  | dropReceiver i =>
    simp only [Bridge.step] at hs
    split at hs <;> cases hs
    rename_i lease hi
    exact h.dropReceiver hi
  | cancelActive =>
    cases hs
    exact h.cancelActive

lemma Inv.run {acts : List (LeaseAction ι)} (h : Transition.run Bridge.step {} acts = some s) : Inv s :=
  run_invariant Bridge.step (fun _ _ _ hi hs => hi.step hs)
    (.inl ⟨rfl, fun i hi => by obtain ⟨lease, hl, -⟩ := hi; cases hl⟩) h

/-- The value of a channel stays when its lease gets a new one. -/
lemma Delivered.setLease {lease lease' : MaterializeLease} (hd : s.Delivered k)
    (hi : s.leases i = some lease)
    (hv : lease.channel.value = some () → lease'.channel.value = some ()) :
    (s.setLease i lease').Delivered k := by
  obtain ⟨lease₀, hk, hv₀⟩ := hd
  by_cases hki : k = i
  · subst hki
    obtain rfl : lease₀ = lease := Option.some.inj (hk.symm.trans hi)
    exact ⟨lease', setLease_leases_self _, hv hv₀⟩
  · exact ⟨lease₀, (setLease_leases_ne _ hki).trans hk, hv₀⟩

/-- A signal that is in the channel stays there. -/
lemma Inv.delivered_step (h : Inv s) {a : LeaseAction ι} (hs : s.step a = some s')
    (hd : s.Delivered k) : s'.Delivered k := by
  cases a with
  | reserve i address =>
    simp only [Bridge.step] at hs
    split at hs
    · cases hs
    · rename_i hi
      split at hs <;> cases hs
      · exact hd
      · rename_i hr
        unfold Bridge.reserve at hr
        split at hr <;> cases hr
        obtain ⟨lease, hk, hv⟩ := hd
        have hki : k ≠ i := by
          rintro rfl
          rw [hi] at hk
          cases hk
        exact ⟨lease, (setLease_leases_ne _ hki).trans hk, hv⟩
  | dropLease i =>
    simp only [Bridge.step] at hs
    split at hs
    · cases hs
    · rename_i lease hi
      split at hs <;> cases hs
      unfold Bridge.dropLease
      split
      · split
        · exact hd.setLease hi id
        · exact hd.setLease hi id
      · exact hd.setLease hi id
  | dropReceiver i =>
    simp only [Bridge.step] at hs
    split at hs <;> cases hs
    rename_i lease hi
    exact hd.setLease hi id
  | cancelActive =>
    cases hs
    rcases h.cancelActive_cases with hc | ⟨i, lease, active, hi, -, -, -, hv, hc⟩
    · rwa [hc]
    · rw [hc]
      exact hd.setLease hi fun hv' => by rw [hv] at hv'; cases hv'

lemma Inv.delivered_run (h : Inv s) {acts : List (LeaseAction ι)}
    (hs : Transition.run Bridge.step s acts = some s') (hd : s.Delivered k) : s'.Delivered k :=
  (run_invariant Bridge.step (P := fun t => Inv t ∧ t.Delivered k)
    (fun _ _ _ ht ha => ⟨ht.1.step ha, ht.1.delivered_step ha ht.2⟩) ⟨h, hd⟩ hs).2

/-- In every state that any interleaving of the operations reaches: the slot is occupied exactly while
a lease is alive, and then it is that lease's; at most one lease is alive; dropping a lease clears its
own slot; and `cancel_active` returns true only for the lease that owns the slot, and not a second
time for the same lease. -/
theorem lease_owns_slot {acts : List (LeaseAction ι)} (h : Transition.run Bridge.step {} acts = some s) :
    (s.slot.isSome = true ↔ ∃ i, s.Alive i) ∧
    (∀ i, s.Alive i → s.Owns i) ∧
    (∀ i k, s.Alive i → s.Alive k → i = k) ∧
    (∀ i s', s.step (.dropLease i) = some s' → s.Owns i ∧ s'.slot = none ∧ ∀ k, ¬ s'.Alive k) ∧
    (s.cancelActive.1 = true → ∃ i, s.Cancels i) ∧
    (∀ i, s.Cancels i → ∀ acts' s', Transition.run Bridge.step s (.cancelActive :: acts') = some s' →
      ¬ s'.Cancels i) := by
  have hi := Inv.run h
  refine ⟨?_, ?_, ?_, ?_, hi.cancels, ?_⟩
  · rcases hi with ⟨hslot, hnone⟩ | ⟨i, lease, active, hi, hactive, hheld, -⟩
    · simp [hslot, hnone]
    · simp only [hactive, Option.isSome_some, true_iff]
      exact ⟨i, lease, hi, hheld.1⟩
  · intro k hk
    rcases hi with ⟨-, hnone⟩ | ⟨i, lease, active, hi, hactive, hheld, honly⟩
    · exact absurd hk (hnone k)
    · obtain rfl := honly k hk
      exact ⟨lease, active, hi, hactive, hheld.2.1⟩
  · intro i k hal hak
    rcases hi with ⟨-, hnone⟩ | ⟨_, _, _, -, -, -, honly⟩
    · exact absurd hal (hnone i)
    · rw [honly i hal, honly k hak]
  · intro i s' hs
    simp only [Bridge.step] at hs
    split at hs
    · cases hs
    · rename_i lease hlease
      split at hs <;> cases hs
      rename_i ha
      obtain ⟨hinv, hown, hslot⟩ := hi.dropLease hlease ha
      refine ⟨hown, hslot, ?_⟩
      rcases hinv with ⟨-, hnone⟩ | ⟨_, _, active, -, hactive, -⟩
      · exact hnone
      · rw [hslot] at hactive
        cases hactive
  · intro i hcancel acts' s' hrun hagain
    exact hagain.unsent (hi.cancelActive.delivered_run hrun hcancel.delivered)

/-- Two requests take turns; the first one is cancelled twice. -/
def turnsRun : List (LeaseAction Bool) :=
  [.reserve false 16, .reserve true 32, .cancelActive, .cancelActive, .dropReceiver false,
    .dropLease false, .reserve true 16]

/-- After the run above the second request owns the slot, at the address the first one had. -/
theorem lease_owns_slot_turnsRun :
    ∃ s, Transition.run Bridge.step {} turnsRun = some s ∧ s.Alive true ∧ s.Owns true ∧
      ∃ i, s.Cancels i := by
  have hrun : Transition.run Bridge.step {} turnsRun = some _ := rfl
  obtain ⟨-, howns, -, -, hcancels, -⟩ := lease_owns_slot hrun
  exact ⟨_, hrun, ⟨{ owner := 16 }, rfl, rfl⟩, howns true ⟨{ owner := 16 }, rfl, rfl⟩, hcancels rfl⟩

end Bridge

end AxiomGrid.Runtime
