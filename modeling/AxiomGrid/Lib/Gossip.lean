import AxiomGrid.Lib.Transition
import Mathlib.Data.Set.Insert
import Mathlib.Logic.Function.Basic

/-!
# Gossip

Peers learn facts, put all they know into packets, and take in packets. A packet may be taken in by any
peer, late, more than once or never. A peer knows a fact exactly if a chain of packets leads from a peer
that learned it (`mem_known_iff`).
-/

namespace Gossip

variable {ι φ : Type*}

/-- What the peers know, and the packets so far. -/
structure State (ι φ : Type*) where
  known : ι → Set φ
  packets : List (Set φ)

inductive Event (ι φ : Type*) where
  | learn (p : ι) (f : φ)
  | publish (p : ι)
  | absorb (p : ι) (n : ℕ)

namespace Event

def isPublish : Event ι φ → Bool
  | publish _ => true
  | _ => false

end Event

def State.init : State ι φ := ⟨fun _ => ∅, []⟩

/-- What an event does. A packet that is not there cannot be taken in. -/
def step [DecidableEq ι] (s : State ι φ) : Event ι φ → Option (State ι φ)
  | .learn p f => some { s with known := Function.update s.known p (insert f (s.known p)) }
  | .publish p => some { s with packets := s.packets ++ [s.known p] }
  | .absorb p n => (s.packets[n]?).map fun packet =>
      { s with known := Function.update s.known p (s.known p ∪ packet) }

def run [DecidableEq ι] (events : List (Event ι φ)) : Option (State ι φ) := Transition.run step .init events

/-- The packet that is published by the event at `j`. -/
def packetAt (events : List (Event ι φ)) (j : ℕ) : ℕ := (events.take j).countP Event.isPublish

/-- A chain of packets leads the fact to the peer within the first `n` events. -/
inductive Reaches (events : List (Event ι φ)) (f : φ) : ℕ → ι → Prop where
  | learn {i : ℕ} {p : ι} (h : events[i]? = some (.learn p f)) : Reaches events f (i + 1) p
  | absorb {i j k : ℕ} {p q : ι} (hq : Reaches events f i q) (hij : i ≤ j)
      (hpublish : events[j]? = some (.publish q)) (hjk : j < k)
      (habsorb : events[k]? = some (.absorb p (packetAt events j))) : Reaches events f (k + 1) p

variable {events more : List (Event ι φ)} {f : φ} {n : ℕ} {p q : ι}

lemma Reaches.le (h : Reaches events f n p) : n ≤ events.length := by
  cases h with
  | learn h => exact (List.getElem?_eq_some_iff.mp h).1
  | absorb _ _ _ _ habsorb => exact (List.getElem?_eq_some_iff.mp habsorb).1

lemma packetAt_append {j : ℕ} (hj : j ≤ events.length) :
    packetAt (events ++ more) j = packetAt events j := by
  rw [packetAt, packetAt, List.take_append_of_le_length hj]

lemma Reaches.append (h : Reaches events f n p) : Reaches (events ++ more) f n p := by
  have hkept : ∀ {i e}, events[i]? = some e → (events ++ more)[i]? = some e := fun h => by
    rw [List.getElem?_append_left (List.getElem?_eq_some_iff.mp h).1, h]
  induction h with
  | learn h => exact .learn (hkept h)
  | absorb _ hij hpublish hjk habsorb ih =>
    refine .absorb ih hij (hkept hpublish) hjk ?_
    rw [packetAt_append (List.getElem?_eq_some_iff.mp hpublish).1.le]
    exact hkept habsorb

/-- What has happened later adds nothing to a chain. -/
lemma Reaches.of_append (h : Reaches (events ++ more) f n p) (hn : n ≤ events.length) :
    Reaches events f n p := by
  have hold : ∀ {i e}, i < events.length → (events ++ more)[i]? = some e → events[i]? = some e :=
    fun hi h => by rwa [List.getElem?_append_left hi] at h
  induction h with
  | learn h => exact .learn (hold hn h)
  | @absorb i j k p q _ hij hpublish hjk habsorb ih =>
    have hj : j < events.length := hjk.trans hn
    rw [packetAt_append hj.le] at habsorb
    exact .absorb (ih (hij.trans hj.le)) hij (hold hj hpublish) hjk (hold hn habsorb)

lemma reaches_append_iff (hn : n ≤ events.length) :
    Reaches (events ++ more) f n p ↔ Reaches events f n p :=
  ⟨fun h => h.of_append hn, Reaches.append⟩

lemma packetAt_length (events : List (Event ι φ)) :
    packetAt events events.length = events.countP Event.isPublish := by
  rw [packetAt, List.take_length]

/-- The chains of a run with one more event. -/
lemma reaches_concat {e : Event ι φ} :
    (∃ n, Reaches (events ++ [e]) f n p) ↔ (∃ n, Reaches events f n p) ∨ e = .learn p f ∨
      ∃ j i q, i ≤ j ∧ Reaches events f i q ∧ events[j]? = some (.publish q) ∧
        e = .absorb p (packetAt events j) := by
  constructor
  · rintro ⟨n, h⟩
    by_cases hn : n ≤ events.length
    · exact .inl ⟨n, h.of_append hn⟩
    · have hlast : n = events.length + 1 := by
        have hle := h.le
        rw [List.length_append, List.length_singleton] at hle
        omega
      subst hlast
      cases h with
      | learn h =>
        rw [List.getElem?_concat_length, Option.some.injEq] at h
        exact .inr (.inl h)
      | @absorb i j _ _ q hq hij hpublish hj habsorb =>
        rw [List.getElem?_concat_length, Option.some.injEq, packetAt_append hj.le] at habsorb
        rw [List.getElem?_append_left hj] at hpublish
        exact .inr (.inr ⟨j, i, q, hij, hq.of_append (hij.trans hj.le), hpublish, habsorb⟩)
  · rintro (⟨n, h⟩ | rfl | ⟨j, i, q, hij, hq, hpublish, rfl⟩)
    · exact ⟨n, h.append⟩
    · exact ⟨_, .learn List.getElem?_concat_length⟩
    · have hj := (List.getElem?_eq_some_iff.mp hpublish).1
      refine ⟨_, .absorb hq.append hij ?_ hj ?_⟩
      · rw [List.getElem?_append_left hj, hpublish]
      · rw [List.getElem?_concat_length, packetAt_append hj.le]

/-- The packets are those that the run has published, each with what its peer had heard by then. -/
structure Published (events : List (Event ι φ)) (packets : List (Set φ)) : Prop where
  length : packets.length = events.countP Event.isPublish
  packet : ∀ {j q}, events[j]? = some (.publish q) → ∃ packet, packets[packetAt events j]? = some packet ∧
    ∀ f, f ∈ packet ↔ ∃ i ≤ j, Reaches events f i q
  sent : ∀ {n packet}, packets[n]? = some packet →
    ∃ j q, events[j]? = some (.publish q) ∧ packetAt events j = n

namespace Published

variable {packets : List (Set φ)} {packet : Set φ} {e : Event ι φ}

/-- What was published before an event is published after it. -/
lemma packet_concat (h : Published events packets) {j : ℕ} (hj : j < events.length)
    (hpublish : (events ++ [e])[j]? = some (.publish q)) :
    ∃ packet, packets[packetAt (events ++ [e]) j]? = some packet ∧
      ∀ f, f ∈ packet ↔ ∃ i ≤ j, Reaches (events ++ [e]) f i q := by
  rw [List.getElem?_append_left hj] at hpublish
  obtain ⟨packet, hpacket, hmem⟩ := h.packet hpublish
  refine ⟨packet, by rwa [packetAt_append hj.le], fun f => (hmem f).trans ?_⟩
  exact exists_congr fun i => and_congr_right fun hi => (reaches_append_iff (hi.trans hj.le)).symm

lemma sent_concat (h : Published events packets) (hpacket : packets[n]? = some packet) :
    ∃ j q, (events ++ [e])[j]? = some (.publish q) ∧ packetAt (events ++ [e]) j = n := by
  obtain ⟨j, q, hpublish, hn⟩ := h.sent hpacket
  have hj := (List.getElem?_eq_some_iff.mp hpublish).1
  exact ⟨j, q, by rw [List.getElem?_append_left hj, hpublish], by rw [packetAt_append hj.le, hn]⟩

lemma quiet (h : Published events packets) (he : e.isPublish = false) :
    Published (events ++ [e]) packets where
  length := by simp [h.length, he]
  packet := fun {j q} hpublish => by
    refine h.packet_concat ?_ hpublish
    by_contra hj
    have hlast : j = events.length := by
      have hlt := (List.getElem?_eq_some_iff.mp hpublish).1
      rw [List.length_append, List.length_singleton] at hlt
      omega
    subst hlast
    rw [List.getElem?_concat_length, Option.some.injEq] at hpublish
    rw [hpublish] at he
    cases he
  sent := h.sent_concat

lemma publish (h : Published events packets) (hq : ∀ f, f ∈ packet ↔ ∃ n, Reaches events f n q) :
    Published (events ++ [.publish q]) (packets ++ [packet]) where
  length := by simp [h.length, Event.isPublish]
  packet := fun {j q'} hpublish => by
    rcases Nat.lt_or_ge j events.length with hj | hj
    · obtain ⟨packet', hpacket, hmem⟩ := h.packet_concat hj hpublish
      exact ⟨packet', List.getElem?_append_left (List.getElem?_eq_some_iff.mp hpacket).1 ▸ hpacket, hmem⟩
    · have hlast : j = events.length := by
        have hlt := (List.getElem?_eq_some_iff.mp hpublish).1
        rw [List.length_append, List.length_singleton] at hlt
        omega
      subst hlast
      rw [List.getElem?_concat_length, Option.some.injEq, Event.publish.injEq] at hpublish
      subst hpublish
      refine ⟨packet, ?_, fun f => (hq f).trans ⟨fun ⟨n, hn⟩ => ⟨n, hn.le, hn.append⟩, ?_⟩⟩
      · rw [packetAt_append le_rfl, packetAt_length, ← h.length, List.getElem?_concat_length]
      · exact fun ⟨n, hle, hn⟩ => ⟨n, hn.of_append hle⟩
  sent := fun {n packet'} hpacket => by
    rcases Nat.lt_or_ge n packets.length with hn | hn
    · rw [List.getElem?_append_left hn] at hpacket
      exact h.sent_concat hpacket
    · have hlast : n = packets.length := by
        have hlt := (List.getElem?_eq_some_iff.mp hpacket).1
        rw [List.length_append, List.length_singleton] at hlt
        omega
      refine ⟨events.length, q, List.getElem?_concat_length, ?_⟩
      rw [packetAt_append le_rfl, packetAt_length, hlast, h.length]

end Published

variable [DecidableEq ι] {s s' : State ι φ} {e : Event ι φ}

/-- The knowledge and the packets of a state are what the chains of the run make of them. -/
structure Heard (events : List (Event ι φ)) (s : State ι φ) : Prop where
  known : ∀ p f, f ∈ s.known p ↔ ∃ n, Reaches events f n p
  published : Published events s.packets

lemma mem_update {known : ι → Set φ} {p' : ι} {facts : Set φ} (h : known p' ⊆ facts) :
    f ∈ Function.update known p' facts p ↔ f ∈ known p ∨ p = p' ∧ f ∈ facts := by
  rcases eq_or_ne p p' with rfl | hp
  · rw [Function.update_self]
    exact ⟨fun hf => .inr ⟨rfl, hf⟩, fun hf => hf.elim (fun hf => h hf) And.right⟩
  · rw [Function.update_of_ne hp]
    exact ⟨.inl, fun hf => hf.resolve_right fun hf => hp hf.1⟩

lemma Heard.step (h : Heard events s) (hstep : step s e = some s') : Heard (events ++ [e]) s' := by
  cases e with
  | learn p' f' =>
    cases hstep
    refine ⟨fun p f => ?_, h.published.quiet rfl⟩
    rw [reaches_concat, ← h.known, mem_update (Set.subset_insert _ _)]
    simp only [Event.learn.injEq, reduceCtorEq, and_false, exists_false, or_false, Set.mem_insert_iff]
    grind
  | publish p' =>
    cases hstep
    refine ⟨fun p f => ?_, h.published.publish fun f => h.known p' f⟩
    simp only [reaches_concat, ← h.known, reduceCtorEq, and_false, exists_false, or_false]
  | absorb p' n =>
    obtain ⟨packet, hpacket, rfl⟩ := Option.map_eq_some_iff.mp hstep
    refine ⟨fun p f => ?_, h.published.quiet rfl⟩
    rw [reaches_concat, ← h.known, mem_update Set.subset_union_left]
    simp only [reduceCtorEq, false_or, Event.absorb.injEq]
    constructor
    · rintro (hf | ⟨rfl, hf | hf⟩)
      · exact .inl hf
      · exact .inl hf
      · obtain ⟨j, q, hpublish, rfl⟩ := h.published.sent hpacket
        obtain ⟨packet', hpacket', hmem⟩ := h.published.packet hpublish
        obtain rfl : packet = packet' := Option.some.inj (hpacket.symm.trans hpacket')
        obtain ⟨i, hij, hq⟩ := (hmem f).mp hf
        exact .inr ⟨j, i, q, hij, hq, hpublish, rfl, rfl⟩
    · rintro (hf | ⟨j, i, q, hij, hq, hpublish, rfl, rfl⟩)
      · exact .inl hf
      · obtain ⟨packet', hpacket', hmem⟩ := h.published.packet hpublish
        obtain rfl : packet = packet' := Option.some.inj (hpacket.symm.trans hpacket')
        exact .inr ⟨rfl, .inr ((hmem f).mpr ⟨i, hij, hq⟩)⟩

lemma heard_run (h : run events = some s) : Heard events s := by
  refine Transition.run_induction Gossip.step (P := Heard) ?_ (fun _ _ _ _ _ => Heard.step) h
  refine ⟨fun p f => ⟨fun h => h.elim, ?_⟩, rfl, fun h => by simp at h, fun h => by simp [State.init] at h⟩
  rintro ⟨n, h⟩
  cases h with
  | learn h => simp at h
  | absorb _ _ h => simp at h

/-- A peer knows a fact exactly if a chain of packets leads it there. -/
theorem mem_known_iff (h : run events = some s) : f ∈ s.known p ↔ ∃ n, Reaches events f n p :=
  (heard_run h).known p f

end Gossip
