import AxiomGrid.Lib.HashChain
import AxiomGrid.Lib.JsonStrict
import AxiomGrid.LoopEngineering.Orchestrator

/-!
# The ledger of the loop

Every command that succeeds appends one event to a chain that verifies, whatever the others do. The hash
of the last event binds all events up to it.
-/

namespace AxiomGrid.LoopEngineering

open Json (dumpsWith sorted setItem)

/-! ### Chains that verify -/

/-- The two links of an event. -/
def Event.prevHash (ev : Event) : Json := Record.get ev "prev_hash"

def Event.hash (ev : Event) : Json := Record.get ev "hash"

/-- What the hash of an event is taken of. -/
def Event.body (ev : Event) : Event := ev.filter fun p => p.1 ≠ "hash"

/-- An event whose hash is the one of its body. -/
def Hashed (ev : Event) : Prop :=
  ∃ prev, Event.prevHash ev = .str prev ∧ Event.hash ev = .str (eventHash prev (Event.body ev))

/-- A ledger that verifies. -/
def Intact (history : List Event) : Prop := verifyHistoryChain history = .ok ()

lemma verifyFrom_iff {i : ℕ} {prev : String} {history : List Event} :
    verifyFrom i prev history = .ok () ↔
      (∀ ev ∈ history, Hashed ev) ∧ Linked Event.prevHash Event.hash (.str prev) history := by
  induction history generalizing i prev with
  | nil => simp [verifyFrom, Linked]
  | cons ev history ih =>
    rw [List.forall_mem_cons, Linked, verifyFrom]
    by_cases hprev : Json.pyEq (ev.get "prev_hash") (.str prev) = true
    · have hprev' : Event.prevHash ev = .str prev := Json.pyEq_str_right.mp hprev
      rw [hprev, Bool.not_true, if_neg Bool.false_ne_true]
      by_cases hhash : Json.pyEq (ev.get "hash") (.str (eventHash prev (Event.body ev))) = true
      · have hnext : Event.hash ev = .str (eventHash prev (Event.body ev)) :=
          Json.pyEq_str_right.mp hhash
        have hself : Hashed ev := ⟨prev, hprev', hnext⟩
        rw [Event.body] at hhash
        dsimp only
        rw [hhash, Bool.not_true, if_neg Bool.false_ne_true, ih, hnext]
        constructor
        · rintro ⟨hall, hlinked⟩
          exact ⟨⟨hself, hall⟩, hprev', hlinked⟩
        · rintro ⟨⟨-, hall⟩, -, hlinked⟩
          exact ⟨hall, hlinked⟩
      · have hnot : ¬Hashed ev := by
          rintro ⟨prev', hlink, hhash'⟩
          obtain rfl : prev' = prev := by
            rw [hprev'] at hlink
            exact (Json.str.inj hlink).symm
          exact hhash (Json.pyEq_str_right.mpr hhash')
        rw [Event.body, Bool.not_eq_true] at hhash
        dsimp only
        rw [hhash, Bool.not_false, if_pos rfl]
        simp [hnot]
    · have hnot : ¬Event.prevHash ev = .str prev := fun h => hprev (Json.pyEq_str_right.mpr h)
      rw [Bool.not_eq_true] at hprev
      rw [hprev, Bool.not_false, if_pos rfl]
      simp [hnot]

lemma intact_iff {history : List Event} :
    Intact history ↔ (∀ ev ∈ history, Hashed ev) ∧
      Linked Event.prevHash Event.hash (.str "genesis") history := verifyFrom_iff

/-- The last hash of a ledger that verifies. -/
lemma lastHash_iff {history : List Event} {prev : String} :
    lastHash history = some prev ↔ tip Event.hash (.str "genesis") history = .str prev := by
  rw [tip_eq_getLast?, lastHash]
  cases history.getLast? with
  | none => simp
  | some ev =>
    dsimp only [Option.map_some, Option.getD_some]
    rw [Event.hash]
    cases ev.get "hash" <;> simp [Json.str?]

/-! ### What `log` appends -/

/-- The keys that `log` sets itself. -/
def ownKeys : List String := ["ts", "event", "prev_hash", "hash"]

lemma get_setItem (ev : Event) (k : String) (v : Json) (k' : String) :
    Record.get (setItem ev k v) k' = if k' = k then v else Record.get ev k' := by
  rw [Record.get, Json.lookup_setItem]
  split_ifs <;> rfl

lemma get_foldl_setItem {kw : Event} {k : String} (h : k ∉ kw.map Prod.fst) (ev : Event) :
    Record.get (kw.foldl (fun e p => setItem e p.1 p.2) ev) k = Record.get ev k := by
  induction kw generalizing ev with
  | nil => rfl
  | cons p kw ih =>
    rw [List.map_cons, List.mem_cons, not_or] at h
    rw [List.foldl_cons, ih h.2, get_setItem, if_neg h.1]

lemma not_mem_keys_setItem {ev : Event} {k k' : String} (h : k' ∉ ev.map Prod.fst) (hk : k' ≠ k)
    (v : Json) : k' ∉ (setItem ev k v).map Prod.fst := by
  induction ev with
  | nil => simpa [setItem] using hk
  | cons p ev ih =>
    obtain ⟨l, x⟩ := p
    rw [List.map_cons, List.mem_cons, not_or] at h
    rw [setItem]
    split_ifs with hl
    · simpa [hk] using h.2
    · simpa [h.1] using ih h.2

lemma not_mem_keys_foldl_setItem {kw ev : Event} {k : String} (hkw : k ∉ kw.map Prod.fst)
    (h : k ∉ ev.map Prod.fst) :
    k ∉ (kw.foldl (fun e p => setItem e p.1 p.2) ev).map Prod.fst := by
  induction kw generalizing ev with
  | nil => exact h
  | cons p kw ih =>
    rw [List.map_cons, List.mem_cons, not_or] at hkw
    exact ih hkw.2 (not_mem_keys_setItem h hkw.1 p.2)

/-- A new key goes to the end, and leaving it out gives the dictionary back. -/
lemma filter_setItem_of_not_mem {ev : Event} {k : String} (h : k ∉ ev.map Prod.fst) (v : Json) :
    (setItem ev k v).filter (fun p => p.1 ≠ k) = ev := by
  rw [Json.setItem_of_not_mem h, List.filter_append]
  have hkeep : ev.filter (fun p => p.1 ≠ k) = ev := by
    rw [List.filter_eq_self]
    intro p hp
    rw [decide_eq_true_iff]
    rintro rfl
    exact h (List.mem_map_of_mem hp)
  rw [hkeep]
  simp

lemma hashed_logEntry (w : World) (prev event : String) {kw : Event}
    (hkw : ∀ k ∈ ownKeys, k ∉ kw.map Prod.fst) :
    Hashed (logEntry w prev event kw) ∧ Event.prevHash (logEntry w prev event kw) = .str prev := by
  have hprev : Event.prevHash (logEntry w prev event kw) = .str prev := by
    rw [Event.prevHash, logEntry, get_setItem, if_neg (by decide),
      get_foldl_setItem (hkw _ (by decide))]
    rfl
  refine ⟨⟨prev, hprev, ?_⟩, hprev⟩
  have hnew : "hash" ∉ (kw.foldl (fun e p => setItem e p.1 p.2)
      [("ts", Json.str w.nowText), ("event", .str event), ("prev_hash", .str prev)]).map Prod.fst :=
    not_mem_keys_foldl_setItem (hkw _ (by decide)) (by simp)
  rw [Event.hash, Event.body, logEntry, get_setItem, if_pos rfl, filter_setItem_of_not_mem hnew]

lemma Intact.log {history : List Event} (h : Intact history) {w : World} {prev event : String}
    {kw : Event} (hprev : lastHash history = some prev) (hkw : ∀ k ∈ ownKeys, k ∉ kw.map Prod.fst) :
    Intact (history ++ [logEntry w prev event kw]) := by
  rw [intact_iff] at h ⊢
  obtain ⟨hhashed, hlink⟩ := hashed_logEntry w prev event hkw
  refine ⟨?_, ?_⟩
  · simp only [List.mem_append, List.mem_singleton]
    rintro ev (hev | rfl)
    · exact h.1 ev hev
    · exact hhashed
  · rw [linked_concat, hlink, lastHash_iff.mp hprev]
    exact ⟨h.2, rfl⟩

/-! ### What a command appends -/

variable {py : Platform} {w : World} {s s' : State}

lemma log_spec {event : String} {kw : Event} (h : log w s event kw = .ok s') :
    ∃ prev, lastHash s.history = some prev ∧
      s' = { s with history := s.history ++ [logEntry w prev event kw] } := by
  unfold log at h
  split at h
  · cases h
    exact ⟨_, ‹_›, rfl⟩
  · cases h

/-- The ledger of `s'` is that of `s` with one event more. -/
def Appends (w : World) (s s' : State) : Prop :=
  ∃ prev event kw, lastHash s.history = some prev ∧ (∀ k ∈ ownKeys, k ∉ kw.map Prod.fst) ∧
    s'.history = s.history ++ [logEntry w prev event kw]

lemma Appends.of_log {event : String} {kw : Event} (h : log w s event kw = .ok s')
    (hkw : ∀ k ∈ ownKeys, k ∉ kw.map Prod.fst) : Appends w s s' := by
  obtain ⟨prev, hprev, rfl⟩ := log_spec h
  exact ⟨prev, event, kw, hprev, hkw, rfl⟩

lemma Appends.congr {s₁ s₁' : State} (h : Appends w s s') (hs : s₁.history = s.history)
    (hs' : s₁'.history = s'.history) : Appends w s₁ s₁' := by
  obtain ⟨prev, event, kw, hprev, hkw, hhistory⟩ := h
  exact ⟨prev, event, kw, hs ▸ hprev, hkw, by rw [hs, hs', hhistory]⟩

lemma history_pendGate {gate : Option String} (h : pendGate s gate = .ok s') :
    s'.history = s.history := by
  cases gate with
  | none =>
    cases h
    rfl
  | some gid =>
    obtain ⟨g, -, h⟩ := Except.of_bind_eq_ok h
    cases h
    rfl

lemma history_passGate {evidence : EvidenceRecord} {gate : Option String}
    (h : passGate s evidence gate = .ok s') : s'.history = s.history := by
  cases gate with
  | none =>
    cases h
    rfl
  | some gid =>
    obtain ⟨g, -, h⟩ := Except.of_bind_eq_ok h
    cases h
    rfl

lemma appends_record {t : Task} {passed : Bool} {output kind : String}
    (h : record py w s t passed output kind = .ok s') : Appends w s s' := by
  obtain ⟨s₁, hlog, h⟩ := Except.of_bind_eq_ok h
  have happ := Appends.of_log hlog (by simp [ownKeys])
  split at h
  · obtain ⟨s₂, hgate, h⟩ := Except.of_bind_eq_ok h
    cases h
    have hsame := history_pendGate hgate
    exact happ.congr rfl hsame
  · cases h
    exact happ.congr rfl rfl

lemma history_attestedFail {tid note : String} (h : attestedFail w s tid note = .ok s') :
    s'.history = s.history := by
  unfold attestedFail at h
  split at h
  · cases h
    rfl
  · obtain ⟨t, -, h⟩ := Except.of_bind_eq_ok h
    cases h
    rfl

lemma history_attestedPass {tid message : String} {evidence : EvidenceRecord}
    (h : attestedPass w s tid evidence message = .ok s') : s'.history = s.history := by
  unfold attestedPass at h
  split at h
  · cases h
    rfl
  · obtain ⟨t, -, h⟩ := Except.of_bind_eq_ok h
    obtain ⟨s₁, hgate, h⟩ := Except.of_bind_eq_ok h
    cases h
    have hsame := history_passGate hgate
    exact hsame

lemma history_markedWontFix {tid : String} {wontFix : WontFix}
    (h : markedWontFix s tid wontFix = .ok s') : s'.history = s.history := by
  unfold markedWontFix at h
  split at h
  · cases h
    rfl
  · obtain ⟨t, -, h⟩ := Except.of_bind_eq_ok h
    cases h
    rfl

/-- Every command that succeeds appends one event. -/
lemma appends_perform {c : Command} (h : c.perform py w s = .ok s') : Appends w s s' := by
  cases c with
  | run tid =>
    obtain ⟨t, -, h⟩ := Except.of_bind_eq_ok h
    obtain ⟨-, -, h⟩ := Except.of_bind_eq_ok h
    obtain ⟨-, -, h⟩ := Except.of_bind_eq_ok h
    obtain ⟨-, -, h⟩ := Except.of_bind_eq_ok h
    obtain ⟨result, -, h⟩ := Except.of_bind_eq_ok h
    exact (appends_record h).congr rfl rfl
  | attest tid pass note evidence reopen trustRoots baseCommit =>
    obtain ⟨status, -, h⟩ := Except.of_bind_eq_ok h
    obtain ⟨-, -, h⟩ := Except.of_bind_eq_ok h
    split at h
    · obtain ⟨s₁, hfail, hlog⟩ := Except.of_bind_eq_ok h
      exact (Appends.of_log hlog (by simp [ownKeys])).congr (history_attestedFail hfail).symm rfl
    · obtain ⟨accepted, -, h⟩ := Except.of_bind_eq_ok h
      obtain ⟨s₁, hlog, hpass⟩ := Except.of_bind_eq_ok h
      exact (Appends.of_log hlog (by simp [ownKeys])).congr rfl (history_attestedPass hpass)
  | wontFix tid reason evidence =>
    obtain ⟨-, -, h⟩ := Except.of_bind_eq_ok h
    obtain ⟨file, -, h⟩ := Except.of_bind_eq_ok h
    obtain ⟨s₁, hmarked, hlog⟩ := Except.of_bind_eq_ok h
    exact (Appends.of_log hlog (by simp [ownKeys])).congr (history_markedWontFix hmarked).symm rfl
  | refresh => exact (Appends.of_log h (by simp [ownKeys])).congr rfl rfl
  | reset tid =>
    obtain ⟨t, -, h⟩ := Except.of_bind_eq_ok h
    exact (Appends.of_log h (by simp [ownKeys])).congr rfl rfl

/-! ### Journals -/

/-- Whether a command succeeds. -/
def succeeds (py : Platform) (s : State) (step : World × Command) : Bool :=
  (main py step.1 s step.2).isOk

/-- How many commands of a journal succeed. -/
def successes (py : Platform) (s : State) : List (World × Command) → ℕ
  | [] => 0
  | step :: journal => (succeeds py s step).toNat + successes py (execute py s step) journal

lemma main_of_intact (h : Intact s.history) (w : World) (c : Command) :
    main py w s c = c.perform py w s := by
  rw [main, show verifyHistoryChain s.history = .ok () from h]

/-- A command either leaves the state as it was or appends an event to a ledger that verifies. -/
lemma execute_cases (py : Platform) (s : State) (step : World × Command) :
    (succeeds py s step = false ∧ execute py s step = s) ∨
    (succeeds py s step = true ∧ Intact s.history ∧
      step.2.perform py step.1 s = .ok (execute py s step)) := by
  rw [succeeds, execute]
  cases hmain : main py step.1 s step.2 with
  | error refusal => exact .inl ⟨rfl, rfl⟩
  | ok s' =>
    refine .inr ⟨rfl, ?_⟩
    unfold main at hmain
    split at hmain
    · exact ⟨‹_›, hmain⟩
    · cases hmain

lemma execute_of_perform {c : Command} (h : Intact s.history) (hperform : c.perform py w s = .ok s') :
    execute py s (w, c) = s' := by
  rw [execute, main_of_intact h, hperform]

lemma intact_execute (py : Platform) (step : World × Command) (h : Intact s.history) :
    Intact (execute py s step).history ∧
      ∃ events, (execute py s step).history = s.history ++ events ∧
        events.length = (succeeds py s step).toNat := by
  obtain ⟨hno, hsame⟩ | ⟨hyes, -, hperform⟩ := execute_cases py s step
  · rw [hsame, hno]
    exact ⟨h, [], by simp⟩
  · obtain ⟨prev, event, kw, hprev, hkw, hhistory⟩ := appends_perform hperform
    rw [hhistory, hyes]
    exact ⟨h.log hprev hkw, [_], rfl, rfl⟩

lemma intact_executeAll (h : Intact s.history) (journal : List (World × Command)) :
    Intact (executeAll py s journal).history := by
  induction journal generalizing s with
  | nil => exact h
  | cons step journal ih => exact ih (intact_execute py step h).1

/-- From a ledger that verifies, whatever the commands of the processes and in whichever order, the
ledger still verifies, keeps the events it had in their places, and has one more for each command that
succeeded. -/
theorem executeAll_ledger (py : Platform) (s : State) (h : verifyHistoryChain s.history = .ok ())
    (journal : List (World × Command)) :
    verifyHistoryChain (executeAll py s journal).history = .ok () ∧
      s.history <+: (executeAll py s journal).history ∧
      (executeAll py s journal).history.length = s.history.length + successes py s journal := by
  refine ⟨intact_executeAll h journal, ?_⟩
  induction journal generalizing s with
  | nil => exact ⟨List.prefix_refl _, rfl⟩
  | cons step journal ih =>
    obtain ⟨hintact, events, hhistory, hlength⟩ := intact_execute py step h
    obtain ⟨hext, hcount⟩ := ih (execute py s step) hintact
    refine ⟨?_, ?_⟩
    · exact (List.prefix_append s.history events).trans (hhistory ▸ hext)
    · rw [executeAll, List.foldl_cons, ← executeAll, hcount, hhistory, List.length_append, hlength,
        successes, add_assoc]

namespace Sample

def someFloat (_ : List Char) : FloatRepr := ⟨"0.5".toList, by decide⟩

/-- A platform whose only date is the time `t`. -/
def platform : Platform where
  here := "/loop"
  unicode := asciiData
  reprStr s := "'" ++ s ++ "'"
  readFloat := someFloat
  fromIsoFormat s := if s = "t" then some ⟨false, 0⟩ else none
  relpath path _ := path
  ed := .transparent

/-- No files, and no scripts that end. -/
def emptyWorld : World where
  node _ := none
  now := 0
  nowText := "t"
  script _ := .crashed ""
  jsonError _ := ""

/-- No tasks, no gates and no events. -/
def emptyBoard : State where
  maxIterations := 4
  gates := []
  tasks := []
  history := []

/-- The first command succeeds and the second is refused. -/
def commands : List (World × Command) := [(emptyWorld, .refresh), (emptyWorld, .reset "T0")]

theorem executeAll_ledger_commands :
    verifyHistoryChain (executeAll platform emptyBoard commands).history = .ok () ∧
      emptyBoard.history <+: (executeAll platform emptyBoard commands).history ∧
      (executeAll platform emptyBoard commands).history.length =
        emptyBoard.history.length + successes platform emptyBoard commands :=
  executeAll_ledger platform emptyBoard rfl commands

end Sample

/-! ### The last hash binds the events -/

/-- The same event up to the order of its members: the same hash, and the same dictionary without it. -/
def SameEvent (ev ev' : Event) : Prop :=
  Event.hash ev = Event.hash ev' ∧ sorted (.obj (Event.body ev)) = sorted (.obj (Event.body ev'))

/-- What the hash of an event is the digest of. -/
def Event.preimage (ev : Event) : Bytes :=
  utf8 (((Event.prevHash ev).str?.getD "") ++ dumpsWith .spaced (sorted (.obj (Event.body ev))))

lemma Hashed.hash_eq {ev : Event} (h : Hashed ev) :
    Event.hash ev = .str (sha256 (Event.preimage ev)).hex := by
  obtain ⟨prev, hprev, hhash⟩ := h
  rw [hhash, Event.preimage, hprev, eventHash]
  rfl

/-- A text without a brace: what an event can name as the hash before it. -/
def NoBrace (prev : String) : Prop := '\x7b' ∉ prev.toList

lemma noBrace_hex (bs : Bytes) : NoBrace bs.hex := by
  have hdigit : ∀ n < 16, Nat.digitChar n ≠ '\x7b' := by decide
  rw [NoBrace, Bytes.hex, String.toList_ofList, List.mem_flatMap]
  rintro ⟨b, -, hb⟩
  have hlt : b.toNat < 256 := b.toNat_lt
  simp only [hexByte, List.mem_cons, List.not_mem_nil, or_false] at hb
  rcases hb with hb | hb
  · exact hdigit _ (by omega) hb.symm
  · exact hdigit _ (by omega) hb.symm

/-- In a ledger that verifies every event names a text without a brace. -/
lemma noBrace_of_linked {start : String} {history : List Event} (hstart : NoBrace start)
    (hall : ∀ ev ∈ history, Hashed ev)
    (h : Linked Event.prevHash Event.hash (.str start) history) :
    ∀ ev ∈ history, ∃ prev, Event.prevHash ev = .str prev ∧ NoBrace prev := by
  induction history generalizing start with
  | nil => simp
  | cons ev history ih =>
    rw [List.forall_mem_cons] at hall ⊢
    refine ⟨⟨start, h.1, hstart⟩, ?_⟩
    have hrest := h.2
    rw [hall.1.hash_eq] at hrest
    exact ih (noBrace_hex _) hall.2 hrest

/-- The text before the first brace and the one after it. -/
lemma append_brace_inj {a b x y : List Char} (ha : '\x7b' ∉ a) (hb : '\x7b' ∉ b)
    (h : a ++ '\x7b' :: x = b ++ '\x7b' :: y) : a = b ∧ x = y := by
  induction a generalizing b with
  | nil =>
    cases b with
    | nil => simpa using h
    | cons d ds =>
      obtain ⟨rfl, -⟩ := List.cons.inj h
      simp at hb
  | cons c cs ih =>
    cases b with
    | nil =>
      obtain ⟨rfl, -⟩ := List.cons.inj h
      simp at ha
    | cons d ds =>
      rw [List.mem_cons, not_or] at ha hb
      obtain ⟨rfl, htail⟩ := List.cons.inj h
      obtain ⟨rfl, hxy⟩ := ih ha.2 hb.2 htail
      exact ⟨rfl, hxy⟩

lemma readsBack_body {r : Json.Reader} {ev : Event} (h : Json.ReadsBack r (.obj ev)) :
    Json.ReadsBack r (sorted (.obj (Event.body ev))) := by
  apply Json.readsBack_sorted
  rw [Json.ReadsBack, Json.membersReadBack_iff] at h ⊢
  intro p hp
  exact h p (List.mem_of_mem_filter hp)

/-- Two events with one preimage are the same but for their hashes. -/
lemma body_eq_of_preimage {r : Json.Reader} {ev ev' : Event} {prev prev' : String}
    (hreads : Json.ReadsBack r (.obj ev)) (hreads' : Json.ReadsBack r (.obj ev'))
    (hprev : Event.prevHash ev = .str prev) (hprev' : Event.prevHash ev' = .str prev')
    (hbrace : NoBrace prev) (hbrace' : NoBrace prev')
    (h : Event.preimage ev = Event.preimage ev') :
    prev = prev' ∧ sorted (.obj (Event.body ev)) = sorted (.obj (Event.body ev')) := by
  have htext := utf8_injective h
  rw [hprev, hprev', ← String.toList_inj, String.toList_append, String.toList_append, dumpsWith, dumpsWith,
    String.toList_ofList, String.toList_ofList] at htext
  obtain ⟨cs, hcs⟩ := Json.renderWith_obj_eq_cons .spaced 0 (Json.sortKeys (Json.sortedMembers (Event.body ev)))
  obtain ⟨cs', hcs'⟩ := Json.renderWith_obj_eq_cons .spaced 0 (Json.sortKeys (Json.sortedMembers (Event.body ev')))
  have hparse := Json.parse_renderWith Json.Style.readable_spaced (readsBack_body hreads) 0
  have hparse' := Json.parse_renderWith Json.Style.readable_spaced (readsBack_body hreads') 0
  simp only [sorted] at htext hparse hparse' ⊢
  rw [hcs, hcs'] at htext
  obtain ⟨htake, rfl⟩ := append_brace_inj hbrace hbrace' htext
  refine ⟨String.toList_inj.mp htake, ?_⟩
  rw [hcs] at hparse
  rw [hcs'] at hparse'
  exact Option.some.inj (hparse.symm.trans hparse')

/-- Two ledgers that verify and end in one hash hold the same events. -/
lemma sameEvents_of_tip {r : Json.Reader} {history found : List Event} (h : Intact history)
    (hfound : Intact found) (hreads : ∀ ev ∈ history ++ found, Json.ReadsBack r (.obj ev))
    (hfree : CollisionFree ((history ++ found).map Event.preimage))
    (htip : tip Event.hash (.str "genesis") history = tip Event.hash (.str "genesis") found) :
    List.Forall₂ SameEvent history found := by
  have hgenesis : NoBrace "genesis" := by simp [NoBrace]
  obtain ⟨hall, hlinked⟩ := intact_iff.mp h
  obtain ⟨hall', hlinked'⟩ := intact_iff.mp hfound
  have hstart : ∀ ev, Hashed ev → Event.hash ev ≠ .str "genesis" := by
    intro ev hev heq
    rw [hev.hash_eq, Json.str.injEq] at heq
    have hback := Bytes.fromHex?_hex (sha256 (Event.preimage ev))
    rw [heq] at hback
    have hnone : Bytes.fromHex? "genesis" = none := by decide
    rw [hnone] at hback
    cases hback
  refine hlinked.forall₂_of_tip_eq hlinked' ?_ (fun ev hev => hstart ev (hall ev hev))
    (fun ev hev => hstart ev (hall' ev hev)) htip
  intro ev hev ev' hev' hhash
  have hpre : Event.preimage ev = Event.preimage ev' := by
    rw [(hall ev hev).hash_eq, (hall' ev' hev').hash_eq, Json.str.injEq] at hhash
    apply hfree _ _ _ _ (Bytes.hex_injective hhash)
    · exact List.mem_map_of_mem (List.mem_append_left _ hev)
    · exact List.mem_map_of_mem (List.mem_append_right _ hev')
  obtain ⟨prev, hprev, hbrace⟩ := noBrace_of_linked hgenesis hall hlinked ev hev
  obtain ⟨prev', hprev', hbrace'⟩ := noBrace_of_linked hgenesis hall' hlinked' ev' hev'
  obtain ⟨rfl, hbody⟩ := body_eq_of_preimage (hreads ev (List.mem_append_left _ hev))
    (hreads ev' (List.mem_append_right _ hev')) hprev hprev' hbrace hbrace' hpre
  exact ⟨⟨hhash, hbody⟩, by rw [hprev, hprev']⟩

/-- Whoever notes the last hash of the ledger at some time can tell later that nothing before was
changed: in any ledger that verifies, however it came about, the events up to one with the noted hash are
those of that time. -/
theorem executeAll_noted_hash (py : Platform) (s : State) (h : verifyHistoryChain s.history = .ok ())
    (journal : List (World × Command)) {noted : String} {before after : List Event} {ev : Event}
    (hnoted : lastHash (executeAll py s journal).history = some noted)
    (hfound : verifyHistoryChain (before ++ ev :: after) = .ok ())
    (hev : Event.hash ev = .str noted)
    (hreads : ∀ e ∈ (executeAll py s journal).history ++ before ++ [ev],
      Json.ReadsBack ⟨py.readFloat, true⟩ (.obj e))
    (hfree : CollisionFree (((executeAll py s journal).history ++ before ++ [ev]).map Event.preimage)) :
    List.Forall₂ SameEvent (executeAll py s journal).history (before ++ [ev]) := by
  have hledger : Intact (executeAll py s journal).history := intact_executeAll h journal
  have hbefore : Intact (before ++ [ev]) := by
    have hsplit : before ++ ev :: after = before ++ [ev] ++ after := by simp
    rw [hsplit] at hfound
    obtain ⟨hall, hlinked⟩ := intact_iff.mp hfound
    refine intact_iff.mpr ⟨fun e he => hall e (List.mem_append_left _ he), ?_⟩
    exact (linked_append.mp hlinked).1
  rw [List.append_assoc] at hreads hfree
  refine sameEvents_of_tip hledger hbefore hreads hfree ?_
  rw [lastHash_iff.mp hnoted, tip_concat, hev]

namespace Sample

def refreshEvent (w : World) (prev : String) : Event :=
  logEntry w prev "refresh" [("promoted", .int 0)]

/-- Two refreshes make a ledger that verifies. -/
lemma intact_refreshEvents (w : World) : ∃ noted, lastHash [refreshEvent w "genesis"] = some noted ∧
    Event.hash (refreshEvent w "genesis") = .str noted ∧
    verifyHistoryChain [refreshEvent w "genesis", refreshEvent w noted] = .ok () := by
  have hkeys : ∀ k ∈ ownKeys, k ∉ List.map Prod.fst [("promoted", Json.int 0)] := by simp [ownKeys]
  obtain ⟨prev, -, hhash⟩ := (hashed_logEntry w "genesis" "refresh" hkeys).1
  have hfirst : lastHash [refreshEvent w "genesis"] = some _ :=
    lastHash_iff.mpr (show tip Event.hash (.str "genesis") [refreshEvent w "genesis"] = _ from hhash)
  have hstart : Intact [refreshEvent w "genesis"] := (show Intact [] from rfl).log rfl hkeys
  exact ⟨_, hfirst, hhash, hstart.log hfirst hkeys⟩

lemma executeAll_refresh :
    (executeAll platform emptyBoard [(emptyWorld, .refresh)]).history =
      [refreshEvent emptyWorld "genesis"] := by
  have hstep : execute platform emptyBoard (emptyWorld, .refresh) =
      { emptyBoard with history := [refreshEvent emptyWorld "genesis"] } :=
    execute_of_perform (show Intact [] from rfl) rfl
  rw [executeAll, List.foldl_cons, hstep, List.foldl_nil]

lemma readsBack_refreshEvent (w : World) (prev : String) :
    Json.ReadsBack ⟨platform.readFloat, true⟩ (.obj (refreshEvent w prev)) :=
  Json.FloatFree.readsBack _ (by
    simp [refreshEvent, logEntry, setItem, Json.FloatFree, Json.FloatFreeMembers])

/-- A ledger that went on after its last hash was noted. -/
theorem executeAll_noted_hash_refresh :
    List.Forall₂ SameEvent (executeAll platform emptyBoard [(emptyWorld, .refresh)]).history
      ([] ++ [refreshEvent emptyWorld "genesis"]) := by
  obtain ⟨noted, hnoted, hhash, hfound⟩ := intact_refreshEvents emptyWorld
  rw [← executeAll_refresh] at hnoted
  apply executeAll_noted_hash platform emptyBoard rfl [(emptyWorld, .refresh)] hnoted hfound hhash
  · rw [executeAll_refresh]
    simp [readsBack_refreshEvent]
  · rw [executeAll_refresh]
    intro a ha b hb _
    simp only [List.append_nil, List.cons_append, List.nil_append, List.map_cons, List.map_nil, List.mem_cons,
      List.not_mem_nil, or_false, or_self] at ha hb
    rw [ha, hb]

end Sample

end AxiomGrid.LoopEngineering
