import AxiomGrid.Lib.Counter
import AxiomGrid.Lib.Hex
import AxiomGrid.Lib.JsonText
import AxiomGrid.Lib.PyLower
import AxiomGrid.Lib.TotalVariation
import Mathlib.Data.Rat.Floor

/-!
# Style adapters

`TinyNGramModel` and `train_adapter` of `kairo/personalization/engine.py`, in exact arithmetic. An adapter
raises the counts of the tokens that the user writes more often than the model does. How far it raises them
is measured by what the user has written, not by what the model has read, so on little reading the raised
tokens overshoot the frequencies of the user.
-/

namespace AxiomGrid.Kairo.Personalization

open Dict (count total choose adjust)
open TotalVariation (tv frequency overshoot approach)

/-! ### Models -/

structure PersonalizationError where
  message : String
  deriving DecidableEq

/-- `dict[str, Counter]`. -/
abbrev Transitions := Dict Str (Dict Str ℕ)

structure TinyNGramModel where
  n : ℕ := 2
  transitions : Transitions := []
  totals : Dict Str ℕ := []
  vocab : List Str := []
  trained : Bool := false
  deriving DecidableEq

variable (u : UnicodeData)

/-- `_tokenize`. -/
def tokenize (text : Str) : List Str := Str.split (Str.lower u text)

/-- The windows of `n` tokens, for `n` at least 1: the key of a context and the token behind it. -/
def ngrams (n : ℕ) (tokens : List Str) : List (Str × Str) :=
  (List.range (tokens.length + 1 - n)).filterMap fun i =>
    tokens[i + n - 1]?.map (Str.unwords ((tokens.drop i).take (n - 1)), ·)

/-- The counter of a context in a `defaultdict`. -/
def counter (d : Transitions) (ctx : Str) : Dict Str ℕ := (d.get? ctx).getD []

/-- `transitions[context_key][next_token] += 1`. -/
def bump (d : Transitions) (gram : Str × Str) : Transitions :=
  d.set gram.1 ((counter d gram.1).set gram.2 (count (counter d gram.1) gram.2 + 1))

namespace TinyNGramModel

/-- The body of the inner loop of `train`. -/
def learn (self : TinyNGramModel) (gram : Str × Str) : TinyNGramModel :=
  { self with
    transitions := bump self.transitions gram
    totals := self.totals.set gram.1 (count self.totals gram.1 + 1)
    vocab := self.vocab.insert gram.2 }

/-- `train`. -/
def train (self : TinyNGramModel) (texts : List Str) : TinyNGramModel :=
  let learnt := texts.foldl (fun model text => (ngrams self.n (tokenize u text)).foldl learn model) self
  { learnt with
    vocab := (texts.flatMap (tokenize u)).foldl (fun vocab token => vocab.insert token) learnt.vocab
    trained := true }

/-- `{tok: count / total for tok, count in counter.items()}`. -/
def shares (c : Dict Str ℕ) (total : ℕ) : Dict Str ℚ := c.map fun item => (item.1, (item.2 : ℚ) / total)

/-- `get_distribution`. -/
def getDistribution (self : TinyNGramModel) (context : Str) : Dict Str ℚ :=
  let key := Str.strip (Str.lower u context)
  let uniform := self.vocab.map fun token => (token, 1 / (self.vocab.length : ℚ))
  match self.transitions.get? key with
  | none => uniform
  | some c => if count self.totals key = 0 then uniform else shares c (count self.totals key)

end TinyNGramModel

/-! ### Adapters -/

structure StyleAdapter where
  userId : Str := "local".toList
  adapterId : String := ""
  weightDeltas : Dict Str (Dict Str ℤ) := []
  trainedAt : ℚ := 0
  sampleCount : ℕ := 0
  styleHash : String := ""

namespace TinyNGramModel

/-- The copy that `apply_adapter` starts from. -/
def copy (self : TinyNGramModel) : TinyNGramModel where
  n := self.n
  transitions := self.transitions
  totals := self.transitions.map fun item => (item.1, count self.totals item.1)
  vocab := self.vocab
  trained := true

/-- `max(0, count + delta)`. -/
def shift (count : ℕ) (delta : ℤ) : ℕ := (count + delta).toNat

/-- The deltas of one context. A counter that would be empty afterwards is kept as it was. -/
def applyDeltas (self adapted : TinyNGramModel) (item : Str × Dict Str ℤ) : TinyNGramModel :=
  match adapted.transitions.get? item.1 with
  | none => adapted
  | some c =>
    let shifted := adjust shift item.2 c
    if total shifted = 0 then
      { adapted with
        transitions := adapted.transitions.set item.1 (counter self.transitions item.1)
        totals := adapted.totals.set item.1 (count self.totals item.1) }
    else
      { adapted with
        transitions := adapted.transitions.set item.1 shifted
        totals := adapted.totals.set item.1 (total shifted) }

/-- `apply_adapter`. -/
def applyAdapter (self : TinyNGramModel) (adapter : StyleAdapter) :
    Except PersonalizationError TinyNGramModel :=
  if self.trained then .ok (adapter.weightDeltas.foldl (applyDeltas self) (copy self))
  else .error ⟨"Cannot apply adapter to untrained model"⟩

end TinyNGramModel

/-- `user_transitions`. -/
def userTransitions (n : ℕ) (texts : List Str) : Transitions :=
  texts.foldl (fun d text => (ngrams n (tokenize u text)).foldl bump d) []

/-- `int(x)`. -/
def int (x : ℚ) : ℤ := if 0 ≤ x then ⌊x⌋ else ⌈x⌉

/-- The delta of a token that the user writes more often. -/
def delta (strength : ℤ) (baseline : Dict Str ℚ) (userTotal : ℕ) (token : Str) (userCount : ℕ) :
    Option ℤ :=
  let diff := (userCount : ℚ) / userTotal - (baseline.get? token).getD 0
  if 0 < diff then some (int (strength * diff * userTotal)) else none

/-- The deltas of a context, if there are any. -/
def contextDeltas (model : TinyNGramModel) (strength : ℤ) (ctx : Str) (c : Dict Str ℕ) :
    Option (Dict Str ℤ) :=
  let deltas := choose (delta strength (model.getDistribution u ctx) (total c)) c
  if deltas = [] then none else some deltas

/-- `json.dumps(weight_deltas, sort_keys=True)`. -/
def deltasText (weightDeltas : Dict Str (Dict Str ℤ)) : String :=
  Json.dumpsWith .spaced (Json.sorted (.obj (weightDeltas.map fun item =>
    (String.ofList item.1, .obj (item.2.map fun change => (String.ofList change.1, .int change.2))))))

/-- `train_adapter`, where `now` is the time of the day. -/
def trainAdapter (model : TinyNGramModel) (texts : List Str) (userId : Str) (n : ℕ) (strength : ℤ)
    (now : ℚ) : Except PersonalizationError StyleAdapter :=
  if texts = [] then .error ⟨"Cannot train adapter: no user texts provided"⟩
  else
    let weightDeltas := choose (contextDeltas u model strength) (userTransitions u n texts)
    .ok
      { userId := userId
        adapterId := String.ofList (((sha256 (utf8 (deltasText weightDeltas))).hex.toList).take 16)
        weightDeltas := weightDeltas
        trainedAt := now
        sampleCount := texts.length
        styleHash := (sha256 (utf8 (String.ofList (Str.joinLines texts)))).hex }

/-! ### Distances -/

/-- The total variation distance of two distributions. -/
def distance (p q : Dict Str ℚ) : ℚ :=
  tv (p.map Prod.fst ++ q.map Prod.fst).toFinset (fun token => (p.get? token).getD 0)
    fun token => (q.get? token).getD 0

/-- The tokens of two counters. -/
def tokensOf (b c : Dict Str ℕ) : Finset Str := (b.map Prod.fst ++ c.map Prod.fst).toFinset

/-- The frequency of a token. -/
def freq (c : Dict Str ℕ) (token : Str) : ℚ := (count c token : ℚ) / total c

/-- By how much a token is raised whose frequency is larger in the second counter. -/
def raise (strength : ℤ) (b c : Dict Str ℕ) (token : Str) : ℤ :=
  if freq b token < freq c token then ⌊strength * (freq c token - freq b token) * total c⌋ else 0

/-- What the raised tokens overshoot the second counter by is at most what the other ones approach it by. -/
def Balanced (strength : ℤ) (b c : Dict Str ℕ) : Prop :=
  overshoot (tokensOf b c) (fun token => (count b token : ℚ)) (fun token => (raise strength b c token : ℚ))
      (freq c) ≤
    approach (tokensOf b c) (fun token => (count b token : ℚ)) (fun token => (raise strength b c token : ℚ))
      (freq c)

instance (strength : ℤ) (b c : Dict Str ℕ) : Decidable (Balanced strength b c) :=
  inferInstanceAs (Decidable (_ ≤ _))

/-! ### Counters of transitions -/

lemma counter_set (d : Transitions) (ctx : Str) (c : Dict Str ℕ) (ctx' : Str) :
    counter (d.set ctx c) ctx' = if ctx = ctx' then c else counter d ctx' := by
  rw [counter, Dict.get?_set]
  split_ifs <;> rfl

/-- No counter is empty, and none has a token twice. -/
def Counted (d : Transitions) : Prop :=
  ∀ ctx c, d.get? ctx = some c → (c.map Prod.fst).Nodup ∧ 0 < total c

section

variable {d : Transitions}

lemma counted_nil : Counted [] := by
  intro ctx c hget
  cases hget

lemma Counted.set (h : Counted d) {c : Dict Str ℕ} (hnodup : (c.map Prod.fst).Nodup)
    (hpos : 0 < total c) (ctx : Str) : Counted (d.set ctx c) := by
  intro ctx' c' hget
  rw [Dict.get?_set] at hget
  split_ifs at hget
  · cases hget
    exact ⟨hnodup, hpos⟩
  · exact h ctx' c' hget

lemma Counted.nodup_counter (h : Counted d) (ctx : Str) : ((counter d ctx).map Prod.fst).Nodup := by
  rw [counter]
  cases hget : d.get? ctx with
  | none => exact List.nodup_nil
  | some c => exact (h ctx c hget).1

lemma total_bump (d : Transitions) (gram : Str × Str) :
    total (counter (bump d gram) gram.1) = total (counter d gram.1) + 1 := by
  have htotal := Dict.total_set (counter d gram.1) gram.2 (count (counter d gram.1) gram.2 + 1)
  rw [bump, counter_set, if_pos rfl]
  omega

lemma Counted.bump (h : Counted d) (gram : Str × Str) : Counted (bump d gram) := by
  have hpos := total_bump d gram
  rw [Personalization.bump, counter_set, if_pos rfl] at hpos
  exact h.set (Dict.nodup_set (h.nodup_counter gram.1) _ _) (by omega) gram.1

variable {u}

/-- The user's counters, each context with one. -/
lemma counted_userTransitions (n : ℕ) (texts : List Str) :
    Counted (userTransitions u n texts) ∧ ((userTransitions u n texts).map Prod.fst).Nodup := by
  refine List.foldlRecOn (motive := fun d => Counted d ∧ (d.map Prod.fst).Nodup) texts _
    ⟨counted_nil, List.nodup_nil⟩ fun d hd text _ => ?_
  exact List.foldlRecOn (motive := fun d => Counted d ∧ (d.map Prod.fst).Nodup)
    (ngrams n (tokenize u text)) _ hd fun d hd gram _ => ⟨hd.1.bump gram, Dict.nodup_set hd.2 _ _⟩

end

/-! ### Trained models -/

/-- The models that training, and adapting what has been trained, lead to. -/
inductive Trained : TinyNGramModel → Prop where
  | train (texts : List Str) : Trained (TinyNGramModel.train u { n := 2 } texts)
  | retrain {model : TinyNGramModel} (h : Trained model) (texts : List Str) : Trained (model.train u texts)
  | adapt {model adapted : TinyNGramModel} (h : Trained model) (adapter : StyleAdapter)
      (hok : model.applyAdapter adapter = .ok adapted) : Trained adapted

/-- The totals are those of the counters, and looking up a context leads to its counter. -/
structure Valid (model : TinyNGramModel) : Prop where
  bigram : model.n = 2
  counted : Counted model.transitions
  totals : ∀ ctx, count model.totals ctx = total (counter model.transitions ctx)
  lowered : ∀ ctx c, model.transitions.get? ctx = some c → Str.strip (Str.lower u ctx) = ctx

section

variable {u} {model self adapted : TinyNGramModel} {texts : List Str}

lemma isSpace_of_mem_split {s word : Str} (h : word ∈ Str.split s) {c : Char} (hc : c ∈ word) :
    Str.isSpace c = false := by
  have hmem : word ∈ s.splitOnP Str.isSpace := List.mem_of_mem_filter h
  clear h
  induction s generalizing word with
  | nil =>
    rw [List.splitOnP_nil, List.mem_singleton] at hmem
    rw [hmem] at hc
    cases hc
  | cons d s ih =>
    rw [List.splitOnP_cons_eq_if_modifyHead] at hmem
    split_ifs at hmem with hd
    · obtain rfl | hmem := List.mem_cons.mp hmem
      · cases hc
      · exact ih hc hmem
    · cases hparts : s.splitOnP Str.isSpace with
      | nil => exact absurd hparts (List.splitOnP_ne_nil _ s)
      | cons piece pieces =>
        rw [hparts] at hmem ih
        obtain rfl | hmem := List.mem_cons.mp hmem
        · obtain rfl | hc := List.mem_cons.mp hc
          · simpa using hd
          · exact ih hc List.mem_cons_self
        · exact ih hc (List.mem_cons_of_mem _ hmem)

/-- Looking up a token changes nothing of it. -/
lemma strip_lower_token (hu : Str.LowerStable u) {text token : Str} (h : token ∈ tokenize u text) :
    Str.strip (Str.lower u token) = token := by
  have hlower : Str.lower u token = token :=
    Str.lower_eq_self fun c hc => hu.of_mem_lower (Str.mem_of_mem_split h hc)
  have hdrop : ∀ s : Str, (∀ c ∈ s, Str.isSpace c = false) → s.dropWhile Str.isSpace = s := by
    intro s hs
    refine List.dropWhile_eq_self_iff.mpr fun hlength => ?_
    rw [hs _ (List.getElem_mem hlength)]
    exact Bool.false_ne_true
  have hspace : ∀ c ∈ token, Str.isSpace c = false := fun c hc => isSpace_of_mem_split h hc
  rw [hlower, Str.strip, hdrop token hspace,
    hdrop token.reverse fun c hc => hspace c (List.mem_reverse.mp hc), List.reverse_reverse]

/-- The contexts of bigrams are tokens. -/
lemma mem_of_mem_ngrams {tokens : List Str} {gram : Str × Str} (h : gram ∈ ngrams 2 tokens) :
    gram.1 ∈ tokens := by
  obtain ⟨i, hi, hgram⟩ := List.mem_filterMap.mp h
  obtain ⟨next, -, rfl⟩ := Option.map_eq_some_iff.mp hgram
  have hlt : i < tokens.length := by
    have := List.mem_range.mp hi
    omega
  rw [List.drop_eq_getElem_cons hlt]
  change Str.unwords [tokens[i]] ∈ tokens
  rw [Str.unwords, List.intercalate_singleton]
  exact List.getElem_mem hlt

lemma Valid.learn (h : Valid u model) {gram : Str × Str}
    (hctx : Str.strip (Str.lower u gram.1) = gram.1) : Valid u (model.learn gram) where
  bigram := h.bigram
  counted := h.counted.bump gram
  totals ctx := by
    rw [TinyNGramModel.learn, Dict.count_set]
    split_ifs with heq
    · rw [← heq, total_bump, h.totals]
    · rw [bump, counter_set, if_neg heq, h.totals]
  lowered ctx c hget := by
    rw [TinyNGramModel.learn, bump, Dict.get?_set] at hget
    split_ifs at hget with heq
    · rw [← heq, hctx]
    · exact h.lowered ctx c hget

lemma Valid.train (hu : Str.LowerStable u) (h : Valid u model) (texts : List Str) :
    Valid u (model.train u texts) := by
  have hlearnt : Valid u (texts.foldl (fun self text =>
      (ngrams model.n (tokenize u text)).foldl TinyNGramModel.learn self) model) := by
    refine List.foldlRecOn texts _ h fun self hself text _ => ?_
    refine List.foldlRecOn (ngrams model.n (tokenize u text)) _ hself fun self hself gram hgram => ?_
    rw [h.bigram] at hgram
    exact hself.learn (strip_lower_token hu (mem_of_mem_ngrams hgram))
  exact ⟨hlearnt.bigram, hlearnt.counted, hlearnt.totals, hlearnt.lowered⟩

lemma Valid.copy (h : Valid u self) : Valid u self.copy where
  bigram := h.bigram
  counted := h.counted
  totals ctx := by
    have hget := Dict.get?_map (fun ctx _ => count self.totals ctx) self.transitions ctx
    rw [TinyNGramModel.copy, count, hget]
    cases hctx : self.transitions.get? ctx with
    | none => rw [counter, hctx]; rfl
    | some c => rw [Option.map_some, Option.getD_some, h.totals]
  lowered := h.lowered

lemma Valid.set (h : Valid u adapted) {ctx : Str} {old c : Dict Str ℕ}
    (hold : adapted.transitions.get? ctx = some old) (hnodup : (c.map Prod.fst).Nodup)
    (hpos : 0 < total c) :
    Valid u { adapted with
      transitions := adapted.transitions.set ctx c
      totals := adapted.totals.set ctx (total c) } where
  bigram := h.bigram
  counted := h.counted.set hnodup hpos ctx
  totals ctx' := by
    rw [Dict.count_set, counter_set]
    split_ifs
    · rfl
    · exact h.totals ctx'
  lowered ctx' c' hget := by
    rw [Dict.get?_set] at hget
    split_ifs at hget with heq
    · exact h.lowered ctx' old (heq ▸ hold)
    · exact h.lowered ctx' c' hget

/-- Applying deltas invents no context. -/
lemma isSome_applyDeltas {item : Str × Dict Str ℤ} {ctx : Str} :
    ((TinyNGramModel.applyDeltas self adapted item).transitions.get? ctx).isSome =
      (adapted.transitions.get? ctx).isSome := by
  rw [TinyNGramModel.applyDeltas]
  cases hget : adapted.transitions.get? item.1 with
  | none => rfl
  | some c =>
    dsimp only
    split_ifs
    all_goals
      rw [Dict.get?_set]
      split_ifs with heq
      · rw [← heq, hget]; rfl
      · rfl

lemma Valid.applyDeltas (hself : Valid u self) (h : Valid u adapted)
    (hsub : ∀ ctx, (adapted.transitions.get? ctx).isSome = (self.transitions.get? ctx).isSome)
    (item : Str × Dict Str ℤ) : Valid u (TinyNGramModel.applyDeltas self adapted item) := by
  rw [TinyNGramModel.applyDeltas]
  cases hget : adapted.transitions.get? item.1 with
  | none => exact h
  | some c =>
    dsimp only
    split_ifs with hzero
    · have hsome := hsub item.1
      rw [hget, Option.isSome_some] at hsome
      obtain ⟨old, hold⟩ := Option.isSome_iff_exists.mp hsome.symm
      rw [hself.totals, counter, hold, Option.getD_some]
      obtain ⟨hnodup, hpos⟩ := hself.counted item.1 old hold
      exact h.set hget hnodup hpos
    · exact h.set hget (Dict.nodup_adjust (h.counted item.1 c hget).1) (Nat.pos_of_ne_zero hzero)

lemma Valid.applyAdapter (hself : Valid u self) {adapter : StyleAdapter}
    (hok : self.applyAdapter adapter = .ok adapted) : Valid u adapted := by
  rw [TinyNGramModel.applyAdapter] at hok
  split_ifs at hok
  cases hok
  refine (List.foldlRecOn (motive := fun adapted => Valid u adapted ∧
      ∀ ctx, (adapted.transitions.get? ctx).isSome = (self.transitions.get? ctx).isSome)
    adapter.weightDeltas _ ⟨hself.copy, fun _ => rfl⟩ fun adapted hadapted item _ => ?_).1
  exact ⟨hself.applyDeltas hadapted.1 hadapted.2 item,
    fun ctx => isSome_applyDeltas.trans (hadapted.2 ctx)⟩

lemma trained_applyDeltas (item : Str × Dict Str ℤ) :
    (TinyNGramModel.applyDeltas self adapted item).trained = adapted.trained := by
  rw [TinyNGramModel.applyDeltas]
  split
  · rfl
  · dsimp only
    split_ifs <;> rfl

/-- Every model that training leads to is trained, and looking up its contexts leads to their counters. -/
lemma Trained.valid (hu : Str.LowerStable u) (h : Trained u model) :
    Valid u model ∧ model.trained = true := by
  induction h with
  | train texts =>
    have hnew : Valid u { n := 2 } :=
      { bigram := rfl
        counted := counted_nil
        totals := fun _ => rfl
        lowered := fun ctx c hget => by cases hget }
    exact ⟨hnew.train hu texts, rfl⟩
  | retrain h texts ih => exact ⟨ih.1.train hu texts, rfl⟩
  | adapt h adapter hok ih =>
    refine ⟨ih.1.applyAdapter hok, ?_⟩
    rw [TinyNGramModel.applyAdapter] at hok
    split_ifs at hok
    cases hok
    exact List.foldlRecOn (motive := fun adapted : TinyNGramModel => adapted.trained = true)
      adapter.weightDeltas _ rfl fun adapted h item _ => (trained_applyDeltas item).trans h

end

/-! ### The counters of one context -/

section

variable {u} {model self adapted : TinyNGramModel} {b c : Dict Str ℕ} {ctx : Str} {strength : ℤ}

/-- What an adapter makes of the counter of a context that it leaves tokens in. -/
lemma get?_foldl_applyDeltas {deltas : Dict Str (Dict Str ℤ)} (hnodup : (deltas.map Prod.fst).Nodup)
    (hb : adapted.transitions.get? ctx = some b)
    (hpos : 0 < total (adjust TinyNGramModel.shift ((Dict.get? deltas ctx).getD []) b)) :
    (deltas.foldl (TinyNGramModel.applyDeltas self) adapted).transitions.get? ctx =
      some (adjust TinyNGramModel.shift ((Dict.get? deltas ctx).getD []) b) := by
  induction deltas generalizing adapted b with
  | nil => exact hb
  | cons item deltas ih =>
    obtain ⟨hnew, hnodup⟩ := List.nodup_cons.mp hnodup
    rw [Dict.get?] at hpos ⊢
    rw [List.foldl_cons]
    split_ifs at hpos ⊢ with hctx
    · have hnone : Dict.get? deltas ctx = none := by
        apply Dict.get?_eq_none
        intro entry hentry heq
        have hkey : entry.1 ∈ deltas.map Prod.fst := List.mem_map_of_mem hentry
        rw [heq, ← hctx] at hkey
        exact hnew hkey
      have hstep : (TinyNGramModel.applyDeltas self adapted item).transitions.get? ctx =
          some (adjust TinyNGramModel.shift item.2 b) := by
        rw [Option.getD_some] at hpos
        rw [TinyNGramModel.applyDeltas, hctx, hb]
        dsimp only
        rw [if_neg hpos.ne', Dict.get?_set, if_pos rfl]
      have hlater := ih hnodup hstep
      rw [hnone] at hlater
      exact hlater hpos
    · have hstep : (TinyNGramModel.applyDeltas self adapted item).transitions.get? ctx = some b := by
        rw [TinyNGramModel.applyDeltas]
        split
        · exact hb
        · dsimp only
          split_ifs
          all_goals rw [Dict.get?_set, if_neg hctx, hb]
      exact ih hnodup hstep hpos

lemma get?_shares (c : Dict Str ℕ) (token : Str) :
    (Dict.get? (TinyNGramModel.shares c (total c)) token).getD 0 = freq c token := by
  have hget := Dict.get?_map (fun _ (n : ℕ) => (n : ℚ) / total c) c token
  rw [TinyNGramModel.shares, hget, freq, count]
  cases Dict.get? c token with
  | none => simp
  | some n => rfl

/-- The distribution of a context that a model has read. -/
lemma Valid.getDistribution (h : Valid u model) (hb : model.transitions.get? ctx = some b) :
    model.getDistribution u ctx = TinyNGramModel.shares b (total b) := by
  have htotal : count model.totals ctx = total b := by rw [h.totals, counter, hb, Option.getD_some]
  rw [TinyNGramModel.getDistribution, h.lowered ctx b hb, hb, htotal]
  exact if_neg (h.counted ctx b hb).2.ne'

lemma raise_nonneg (hstrength : 0 ≤ strength) (b c : Dict Str ℕ) (token : Str) :
    0 ≤ raise strength b c token := by
  rw [raise]
  split_ifs with hlt
  · have hdiff : 0 ≤ freq c token - freq b token := (sub_pos.mpr hlt).le
    exact Int.floor_nonneg.mpr (mul_nonneg (mul_nonneg (Int.cast_nonneg hstrength) hdiff) (Nat.cast_nonneg _))
  · exact le_rfl

/-- The counter with the deltas of the context applied to it. -/
def raised (strength : ℤ) (b c : Dict Str ℕ) : Dict Str ℕ :=
  adjust TinyNGramModel.shift (choose (delta strength (TinyNGramModel.shares b (total b)) (total c)) c) b

lemma count_raised (hstrength : 0 ≤ strength) (hc : (c.map Prod.fst).Nodup) (token : Str) :
    (count (raised strength b c) token : ℤ) = count b token + raise strength b c token := by
  have hshift : ∀ {δ : ℤ}, 0 ≤ δ → (TinyNGramModel.shift (count b token) δ : ℤ) = count b token + δ :=
    fun hδ => Int.toNat_of_nonneg (add_nonneg (Int.natCast_nonneg _) hδ)
  have hraise := raise_nonneg hstrength b c token
  rw [raised, Dict.count_adjust (Dict.nodup_choose hc), Dict.get?_choose hc]
  cases hget : Dict.get? c token with
  | none =>
    have hfreq : freq c token = 0 := by rw [freq, count, hget]; simp
    have hle : ¬freq b token < freq c token := by
      rw [hfreq, freq]
      exact not_lt.mpr (div_nonneg (Nat.cast_nonneg _) (Nat.cast_nonneg _))
    rw [raise, if_neg hle, add_zero]
    rfl
  | some n =>
    have hfreq : (n : ℚ) / total c = freq c token := by rw [freq, count, hget, Option.getD_some]
    rw [Option.bind_some, delta, get?_shares, hfreq]
    by_cases hlt : freq b token < freq c token
    · have hdiff : 0 ≤ strength * (freq c token - freq b token) * total c :=
        mul_nonneg (mul_nonneg (Int.cast_nonneg hstrength) (sub_pos.mpr hlt).le) (Nat.cast_nonneg _)
      rw [raise, if_pos hlt] at hraise ⊢
      rw [if_pos (sub_pos.mpr hlt), Option.map_some, Option.getD_some, int, if_pos hdiff, hshift hraise]
    · rw [if_neg fun h => hlt (sub_pos.mp h), raise, if_neg hlt, add_zero]
      rfl

lemma nodup_raised (hb : (b.map Prod.fst).Nodup) : ((raised strength b c).map Prod.fst).Nodup :=
  Dict.nodup_adjust hb

lemma tokensOf_raised_subset : tokensOf (raised strength b c) c ⊆ tokensOf b c := by
  intro token htoken
  rw [tokensOf, List.mem_toFinset, List.mem_append] at htoken ⊢
  obtain htoken | htoken := htoken
  · exact (Dict.mem_keys_adjust htoken).imp_right Dict.mem_keys_choose
  · exact .inr htoken

lemma sum_count_tokensOf (hb : (b.map Prod.fst).Nodup) {T : Finset Str} (hT : tokensOf b c ⊆ T) :
    ∑ token ∈ T, (count b token : ℚ) = total b := by
  rw [← Nat.cast_sum, Dict.sum_count hb fun token htoken =>
    hT (List.mem_toFinset.mpr (List.mem_append_left _ htoken))]

lemma tokensOf_comm (b c : Dict Str ℕ) : tokensOf b c = tokensOf c b := by
  rw [tokensOf, tokensOf, List.toFinset_append, List.toFinset_append, Finset.union_comm]

lemma distance_shares (b c : Dict Str ℕ) :
    distance (TinyNGramModel.shares b (total b)) (TinyNGramModel.shares c (total c)) =
      tv (tokensOf b c) (freq b) (freq c) := by
  have hkeys : ∀ (c : Dict Str ℕ) (n : ℕ), (TinyNGramModel.shares c n).map Prod.fst = c.map Prod.fst :=
    fun c n => List.map_map
  rw [distance, hkeys, hkeys]
  simp only [get?_shares]
  rfl

lemma freq_eq_frequency (hb : (b.map Prod.fst).Nodup) {T : Finset Str} (hT : tokensOf b c ⊆ T) :
    freq b = frequency T fun token => (count b token : ℚ) := by
  funext token
  rw [frequency, sum_count_tokensOf hb hT, freq]

lemma freq_eq_zero {token : Str} (h : token ∉ tokensOf b c) : freq b token = 0 := by
  have hkey : token ∉ b.map Prod.fst := fun hmem =>
    h (List.mem_toFinset.mpr (List.mem_append_left _ hmem))
  rw [freq, Dict.count_eq_zero hkey, Nat.cast_zero, zero_div]

/-- Two counters: raising the first leaves tokens in it, and brings it no further away from the second
exactly if it is balanced. -/
lemma distance_raised_le_iff (hstrength : 0 ≤ strength) (hb : (b.map Prod.fst).Nodup)
    (hbpos : 0 < total b) (hc : (c.map Prod.fst).Nodup) (hcpos : 0 < total c) :
    0 < total (raised strength b c) ∧
      (distance (TinyNGramModel.shares (raised strength b c) (total (raised strength b c)))
          (TinyNGramModel.shares c (total c)) ≤
        distance (TinyNGramModel.shares b (total b)) (TinyNGramModel.shares c (total c)) ↔
          Balanced strength b c) := by
  have hcount : ∀ token, (count (raised strength b c) token : ℚ) =
      count b token + (raise strength b c token : ℚ) := by
    intro token
    have hint := count_raised hstrength hc (b := b) token
    exact_mod_cast hint
  have hsub : tokensOf (raised strength b c) c ⊆ tokensOf b c := tokensOf_raised_subset
  have hcomm : tokensOf c b ⊆ tokensOf b c := (tokensOf_comm c b).subset
  have hsumb := sum_count_tokensOf hb (Finset.Subset.refl (tokensOf b c))
  have hsumc := sum_count_tokensOf hc hcomm
  have hsumr := sum_count_tokensOf (nodup_raised hb) hsub
  have hδ : 0 ≤ ∑ token ∈ tokensOf b c, (raise strength b c token : ℚ) :=
    Finset.sum_nonneg fun token _ => Int.cast_nonneg (raise_nonneg hstrength b c token)
  have hpos : 0 < ∑ token ∈ tokensOf b c, (count b token : ℚ) := by
    rw [hsumb]
    exact Nat.cast_pos.mpr hbpos
  refine ⟨?_, ?_⟩
  · simp only [hcount, Finset.sum_add_distrib] at hsumr
    have hcast : (0 : ℚ) < total (raised strength b c) := by linarith
    exact Nat.cast_pos.mp hcast
  · have hone : ∑ token ∈ tokensOf b c, freq c token = 1 := by
      rw [freq_eq_frequency hc hcomm]
      refine TotalVariation.sum_frequency ?_
      rw [hsumc]
      exact (Nat.cast_pos.mpr hcpos).ne'
    have hnodup : ((raised strength b c).map Prod.fst).Nodup := nodup_raised hb
    have hfreq := freq_eq_frequency hnodup hsub
    simp only [hcount] at hfreq
    rw [distance_shares, distance_shares,
      ← TotalVariation.tv_of_subset hsub (fun _ h => freq_eq_zero h) fun token h =>
        freq_eq_zero (tokensOf_comm c (raised strength b c) ▸ h),
      hfreq, freq_eq_frequency hb (Finset.Subset.refl (tokensOf b c)), Balanced]
    refine TotalVariation.tv_raised_le_iff hpos hone hδ fun token _ hle => ?_
    rw [← freq_eq_frequency hb (Finset.Subset.refl (tokensOf b c))] at hle
    rw [raise, if_neg (not_lt.mpr hle), Int.cast_zero]

/-- A user who has written little, for how strong the deltas are, is not overshot. -/
lemma balanced_of_mul_le (hstrength : 0 ≤ strength) (hb : (b.map Prod.fst).Nodup)
    (hle : strength * total c ≤ total b) : Balanced strength b c := by
  have hcast : (strength * total c : ℚ) ≤ total b := by exact_mod_cast hle
  have hfreq := freq_eq_frequency hb (Finset.Subset.refl (tokensOf b c))
  refine TotalVariation.overshoot_le_approach (fun _ => Nat.cast_nonneg _)
    (fun _ => div_nonneg (Nat.cast_nonneg _) (Nat.cast_nonneg _))
    (Finset.sum_nonneg fun token _ => Int.cast_nonneg (raise_nonneg hstrength b c token))
    fun token _ => ?_
  rw [← hfreq, sum_count_tokensOf hb (Finset.Subset.refl (tokensOf b c))]
  by_cases hlt : freq b token < freq c token
  · refine .inl ?_
    have hdiff : 0 ≤ freq c token - freq b token := (sub_pos.mpr hlt).le
    rw [raise, if_pos hlt]
    calc (⌊strength * (freq c token - freq b token) * total c⌋ : ℚ)
        ≤ strength * (freq c token - freq b token) * total c := Int.floor_le _
      _ = strength * total c * (freq c token - freq b token) := by ring
      _ ≤ total b * (freq c token - freq b token) := mul_le_mul_of_nonneg_right hcast hdiff
  · exact .inr (not_lt.mp hlt)

/-- The counter that the adapter of a user leaves in a context of the model. -/
lemma get?_adapted (h : Valid u model) {n : ℕ} {texts : List Str}
    (hb : model.transitions.get? ctx = some b) (hc : (userTransitions u n texts).get? ctx = some c)
    (hpos : 0 < total (raised strength b c)) :
    ((choose (contextDeltas u model strength) (userTransitions u n texts)).foldl
        (TinyNGramModel.applyDeltas model) model.copy).transitions.get? ctx =
      some (raised strength b c) := by
  have hnodup := (counted_userTransitions (u := u) n texts).2
  have hdeltas : ((choose (contextDeltas u model strength) (userTransitions u n texts)).get? ctx).getD [] =
      choose (delta strength (TinyNGramModel.shares b (total b)) (total c)) c := by
    rw [Dict.get?_choose hnodup, hc, Option.bind_some, contextDeltas, h.getDistribution hb]
    split_ifs with hnone
    · rw [hnone]
      rfl
    · rfl
  have hcopy : model.copy.transitions.get? ctx = some b := hb
  rw [raised, ← hdeltas] at hpos ⊢
  exact get?_foldl_applyDeltas (Dict.nodup_choose hnodup) hcopy hpos

end

/-! ### Adapting to a user -/

variable {u} in
/-- An adapter brings no context further away from the user exactly if every context that both have is
balanced. -/
theorem adapted_closer_iff (hu : Str.LowerStable u) {model : TinyNGramModel} (hmodel : Trained u model)
    {texts : List Str} (htexts : texts ≠ []) {strength : ℤ} (hstrength : 0 ≤ strength) (userId : Str)
    (now : ℚ) :
    ∃ adapter adapted, trainAdapter u model texts userId 2 strength now = .ok adapter ∧
      model.applyAdapter adapter = .ok adapted ∧
      ((∀ ctx b c, model.transitions.get? ctx = some b → (userTransitions u 2 texts).get? ctx = some c →
          distance (adapted.getDistribution u ctx) (TinyNGramModel.shares c (total c)) ≤
            distance (model.getDistribution u ctx) (TinyNGramModel.shares c (total c))) ↔
        ∀ ctx b c, model.transitions.get? ctx = some b → (userTransitions u 2 texts).get? ctx = some c →
          Balanced strength b c) := by
  obtain ⟨hvalid, htrained⟩ := hmodel.valid hu
  obtain ⟨adapter, hadapter, hweights⟩ : ∃ adapter,
      trainAdapter u model texts userId 2 strength now = .ok adapter ∧
        adapter.weightDeltas = choose (contextDeltas u model strength) (userTransitions u 2 texts) := by
    rw [trainAdapter, if_neg htexts]
    exact ⟨_, rfl, rfl⟩
  have happly : model.applyAdapter adapter =
      .ok (adapter.weightDeltas.foldl (TinyNGramModel.applyDeltas model) model.copy) := if_pos htrained
  refine ⟨adapter, _, hadapter, happly, ?_⟩
  have hcontext : ∀ ctx b c, model.transitions.get? ctx = some b →
      (userTransitions u 2 texts).get? ctx = some c →
        (distance ((adapter.weightDeltas.foldl (TinyNGramModel.applyDeltas model)
            model.copy).getDistribution u ctx) (TinyNGramModel.shares c (total c)) ≤
          distance (model.getDistribution u ctx) (TinyNGramModel.shares c (total c)) ↔
            Balanced strength b c) := by
    intro ctx b c hb hc
    obtain ⟨hbnodup, hbpos⟩ := hvalid.counted ctx b hb
    obtain ⟨hcnodup, hcpos⟩ := (counted_userTransitions 2 texts).1 ctx c hc
    obtain ⟨hpos, hiff⟩ := distance_raised_le_iff hstrength hbnodup hbpos hcnodup hcpos
    have hget := get?_adapted hvalid hb hc hpos
    rw [← hweights] at hget
    rw [(hvalid.applyAdapter happly).getDistribution hget, hvalid.getDistribution hb]
    exact hiff
  exact forall₃_congr fun ctx b c => forall₂_congr fun hb hc => hcontext ctx b c hb hc

/-- A model that has read one text, and what its user has written. -/
def readOnce : TinyNGramModel := TinyNGramModel.train asciiData { n := 2 } ["a b a c".toList]

def written : List Str := ["a b a b a b a b a b a c a c a c".toList]

theorem adapted_closer_iff_readOnce :
    ∃ adapter adapted, trainAdapter asciiData readOnce written "local".toList 2 3 0 = .ok adapter ∧
      readOnce.applyAdapter adapter = .ok adapted ∧
      ((∀ ctx b c, readOnce.transitions.get? ctx = some b →
          (userTransitions asciiData 2 written).get? ctx = some c →
          distance (adapted.getDistribution asciiData ctx) (TinyNGramModel.shares c (total c)) ≤
            distance (readOnce.getDistribution asciiData ctx) (TinyNGramModel.shares c (total c))) ↔
        ∀ ctx b c, readOnce.transitions.get? ctx = some b →
          (userTransitions asciiData 2 written).get? ctx = some c → Balanced 3 b c) :=
  adapted_closer_iff Str.lowerStable_asciiData (.train _) (List.cons_ne_nil _ _) (by decide) _ _

/-- The user goes from `a` to `b` in five of eight cases, and the model in one of two; the adapted model
does so in four of five. -/
theorem overshot :
    Trained asciiData readOnce ∧
      ∃ adapter adapted, trainAdapter asciiData readOnce written "local".toList 2 3 0 = .ok adapter ∧
        readOnce.applyAdapter adapter = .ok adapted ∧
        ∃ b c, readOnce.transitions.get? ['a'] = some b ∧
          (userTransitions asciiData 2 written).get? ['a'] = some c ∧
          distance (readOnce.getDistribution asciiData ['a']) (TinyNGramModel.shares c (total c)) <
            distance (adapted.getDistribution asciiData ['a']) (TinyNGramModel.shares c (total c)) :=
  ⟨.train _, _, _, rfl, rfl, [(['b'], 1), (['c'], 1)], [(['b'], 5), (['c'], 3)], by decide +kernel,
    by decide +kernel, by decide +kernel⟩

end AxiomGrid.Kairo.Personalization
