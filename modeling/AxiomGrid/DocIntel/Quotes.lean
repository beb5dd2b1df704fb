import AxiomGrid.DocIntel.Outcomes

/-!
# Quotes

The text that a citation of `ask` quotes went through `_split_sentences`: line breaks became blanks, and
the dots of abbreviations a placeholder and dots again. In a chunk in which the placeholder does not
occur, the quote is a piece of the text of the chunk, with its line breaks read as blanks.
-/

namespace AxiomGrid.DocIntel

open Audit (AuditEntry SignedAuditLog)

/-! ### Placeholders -/

/-- A text, and the text with some of its dots replaced by the placeholder. -/
inductive Marked : Str → Str → Prop where
  | nil : Marked [] []
  | keep (c : Char) {s t : Str} : Marked s t → Marked (c :: s) (c :: t)
  | dot {s t : Str} : Marked s t → Marked ('.' :: s) (dotMark ++ t)

namespace Marked

lemma refl (s : Str) : Marked s s := by
  induction s with
  | nil => exact .nil
  | cons c s ih => exact .keep c ih

lemma append {s s' t t' : Str} (h : Marked s t) (h' : Marked s' t') : Marked (s ++ s') (t ++ t') := by
  induction h with
  | nil => exact h'
  | keep c _ ih => exact .keep c ih
  | dot _ ih =>
    rw [List.cons_append, List.append_assoc]
    exact .dot ih

/-- A blank is no part of a placeholder, so that the text can be cut at it. -/
lemma cut {s a b : Str} {c : Char} (hc : Str.isSpace c = true) (h : Marked s (a ++ c :: b)) :
    ∃ a' b', s = a' ++ c :: b' ∧ Marked a' a ∧ Marked b' b := by
  have hmark : c ∉ dotMark := by
    intro hmem
    simp only [dotMark, List.mem_cons, List.not_mem_nil, or_false] at hmem
    obtain rfl | rfl | rfl | rfl | rfl := hmem <;> cases hc
  generalize ht : a ++ c :: b = t at h
  induction h generalizing a with
  | nil => simp at ht
  | @keep d s t hst ih =>
    cases a with
    | nil =>
      rw [List.nil_append, List.cons.injEq] at ht
      obtain ⟨rfl, rfl⟩ := ht
      exact ⟨[], s, rfl, .nil, hst⟩
    | cons e a =>
      rw [List.cons_append, List.cons.injEq] at ht
      obtain ⟨rfl, ht⟩ := ht
      obtain ⟨a', b', rfl, ha, hb⟩ := ih ht
      exact ⟨e :: a', b', rfl, .keep e ha, hb⟩
  | @dot s t hst ih =>
    have hbehind : ∃ z, a = dotMark ++ z ∧ z ++ c :: b = t := by
      obtain ⟨z, hz, hrest⟩ | ⟨z, ha, hrest⟩ := List.append_eq_append_iff.mp ht
      · cases z with
        | nil => exact ⟨[], by simpa using hz.symm, hrest⟩
        | cons d z =>
          rw [List.cons_append, List.cons.injEq] at hrest
          obtain ⟨rfl, -⟩ := hrest
          exact absurd (by rw [hz]; simp) hmark
      · exact ⟨z, ha, hrest.symm⟩
    obtain ⟨z, rfl, hz⟩ := hbehind
    obtain ⟨a', b', rfl, ha, hb⟩ := ih hz
    exact ⟨'.' :: a', b', rfl, .dot ha, hb⟩

/-- A part of the marked text between blanks, or at an end. -/
lemma part {s l x t : Str} (h : Marked s (l ++ x ++ t))
    (hl : l = [] ∨ ∃ l' c, l = l' ++ [c] ∧ Str.isSpace c = true)
    (ht : t = [] ∨ ∃ c t', t = c :: t' ∧ Str.isSpace c = true) :
    ∃ x', x' <:+: s ∧ Marked x' x := by
  have hright : ∀ {s : Str}, Marked s (x ++ t) → ∃ x', x' <+: s ∧ Marked x' x := by
    intro s h
    obtain rfl | ⟨c, t', rfl, hc⟩ := ht
    · rw [List.append_nil] at h
      exact ⟨s, List.prefix_refl s, h⟩
    · obtain ⟨x', b', rfl, hx, -⟩ := h.cut hc
      exact ⟨x', List.prefix_append _ _, hx⟩
  obtain rfl | ⟨l', c, rfl, hc⟩ := hl
  · obtain ⟨x', hx', hx⟩ := hright h
    exact ⟨x', hx'.isInfix, hx⟩
  · rw [List.append_assoc, List.append_assoc, List.singleton_append] at h
    obtain ⟨a', s', rfl, -, h⟩ := h.cut hc
    obtain ⟨x', hx', hx⟩ := hright h
    exact ⟨x', hx'.isInfix.trans ⟨a' ++ [c], [], by simp⟩, hx⟩

/-- A start of the marked text that is not a placeholder is one of the text. -/
lemma eq_cons {s t : Str} {c : Char} (hc : c ≠ '<') (h : Marked s (c :: t)) :
    ∃ s', s = c :: s' ∧ Marked s' t := by
  cases h with
  | keep _ h => exact ⟨_, rfl, h⟩
  | dot => exact absurd rfl hc

lemma restore_cons {c : Char} {cs : Str} (h : ¬dotMark <+: c :: cs) :
    restore (c :: cs) = c :: restore cs := by
  rw [restore]
  rintro cs rfl rfl
  exact h ⟨cs, rfl⟩

/-- The placeholders become dots again, if the text had none. -/
lemma restore_eq {s t : Str} (h : Marked s t) (hs : ¬dotMark <:+: s) : restore t = s := by
  induction h with
  | nil => rfl
  | @keep c s t hst ih =>
    have hno : ¬dotMark <+: c :: t := by
      rintro ⟨cs, hcs⟩
      rw [dotMark, List.cons_append, List.cons.injEq] at hcs
      obtain ⟨rfl, rfl⟩ := hcs
      obtain ⟨s₁, rfl, h₁⟩ := hst.eq_cons (by decide)
      obtain ⟨s₂, rfl, h₂⟩ := h₁.eq_cons (by decide)
      obtain ⟨s₃, rfl, h₃⟩ := h₂.eq_cons (by decide)
      obtain ⟨s₄, rfl, -⟩ := h₃.eq_cons (by decide)
      exact hs ⟨[], s₄, rfl⟩
    rw [restore_cons hno, ih fun h => hs (h.trans (List.suffix_cons c s).isInfix)]
  | @dot s t _ ih =>
    have hrest : restore (dotMark ++ t) = '.' :: restore t := rfl
    rw [hrest, ih fun h => hs (h.trans (List.suffix_cons '.' s).isInfix)]

end Marked

/-! ### Sentences -/

variable {u : UnicodeData} {round : ℚ → ℚ}

/-- A match of an abbreviation is the group and a dot. -/
lemma run_abbreviation {s s' : Regex.State} (h : s' ∈ Regex.run (abbreviation u) s) :
    ∃ g, s'.group = some g ∧ s.rest = g ++ '.' :: s'.rest := by
  rw [abbreviation, Regex.run, List.mem_flatMap] at h
  obtain ⟨s₁, hs₁, h⟩ := h
  have hsame : s₁ = s := by
    rw [Regex.run, List.mem_append, Regex.run, Regex.run] at hs₁
    obtain hs₁ | hs₁ := hs₁
    · split_ifs at hs₁
      · exact List.mem_singleton.mp hs₁
      · cases hs₁
    · split_ifs at hs₁
      · exact List.mem_singleton.mp hs₁
      · cases hs₁
  subst hsame
  rw [Regex.run, List.mem_flatMap] at h
  obtain ⟨s₂, hs₂, h⟩ := h
  rw [Regex.run, List.mem_map] at hs₂
  obtain ⟨mid, hmid, rfl⟩ := hs₂
  obtain ⟨w, hw⟩ := Regex.run_reads hmid
  simp only [Regex.run] at h
  split at h
  · cases h
  · rename_i c cs hrest
    split_ifs at h with hc
    · rw [List.mem_singleton] at h
      subst h
      refine ⟨w, ?_, ?_⟩
      · simp only [hw.rest, List.length_append, Nat.add_sub_cancel, List.take_left]
      · rw [hw.rest, show mid.rest = c :: cs from hrest, beq_iff_eq.mp hc]
    · cases h

lemma marked_protect (text : Str) : Marked text (protect u text) := by
  suffices hfrom : ∀ (fuel : ℕ) (before rest : Str), Marked rest
      (Regex.subFrom (abbreviation u) (fun m => m.group.getD [] ++ dotMark) fuel before rest) from
    hfrom _ _ _
  intro fuel
  induction fuel with
  | zero => exact fun _ rest => .refl rest
  | succ fuel ih =>
    intro before rest
    rw [Regex.subFrom]
    split
    · exact .refl rest
    · rename_i m hm
      obtain ⟨s, s', hrun, hrest, hgroup⟩ := Regex.searchFrom_run hm
      obtain ⟨g, hg, hdot⟩ := run_abbreviation hrun
      have htext : m.text = g ++ ['.'] := by
        have hparts : m.text ++ s'.rest = (g ++ ['.']) ++ s'.rest := by
          rw [← hrest, hdot]
          simp
        exact List.append_cancel_right hparts
      have hmarked : Marked m.text (m.group.getD [] ++ dotMark) := by
        rw [← hgroup, hg, htext]
        exact (Marked.refl g).append (.dot .nil)
      conv in Marked rest _ => rw [(Regex.searchFrom_spec hm).parts]
      exact ((Marked.refl m.skipped).append hmarked).append (ih _ _)

lemma sentenceGap_within : sentenceGap.Within fun c => Str.isSpace c = true :=
  ⟨trivial, fun _ hc => hc, fun _ hc => hc⟩

lemma sentenceGap_consuming : sentenceGap.Consuming := .inr (.inl trivial)

lemma normalize_of_not_mem {text : Str} (h : '\n' ∉ text) : normalize text = text := by
  apply Regex.sub_of_not_within (q := (· = '\n'))
  · exact ⟨fun c hc => beq_iff_eq.mp hc, fun c hc => beq_iff_eq.mp hc⟩
  · exact .inl trivial
  · rintro c hc rfl
    exact h hc

/-- A sentence is cut from the text at blanks, so that its placeholders are whole. -/
lemma mem_splitSentences {text sentence : Str} (hno : ¬dotMark <:+: text)
    (h : sentence ∈ splitSentences u text) : sentence <:+: normalize text := by
  have hmarks : ¬dotMark <:+: normalize text := by
    intro h
    exact hno (Regex.infix_of_infix_sub (by decide) h)
  rw [splitSentences] at h
  obtain ⟨piece, hpiece, rfl⟩ := List.mem_map.mp (List.mem_of_mem_filter h)
  obtain ⟨l, t, hparts, hl, ht⟩ := Regex.mem_pieces sentenceGap_within sentenceGap_consuming hpiece
  obtain ⟨l', t', hstrip, hl', ht'⟩ := Str.exists_strip piece
  have hprotected : protect u (normalize text) = (l ++ l') ++ Str.strip piece ++ (t' ++ t) := by
    rw [hparts]
    conv_lhs => rw [hstrip]
    simp only [List.append_assoc]
  have hmarked := @marked_protect u (normalize text)
  rw [hprotected] at hmarked
  have hleft : l ++ l' = [] ∨ ∃ front c, l ++ l' = front ++ [c] ∧ Str.isSpace c = true := by
    obtain rfl | ⟨front, c, rfl⟩ := List.eq_nil_or_concat' l'
    · rwa [List.append_nil]
    · exact .inr ⟨l ++ front, c, by simp, hl' c (by simp)⟩
  have hright : t' ++ t = [] ∨ ∃ c rest, t' ++ t = c :: rest ∧ Str.isSpace c = true := by
    cases t' with
    | nil => exact ht
    | cons c t' => exact .inr ⟨c, t' ++ t, rfl, ht' c (by simp)⟩
  obtain ⟨x, hx, hmarked⟩ := hmarked.part hleft hright
  rw [hmarked.restore_eq fun h => hmarks (h.trans hx)]
  exact hx

/-! ### Chosen sentences -/

lemma mem_chunks_of_retrieve {index : RetrievalIndex} {question : String} {topK : ℕ}
    {hit : RetrievalResult} (h : hit ∈ index.retrieve question topK) : hit.chunk ∈ index.chunks := by
  rw [RetrievalIndex.retrieve, List.mem_map] at h
  obtain ⟨⟨scored, i⟩, hscored, rfl⟩ := h
  have hmem := List.mem_of_mem_take (List.fst_mem_of_mem_zipIdx hscored)
  rw [List.mem_insertionSort, List.mem_map] at hmem
  obtain ⟨chunk, hchunk, rfl⟩ := hmem
  exact hchunk

/-- The loop chooses one of the sentences. -/
lemma choice_foldl_consider {question sentence : Str} {chunk : ChunkMeta}
    {cs : List (Str × ChunkMeta)} {best : Best}
    (h : (cs.foldl (Best.consider u round question) best).choice = some (sentence, chunk)) :
    best.choice = some (sentence, chunk) ∨ ∃ c ∈ cs, sentence = Str.strip c.1 ∧ chunk = c.2 := by
  induction cs generalizing best with
  | nil => exact .inl h
  | cons c cs ih =>
    obtain hbest | ⟨d, hd, hchoice⟩ := ih h
    · rw [Best.consider] at hbest
      split_ifs at hbest with hlt
      · cases hbest
        exact .inr ⟨c, List.mem_cons_self, rfl, rfl⟩
      · exact .inl hbest
    · exact .inr ⟨d, List.mem_cons_of_mem c hd, hchoice⟩

/-- A quote of a chunk: a piece of its text, which is normalised unless it is the start of the chunk. -/
def Quotes (quote : Str) (text : Str) : Prop :=
  quote <:+: text ∨ (¬dotMark <:+: text → quote <:+: normalize text)

lemma extractAnswer_quotes {question text : Str} {hits : List RetrievalResult} {citation : Citation}
    (h : extractAnswer u round question hits = some (text, citation)) :
    ∃ hit ∈ hits, citation = hit.chunk.cite text ∧ Quotes text hit.chunk.text.toList := by
  have hleading : leadingText hits = some (text, citation) →
      ∃ hit ∈ hits, citation = hit.chunk.cite text ∧ Quotes text hit.chunk.text.toList := by
    intro h
    cases hits with
    | nil => cases h
    | cons hit hits =>
      rw [leadingText] at h
      split_ifs at h with hblank
      cases h
      refine ⟨hit, List.mem_cons_self, rfl, .inl ?_⟩
      exact (Str.infix_strip _).trans (List.take_prefix _ _).isInfix
  rw [extractAnswer] at h
  split at h
  · exact hleading h
  · rename_i sentence chunk hchoice
    split_ifs at h with hscore
    · exact hleading h
    · cases h
      obtain hnone | ⟨c, hc, rfl, rfl⟩ := choice_foldl_consider hchoice
      · cases hnone
      · rw [candidates, List.mem_flatMap] at hc
        obtain ⟨hit, hhit, hc⟩ := hc
        obtain ⟨s, hs, rfl⟩ := List.mem_map.mp hc
        refine ⟨hit, hhit, rfl, .inr fun hno => ?_⟩
        exact (Str.infix_strip s).trans (mem_splitSentences hno hs)

/-! ### Results -/

/-- A result that is not refused cites a chunk of the index, and quotes it. -/
lemma result_quotes {session : Session} {call : Call}
    (h : (session.result u round call).refused = false) :
    ∃ chunk ∈ session.index.chunks, ∃ text : Str,
      (session.result u round call).citation = some (chunk.cite text) ∧
      Quotes text chunk.text.toList ∧
      (session.result u round call).answer = String.ofList
        (finalAnswer (tryLlmAugment call (session.index.retrieve call.question 5)) text) := by
  rw [Session.result] at h ⊢
  split_ifs at h ⊢ with hscan
  · cases h
  cases hhits : session.index.retrieve call.question 5 with
  | nil =>
    rw [hhits] at h
    cases h
  | cons best hits =>
    rw [hhits] at h
    simp only [Session.answerFrom] at h ⊢
    split_ifs at h ⊢ with hlow
    · cases h
    · split at h
      · cases h
      · rename_i text citation hextract
        obtain ⟨hit, hhit, rfl, hquotes⟩ := extractAnswer_quotes hextract
        rw [← hhits] at hhit
        exact ⟨hit.chunk, mem_chunks_of_retrieve hhit, text, rfl, hquotes, rfl⟩

/-- The result that `ask` returns is the one that it hands to `_audit`, but for the entry. -/
lemma ask_ok {session : Session} {call : Call} {result : AskResult}
    (h : (session.ask u round call).2 = .ok result) :
    result.refused = (session.result u round call).refused ∧
      result.citation = (session.result u round call).citation ∧
      result.answer = (session.result u round call).answer := by
  rw [Session.ask] at h
  split_ifs at h with hblank
  rw [Session.audit] at h
  split at h
  · split_ifs at h
    cases h
    exact ⟨rfl, rfl, rfl⟩
  · split_ifs at h
    cases h
    exact ⟨rfl, rfl, rfl⟩
  · cases h
    exact ⟨rfl, rfl, rfl⟩

/-- An entry that a call adds is grounded only if the call returns a result that is not refused. -/
lemma ask_grounded (session : Session) (call : Call) :
    ∃ added, (session.ask u round call).1.entries = session.entries ++ added ∧
      ∀ e ∈ added, e.grounded = .bool true →
        ∃ result, (session.ask u round call).2 = .ok result ∧ result.refused = false := by
  have hsame : (session.ask u round call).1 = session →
      ∃ added, (session.ask u round call).1.entries = session.entries ++ added ∧
        ∀ e ∈ added, e.grounded = .bool true →
          ∃ result, (session.ask u round call).2 = .ok result ∧ result.refused = false := by
    intro h
    exact ⟨[], by rw [h, List.append_nil], by simp⟩
  cases hlog : session.auditLog with
  | none =>
    apply hsame
    rw [Session.ask, Session.audit, hlog]
    split_ifs <;> rfl
  | some log =>
    obtain ⟨e, hask, -⟩ | ⟨hask, -⟩ | ⟨anchors, result, -, -, hrefused, hask⟩ :=
      @ask_cases u round session log hlog call
    · exact hsame (by rw [hask])
    · exact hsame (by rw [hask])
    · refine ⟨[(session.auditEvent call (session.result u round call) anchors).entry log.sessionKey
        log.lastSignature], ?_, ?_⟩
      · rw [hask, entries_of_log hlog]
        exact List.append_nil _
      · intro e he hgrounded
        rw [List.mem_singleton] at he
        have hsome : (session.result u round call).citation.isSome = true := by
          rw [he] at hgrounded
          exact Json.bool.inj hgrounded
        refine ⟨result, by rw [hask], ?_⟩
        rw [hrefused]
        obtain ⟨-, hnone, -⟩ | ⟨hanswered, -⟩ := @result_cases u round session call
        · rw [hnone] at hsome
          cases hsome
        · exact hanswered

namespace Sample

/-- A chunk on one line. -/
def plainChunk : ChunkMeta := { chunk with text := "Payment is due in May." }

/-- A question to which the local model says something else. -/
def modelCall : Call := { call with complete := fun _ => some "In June." }

/-- A call on a session with one chunk is answered and logged as grounded. -/
lemma asked {c : ChunkMeta} (hbox : c.bbox = chunk.bbox)
    (htext : Str.strip (c.text.toList.take 500) ≠ []) {call : Call}
    (hquestion : Str.strip call.question.toList ≠ []) :
    ∃ result e, ((session [c]).ask asciiData id call).2 = .ok result ∧ result.refused = false ∧
      ((session [c]).ask asciiData id call).1.entries = [e] ∧ e.grounded = .bool true := by
  have hanswerable : Answerable asciiData id (session [c]) call.question := by
    refine ⟨?_, _, rfl, similarity_enough, .inl htext⟩
    simp [Session.scan, session, PromptShield.scanDetailed]
  obtain ⟨-, -, hnot⟩ | ⟨hanswered, -, text, citation, hextract, hsome⟩ :=
    @result_cases asciiData id (session [c]) call
  · exact absurd hanswerable hnot
  have hcited : citation.bbox = chunk.bbox := by
    obtain ⟨hit, hhit, rfl, -⟩ := extractAnswer_quotes hextract
    have hchunk := mem_chunks_of_retrieve hhit
    rw [session, List.mem_singleton] at hchunk
    rw [ChunkMeta.cite, hchunk, hbox]
  have hanchors : ((session [c]).result asciiData id call).anchors ≠ none := by
    rw [AskResult.anchors, hsome]
    simp only [hcited]
    simp [chunk, Audit.BBox.mk?, Audit.Sample.not_int_one_lt_zero]
  obtain ⟨e, -, hblank | ⟨hnone, -⟩⟩ | ⟨-, -, hnone, -⟩ | ⟨anchors, result, -, -, hrefused, hask⟩ :=
    @ask_cases asciiData id (session [c]) _ rfl call
  · exact absurd hblank hquestion
  · exact absurd hnone hanchors
  · exact absurd hnone hanchors
  · refine ⟨result, _, by rw [hask], by rw [hrefused, hanswered], by rw [hask]; rfl, ?_⟩
    have hgrounded : ((session [c]).result asciiData id call).citation.isSome = true := by
      rw [hsome, Option.isSome_some]
    exact congrArg Json.bool hgrounded

/-- The sentence that is quoted has a blank where the chunk has a line break. -/
lemma extractAnswer_chunk :
    extractAnswer asciiData id call.question.toList ((session [chunk]).index.retrieve call.question 5) =
      some ("Payment is due in May.".toList, chunk.cite "Payment is due in May.".toList) := by
  decide +kernel

end Sample

end AxiomGrid.DocIntel
