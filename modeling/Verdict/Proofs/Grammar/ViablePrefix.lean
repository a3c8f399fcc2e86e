import Verdict.Proofs.Grammar.Parsing

/-!
# Misplaced tokens

Tokens begin a program when other tokens behind them complete a derivation. Every state of the
reader can be completed, so whatever it has gone over begins a program. Hence a token is
misplaced exactly where the tokens cease to begin a program, and the end of the input is
misplaced when they begin one to the last. Whatever the text of the fault says is expected could
stand there.
-/

namespace Verdict.Grammar

open Verdict.Parser

/-- The tokens begin a program: others behind them complete a derivation. -/
def Begins (us : List Token) : Prop :=
  ∃ (vs : List Token) (d : Derivation), d.tokens = us ++ vs

/-- The text of an expectation is right behind the tokens: each alternative that it lists is the
phrase of a kind, and every token with this phrase may come next, or it is the end of the input, and
the tokens are complete. -/
def Justified (text : String) (us : List Token) : Prop :=
  ∀ alternative ∈ Text.alternatives text,
    (∃ k : Token.Kind, k.phrase = alternative)
        ∧ (∀ t : Token, t.kind.phrase = alternative → Begins (us ++ [t]))
      ∨ alternative = "end of input" ∧ ∃ d : Derivation, d.tokens = us

/-- Whether tokens begin a program depends only on their kinds. -/
theorem Begins.of_kinds {us us' : List Token} (h : Begins us)
    (hkinds : us'.map Token.kind = us.map Token.kind) :
  Begins us'
  := by
  obtain ⟨vs, d, hd⟩ := h
  have hsentence : Sentence ((us' ++ vs).map Token.kind) := by
    use d
    rw [hd, List.map_append, List.map_append, hkinds]
  obtain ⟨d', hd'⟩ := hsentence.exists_derivation
  use vs, d'

/-! ### Completing a state -/

/-- A token of the given kind that can be read. -/
def filler (k : Token.Kind) : Token :=
  ⟨k, "0", 0, 1, 1⟩

theorem readable_filler (k : Token.Kind) :
  (filler k).Readable
  := by
  intro _
  have h : IsNumeral "0".toList ∧ "0".length ≤ Integer.maxDigits := by decide
  apply h

/-- Tokens lead from the state to a complete program. -/
def Completes (s : State) : Prop :=
  ∃ (vs : List Token) (cs : List Clause) (o : Otherwise),
    (∀ t ∈ vs, t.Readable) ∧ s.run vs = .ok ⟨cs, .done o⟩

theorem Completes.of_transition {s s' : State} {k : Token.Kind}
    (hstep : Transition s (filler k) s') (h : Completes s') :
  Completes s
  := by
  obtain ⟨vs, cs, o, hvs, hrun⟩ := h
  use filler k :: vs, cs, o
  constructor
  · rw [List.forall_mem_cons]
    exact ⟨readable_filler k, hvs⟩
  · rw [hstep.run_cons, hrun]

theorem completes_lastResult (cs : List Clause) (k : Token) :
  Completes ⟨cs, .lastResult k⟩
  := by
  apply Completes.of_transition (.lastResult rfl)
  apply Completes.of_transition (.lastValue rfl)
  exact ⟨[], cs, _, by simp, rfl⟩

theorem completes_value (cs : List Clause) (k : Token) (e : Condition) (r : Token) :
  Completes ⟨cs, .value k e r⟩
  := by
  apply Completes.of_transition (.value rfl)
  apply Completes.of_transition (.last rfl (List.cons_ne_nil _ cs))
  apply completes_lastResult

theorem completes_result (cs : List Clause) (k : Token) (e : Condition) :
  Completes ⟨cs, .result k e⟩
  := by
  apply Completes.of_transition (.result rfl)
  apply completes_value

/-- Behind an operand the open parentheses can be closed one after the other. -/
theorem completes_closed (cs : List Clause) (k : Token) (top : Parser.Chain)
    (below : List Parser.Chain) (e : Condition) :
  Completes ⟨cs, .condition k ⟨top, below⟩ (.closed e)⟩
  := by
  induction below generalizing top e with
  | nil =>
    apply Completes.of_transition (.conditionEnd rfl)
    apply completes_result
  | cons chain below ih =>
    apply Completes.of_transition (.groupEnd rfl)
    apply ih

theorem completes_relation (cs : List Clause) (k : Token) (stack : Stack) (x : String)
    (r : Relation) :
  Completes ⟨cs, .condition k stack (.relation x r)⟩
  := by
  apply Completes.of_transition (.literal rfl (compared_of_readable rfl (readable_filler .number)))
  apply completes_closed

theorem completes_missing (cs : List Clause) (k : Token) (stack : Stack) (x : String) :
  Completes ⟨cs, .condition k stack (.missingName x)⟩
  := by
  apply Completes.of_transition (.missingEnd rfl)
  apply completes_closed

theorem completes_spot (cs : List Clause) (k : Token) (stack : Stack) (spot : Spot) :
  Completes ⟨cs, .condition k stack spot⟩
  := by
  cases spot with
  | operand =>
    apply Completes.of_transition (.name rfl)
    apply Completes.of_transition (.relation (r := .eq) rfl)
    apply completes_relation
  | name x =>
    apply Completes.of_transition (.relation (r := .eq) rfl)
    apply completes_relation
  | relation x r => apply completes_relation
  | missing =>
    apply Completes.of_transition (.missingParen rfl)
    apply Completes.of_transition (.missingName rfl)
    apply completes_missing
  | missingParen =>
    apply Completes.of_transition (.missingName rfl)
    apply completes_missing
  | missingName x => apply completes_missing
  | closed e => apply completes_closed

theorem completes_opening (cs : List Clause) (k : Token) :
  Completes ⟨cs, .opening k⟩
  := by
  apply Completes.of_transition (.condition rfl)
  apply completes_spot

/-- Every state can be completed. -/
theorem completes (s : State) :
  Completes s
  := by
  obtain ⟨cs, stage⟩ := s
  cases stage with
  | clause =>
    apply Completes.of_transition (.clause rfl)
    apply completes_opening
  | opening k => apply completes_opening
  | condition k stack spot => apply completes_spot
  | result k e => apply completes_result
  | value k e r => apply completes_value
  | lastResult k => apply completes_lastResult
  | lastValue k r =>
    apply Completes.of_transition (.lastValue rfl)
    exact ⟨[], cs, _, by simp, rfl⟩
  | done o => exact ⟨[], cs, o, by simp, rfl⟩

/-! ### What the reader can go over -/

theorem begins_of_run {us : List Token} {s : State} (h : ∀ t ∈ us, t.Readable)
    (hrun : State.start.run us = .ok s) :
  Begins us
  := by
  obtain ⟨vs, cs, o, hvs, hdone⟩ := completes s
  have hnumerals : ∀ t ∈ us ++ vs, t.HasNumeral := by
    rw [List.forall_mem_append]
    exact ⟨fun t ht => (h t ht).hasNumeral, fun t ht => (hvs t ht).hasNumeral⟩
  rw [← State.run_append hrun] at hdone
  obtain ⟨d, hd, -⟩ := (Reads.run hnumerals hdone).exists_derivation
  use vs, d

theorem exists_run_of_begins {us : List Token} (h : ∀ t ∈ us, t.Readable) (hbegins : Begins us) :
  ∃ s, State.start.run us = .ok s
  := by
  obtain ⟨vs, d, hd⟩ := hbegins
  -- the tokens behind `us` may have numbers that cannot be read, so they are replaced
  have hsentence : Sentence ((us ++ vs.map fun t => filler t.kind).map Token.kind) := by
    use d
    rw [hd]
    simp [filler]
  obtain ⟨d', hd'⟩ := hsentence.exists_derivation
  have hreadable : ∀ t ∈ d'.tokens, t.Readable := by
    rw [hd', List.forall_mem_append, List.forall_mem_map]
    exact ⟨h, fun t _ => readable_filler t.kind⟩
  cases hrun : State.start.run us with
  | ok s => exact ⟨s, rfl⟩
  | error f =>
    have hd'run := d'.run (Derivation.readable_content hreadable)
    rw [hd', State.run_append_of_error hrun] at hd'run
    cases hd'run

/-- Readable tokens begin a program exactly if the reader goes over them. -/
theorem begins_iff_run {us : List Token} (h : ∀ t ∈ us, t.Readable) :
  Begins us ↔ ∃ s, State.start.run us = .ok s
  := by
  constructor
  · apply exists_run_of_begins h
  · rintro ⟨s, hrun⟩
    apply begins_of_run h hrun

theorem expected_eq_endOfInput {s : State} (h : s.expected = .endOfInput) :
  ∃ o, s.stage = .done o
  := by
  obtain ⟨cs, stage⟩ := s
  cases stage with
  | done o => exact ⟨o, rfl⟩
  | clause => cases cs <;> cases h
  | condition k stack spot => cases spot <;> cases h
  | _ => cases h

/-- No state expects a single relation. -/
theorem expected_ne_relation (s : State) (r : Relation) :
  s.expected ≠ .kind (.relation r)
  := by
  intro h
  obtain ⟨cs, stage⟩ := s
  cases stage with
  | clause => cases cs <;> cases h
  | condition k stack spot => cases spot <;> cases h
  | _ => cases h

/-- Behind readable tokens, every token of a kind that is expected may come next. -/
theorem begins_of_mem_expected {us : List Token} {s : State} (h : ∀ t ∈ us, t.Readable)
    (hrun : State.start.run us = .ok s) {t : Token} (ht : t.kind ∈ s.expected.kinds) :
  Begins (us ++ [t])
  := by
  obtain ⟨s', hstep⟩ := exists_transition_of_expected (readable_filler t.kind) ht
  have hbegins : Begins (us ++ [filler t.kind]) := by
    apply begins_of_run
    · rw [List.forall_mem_append, List.forall_mem_singleton]
      exact ⟨h, readable_filler t.kind⟩
    · rw [State.run_append hrun, hstep.run_cons, State.run_nil]
  apply hbegins.of_kinds
  simp [filler]

/-- Behind readable tokens, where nothing more is expected, the tokens are complete. -/
theorem exists_derivation_of_expected {us : List Token} {s : State} (h : ∀ t ∈ us, t.Readable)
    (hrun : State.start.run us = .ok s) (hend : s.expected = .endOfInput) :
  ∃ d : Derivation, d.tokens = us
  := by
  obtain ⟨o, hstage⟩ := expected_eq_endOfInput hend
  obtain ⟨cs, stage⟩ := s
  obtain rfl : stage = .done o := hstage
  obtain ⟨d, hd, -⟩ := (Reads.run (fun t ht => (h t ht).hasNumeral) hrun).exists_derivation
  use d

/-- The text of what a state expects is right behind the tokens that have been read. -/
theorem justified_expected {us : List Token} {s : State} (h : ∀ t ∈ us, t.Readable)
    (hrun : State.start.run us = .ok s) :
  Justified s.expected.text us
  := by
  intro alternative halternative
  by_cases hend : s.expected = .endOfInput
  · right
    rw [hend, Expected.alternatives_endOfInput, List.mem_singleton] at halternative
    exact ⟨halternative, exists_derivation_of_expected h hrun hend⟩
  · left
    rw [Expected.alternatives_text (expected_ne_relation s) hend] at halternative
    obtain ⟨k, hk, hphrase⟩ := List.mem_map.mp halternative
    refine ⟨⟨k, hphrase⟩, fun t ht => ?_⟩
    have hkind : t.kind = k := Token.Kind.phrase_injective (ht.trans hphrase.symm)
    apply begins_of_mem_expected h hrun
    rw [hkind]
    exact hk

/-! ### Where tokens are refused -/

theorem begins_nil :
  Begins []
  := by
  apply begins_of_run (s := State.start)
  · simp
  · rfl

/-- The first token with which readable tokens cease to begin a program is misplaced. -/
theorem ofTokens_of_not_begins {ts : List Token} (h : ∀ t ∈ ts, t.Readable) {i : Nat}
    (hi : i < ts.length) (hbefore : Begins (ts.take i)) (hnot : ¬ Begins (ts.take (i + 1))) :
  ∃ e, Program.ofTokens ts = .error (Fault.misplaced ts[i].offset e (some ts[i].text))
    ∧ Justified e.text (ts.take i)
  := by
  have htake : ∀ t ∈ ts.take i, t.Readable := fun t ht => h t (List.mem_of_mem_take ht)
  obtain ⟨s, hrun⟩ := exists_run_of_begins htake hbefore
  have hsplit : ts = ts.take i ++ ts[i] :: ts.drop (i + 1) := by
    rw [← List.drop_eq_getElem_cons hi, List.take_append_drop]
  use s.expected
  constructor
  · cases hstep : s.step ts[i] with
    | error f =>
      have hf := eq_misfit_of_step (h ts[i] (List.getElem_mem hi)) hstep
      have hall : State.start.run ts = .error f := by
        rw [hsplit, State.run_append hrun, State.run_cons_of_error hstep]
      rw [ofTokens_eq, hall, hf]
      rfl
    | ok s' =>
      apply absurd _ hnot
      apply begins_of_run fun t ht => h t (List.mem_of_mem_take ht)
      rw [List.take_succ_eq_append_getElem hi, State.run_append hrun,
        (Transition.of_step hstep).run_cons, State.run_nil]
  · apply justified_expected htake hrun

/-- Readable tokens that begin a program but write none end too early. -/
theorem ofTokens_of_begins {ts : List Token} (h : ∀ t ∈ ts, t.Readable) (hbegins : Begins ts)
    (hrefused : ∀ p, Program.ofTokens ts ≠ .ok p) :
  ∃ e, Program.ofTokens ts = .error (Fault.misplaced (Token.endOfAll ts) e none)
    ∧ Justified e.text ts
  := by
  obtain ⟨s, hrun⟩ := exists_run_of_begins h hbegins
  use s.expected
  constructor
  · rw [ofTokens_eq, hrun]
    obtain ⟨cs, stage⟩ := s
    cases stage with
    | done o =>
      apply absurd _ (hrefused ⟨cs.reverse, o⟩)
      rw [ofTokens_eq, hrun]
      rfl
    | _ => rfl
  · apply justified_expected h hrun

/-- Where readable tokens are refused. If they cease to begin a program, the first token with
which they do so is misplaced: the fault has its offset and shows its text in quotes. If they
begin a program to the last, the end of the input is misplaced: the fault has the offset behind
the last token, and zero when there is none. Either way, the text of what the fault expects is right
behind the tokens in front. -/
theorem ofTokens_misplaced {ts : List Token} (h : ∀ t ∈ ts, t.Readable)
    (hrefused : ∀ p, Program.ofTokens ts ≠ .ok p) :
  (∀ (i : Nat) (hi : i < ts.length), ¬ Begins (ts.take (i + 1)) →
      (∀ j < i, Begins (ts.take (j + 1))) →
      ∃ e found, Program.ofTokens ts = .error (Fault.misplaced ts[i].offset e found)
        ∧ Fault.foundText found = Text.quote ts[i].text ∧ Justified e.text (ts.take i))
    ∧ ((∀ n, Begins (ts.take n)) →
      ∃ e found, Program.ofTokens ts = .error (Fault.misplaced (Token.endOfAll ts) e found)
        ∧ Fault.foundText found = "end of input" ∧ Justified e.text ts)
  := by
  constructor
  · intro i hi hnot hleast
    have hbefore : Begins (ts.take i) := by
      cases i with
      | zero => apply begins_nil
      | succ j => apply hleast j (Nat.lt_succ_self j)
    obtain ⟨e, herror, hjustified⟩ := ofTokens_of_not_begins h hi hbefore hnot
    exact ⟨e, some ts[i].text, herror, rfl, hjustified⟩
  · intro hall
    have hbegins : Begins ts := by simpa using hall ts.length
    obtain ⟨e, herror, hjustified⟩ := ofTokens_of_begins h hbegins hrefused
    exact ⟨e, none, herror, rfl, hjustified⟩

/-- The tokens of `IF (x 5`. -/
def brokenTokens : List Token :=
  [⟨.keyword .ifWord, "IF", 0, 1, 1⟩, ⟨.leftParen, "(", 3, 1, 4⟩, ⟨.identifier, "x", 4, 1, 5⟩,
    ⟨.number, "5", 6, 1, 7⟩]

theorem ofTokens_brokenTokens :
  (∀ t ∈ brokenTokens, t.Readable) ∧ (∀ p, Program.ofTokens brokenTokens ≠ .ok p)
    ∧ ∃ e found, Program.ofTokens brokenTokens = .error (Fault.misplaced 6 e found)
      ∧ Fault.foundText found = Text.quote "5" ∧ Justified e.text (brokenTokens.take 3)
  := by
  have h : ∀ t ∈ brokenTokens, t.Readable := by decide
  have hrefused : ∀ p, Program.ofTokens brokenTokens ≠ .ok p := by
    intro p hp
    cases hp
  have hbegins : ∀ j < 3, Begins (brokenTokens.take (j + 1)) := by
    intro j hj
    apply (begins_iff_run fun t ht => h t (List.mem_of_mem_take ht)).mpr
    match j, hj with
    | 0, _ => exact ⟨_, rfl⟩
    | 1, _ => exact ⟨_, rfl⟩
    | 2, _ => exact ⟨_, rfl⟩
  have hnot : ¬ Begins (brokenTokens.take 4) := by
    rw [begins_iff_run fun t ht => h t (List.mem_of_mem_take ht)]
    rintro ⟨s, hs⟩
    cases hs
  exact ⟨h, hrefused, (ofTokens_misplaced h hrefused).1 3 (by decide) hnot hbegins⟩

end Verdict.Grammar
