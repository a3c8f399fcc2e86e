import Verdict.Proofs.Program.Correspondence

/-!
# Reading in lockstep

Two lists of tokens that say the same, token by token, are read in lockstep. After each step the
two states are at the same place of the grammar, with the same conditions, and the tokens that they
keep are related. So either both lists write programs that correspond, or both are refused at the
same index, where the same is expected.
-/

namespace Verdict

/-- The fault at an index, where something else is expected: that of the token with the index, or
that of the end of the input when there is no such token. -/
def Fault.misplacedAt (ts : List Token) (i : Nat) (e : Expected) : Fault :=
  match ts[i]? with
  | some t => .misplaced t.offset e (some t.text)
  | none => .misplaced (Token.endOfAll ts) e none

namespace Parser

variable {R : Token → Token → Prop}

/-! ### Corresponding states -/

/-- The two places within a clause are the same, and the tokens that have been read are related. -/
inductive Stage.Corresponds (R : Token → Token → Prop) : Stage → Stage → Prop where
  | clause : Corresponds R .clause .clause
  | opening {k k'} (hk : R k k') : Corresponds R (.opening k) (.opening k')
  | condition {k k'} (hk : R k k') (stack : Stack) (spot : Spot) :
    Corresponds R (.condition k stack spot) (.condition k' stack spot)
  | result {k k'} (hk : R k k') (e : Condition) : Corresponds R (.result k e) (.result k' e)
  | value {k k' r r'} (hk : R k k') (e : Condition) (hr : R r r') :
    Corresponds R (.value k e r) (.value k' e r')
  | lastResult {k k'} (hk : R k k') : Corresponds R (.lastResult k) (.lastResult k')
  | lastValue {k k' r r'} (hk : R k k') (hr : R r r') :
    Corresponds R (.lastValue k r) (.lastValue k' r')
  | done {o o'} (ho : o.Corresponds R o') : Corresponds R (.done o) (.done o')

/-- The two states have finished corresponding clauses and are at corresponding places. -/
structure State.Corresponds (R : Token → Token → Prop) (s s' : State) : Prop where
  clauses : List.Forall₂ (Clause.Corresponds R) s.clauses s'.clauses
  stage : s.stage.Corresponds R s'.stage

theorem State.corresponds_start :
  State.start.Corresponds R State.start
  := ⟨.nil, .clause⟩

/-- Corresponding states expect the same. -/
theorem State.Corresponds.expected_eq {s s' : State} (h : s.Corresponds R s') :
  s.expected = s'.expected
  := by
  obtain ⟨cs, stage⟩ := s
  obtain ⟨cs', stage'⟩ := s'
  obtain ⟨hcs, hstage⟩ := h
  cases hstage with
  | clause =>
    cases hcs with
    | nil => rfl
    | cons _ _ => rfl
  | _ => rfl

/-- States that correspond do so in both directions. -/
theorem State.Corresponds.symm {s s' : State} (h : s.Corresponds R s') :
  s'.Corresponds (fun t t' => R t' t) s
  := by
  obtain ⟨cs, stage⟩ := s
  obtain ⟨cs', stage'⟩ := s'
  obtain ⟨hcs, hstage⟩ := h
  constructor
  · apply hcs.flip.imp
    rintro c c' ⟨hkeyword, hcondition, hreturn, hvalue⟩
    exact ⟨hkeyword, hcondition.symm, hreturn, hvalue⟩
  · cases hstage with
    | done ho => exact .done ⟨ho.keyword, ho.result.keyword, ho.result.value⟩
    | _ =>
      constructor
      all_goals assumption

/-! ### Steps -/

theorem compared_eq {x : String} {r : Relation} {t t' : Token}
    (h : Integer.read t.text = Integer.read t'.text) :
  State.compared x r t = State.compared x r t'
  := by
  rw [State.compared, State.compared, h]

/-- Over tokens that say the same, corresponding states make corresponding steps. -/
theorem Transition.exists_corresponding (hR : ∀ t t', R t t' → t.Alike t') {s s₁ s' : State}
    {t t' : Token} (hstep : Transition s t s₁) (hs : s.Corresponds R s') (ht : R t t') :
  ∃ s₁', Transition s' t' s₁' ∧ s₁.Corresponds R s₁'
  := by
  obtain ⟨cs', stage'⟩ := s'
  obtain ⟨hcs, hstage⟩ := hs
  have halike := hR t t' ht
  have hkind := halike.kind_eq
  cases hstep with
  | clause h =>
    cases hstage
    exact ⟨_, .clause (hkind ▸ h), hcs, .opening ht⟩
  | last h hne =>
    cases hstage
    have hne' : cs' ≠ [] := by
      rintro rfl
      exact hne (List.forall₂_nil_right_iff.mp hcs)
    exact ⟨_, .last (hkind ▸ h) hne', hcs, .lastResult ht⟩
  | condition h =>
    cases hstage with
    | opening hk => exact ⟨_, .condition (hkind ▸ h), hcs, .condition hk _ _⟩
  | group h =>
    cases hstage with
    | condition hk => exact ⟨_, .group (hkind ▸ h), hcs, .condition hk _ _⟩
  | name h =>
    cases hstage with
    | condition hk =>
      rw [halike.text_eq h]
      exact ⟨_, .name (hkind ▸ h), hcs, .condition hk _ _⟩
  | relation h =>
    cases hstage with
    | condition hk => exact ⟨_, .relation (hkind ▸ h), hcs, .condition hk _ _⟩
  | literal h he =>
    cases hstage with
    | condition hk =>
      rw [compared_eq (halike.read_eq h)] at he
      exact ⟨_, .literal (hkind ▸ h) he, hcs, .condition hk _ _⟩
  | missing h =>
    cases hstage with
    | condition hk => exact ⟨_, .missing (hkind ▸ h), hcs, .condition hk _ _⟩
  | missingParen h =>
    cases hstage with
    | condition hk => exact ⟨_, .missingParen (hkind ▸ h), hcs, .condition hk _ _⟩
  | missingName h =>
    cases hstage with
    | condition hk =>
      rw [halike.text_eq h]
      exact ⟨_, .missingName (hkind ▸ h), hcs, .condition hk _ _⟩
  | missingEnd h =>
    cases hstage with
    | condition hk => exact ⟨_, .missingEnd (hkind ▸ h), hcs, .condition hk _ _⟩
  | connective h =>
    cases hstage with
    | condition hk => exact ⟨_, .connective (hkind ▸ h), hcs, .condition hk _ _⟩
  | groupEnd h =>
    cases hstage with
    | condition hk => exact ⟨_, .groupEnd (hkind ▸ h), hcs, .condition hk _ _⟩
  | conditionEnd h =>
    cases hstage with
    | condition hk => exact ⟨_, .conditionEnd (hkind ▸ h), hcs, .result hk _⟩
  | result h =>
    cases hstage with
    | result hk => exact ⟨_, .result (hkind ▸ h), hcs, .value hk _ ht⟩
  | value h =>
    cases hstage with
    | value hk e hr => exact ⟨_, .value (hkind ▸ h), .cons ⟨hk, rfl, hr, ht⟩ hcs, .clause⟩
  | lastResult h =>
    cases hstage with
    | lastResult hk => exact ⟨_, .lastResult (hkind ▸ h), hcs, .lastValue hk ht⟩
  | lastValue h =>
    cases hstage with
    | lastValue hk hr => exact ⟨_, .lastValue (hkind ▸ h), hcs, .done ⟨hk, hr, ht⟩⟩

/-- Where one of two corresponding states makes no step, the other makes none either. -/
theorem State.Corresponds.exists_error (hR : ∀ t t', R t t' → t.Alike t') {s s' : State}
    {t t' : Token} {f : Failure} (hs : s.Corresponds R s') (ht : R t t')
    (hf : s.step t = .error f) :
  ∃ f', s'.step t' = .error f'
  := by
  cases hstep : s'.step t' with
  | error f' => exact ⟨f', rfl⟩
  | ok s₁' =>
    -- the first state would answer a step of the second, since they correspond in both directions
    have hsymm : ∀ u u', R u' u → u.Alike u' := fun u u' hu => (hR u' u hu).symm
    obtain ⟨s₁, hback, -⟩ := (Transition.of_step hstep).exists_corresponding hsymm hs.symm ht
    rw [hback.step_eq] at hf
    cases hf

/-! ### Runs -/

/-- Over readable tokens that say the same, corresponding states lead to corresponding states, or
the tokens at one index are misplaced in both, where the same is expected. -/
theorem State.run_lockstep (hR : ∀ t t', R t t' → t.Alike t') {ts ts' : List Token}
    (hts : List.Forall₂ R ts ts') (h : ∀ t ∈ ts, t.Readable) (h' : ∀ t ∈ ts', t.Readable)
    {s s' : State} (hs : s.Corresponds R s') :
  (∃ s₁ s₁', s.run ts = .ok s₁ ∧ s'.run ts' = .ok s₁' ∧ s₁.Corresponds R s₁')
    ∨ ∃ (i : Nat) (t t' : Token) (e : Expected), ts[i]? = some t ∧ ts'[i]? = some t'
        ∧ s.run ts = .error (Fault.misplaced t.offset e (some t.text))
        ∧ s'.run ts' = .error (Fault.misplaced t'.offset e (some t'.text))
  := by
  induction hts generalizing s s' with
  | nil => exact Or.inl ⟨s, s', rfl, rfl, hs⟩
  | @cons t t' ts ts' ht hts ih =>
    rw [List.forall_mem_cons] at h h'
    cases hstep : s.step t with
    | ok s₁ =>
      obtain ⟨s₁', hstep', hs₁⟩ := (Transition.of_step hstep).exists_corresponding hR hs ht
      rw [(Transition.of_step hstep).run_cons, hstep'.run_cons]
      rcases ih h.2 h'.2 hs₁ with hok | ⟨i, u, u', e, hu, hu', hrun, hrun'⟩
      · exact Or.inl hok
      · exact Or.inr ⟨i + 1, u, u', e, hu, hu', hrun, hrun'⟩
    | error f =>
      obtain ⟨f', hstep'⟩ := hs.exists_error hR ht hstep
      rw [State.run_cons_of_error hstep, State.run_cons_of_error hstep',
        eq_misfit_of_step h.1 hstep, eq_misfit_of_step h'.1 hstep', State.misfit, State.misfit,
        ← hs.expected_eq]
      exact Or.inr ⟨0, t, t', s.expected, rfl, rfl, rfl, rfl⟩

theorem State.Corresponds.finish {s s' : State} (h : s.Corresponds R s')
    (position position' : Int) :
  (∃ p p', s.finish position = .ok p ∧ s'.finish position' = .ok p' ∧ p.Corresponds R p')
    ∨ ∃ e, s.finish position = .error (Fault.misplaced position e none)
        ∧ s'.finish position' = .error (Fault.misplaced position' e none)
  := by
  have hexpected := h.expected_eq
  obtain ⟨cs, stage⟩ := s
  obtain ⟨cs', stage'⟩ := s'
  obtain ⟨hcs, hstage⟩ := h
  cases hstage with
  | @done o o' ho =>
    left
    exact ⟨⟨cs.reverse, o⟩, ⟨cs'.reverse, o'⟩, rfl, rfl, List.rel_reverse hcs, ho⟩
  | _ =>
    right
    refine ⟨_, rfl, ?_⟩
    rw [hexpected]
    rfl

end Parser

/-- Readable tokens that say the same write programs that correspond, or they are refused at the
same index, where the same is expected. -/
theorem ofTokens_lockstep {R : Token → Token → Prop} (hR : ∀ t t', R t t' → t.Alike t')
    {ts ts' : List Token} (hts : List.Forall₂ R ts ts') (h : ∀ t ∈ ts, t.Readable)
    (h' : ∀ t ∈ ts', t.Readable) :
  (∃ p p', Program.ofTokens ts = .ok p ∧ Program.ofTokens ts' = .ok p' ∧ p.Corresponds R p')
    ∨ ∃ i e, Program.ofTokens ts = .error (Fault.misplacedAt ts i e)
        ∧ Program.ofTokens ts' = .error (Fault.misplacedAt ts' i e)
  := by
  rw [Parser.ofTokens_eq, Parser.ofTokens_eq]
  rcases Parser.State.run_lockstep hR hts h h' Parser.State.corresponds_start with
    ⟨s, s', hrun, hrun', hs⟩ | ⟨i, t, t', e, ht, ht', hrun, hrun'⟩
  · rw [hrun, hrun']
    rcases hs.finish (Token.endOfAll ts) (Token.endOfAll ts') with hok | ⟨e, hend, hend'⟩
    · exact Or.inl hok
    · right
      use ts.length, e
      rw [Fault.misplacedAt, Fault.misplacedAt, hts.length_eq, List.getElem?_length,
        ← hts.length_eq, List.getElem?_length]
      exact ⟨hend, hend'⟩
  · rw [hrun, hrun']
    right
    use i, e
    rw [Fault.misplacedAt, Fault.misplacedAt, ht, ht']
    exact ⟨rfl, rfl⟩

end Verdict
