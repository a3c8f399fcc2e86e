import Verdict.Program.Parser
import Verdict.Proofs.Grammar.Expectation
import Verdict.Proofs.Number.Numeral

/-!
# Transitions of the reader of programs

`Parser.Transition` lists all that a token can do to what has been read of a program. It is the
same as `Parser.State.step`, and a token of a kind that is expected always does something. When
every number is a numeral that is not too long, a token that does nothing is misplaced.

`Parser.State.run` reads several tokens, one after the other.
-/

namespace Verdict

/-- A number is written as a numeral. -/
def Token.HasNumeral (t : Token) : Prop :=
  t.kind = .number → IsNumeral t.text.toList

/-- A number is written as a numeral with no more digits than can be read. -/
def Token.Readable (t : Token) : Prop :=
  t.kind = .number → IsNumeral t.text.toList ∧ t.text.length ≤ Integer.maxDigits

instance (t : Token) : Decidable t.Readable :=
  inferInstanceAs (Decidable (_ → _))

theorem Token.Readable.hasNumeral {t : Token} (h : t.Readable) :
  t.HasNumeral
  := fun hkind => (h hkind).1

namespace Parser

/-- The transition from a state to the next over a token. -/
inductive Transition : State → Token → State → Prop where
  | clause {cs t} (h : t.kind = .keyword .ifWord) :
    Transition ⟨cs, .clause⟩ t ⟨cs, .opening t⟩
  | last {cs t} (h : t.kind = .keyword .elseWord) (hcs : cs ≠ []) :
    Transition ⟨cs, .clause⟩ t ⟨cs, .lastResult t⟩
  | condition {cs k t} (h : t.kind = .leftParen) :
    Transition ⟨cs, .opening k⟩ t ⟨cs, .condition k ⟨[], []⟩ .operand⟩
  | group {cs k stack t} (h : t.kind = .leftParen) :
    Transition ⟨cs, .condition k stack .operand⟩ t
      ⟨cs, .condition k ⟨[], stack.top :: stack.below⟩ .operand⟩
  | name {cs k stack t} (h : t.kind = .identifier) :
    Transition ⟨cs, .condition k stack .operand⟩ t ⟨cs, .condition k stack (.name t.text)⟩
  | relation {cs k stack x r t} (h : t.kind = .relation r) :
    Transition ⟨cs, .condition k stack (.name x)⟩ t ⟨cs, .condition k stack (.relation x r)⟩
  | literal {cs k stack x r e t} (h : t.kind = .number) (he : State.compared x r t = .ok e) :
    Transition ⟨cs, .condition k stack (.relation x r)⟩ t ⟨cs, .condition k stack (.closed e)⟩
  | missing {cs k stack t} (h : t.kind = .isMissing) :
    Transition ⟨cs, .condition k stack .operand⟩ t ⟨cs, .condition k stack .missing⟩
  | missingParen {cs k stack t} (h : t.kind = .leftParen) :
    Transition ⟨cs, .condition k stack .missing⟩ t ⟨cs, .condition k stack .missingParen⟩
  | missingName {cs k stack t} (h : t.kind = .identifier) :
    Transition ⟨cs, .condition k stack .missingParen⟩ t
      ⟨cs, .condition k stack (.missingName t.text)⟩
  | missingEnd {cs k stack x t} (h : t.kind = .rightParen) :
    Transition ⟨cs, .condition k stack (.missingName x)⟩ t
      ⟨cs, .condition k stack (.closed (.missing x))⟩
  | connective {cs k stack e c t} (h : t.kind = .connective c) :
    Transition ⟨cs, .condition k stack (.closed e)⟩ t
      ⟨cs, .condition k ⟨(e, c) :: stack.top, stack.below⟩ .operand⟩
  | groupEnd {cs k top chain below e t} (h : t.kind = .rightParen) :
    Transition ⟨cs, .condition k ⟨top, chain :: below⟩ (.closed e)⟩ t
      ⟨cs, .condition k ⟨chain, below⟩ (.closed (.group (top.close e)))⟩
  | conditionEnd {cs k top e t} (h : t.kind = .rightParen) :
    Transition ⟨cs, .condition k ⟨top, []⟩ (.closed e)⟩ t ⟨cs, .result k (top.close e)⟩
  | result {cs k e t} (h : t.kind = .keyword .returnWord) :
    Transition ⟨cs, .result k e⟩ t ⟨cs, .value k e t⟩
  | value {cs k e r t} (h : t.kind = .number) :
    Transition ⟨cs, .value k e r⟩ t ⟨⟨k, e, ⟨r, t⟩⟩ :: cs, .clause⟩
  | lastResult {cs k t} (h : t.kind = .keyword .returnWord) :
    Transition ⟨cs, .lastResult k⟩ t ⟨cs, .lastValue k t⟩
  | lastValue {cs k r t} (h : t.kind = .number) :
    Transition ⟨cs, .lastValue k r⟩ t ⟨cs, .done ⟨k, ⟨r, t⟩⟩⟩

/-! ### Transitions and steps -/

theorem Transition.step_eq {s s' : State} {t : Token} (h : Transition s t s') :
  s.step t = .ok s'
  := by
  cases h with
  | last h hcs => simp [State.step, h, hcs]
  | literal h he => simp [State.step, State.stepCondition, h, he, Except.map]
  | _ h => simp [State.step, State.stepCondition, State.closeParen, h, Except.map]

theorem Transition.of_stepCondition {cs : List Clause} {k : Token} {stack : Stack} {spot : Spot}
    {t : Token} {stage : Stage}
    (h : State.stepCondition k stack spot t = some (.ok stage)) :
  Transition ⟨cs, .condition k stack spot⟩ t ⟨cs, stage⟩
  := by
  unfold State.stepCondition at h
  split at h
  · next hkind =>
    cases h
    apply Transition.group hkind
  · next hkind =>
    cases h
    apply Transition.name hkind
  · next hkind =>
    cases h
    apply Transition.missing hkind
  · next hkind =>
    cases h
    apply Transition.relation hkind
  · next x r hkind =>
    cases he : State.compared x r t with
    | error f => simp [he, Except.map] at h
    | ok e =>
      obtain rfl : _ = stage := by simpa [he, Except.map] using h
      apply Transition.literal hkind he
  · next hkind =>
    cases h
    apply Transition.missingParen hkind
  · next hkind =>
    cases h
    apply Transition.missingName hkind
  · next hkind =>
    cases h
    apply Transition.missingEnd hkind
  · next hkind =>
    cases h
    apply Transition.connective hkind
  · next hkind =>
    cases h
    obtain ⟨top, _ | ⟨chain, below⟩⟩ := stack
    · apply Transition.conditionEnd hkind
    · apply Transition.groupEnd hkind
  · cases h

theorem Transition.of_step {s s' : State} {t : Token} (h : s.step t = .ok s') :
  Transition s t s'
  := by
  obtain ⟨cs, stage⟩ := s
  unfold State.step at h
  split at h
  · next heq hkind =>
    cases heq
    cases h
    apply Transition.clause hkind
  · next heq hkind =>
    cases heq
    split at h
    · cases h
    · next hcs =>
      cases h
      apply Transition.last hkind (by simpa using hcs)
  · next heq hkind =>
    cases heq
    cases h
    apply Transition.condition hkind
  · next k stack spot heq =>
    cases heq
    split at h
    · cases h
    · next r hr =>
      cases r with
      | error f => simp [Except.map] at h
      | ok stage' =>
        cases h
        apply Transition.of_stepCondition hr
  · next heq hkind =>
    cases heq
    cases h
    apply Transition.result hkind
  · next heq hkind =>
    cases heq
    cases h
    apply Transition.value hkind
  · next heq hkind =>
    cases heq
    cases h
    apply Transition.lastResult hkind
  · next heq hkind =>
    cases heq
    cases h
    apply Transition.lastValue hkind
  · cases h

/-! ### Tokens that do not fit -/

/-- A comparison with a numeral compares with the number that its digits write, unless there are
too many of them. -/
theorem compared_of_hasNumeral {x : String} {r : Relation} {t : Token} (hkind : t.kind = .number)
    (h : t.HasNumeral) :
  State.compared x r t =
    if Integer.maxDigits < t.text.length then
      .error (.integer (.tooLong t.text.length))
    else
      .ok (.compare x (.known r) (Text.ofDigitChars t.text.toList))
  := by
  rw [State.compared, Integer.read_numeral (h hkind)]
  by_cases hlength : Integer.maxDigits < t.text.length
  · simp [hlength]
  · simp [hlength]

/-- A numeral that is not too long can be compared with. -/
theorem compared_of_readable {x : String} {r : Relation} {t : Token} (hkind : t.kind = .number)
    (h : t.Readable) :
  State.compared x r t = .ok (.compare x (.known r) (Text.ofDigitChars t.text.toList))
  := by
  rw [compared_of_hasNumeral hkind h.hasNumeral]
  apply if_neg (Nat.not_lt.mpr (h hkind).2)

/-- A comparison with a numeral is with a readable one, and with the number that its digits
write. -/
theorem eq_of_compared {x : String} {r : Relation} {t : Token} {e : Condition}
    (hkind : t.kind = .number) (h : t.HasNumeral) (he : State.compared x r t = .ok e) :
  t.Readable ∧ e = .compare x (.known r) (Text.ofDigitChars t.text.toList)
  := by
  rw [compared_of_hasNumeral hkind h] at he
  split at he
  · cases he
  · next hlength =>
    cases he
    exact ⟨fun _ => ⟨h hkind, Nat.not_lt.mp hlength⟩, rfl⟩

/-- The token is a number with more digits than can be read, and the failure says so. -/
def TooLong (t : Token) (f : Failure) : Prop :=
  t.kind = .number ∧ Integer.maxDigits < t.text.length
    ∧ f = .integer (.tooLong t.text.length)

theorem not_tooLong_of_readable {t : Token} {f : Failure} (h : t.Readable) :
  ¬ TooLong t f
  := by
  rintro ⟨hkind, hlong, -⟩
  have hlength := (h hkind).2
  omega

theorem tooLong_of_stepCondition {k : Token} {stack : Stack} {spot : Spot} {t : Token}
    {f : Failure} (ht : t.HasNumeral) (h : State.stepCondition k stack spot t = some (.error f)) :
  TooLong t f
  := by
  unfold State.stepCondition at h
  split at h
  case h_5 x r hkind =>
    rw [compared_of_hasNumeral hkind ht] at h
    split at h
    · next hlong =>
      cases h
      exact ⟨hkind, hlong, rfl⟩
    · cases h
  all_goals cases h

/-- A token that makes no step is misplaced, or a number that is too long. -/
theorem misfit_or_tooLong_of_step {s : State} {t : Token} {f : Failure} (ht : t.HasNumeral)
    (h : s.step t = .error f) :
  f = s.misfit t ∨ TooLong t f
  := by
  unfold State.step at h
  split at h
  case h_2 =>
    split at h
    · exact Or.inl (Except.error.inj h).symm
    · cases h
  case h_4 =>
    split at h
    · exact Or.inl (Except.error.inj h).symm
    · next r hr =>
      cases r with
      | error f' =>
        cases h
        exact Or.inr (tooLong_of_stepCondition ht hr)
      | ok stage => cases h
  case h_9 => exact Or.inl (Except.error.inj h).symm
  all_goals cases h

/-- A readable token that makes no step is misplaced. -/
theorem eq_misfit_of_step {s : State} {t : Token} {f : Failure} (ht : t.Readable)
    (h : s.step t = .error f) :
  f = s.misfit t
  := by
  rcases misfit_or_tooLong_of_step ht.hasNumeral h with hf | hlong
  · exact hf
  · exact absurd hlong (not_tooLong_of_readable ht)

/-- A readable token of a kind that is expected makes a step. -/
theorem exists_transition_of_expected {s : State} {t : Token} (ht : t.Readable)
    (h : t.kind ∈ s.expected.kinds) :
  ∃ s', Transition s t s'
  := by
  obtain ⟨cs, stage⟩ := s
  cases stage with
  | clause =>
    cases cs with
    | nil =>
      simp only [State.expected, List.isEmpty_nil, if_true, Expected.kinds,
        List.mem_singleton] at h
      exact ⟨_, .clause h⟩
    | cons c cs =>
      simp only [State.expected, List.isEmpty_cons, Bool.false_eq_true, if_false, Expected.kinds,
        List.mem_cons, List.not_mem_nil, or_false] at h
      rcases h with h | h
      · exact ⟨_, .clause h⟩
      · exact ⟨_, .last h (List.cons_ne_nil c cs)⟩
  | opening k => exact ⟨_, .condition (List.mem_singleton.mp h)⟩
  | condition k stack spot =>
    cases spot with
    | operand =>
      simp only [State.expected, State.spotExpected, Expected.kinds, List.mem_cons,
        List.not_mem_nil, or_false] at h
      rcases h with h | h | h
      · exact ⟨_, .name h⟩
      · exact ⟨_, .missing h⟩
      · exact ⟨_, .group h⟩
    | name x =>
      simp only [State.expected, State.spotExpected, Expected.kinds, List.mem_cons,
        List.not_mem_nil, or_false] at h
      rcases h with h | h | h | h | h
      all_goals exact ⟨_, .relation h⟩
    | relation x r =>
      have hkind := List.mem_singleton.mp h
      exact ⟨_, .literal hkind (compared_of_readable hkind ht)⟩
    | missing => exact ⟨_, .missingParen (List.mem_singleton.mp h)⟩
    | missingParen => exact ⟨_, .missingName (List.mem_singleton.mp h)⟩
    | missingName x => exact ⟨_, .missingEnd (List.mem_singleton.mp h)⟩
    | closed e =>
      obtain ⟨top, _ | ⟨chain, below⟩⟩ := stack
      · exact ⟨_, .conditionEnd (List.mem_singleton.mp h)⟩
      · exact ⟨_, .groupEnd (List.mem_singleton.mp h)⟩
  | result k e => exact ⟨_, .result (List.mem_singleton.mp h)⟩
  | value k e r => exact ⟨_, .value (List.mem_singleton.mp h)⟩
  | lastResult k => exact ⟨_, .lastResult (List.mem_singleton.mp h)⟩
  | lastValue k r => exact ⟨_, .lastValue (List.mem_singleton.mp h)⟩
  | done o => cases h

/-! ### Reading several tokens -/

/-- The state after several tokens. -/
def State.run (s : State) (ts : List Token) : Except Failure State :=
  ts.foldlM State.step s

@[simp]
theorem State.run_nil (s : State) :
  s.run [] = .ok s
  := rfl

theorem Transition.run_cons {s s' : State} {t : Token} (h : Transition s t s') (ts : List Token) :
  s.run (t :: ts) = s'.run ts
  := by
  rw [State.run, List.foldlM_cons, h.step_eq]
  rfl

theorem State.run_cons_of_error {s : State} {t : Token} {f : Failure} (h : s.step t = .error f)
    (ts : List Token) :
  s.run (t :: ts) = .error f
  := by
  rw [State.run, List.foldlM_cons, h]
  rfl

theorem State.run_append {s s' : State} {us : List Token} (h : s.run us = .ok s')
    (vs : List Token) :
  s.run (us ++ vs) = s'.run vs
  := by
  rw [State.run] at h
  rw [State.run, List.foldlM_append, h]
  rfl

theorem State.run_append_of_error {s : State} {us : List Token} {f : Failure}
    (h : s.run us = .error f) (vs : List Token) :
  s.run (us ++ vs) = .error f
  := by
  rw [State.run] at h
  rw [State.run, List.foldlM_append, h]
  rfl

/-- The last step of a run. -/
theorem State.run_concat {s s' : State} {us : List Token} {t : Token}
    (h : s.run (us ++ [t]) = .ok s') :
  ∃ s₁, s.run us = .ok s₁ ∧ Transition s₁ t s'
  := by
  cases hus : s.run us with
  | error f =>
    rw [State.run_append_of_error hus] at h
    cases h
  | ok s₁ =>
    rw [State.run_append hus] at h
    cases hstep : s₁.step t with
    | error f =>
      rw [State.run_cons_of_error hstep] at h
      cases h
    | ok s₂ =>
      have htransition := Transition.of_step hstep
      rw [htransition.run_cons] at h
      cases h
      exact ⟨s₁, rfl, htransition⟩

/-- A run that fails does so at the first token that makes no step. -/
theorem State.run_eq_error {s : State} {ts : List Token} {f : Failure}
    (hf : s.run ts = .error f) :
  ∃ us t vs s', ts = us ++ t :: vs ∧ s.run us = .ok s' ∧ s'.step t = .error f
  := by
  induction ts generalizing s with
  | nil => cases hf
  | cons t ts ih =>
    cases hstep : s.step t with
    | error f' =>
      rw [State.run_cons_of_error hstep] at hf
      cases hf
      exact ⟨[], t, ts, s, rfl, rfl, hstep⟩
    | ok s₁ =>
      have htransition := Transition.of_step hstep
      rw [htransition.run_cons] at hf
      obtain ⟨us, t', vs, s', rfl, hrun, herror⟩ := ih hf
      exact ⟨t :: us, t', vs, s', rfl, (htransition.run_cons us).trans hrun, herror⟩

theorem ofTokens_eq (ts : List Token) :
  Program.ofTokens ts = (State.start.run ts).bind fun s => s.finish (Token.endOfAll ts)
  := by
  rw [Program.ofTokens, State.run]
  cases ts.foldlM State.step State.start <;> rfl

end Parser

end Verdict
