import Verdict.Proofs.Evaluation.Absence
import Verdict.Proofs.Failure.Causes

/-!
# What is wrong with rules

A rule is refused because a character begins no token, because a token is misplaced, or because a
number of a comparison has too many digits. The evaluation of an accepted rule fails at an undefined
variable, or at a number to return that has too many digits.
-/

namespace Verdict

open Verdict.Parser (TooLong)

/-! ### Reading -/

namespace Rule

theorem failsOnly_tokens (text : String) :
  FailsOnly (fun f => f.IsFault ["lex_error"]) (tokens text)
  := by
  rw [tokens]
  cases Token.scan text with
  | ok ts => trivial
  | error stuck => exact ⟨_, rfl, List.mem_singleton_self _⟩

theorem failsOnly_ofTokens {ts : List Token} (h : ∀ t ∈ ts, t.HasNumeral) :
  FailsOnly (fun f => f.IsFault ["syntax_error"] ∨ ∃ t ∈ ts, TooLong t f) (Program.ofTokens ts)
  := by
  cases hp : Program.ofTokens ts with
  | ok p => trivial
  | error f =>
    rcases Grammar.misplaced_or_tooLong_of_ofTokens h hp with ⟨_, _, _, rfl⟩ | hlong
    · exact Or.inl ⟨_, rfl, List.mem_singleton_self _⟩
    · exact Or.inr hlong

/-- The digits of a number that is too long follow one another in the rule. -/
theorem isOverlong_of_tooLong {text : String} {ts : List Token} (h : tokens text = .ok ts)
    {t : Token} (ht : t ∈ ts) {f : Failure} (hf : TooLong t f) :
  f.IsOverlong text.toList
  := by
  obtain ⟨hkind, hlong, rfl⟩ := hf
  obtain ⟨-, hdigits⟩ := Token.hasNumeral_of_tokens h t ht hkind
  rw [← String.length_toList] at hlong ⊢
  refine ⟨t.text.toList, Token.infix_of_tokens h t ht, ?_, hlong, rfl⟩
  intro c hc
  apply isDigit_of_isNumeral (hdigits c hc)

theorem failsOnly_program (text : String) :
  FailsOnly (fun f => f.IsFault ["lex_error", "syntax_error"] ∨ f.IsOverlong text.toList)
    (program text)
  := by
  apply FailsOnly.bind
  · apply (failsOnly_tokens text).mono
    intro f hf
    exact Or.inl (hf.mono (by simp))
  · intro ts hts
    apply (failsOnly_ofTokens (Token.hasNumeral_of_tokens hts)).mono
    rintro f (hf | ⟨t, ht, hlong⟩)
    · exact Or.inl (hf.mono (by simp))
    · exact Or.inr (isOverlong_of_tooLong hts ht hlong)

/-- The groups of a program that has been read are removed. -/
theorem exists_reduce_of_program {text : String} {p : Program} (h : program text = .ok p) :
  ∃ q, p.reduce = .ok q ∧ canonical text = .ok q
  := by
  obtain ⟨ts, htokens, hp⟩ := Grammar.exists_tokens_of_program h
  obtain ⟨d, rfl, rfl⟩ :=
    Grammar.exists_derivation_of_ofTokens (Token.hasNumeral_of_tokens htokens) hp
  obtain ⟨q, hq, -⟩ := d.wellFormed.exists_reduce
  use q, hq
  rw [canonical, h]
  exact hq

/-- A rule is refused because a character begins no token, because a token is misplaced, or because
a number has too many digits. -/
theorem failsOnly_canonical (text : String) :
  FailsOnly (fun f => f.IsFault ["lex_error", "syntax_error"] ∨ f.IsOverlong text.toList)
    (canonical text)
  := by
  apply (failsOnly_program text).bind
  intro p hp
  obtain ⟨q, hq, -⟩ := exists_reduce_of_program hp
  rw [hq]
  trivial

end Rule

/-! ### Evaluation -/

/-- A run and the one that its value determines together fail in no way but those of the two. -/
theorem Run.failsOnly_bind {α β : Type} {P : Failure → Prop} {x : Run α} {k : α → Run β}
    (h : FailsOnly P x.result) (hk : ∀ a, FailsOnly P (k a).result) :
  FailsOnly P (x.bind k).result
  := by
  rw [Run.result_bind]
  apply h.bind
  intro a _
  apply hk

variable {env : Environment}

theorem Condition.failsOnly_evaluate {e : Condition} (h : e.Canonical) (henv : env.IsWritable) :
  FailsOnly (fun f => f.IsFault ["undefined_variable"]) (e.evaluate env).result
  := by
  rw [Condition.evaluate_result h.wellFormed h.groupFree h.isWritable henv]
  cases firstAbsent? env (e.comparisons env) with
  | none => trivial
  | some c => exact ⟨_, rfl, List.mem_singleton_self _⟩

theorem Return.Canonical.failsOnly_clauseValue {r : Return} (h : r.Canonical) {k : Keyword}
    {t : Token} (ht : t.Writes (.keyword k)) :
  FailsOnly (TooLong r.value) (clauseValue k t r)
  := by
  rw [h.clauseValue_eq ht, h.number_eq]
  by_cases hlong : Integer.maxDigits < r.value.text.length
  · rw [if_pos hlong]
    exact ⟨h.value.kind_eq, hlong, rfl⟩
  · rw [if_neg hlong]
    trivial

theorem Clause.Canonical.failsOnly_evaluate {c : Clause} (h : c.Canonical)
    (henv : env.IsWritable) (index : Nat) :
  FailsOnly (fun f => f.IsFault ["undefined_variable"] ∨ TooLong c.result.value f)
    (c.evaluate env index).result
  := by
  rw [Clause.evaluate]
  apply Run.failsOnly_bind
  · apply (h.result.failsOnly_clauseValue h.keyword).mono
    intro f hf
    exact Or.inr hf
  · intro value
    apply Run.failsOnly_bind
    · apply (Condition.failsOnly_evaluate h.condition henv).mono
      intro f hf
      exact Or.inl hf
    · intro matched
      trivial

theorem failsOnly_evaluateClauses {cs : List Clause} (h : ∀ c ∈ cs, c.Canonical)
    (henv : env.IsWritable) (index : Nat) :
  FailsOnly
    (fun f => f.IsFault ["undefined_variable"] ∨ ∃ c ∈ cs, TooLong c.result.value f)
    (evaluateClauses env index cs).result
  := by
  induction cs generalizing index with
  | nil => trivial
  | cons c cs ih =>
    rw [List.forall_mem_cons] at h
    rw [evaluateClauses]
    apply Run.failsOnly_bind
    · apply (h.1.failsOnly_evaluate henv index).mono
      rintro f (hf | hf)
      · exact Or.inl hf
      · exact Or.inr ⟨c, List.mem_cons_self, hf⟩
    · intro o
      apply Run.failsOnly_bind
      · apply (ih h.2 (index + 1)).mono
        rintro f (hf | ⟨c', hc', hf⟩)
        · exact Or.inl hf
        · exact Or.inr ⟨c', List.mem_cons_of_mem c hc', hf⟩
      · intro os
        trivial

/-- The evaluation of a program whose groups have been removed fails at an undefined variable, or at
a number to return that has too many digits. All integers of the environment are written. -/
theorem Program.failsOnly_evaluate {p q : Program} (hreduce : p.reduce = .ok q) (h : q.Canonical)
    (henv : env.IsWritable) :
  FailsOnly
    (fun f => f.IsFault ["undefined_variable"] ∨ ∃ r ∈ q.returns, TooLong r.value f)
    (p.evaluate env).result
  := by
  rw [Program.evaluate_of_reduce hreduce]
  apply Run.failsOnly_bind
  · apply (failsOnly_evaluateClauses h.clauses henv 0).mono
    rintro f (hf | ⟨c, hc, hf⟩)
    · exact Or.inl hf
    · refine Or.inr ⟨c.result, ?_, hf⟩
      exact List.mem_append_left _ (List.mem_map_of_mem hc)
  · intro outcomes
    apply Run.failsOnly_bind
    · apply (h.otherwise.result.failsOnly_clauseValue h.otherwise.keyword).mono
      intro f hf
      refine Or.inr ⟨q.otherwise.result, ?_, hf⟩
      exact List.mem_append_right _ (List.mem_singleton_self _)
    · intro otherwise
      obtain ⟨d, hd⟩ := Decision.exists_ofOutcomes outcomes otherwise
      rw [hd]
      trivial

/-- The evaluation of a rule fails because the rule is refused, because a variable is undefined, or
because a number of the rule has too many digits. All integers of the environment are written. -/
theorem Rule.failsOnly_evaluate (text : String) (henv : env.IsWritable) :
  FailsOnly
    (fun f => f.IsFault ["lex_error", "syntax_error", "undefined_variable"]
      ∨ f.IsOverlong text.toList)
    (Rule.evaluate text env).result
  := by
  rw [Rule.evaluate, Rule.evaluateIn, Run.result_bind]
  apply FailsOnly.bind
  · apply (failsOnly_program text).mono
    rintro f (hf | hf)
    · exact Or.inl (hf.mono (by simp))
    · exact Or.inr hf
  · intro p hp
    obtain ⟨q, hreduce, hq⟩ := exists_reduce_of_program hp
    obtain ⟨ts, htokens, hvalues⟩ := Grammar.value_mem_of_canonical hq
    apply (Program.failsOnly_evaluate hreduce (Grammar.canonical_of_rule hq) henv).mono
    rintro f (hf | ⟨r, hr, hf⟩)
    · exact Or.inl (hf.mono (by simp))
    · exact Or.inr (isOverlong_of_tooLong htokens (hvalues r hr) hf)

end Verdict
