import Mathlib.Tactic.Use
import Verdict.Proofs.Failure.Causes
import Verdict.Proofs.Grammar.Parsing
import Verdict.Proofs.Program.Canonical
import Verdict.Proofs.Program.Reduction
import Verdict.Proofs.Token.Segmentation

/-!
# Accepted rules

A rule that writes a program without groups writes a canonical one. Its tokens have a derivation,
and the text of every token is a lexeme of its kind. The numbers of its comparisons can be read,
since the reader would have stopped at one that cannot.
-/

namespace Verdict.Grammar

open Verdict.Parser

/-! ### The numbers that have been read -/

theorem State.exists_run_of_append {s s' : State} {us vs : List Token}
    (h : s.run (us ++ vs) = .ok s') :
  ∃ s₁, s.run us = .ok s₁ ∧ s₁.run vs = .ok s'
  := by
  cases hus : s.run us with
  | error f =>
    rw [State.run_append_of_error hus] at h
    cases h
  | ok s₁ =>
    rw [State.run_append hus] at h
    exact ⟨s₁, rfl, h⟩

theorem State.exists_transition_of_run {s s' : State} {t : Token} {ts : List Token}
    (h : s.run (t :: ts) = .ok s') :
  ∃ s₁, Transition s t s₁ ∧ s₁.run ts = .ok s'
  := by
  obtain ⟨s₁, ht, hts⟩ := @State.exists_run_of_append s s' [t] ts h
  obtain ⟨s₀, hnil, hstep⟩ := @State.run_concat s s₁ [] t ht
  cases hnil
  exact ⟨s₁, hstep, hts⟩

theorem Terminal.readable {k : Token.Kind} (x : Terminal k) (h : k ≠ .number) :
  x.token.Readable
  := by
  intro hkind
  rw [x.kind_eq] at hkind
  exact absurd hkind h

mutual

/-- The numbers of an operand that the reader has gone over can be read. -/
theorem Operand.readable_of_run : ∀ (o : Operand), (∀ t ∈ o.tokens, t.HasNumeral) →
    ∀ {cs : List Clause} {k : Token} {stack : Stack} {s : State},
    State.run ⟨cs, .condition k stack .operand⟩ o.tokens = .ok s → ∀ t ∈ o.tokens, t.Readable
  | .compare name r sign literal, h, cs, k, stack, s, hrun => by
    rw [Operand.tokens, (Transition.name name.kind_eq).run_cons,
      (Transition.relation sign.kind_eq).run_cons] at hrun
    obtain ⟨s₁, hstep, -⟩ := State.exists_transition_of_run hrun
    have hnumeral : literal.token.HasNumeral := by
      apply h
      simp [Operand.tokens]
    have hliteral : literal.token.Readable := by
      cases hstep with
      | literal hkind he => exact (eq_of_compared hkind hnumeral he).1
    simpa [Operand.tokens] using
      ⟨name.readable (by simp), sign.readable (by simp), hliteral⟩
  | .missing word left name right, _, cs, k, stack, s, _ => by
    simpa [Operand.tokens] using ⟨word.readable (by simp), left.readable (by simp),
      name.readable (by simp), right.readable (by simp)⟩
  | .group left content right, h, cs, k, stack, s, hrun => by
    rw [Operand.tokens, List.forall_mem_cons, List.forall_mem_append] at h
    rw [Operand.tokens, (Transition.group left.kind_eq).run_cons] at hrun
    obtain ⟨s₁, hcontent, -⟩ := State.exists_run_of_append hrun
    have hreadable := Chain.readable_of_run content h.2.1 hcontent
    rw [Operand.tokens, List.forall_mem_cons, List.forall_mem_append, List.forall_mem_singleton]
    exact ⟨left.readable (by simp), hreadable, right.readable (by simp)⟩

/-- The numbers of a chain that the reader has gone over can be read. -/
theorem Chain.readable_of_run : ∀ (c : Chain), (∀ t ∈ c.tokens, t.HasNumeral) →
    ∀ {cs : List Clause} {k : Token} {stack : Stack} {s : State},
    State.run ⟨cs, .condition k stack .operand⟩ c.tokens = .ok s → ∀ t ∈ c.tokens, t.Readable
  | .last o, h, cs, k, stack, s, hrun => Operand.readable_of_run o h hrun
  | .link o c word rest, h, cs, k, stack, s, hrun => by
    rw [Chain.tokens, List.forall_mem_append, List.forall_mem_cons] at h
    obtain ⟨s₁, ho, htail⟩ := State.exists_run_of_append hrun
    have hoperand := Operand.readable_of_run o h.1 ho
    rw [Operand.run o hoperand] at ho
    cases ho
    rw [(Transition.connective word.kind_eq).run_cons] at htail
    have hrest := Chain.readable_of_run rest h.2.2 htail
    rw [Chain.tokens, List.forall_mem_append, List.forall_mem_cons]
    exact ⟨hoperand, word.readable (by simp), hrest⟩

end

theorem readable_content_of_run (ds : List IfClause)
    (h : ∀ c ∈ ds, ∀ t ∈ c.content.tokens, t.HasNumeral) {cs : List Clause} {s : State}
    (hrun : State.run ⟨cs, .clause⟩ (ds.flatMap IfClause.tokens) = .ok s) :
  ∀ c ∈ ds, ∀ t ∈ c.content.tokens, t.Readable
  := by
  induction ds generalizing cs with
  | nil => simp
  | cons d ds ih =>
    rw [List.forall_mem_cons] at h
    obtain ⟨s₁, hd, hds⟩ := State.exists_run_of_append hrun
    have hfirst : ∀ t ∈ d.content.tokens, t.Readable := by
      rw [IfClause.tokens, (Transition.clause d.keyword.kind_eq).run_cons,
        (Transition.condition d.left.kind_eq).run_cons] at hd
      obtain ⟨s₂, hcontent, -⟩ := State.exists_run_of_append hd
      apply Chain.readable_of_run d.content h.1 hcontent
    rw [d.run hfirst cs] at hd
    cases hd
    rw [List.forall_mem_cons]
    exact ⟨hfirst, ih h.2 hds⟩

/-- The numbers of the comparisons of an accepted derivation can be read. -/
theorem Derivation.readable_content_of_ofTokens {d : Derivation} {p : Program}
    (h : ∀ t ∈ d.tokens, t.HasNumeral) (hp : Program.ofTokens d.tokens = .ok p) :
  ∀ c ∈ d.clauses, ∀ t ∈ c.content.tokens, t.Readable
  := by
  rw [ofTokens_eq] at hp
  cases hrun : State.start.run d.tokens with
  | error f =>
    rw [hrun] at hp
    cases hp
  | ok s =>
    obtain ⟨s₁, hclauses, -⟩ := State.exists_run_of_append hrun
    apply readable_content_of_run d.clauses _ hclauses
    intro c hc t ht
    apply h
    rw [Derivation.tokens, List.mem_append, List.mem_flatMap]
    left
    use c, hc
    simp [IfClause.tokens, ht]

/-! ### Canonical conditions -/

/-- The texts of tokens are lexemes of their kinds. -/
def Lexical (ts : List Token) : Prop :=
  ∀ t ∈ ts, t.kind.Lexeme t.text.toList

theorem Terminal.writes {k : Token.Kind} (x : Terminal k)
    (h : x.token.kind.Lexeme x.token.text.toList) :
  x.token.Writes k
  := by
  use x.kind_eq
  rwa [x.kind_eq] at h

/-- A readable number writes a literal. -/
theorem isLiteral_of_readable {t : Token} (hkind : t.kind = .number) (h : t.Readable) :
  IsLiteral (Text.ofDigitChars t.text.toList)
  := by
  obtain ⟨hnumeral, hlength⟩ := h hkind
  rw [← String.length_toList] at hlength
  rw [isLiteral_natCast_iff]
  have hlt := ofDigitChars_lt t.text.toList
  rw [length_filterMap_digitValue? fun c hc => isDigit_of_isNumeral (hnumeral.2 c hc)] at hlt
  apply Nat.lt_of_lt_of_le hlt
  apply Nat.pow_le_pow_right (by decide) hlength

mutual

/-- What is left of an operand of an accepted rule when groups are removed is canonical. -/
theorem Operand.canonical_of_reduce : ∀ (o : Operand), Lexical o.tokens →
    (∀ t ∈ o.tokens, t.Readable) → ∀ {e : Condition}, o.condition.reduce = .ok e → e.Canonical
  | .compare name r sign literal, hlexical, hreadable, e, hreduce => by
    cases hreduce
    have hname := hlexical name.token (by simp [Operand.tokens])
    rw [name.kind_eq] at hname
    have hliteral := hreadable literal.token (by simp [Operand.tokens])
    exact ⟨hname, rfl, isLiteral_of_readable literal.kind_eq hliteral⟩
  | .missing word left name right, hlexical, _, e, hreduce => by
    cases hreduce
    have hname := hlexical name.token (by simp [Operand.tokens])
    rw [name.kind_eq] at hname
    exact hname
  | .group left content right, hlexical, hreadable, e, hreduce => by
    rw [Lexical, Operand.tokens, List.forall_mem_cons, List.forall_mem_append] at hlexical
    rw [Operand.tokens, List.forall_mem_cons, List.forall_mem_append] at hreadable
    apply Chain.canonical_of_reduce content hlexical.2.1 hreadable.2.1 hreduce

/-- What is left of a chain of an accepted rule when groups are removed is canonical. -/
theorem Chain.canonical_of_reduce : ∀ (c : Chain), Lexical c.tokens →
    (∀ t ∈ c.tokens, t.Readable) → ∀ {e : Condition}, c.condition.reduce = .ok e → e.Canonical
  | .last o, hlexical, hreadable, e, hreduce =>
    Operand.canonical_of_reduce o hlexical hreadable hreduce
  | .link o c word rest, hlexical, hreadable, e, hreduce => by
    rw [Lexical, Chain.tokens, List.forall_mem_append, List.forall_mem_cons] at hlexical
    rw [Chain.tokens, List.forall_mem_append, List.forall_mem_cons] at hreadable
    obtain ⟨l, r, hl, hr, -, rfl⟩ := Condition.reduce_join hreduce
    exact ⟨rfl, Operand.canonical_of_reduce o hlexical.1 hreadable.1 hl,
      Chain.canonical_of_reduce rest hlexical.2.2 hreadable.2.2 hr⟩

end

/-! ### Well-formed programs -/

mutual

theorem Operand.wellFormed : ∀ o : Operand, o.condition.WellFormed
  | .compare _ _ _ _ => ⟨rfl, Int.natCast_nonneg _⟩
  | .missing _ _ _ _ => trivial
  | .group _ content _ => Chain.wellFormed content

theorem Chain.wellFormed : ∀ c : Chain, c.condition.WellFormed
  | .last o => Operand.wellFormed o
  | .link o _ _ rest => ⟨rfl, Operand.wellFormed o, Chain.wellFormed rest⟩

end

/-- The program that a derivation writes is well formed. -/
theorem Derivation.wellFormed (d : Derivation) :
  d.program.WellFormed
  := by
  constructor
  · intro hnil
    exact d.nonempty (List.map_eq_nil_iff.mp hnil)
  · intro c hc
    obtain ⟨i, -, rfl⟩ := List.mem_map.mp hc
    exact i.content.wellFormed

/-! ### Accepted rules -/

theorem IfClause.canonical {d : IfClause} {k : Clause} (hlexical : Lexical d.tokens)
    (hreadable : ∀ t ∈ d.content.tokens, t.Readable) (h : d.clause.ReducesTo k) :
  k.Canonical
  := by
  have hwrites : ∀ {kind} (x : Terminal kind), x.token ∈ d.tokens → x.token.Writes kind :=
    fun x hx => x.writes (hlexical x.token hx)
  have hcontent : Lexical d.content.tokens := by
    intro t ht
    apply hlexical
    simp [tokens, ht]
  constructor
  · rw [h.keyword]
    apply hwrites d.keyword
    simp [tokens]
  · apply d.content.canonical_of_reduce hcontent hreadable h.condition
  · rw [h.result]
    constructor
    · apply hwrites d.answer.keyword
      simp [tokens, Answer.tokens]
    · apply hwrites d.answer.value
      simp [tokens, Answer.tokens]

theorem ElseClause.canonical {d : ElseClause} (hlexical : Lexical d.tokens) :
  d.otherwise.Canonical
  := by
  have hwrites : ∀ {kind} (x : Terminal kind), x.token ∈ d.tokens → x.token.Writes kind :=
    fun x hx => x.writes (hlexical x.token hx)
  constructor
  · apply hwrites d.keyword
    simp [tokens]
  · constructor
    · apply hwrites d.answer.keyword
      simp [tokens, Answer.tokens]
    · apply hwrites d.answer.value
      simp [tokens, Answer.tokens]

theorem exists_tokens_of_program {text : String} {p : Program} (h : Rule.program text = .ok p) :
  ∃ ts, Rule.tokens text = .ok ts ∧ Program.ofTokens ts = .ok p
  := exists_of_bind_eq_ok h

theorem exists_program_of_canonical {text : String} {q : Program}
    (h : Rule.canonical text = .ok q) :
  ∃ p, Rule.program text = .ok p ∧ p.reduce = .ok q
  := exists_of_bind_eq_ok h

/-- The tokens of an accepted rule have a derivation. -/
theorem exists_derivation_of_canonical {text : String} {q : Program}
    (h : Rule.canonical text = .ok q) :
  ∃ d : Derivation, Rule.tokens text = .ok d.tokens ∧ Program.ofTokens d.tokens = .ok d.program
    ∧ d.program.reduce = .ok q
  := by
  obtain ⟨p, hp, hreduce⟩ := exists_program_of_canonical h
  obtain ⟨ts, htokens, hp⟩ := exists_tokens_of_program hp
  obtain ⟨d, rfl, rfl⟩ := exists_derivation_of_ofTokens (Token.hasNumeral_of_tokens htokens) hp
  exact ⟨d, htokens, hp, hreduce⟩

/-- The program of a rule, without its groups, is canonical. -/
theorem canonical_of_rule {text : String} {q : Program} (h : Rule.canonical text = .ok q) :
  q.Canonical
  := by
  obtain ⟨d, htokens, hp, hreduce⟩ := exists_derivation_of_canonical h
  have hreadable := d.readable_content_of_ofTokens (Token.hasNumeral_of_tokens htokens) hp
  have hlexical : Lexical d.tokens := Token.lexeme_of_tokens htokens
  rw [Lexical, Derivation.tokens, List.forall_mem_append] at hlexical
  obtain ⟨hclauses, hne, hotherwise⟩ := Program.reduce_eq_ok hreduce
  refine ⟨hne, ?_, ?_⟩
  · intro k hk
    obtain ⟨c, hc, hreduces⟩ := Program.exists_of_mem_reduceClauses hclauses k hk
    obtain ⟨i, hi, rfl⟩ := List.mem_map.mp hc
    apply i.canonical _ (hreadable i hi) hreduces
    intro t ht
    apply hlexical.1 t (List.mem_flatMap.mpr ⟨i, hi, ht⟩)
  · rw [hotherwise]
    apply ElseClause.canonical hlexical.2

/-- The numerals of the numbers to return are tokens of the rule. -/
theorem value_mem_of_canonical {text : String} {q : Program} (h : Rule.canonical text = .ok q) :
  ∃ ts, Rule.tokens text = .ok ts ∧ ∀ r ∈ q.returns, r.value ∈ ts
  := by
  obtain ⟨d, htokens, -, hreduce⟩ := exists_derivation_of_canonical h
  obtain ⟨hclauses, -, hotherwise⟩ := Program.reduce_eq_ok hreduce
  use d.tokens, htokens
  rw [Program.forall_mem_returns]
  constructor
  · intro k hk
    obtain ⟨c, hc, hreduces⟩ := Program.exists_of_mem_reduceClauses hclauses k hk
    obtain ⟨i, hi, rfl⟩ := List.mem_map.mp hc
    rw [hreduces.result, Derivation.tokens, List.mem_append, List.mem_flatMap]
    left
    use i, hi
    simp [IfClause.tokens, IfClause.clause, Answer.tokens, Answer.result]
  · rw [hotherwise, Derivation.tokens, List.mem_append]
    right
    simp [ElseClause.tokens, Derivation.program, ElseClause.otherwise, Answer.tokens, Answer.result]

end Verdict.Grammar
