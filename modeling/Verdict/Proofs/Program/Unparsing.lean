import Mathlib.Data.List.Forall2
import Mathlib.Tactic.Use
import Verdict.Proofs.Program.Correspondence
import Verdict.Proofs.Program.Rendering

/-!
# From programs back to tokens

`Program.tokens` writes a program as the tokens that it is read from. Groups are written with their
parentheses, and a connective between its sides, with no parentheses of its own. The tokens of a
program that has been read say the same as the tokens that it was read from. A program is read back
from its tokens if it is writable, that is if a reader can have put it together: no connective has a
connective as its left side, since there the reader finds an operand, a leaf or a group.

Writing inverts reading on the trees of derivations: the condition of a chain has tokens that say
the same as those of the chain, and a writable condition has a chain with its tokens. -/

namespace Verdict

open Grammar

/-! ### The tokens of a program -/

/-- A token of the given kind and text, at no particular place. -/
def Token.fresh (kind : Token.Kind) (text : String) : Token :=
  .atPlace .start kind text

/-- The tokens of a condition. One that cannot be written has none. -/
def Condition.tokens : Condition → List Token
  | .compare name (.known r) literal =>
    [.fresh .identifier name, .fresh (.relation r) r.text, .fresh .number (toString literal)]
  | .missing name =>
    [.fresh .isMissing "IS-MISSING", .fresh .leftParen "(", .fresh .identifier name,
      .fresh .rightParen ")"]
  | .join (.known c) left right =>
    left.tokens ++ .fresh (.connective c) c.text :: right.tokens
  | .group inner => .fresh .leftParen "(" :: (inner.tokens ++ [.fresh .rightParen ")"])
  | _ => []

/-- The tokens of a number to return, which the program keeps. -/
def Return.tokens (r : Return) : List Token :=
  [r.keyword, r.value]

/-- The tokens of a clause. -/
def Clause.tokens (c : Clause) : List Token :=
  c.keyword :: .fresh .leftParen "(" ::
    (c.condition.tokens ++ .fresh .rightParen ")" :: c.result.tokens)

/-- The tokens of the last clause. -/
def Otherwise.tokens (o : Otherwise) : List Token :=
  o.keyword :: o.result.tokens

/-- The tokens of a program. -/
def Program.tokens (p : Program) : List Token :=
  p.clauses.flatMap Clause.tokens ++ p.otherwise.tokens

/-! ### Writable programs -/

/-- The condition can be written: its operators are known, its integers have numerals that can be
read, and what is on the left of a connective is a leaf or a group. -/
def Condition.Writable : Condition → Prop
  | .compare _ op literal => op.isKnown = true ∧ IsLiteral literal
  | .missing _ => True
  | .join op left right =>
    op.isKnown = true ∧ left.isJoin = false ∧ left.Writable ∧ right.Writable
  | .group inner => inner.Writable
  | .alien _ => False

instance Condition.decidableWritable : (e : Condition) → Decidable e.Writable
  | .compare _ _ _ => inferInstanceAs (Decidable (_ ∧ _))
  | .missing _ => inferInstanceAs (Decidable True)
  | .join _ left right =>
    have := decidableWritable left
    have := decidableWritable right
    inferInstanceAs (Decidable (_ ∧ _ ∧ _ ∧ _))
  | .group inner => decidableWritable inner
  | .alien _ => inferInstanceAs (Decidable False)

/-- The tokens of the number to return are of their kinds. -/
structure Return.Writable (r : Return) : Prop where
  keyword : r.keyword.kind = .keyword .returnWord
  value : r.value.kind = .number

/-- The condition of the clause can be written, and its tokens are of their kinds. -/
structure Clause.Writable (c : Clause) : Prop where
  keyword : c.keyword.kind = .keyword .ifWord
  condition : c.condition.Writable
  result : c.result.Writable

/-- The tokens of the last clause are of their kinds. -/
structure Otherwise.Writable (o : Otherwise) : Prop where
  keyword : o.keyword.kind = .keyword .elseWord
  result : o.result.Writable

/-- The program can be written, and there is a clause. -/
structure Program.Writable (p : Program) : Prop where
  nonempty : p.clauses ≠ []
  clauses : ∀ c ∈ p.clauses, c.Writable
  otherwise : p.otherwise.Writable

/-! ### What has been read -/

/-- The numeral of the number that a readable token writes says the same as the token, which may
have zeros in front. -/
theorem Token.alike_fresh_number {t : Token} (hkind : t.kind = .number) (h : t.Readable) :
  (Token.fresh .number (toString (Text.ofDigitChars t.text.toList : Int))).Alike t
  := by
  obtain ⟨hreadable, hvalue⟩ := (isLiteral_of_readable hkind h).readable
    (t := Token.fresh .number (toString (Text.ofDigitChars t.text.toList : Int))) rfl
  refine ⟨hkind.symm, (fun hname => nomatch hname), fun _ => ?_⟩
  rw [hreadable.read_eq rfl, h.read_eq hkind, hvalue]

namespace Grammar

/-- Any token of the kind of a terminal that is no identifier and no number says the same. -/
theorem Terminal.alike_fresh {k : Token.Kind} (x : Terminal k) (hname : k ≠ .identifier)
    (hnumber : k ≠ .number) (text : String) :
  (Token.fresh k text).Alike x.token
  := ⟨x.kind_eq.symm, fun h => absurd h hname, fun h => absurd h hnumber⟩

theorem Terminal.alike_fresh_name (x : Terminal .identifier) :
  (Token.fresh .identifier x.token.text).Alike x.token
  := ⟨x.kind_eq.symm, fun _ => rfl, fun h => nomatch h⟩

theorem Terminal.alike_self {k : Token.Kind} (x : Terminal k) :
  x.token.Alike x.token
  := ⟨rfl, fun _ => rfl, fun _ => rfl⟩

theorem Operand.isJoin_condition (o : Operand) :
  o.condition.isJoin = false
  := by
  cases o
  all_goals rfl

mutual

/-- The condition of an operand can be written. -/
theorem Operand.writable : ∀ o : Operand, (∀ t ∈ o.tokens, t.Readable) → o.condition.Writable
  | .compare _ _ _ literal, h =>
    ⟨rfl, isLiteral_of_readable literal.kind_eq (h literal.token (by simp [Operand.tokens]))⟩
  | .missing _ _ _ _, _ => trivial
  | .group _ content _, h => by
    rw [Operand.tokens, List.forall_mem_cons, List.forall_mem_append] at h
    exact Chain.writable content h.2.1

/-- The condition of a chain can be written. -/
theorem Chain.writable : ∀ c : Chain, (∀ t ∈ c.tokens, t.Readable) → c.condition.Writable
  | .last o, h => Operand.writable o h
  | .link o _ _ rest, h => by
    rw [Chain.tokens, List.forall_mem_append, List.forall_mem_cons] at h
    exact ⟨rfl, o.isJoin_condition, Operand.writable o h.1, Chain.writable rest h.2.2⟩

end

mutual

/-- The tokens of the condition of an operand say the same as those of the operand. -/
theorem Operand.alike : ∀ o : Operand, (∀ t ∈ o.tokens, t.Readable) →
    List.Forall₂ Token.Alike o.condition.tokens o.tokens
  | .compare name r sign literal, h => by
    have hliteral := h literal.token (by simp [Operand.tokens])
    exact .cons name.alike_fresh_name (.cons (sign.alike_fresh (by simp) (by simp) _)
      (.cons (Token.alike_fresh_number literal.kind_eq hliteral) .nil))
  | .missing word left name right, _ =>
    .cons (word.alike_fresh (by simp) (by simp) _) (.cons (left.alike_fresh (by simp) (by simp) _)
      (.cons name.alike_fresh_name (.cons (right.alike_fresh (by simp) (by simp) _) .nil)))
  | .group left content right, h => by
    rw [Operand.tokens, List.forall_mem_cons, List.forall_mem_append] at h
    have hcontent := Chain.alike content h.2.1
    exact .cons (left.alike_fresh (by simp) (by simp) _)
      (List.rel_append hcontent (.cons (right.alike_fresh (by simp) (by simp) _) .nil))

/-- The tokens of the condition of a chain say the same as those of the chain. -/
theorem Chain.alike : ∀ c : Chain, (∀ t ∈ c.tokens, t.Readable) →
    List.Forall₂ Token.Alike c.condition.tokens c.tokens
  | .last o, h => Operand.alike o h
  | .link o _ word rest, h => by
    rw [Chain.tokens, List.forall_mem_append, List.forall_mem_cons] at h
    exact List.rel_append (Operand.alike o h.1)
      (.cons (word.alike_fresh (by simp) (by simp) _) (Chain.alike rest h.2.2))

end

theorem Answer.alike (a : Answer) :
  List.Forall₂ Token.Alike a.result.tokens a.tokens
  := .cons a.keyword.alike_self (.cons a.value.alike_self .nil)

theorem IfClause.alike {c : IfClause} (h : ∀ t ∈ c.content.tokens, t.Readable) :
  List.Forall₂ Token.Alike c.clause.tokens c.tokens
  := by
  have hend := List.Forall₂.cons (c.right.alike_fresh (by simp) (by simp) ")") c.answer.alike
  exact .cons c.keyword.alike_self (.cons (c.left.alike_fresh (by simp) (by simp) _)
    (List.rel_append (c.content.alike h) hend))

theorem alike_flatMap {ds : List IfClause} (h : ∀ c ∈ ds, ∀ t ∈ c.content.tokens, t.Readable) :
  List.Forall₂ Token.Alike ((ds.map IfClause.clause).flatMap Clause.tokens)
    (ds.flatMap IfClause.tokens)
  := by
  induction ds with
  | nil => exact .nil
  | cons d ds ih =>
    rw [List.forall_mem_cons] at h
    exact List.rel_append (IfClause.alike h.1) (ih h.2)

/-- The tokens of the program of a derivation say the same as those of the derivation. -/
theorem Derivation.alike {d : Derivation} (h : ∀ t ∈ d.tokens, t.Readable) :
  List.Forall₂ Token.Alike d.program.tokens d.tokens
  := List.rel_append (alike_flatMap (Derivation.readable_content h))
    (.cons d.last.keyword.alike_self d.last.answer.alike)

theorem Derivation.writable {d : Derivation} (h : ∀ t ∈ d.tokens, t.Readable) :
  d.program.Writable
  := by
  have hcontent := Derivation.readable_content h
  refine ⟨fun hnil => d.nonempty (List.map_eq_nil_iff.mp hnil), ?_, d.last.keyword.kind_eq,
    d.last.answer.keyword.kind_eq, d.last.answer.value.kind_eq⟩
  intro c hc
  obtain ⟨i, hi, rfl⟩ := List.mem_map.mp hc
  exact ⟨i.keyword.kind_eq, i.content.writable (hcontent i hi), i.answer.keyword.kind_eq,
    i.answer.value.kind_eq⟩

/-! ### What can be written -/

/-- A token made for a terminal. -/
def Terminal.fresh (k : Token.Kind) (text : String) : Terminal k :=
  ⟨.fresh k text, rfl⟩

/-- A writable condition has a chain with its tokens, which can be read. -/
theorem exists_chain_of_writable {e : Condition} (h : e.Writable) :
  ∃ c : Chain, c.tokens = e.tokens ∧ c.condition = e ∧ ∀ t ∈ c.tokens, t.Readable
  := by
  induction e with
  | compare name op literal =>
    obtain ⟨hop, hliteral⟩ := h
    cases op with
    | foreign text => cases hop
    | known r =>
      obtain ⟨hreadable, hvalue⟩ :=
        hliteral.readable (t := Token.fresh .number (toString literal)) rfl
      refine ⟨.last (.compare (.fresh _ name) r (.fresh _ r.text) (.fresh _ (toString literal))),
        rfl, ?_, ?_⟩
      · exact congrArg (Condition.compare name (.known r)) hvalue
      · rw [Chain.tokens, Operand.tokens, List.forall_mem_cons, List.forall_mem_cons,
          List.forall_mem_singleton]
        exact ⟨Terminal.readable _ (by simp), Terminal.readable _ (by simp), hreadable⟩
  | missing name =>
    refine ⟨.last (.missing (.fresh _ "IS-MISSING") (.fresh _ "(") (.fresh _ name) (.fresh _ ")")),
      rfl, rfl, ?_⟩
    rw [Chain.tokens, Operand.tokens, List.forall_mem_cons, List.forall_mem_cons,
      List.forall_mem_cons, List.forall_mem_singleton]
    exact ⟨Terminal.readable _ (by simp), Terminal.readable _ (by simp),
      Terminal.readable _ (by simp), Terminal.readable _ (by simp)⟩
  | join op left right ihleft ihright =>
    obtain ⟨hop, hoperand, hleft, hright⟩ := h
    obtain ⟨l, hltokens, rfl, hlreadable⟩ := ihleft hleft
    obtain ⟨r, hrtokens, rfl, hrreadable⟩ := ihright hright
    cases op with
    | foreign text => cases hop
    | known c =>
      cases l with
      -- a chain with a connective is no operand, and it writes a connective
      | link o c' word rest => cases hoperand
      | last o =>
        refine ⟨.link o c (.fresh _ c.text) r, ?_, rfl, ?_⟩
        · rw [Chain.tokens, Condition.tokens, ← hltokens, ← hrtokens]
          rfl
        · rw [Chain.tokens, List.forall_mem_append, List.forall_mem_cons]
          exact ⟨hlreadable, Terminal.readable _ (by simp), hrreadable⟩
  | group inner ih =>
    obtain ⟨c, htokens, rfl, hreadable⟩ := ih h
    refine ⟨.last (.group (.fresh _ "(") c (.fresh _ ")")), ?_, rfl, ?_⟩
    · rw [Chain.tokens, Operand.tokens, Condition.tokens, htokens]
      rfl
    · rw [Chain.tokens, Operand.tokens, List.forall_mem_cons, List.forall_mem_append,
        List.forall_mem_singleton]
      exact ⟨Terminal.readable _ (by simp), hreadable, Terminal.readable _ (by simp)⟩
  | alien typeName => exact h.elim

theorem exists_answer_of_writable {r : Return} (h : r.Writable) :
  ∃ a : Answer, a.tokens = r.tokens ∧ a.result = r
  := ⟨⟨⟨r.keyword, h.keyword⟩, ⟨r.value, h.value⟩⟩, rfl, rfl⟩

theorem exists_ifClause_of_writable {c : Clause} (h : c.Writable) :
  ∃ d : IfClause, d.tokens = c.tokens ∧ d.clause = c ∧ ∀ t ∈ d.content.tokens, t.Readable
  := by
  obtain ⟨keyword, condition, result⟩ := c
  obtain ⟨hkeyword, hcondition, hresult⟩ := h
  obtain ⟨content, htokens, rfl, hreadable⟩ := exists_chain_of_writable hcondition
  obtain ⟨a, hanswer, rfl⟩ := exists_answer_of_writable hresult
  refine ⟨⟨⟨keyword, hkeyword⟩, .fresh _ "(", content, .fresh _ ")", a⟩, ?_, rfl, hreadable⟩
  rw [IfClause.tokens, Clause.tokens, htokens, hanswer]
  rfl

theorem exists_ifClauses_of_writable {cs : List Clause} (h : ∀ c ∈ cs, c.Writable) :
  ∃ ds : List IfClause, ds.flatMap IfClause.tokens = cs.flatMap Clause.tokens
    ∧ ds.map IfClause.clause = cs ∧ ∀ d ∈ ds, ∀ t ∈ d.content.tokens, t.Readable
  := by
  induction cs with
  | nil => exact ⟨[], rfl, rfl, by simp⟩
  | cons c cs ih =>
    rw [List.forall_mem_cons] at h
    obtain ⟨d, htokens, rfl, hreadable⟩ := exists_ifClause_of_writable h.1
    obtain ⟨ds, hrest, rfl, hall⟩ := ih h.2
    use d :: ds
    rw [List.flatMap_cons, List.flatMap_cons, htokens, hrest, List.forall_mem_cons]
    exact ⟨rfl, rfl, hreadable, hall⟩

/-- A writable program has a derivation with its tokens. -/
theorem exists_derivation_of_writable {p : Program} (h : p.Writable) :
  ∃ d : Derivation, d.tokens = p.tokens ∧ d.program = p
    ∧ ∀ c ∈ d.clauses, ∀ t ∈ c.content.tokens, t.Readable
  := by
  obtain ⟨clauses, keyword, result⟩ := p
  obtain ⟨hne, hclauses, hkeyword, hresult⟩ := h
  obtain ⟨ds, htokens, rfl, hreadable⟩ := exists_ifClauses_of_writable hclauses
  obtain ⟨a, hanswer, rfl⟩ := exists_answer_of_writable hresult
  have hds : ds ≠ [] := fun hnil => hne (List.map_eq_nil_iff.mpr hnil)
  refine ⟨⟨ds, ⟨⟨keyword, hkeyword⟩, a⟩, hds⟩, ?_, rfl, hreadable⟩
  rw [Derivation.tokens, Program.tokens, htokens, ElseClause.tokens, Otherwise.tokens, hanswer]

end Grammar

/-! ### Reading and writing -/

namespace Program

/-- Writing and reading are inverse to each other. If a program is read from readable tokens, then
it is writable and its own tokens say the same: they are as many, with the same kinds, names and
numbers. And every writable program is read from its tokens. -/
theorem tokens_inverse :
  (∀ {ts : List Token} {p : Program}, (∀ t ∈ ts, t.Readable) → ofTokens ts = .ok p →
      p.Writable ∧ List.Forall₂ Token.Alike p.tokens ts)
    ∧ ∀ {p : Program}, p.Writable → ofTokens p.tokens = .ok p
  := by
  constructor
  · intro ts p h hp
    obtain ⟨d, rfl, rfl⟩ := exists_derivation_of_ofTokens (fun t ht => (h t ht).hasNumeral) hp
    exact ⟨Derivation.writable h, Derivation.alike h⟩
  · intro p h
    obtain ⟨d, htokens, hprogram, hreadable⟩ := exists_derivation_of_writable h
    rw [← htokens, d.ofTokens hreadable, hprogram]

theorem tokens_inverse_nestedProgram :
  (∀ t ∈ nestedTokens, t.Readable) ∧ ofTokens nestedTokens = .ok nestedProgram
    ∧ List.Forall₂ Token.Alike nestedProgram.tokens nestedTokens
    ∧ nestedProgram.Writable ∧ ofTokens nestedProgram.tokens = .ok nestedProgram
  := by
  have h : ∀ t ∈ nestedTokens, t.Readable := by decide
  have hp : ofTokens nestedTokens = .ok nestedProgram := by rfl
  obtain ⟨hwritable, halike⟩ := tokens_inverse.1 h hp
  exact ⟨h, hp, halike, hwritable, tokens_inverse.2 hwritable⟩

/-- A connective on the left of another one is written only as a group. -/
example :
  ¬ (Condition.join (.known .and) (.join (.known .or) (.missing "a") (.missing "b"))
      (.missing "c")).Writable
    ∧ (Condition.join (.known .and) (.group (.join (.known .or) (.missing "a") (.missing "b")))
      (.missing "c")).Writable
  := by decide

end Program

end Verdict
