import Mathlib.Data.List.Forall2
import Mathlib.Tactic.Use
import Verdict.Proofs.Evaluation.Absence

/-!
# Programs that correspond

Two programs correspond along a relation between tokens if they have the same conditions and the
tokens in the same places are related. Such programs still correspond when their groups have been
removed. If in addition the same number, or the same failure, is read from every two clauses in the
same place, the programs have the same runs.
-/

namespace Verdict

variable {R : Token → Token → Prop}

/-! ### Tokens -/

/-- The number that is read from a readable token. -/
theorem Token.Readable.read_eq {t : Token} (h : t.Readable) (hkind : t.kind = .number) :
  Integer.read t.text = .ok (Text.ofDigitChars t.text.toList)
  := by
  obtain ⟨hnumeral, hlength⟩ := h hkind
  rw [Integer.read_numeral hnumeral, if_neg (Nat.not_lt.mpr hlength)]

/-- The tokens say the same: they have the same kind, the same text if they are identifiers, and
the same value if they are numbers. -/
structure Token.Alike (t t' : Token) : Prop where
  kind_eq : t.kind = t'.kind
  text_eq : t.kind = .identifier → t.text = t'.text
  read_eq : t.kind = .number → Integer.read t.text = Integer.read t'.text

theorem Token.Alike.symm {t t' : Token} (h : t.Alike t') :
  t'.Alike t
  := by
  obtain ⟨hkind, htext, hread⟩ := h
  rw [hkind] at htext hread
  exact ⟨hkind.symm, fun hname => (htext hname).symm, fun hnumber => (hread hnumber).symm⟩

/-- The token without its place. -/
def Token.unplaced (t : Token) : Token :=
  ⟨t.kind, t.text, 0, 0, 0⟩

/-- The second token is the first one, at any place. -/
def Token.Moved (t t' : Token) : Prop :=
  t.unplaced = t'.unplaced

theorem Token.Moved.eq {t t' : Token} (h : t.Moved t') :
  t.kind = t'.kind ∧ t.text = t'.text
  := by
  injection h with hkind htext
  exact ⟨hkind, htext⟩

/-- A token that is moved says the same. -/
theorem Token.Moved.alike {t t' : Token} (h : t.Moved t') :
  t.Alike t'
  := by
  obtain ⟨hkind, htext⟩ := h.eq
  exact ⟨hkind, fun _ => htext, fun _ => by rw [htext]⟩

/-- A readable token stays so when it is moved. -/
theorem Token.Moved.readable {t t' : Token} (h : t.Moved t') (ht : t.Readable) :
  t'.Readable
  := by
  obtain ⟨hkind, htext⟩ := h.eq
  rwa [Token.Readable, hkind, htext] at ht

/-! ### Programs -/

/-- The tokens of the two numbers to return are related. -/
structure Return.Corresponds (R : Token → Token → Prop) (r r' : Return) : Prop where
  keyword : R r.keyword r'.keyword
  value : R r.value r'.value

/-- The two clauses have the same condition, and their tokens are related. -/
structure Clause.Corresponds (R : Token → Token → Prop) (c c' : Clause) : Prop where
  keyword : R c.keyword c'.keyword
  condition : c.condition = c'.condition
  result : c.result.Corresponds R c'.result

/-- The tokens of the two last clauses are related. -/
structure Otherwise.Corresponds (R : Token → Token → Prop) (o o' : Otherwise) : Prop where
  keyword : R o.keyword o'.keyword
  result : o.result.Corresponds R o'.result

/-- The two programs have the same conditions, and their tokens are related. -/
structure Program.Corresponds (R : Token → Token → Prop) (p p' : Program) : Prop where
  clauses : List.Forall₂ (Clause.Corresponds R) p.clauses p'.clauses
  otherwise : p.otherwise.Corresponds R p'.otherwise

namespace Program

/-- Programs that correspond have the same conditions. -/
theorem Corresponds.conditions_eq {p p' : Program} (h : p.Corresponds R p') :
  p.clauses.map (·.condition) = p'.clauses.map (·.condition)
  := by
  rw [← List.forall₂_eq_eq_eq, List.forall₂_map_left_iff, List.forall₂_map_right_iff]
  apply h.clauses.imp
  intro c c' hc
  exact hc.condition

/-- What is left of clauses that correspond when their groups are removed corresponds. -/
theorem exists_reduceClauses_of_corresponds {cs cs' ks : List Clause}
    (h : List.Forall₂ (Clause.Corresponds R) cs cs') (hks : reduceClauses cs = .ok ks) :
  ∃ ks', reduceClauses cs' = .ok ks' ∧ List.Forall₂ (Clause.Corresponds R) ks ks'
  := by
  induction h generalizing ks with
  | nil =>
    cases hks
    exact ⟨[], rfl, .nil⟩
  | @cons c c' cs cs' hc hcs ih =>
    obtain ⟨e, ks₁, hreduce, hrest, rfl⟩ := reduceClauses_cons hks
    obtain ⟨ks₁', hrest', hks₁⟩ := ih hrest
    use { c' with condition := e } :: ks₁'
    constructor
    · rw [reduceClauses, ← hc.condition, hreduce, hrest']
    · exact .cons ⟨hc.keyword, rfl, hc.result⟩ hks₁

/-- What is left of programs that correspond when their groups are removed corresponds. -/
theorem Corresponds.exists_reduce {p p' q : Program} (h : p.Corresponds R p')
    (hq : p.reduce = .ok q) :
  ∃ q', p'.reduce = .ok q' ∧ q.Corresponds R q'
  := by
  obtain ⟨hclauses, hne, hotherwise⟩ := reduce_eq_ok hq
  obtain ⟨ks', hks', hall⟩ := exists_reduceClauses_of_corresponds h.clauses hclauses
  have hne' : ks' ≠ [] := by
    rintro rfl
    exact hne (List.forall₂_nil_right_iff.mp hall)
  use ⟨ks', p'.otherwise⟩, reduce_of_clauses hks' hne', hall
  rw [hotherwise]
  exact h.otherwise

/-! ### Programs without places -/

/-- The program without the places of its tokens. -/
def unplaced (p : Program) : Program where
  clauses := p.clauses.map fun c =>
    ⟨c.keyword.unplaced, c.condition, c.result.keyword.unplaced, c.result.value.unplaced⟩
  otherwise := ⟨p.otherwise.keyword.unplaced, p.otherwise.result.keyword.unplaced,
    p.otherwise.result.value.unplaced⟩

/-- Programs that correspond up to the places of tokens are equal without these places. -/
theorem Corresponds.unplaced_eq {p p' : Program} (h : p.Corresponds Token.Moved p') :
  p.unplaced = p'.unplaced
  := by
  obtain ⟨hclauses, hkeyword, hreturn, hvalue⟩ := h
  rw [unplaced, unplaced, hkeyword, hreturn, hvalue]
  congr 1
  rw [← List.forall₂_eq_eq_eq, List.forall₂_map_left_iff, List.forall₂_map_right_iff]
  apply hclauses.imp
  rintro c c' ⟨hkeyword, hcondition, hreturn, hvalue⟩
  rw [hkeyword, hcondition, hreturn, hvalue]

end Program

/-! ### Runs -/

/-- The two clauses have the same condition, and the same number or failure is read from them. -/
structure Clause.Agrees (c c' : Clause) : Prop where
  condition : c.condition = c'.condition
  value : clauseValue .ifWord c.keyword c.result = clauseValue .ifWord c'.keyword c'.result

/-- The clauses of the two programs agree, and the same number or failure is read from their last
clauses. -/
structure Program.Agrees (p p' : Program) : Prop where
  clauses : List.Forall₂ Clause.Agrees p.clauses p'.clauses
  otherwise : clauseValue .elseWord p.otherwise.keyword p.otherwise.result =
    clauseValue .elseWord p'.otherwise.keyword p'.otherwise.result

theorem evaluateClauses_of_agrees {cs cs' : List Clause} (h : List.Forall₂ Clause.Agrees cs cs')
    (env : Environment) (index : Nat) :
  evaluateClauses env index cs = evaluateClauses env index cs'
  := by
  induction h generalizing index with
  | nil => rfl
  | cons hc _ ih =>
    rw [evaluateClauses, evaluateClauses, Clause.evaluate, Clause.evaluate, hc.condition, hc.value,
      ih]

/-- Programs that agree when their groups are removed have the same runs. -/
theorem Program.evaluate_of_agrees {p p' q q' : Program} (hq : p.reduce = .ok q)
    (hq' : p'.reduce = .ok q') (h : q.Agrees q') (env : Environment) :
  p.evaluate env = p'.evaluate env
  := by
  rw [evaluate_of_reduce hq, evaluate_of_reduce hq', evaluateClauses_of_agrees h.clauses,
    h.otherwise]

theorem Keyword.check_eq {k : Keyword} {t t' : Token} (h : t.Moved t') :
  k.check t = k.check t'
  := by
  obtain ⟨hkind, htext⟩ := h.eq
  rw [check, check, hkind, htext]

theorem clauseValue_eq_of_corresponds {k : Keyword} {t t' : Token} {r r' : Return}
    (ht : t.Moved t') (hr : r.Corresponds Token.Moved r') :
  clauseValue k t r = clauseValue k t' r'
  := by
  obtain ⟨hkind, htext⟩ := hr.value.eq
  rw [clauseValue, clauseValue, Keyword.check_eq ht, Return.evaluate, Return.evaluate,
    Keyword.check_eq hr.keyword, Return.number, Return.number, hkind, htext]

/-- Programs that correspond up to the places of tokens agree. -/
theorem Program.Corresponds.agrees {p p' : Program} (h : p.Corresponds Token.Moved p') :
  p.Agrees p'
  := by
  constructor
  · apply h.clauses.imp
    intro c c' hc
    exact ⟨hc.condition, clauseValue_eq_of_corresponds hc.keyword hc.result⟩
  · apply clauseValue_eq_of_corresponds h.otherwise.keyword h.otherwise.result

end Verdict
