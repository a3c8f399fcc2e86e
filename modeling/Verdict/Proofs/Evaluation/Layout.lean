import Mathlib.Tactic.Use
import Verdict.Proofs.Failure.Rule
import Verdict.Proofs.Grammar.Lockstep

/-!
# Layout and spelling

Two rules whose tokens say the same may differ in their blanks, in zeros in front of their numbers,
and in the spelling of equality. Both are refused at the same token, where the same is expected; or
both are accepted with the same conditions, and then they have the same run in every environment.
-/

namespace Verdict

/-- Whether two tokens say the same can be computed. -/
instance (t t' : Token) : Decidable (t.Alike t') :=
  decidable_of_iff (t.kind = t'.kind ∧ (t.kind = .identifier → t.text = t'.text)
      ∧ (t.kind = .number → Integer.read t.text = Integer.read t'.text))
    ⟨fun ⟨hkind, htext, hread⟩ => ⟨hkind, htext, hread⟩,
      fun ⟨hkind, htext, hread⟩ => ⟨hkind, htext, hread⟩⟩

/-- A numeral that says the same as a readable one can be read. -/
theorem Token.Alike.readable {t t' : Token} (h : t.Alike t') (ht : t.Readable)
    (ht' : t'.HasNumeral) :
  t'.Readable
  := by
  intro hkind'
  have hkind : t.kind = .number := h.kind_eq.trans hkind'
  have hread := h.read_eq hkind
  rw [ht.read_eq hkind, Integer.read_numeral (ht' hkind')] at hread
  use ht' hkind'
  by_contra hlong
  rw [if_pos (Nat.not_le.mp hlong)] at hread
  cases hread

/-- The keywords being in their places, numbers that say the same are read in the same way. -/
theorem Return.Canonical.clauseValue_eq_of_alike {k : Keyword} {t t' : Token} {r r' : Return}
    (hr : r.Canonical) (hr' : r'.Canonical) (ht : t.Writes (.keyword k))
    (ht' : t'.Writes (.keyword k)) (h : r.Corresponds Token.Alike r') :
  clauseValue k t r = clauseValue k t' r'
  := by
  rw [hr.clauseValue_eq ht, hr'.clauseValue_eq ht', number, number,
    h.value.read_eq hr.value.kind_eq]

/-- Canonical programs whose tokens say the same agree. -/
theorem Program.Canonical.agrees {q q' : Program} (hq : q.Canonical) (hq' : q'.Canonical)
    (h : q.Corresponds Token.Alike q') :
  q.Agrees q'
  := by
  constructor
  · rw [List.forall₂_iff_zip]
    obtain ⟨hlength, hall⟩ := List.forall₂_iff_zip.mp h.clauses
    use hlength
    intro c c' hmem
    have hc := hq.clauses c (List.of_mem_zip hmem).1
    have hc' := hq'.clauses c' (List.of_mem_zip hmem).2
    have hcorresponds := hall hmem
    exact ⟨hcorresponds.condition, hc.result.clauseValue_eq_of_alike hc'.result hc.keyword
      hc'.keyword hcorresponds.result⟩
  · apply hq.otherwise.result.clauseValue_eq_of_alike hq'.otherwise.result hq.otherwise.keyword
      hq'.otherwise.keyword h.otherwise.result

namespace Rule

/-- The evaluation of an accepted rule whose numbers can be read gives a decision, or fails because
a variable is undefined. All integers of the environment are written. -/
theorem decided_or_undefined {text : String} {ts : List Token} {q : Program}
    (htokens : tokens text = .ok ts) (h : ∀ t ∈ ts, t.Readable) (hq : canonical text = .ok q)
    {env : Environment} (henv : env.IsWritable) :
  (∃ d, (evaluate text env).result = .ok d)
    ∨ ∃ name comparison,
        (evaluate text env).result = .error (Fault.undefined name comparison)
  := by
  have hcanonical := Grammar.canonical_of_rule hq
  have hlength : ∀ r ∈ q.returns, r.value.text.length ≤ Integer.maxDigits := by
    obtain ⟨us, hus, hvalues⟩ := Grammar.value_mem_of_canonical hq
    rw [htokens] at hus
    cases hus
    intro r hr
    apply (h r.value (hvalues r hr) (hcanonical.returns r hr).value.kind_eq).2
  have hresult := evaluate_of_canonical hq hlength henv
  cases hfirst : firstAbsent? env (q.comparisons env) with
  | none =>
    rw [hfirst] at hresult
    exact Or.inl hresult
  | some c =>
    rw [hfirst] at hresult
    exact Or.inr ⟨c.name, c.text, hresult⟩

/-- Two rules whose tokens have the same kinds, the same identifiers and the same numbers. Either
both are refused, and then at the same index, where the same is expected; behind the last token this
is the end of the input. Or both are accepted with the same conditions, and then their runs are the
same in every environment, with a decision or with the same undefined variable where all integers of
the environment have few enough digits to be written. -/
theorem canonical_of_alike {text text' : String} {ts ts' : List Token}
    (htokens : tokens text = .ok ts) (htokens' : tokens text' = .ok ts')
    (hlength : ∀ t ∈ ts, t.kind = .number → t.text.length ≤ Integer.maxDigits)
    (halike : List.Forall₂ Token.Alike ts ts') :
  (∃ i e, canonical text = .error (Fault.misplacedAt ts i e)
      ∧ canonical text' = .error (Fault.misplacedAt ts' i e))
    ∨ ∃ q q', canonical text = .ok q ∧ canonical text' = .ok q'
        ∧ q.clauses.map (·.condition) = q'.clauses.map (·.condition)
        ∧ ∀ env, evaluate text env = evaluate text' env
          ∧ (env.IsWritable → (∃ d, (evaluate text env).result = .ok d)
            ∨ ∃ name comparison,
                (evaluate text env).result = .error (Fault.undefined name comparison))
  := by
  have h : ∀ t ∈ ts, t.Readable := fun t ht hkind =>
    ⟨Token.hasNumeral_of_tokens htokens t ht hkind, hlength t ht hkind⟩
  have h' : ∀ t ∈ ts', t.Readable := by
    intro t' ht'
    obtain ⟨t, ht, hsame⟩ := exists_mem_of_forall₂ halike ht'
    apply hsame.readable (h t ht) (Token.hasNumeral_of_tokens htokens' t' ht')
  rcases ofTokens_lockstep (fun _ _ => id) halike h h' with
    ⟨p, p', hp, hp', hcorresponds⟩ | ⟨i, e, hf, hf'⟩
  · right
    have hprogram : program text = .ok p := by rw [program, htokens]; exact hp
    have hprogram' : program text' = .ok p' := by rw [program, htokens']; exact hp'
    obtain ⟨q, hreduce, hq⟩ := exists_reduce_of_program hprogram
    obtain ⟨q', hreduce', hreduced⟩ := hcorresponds.exists_reduce hreduce
    have hq' : canonical text' = .ok q' := by rw [canonical, hprogram']; exact hreduce'
    have hagrees :=
      (Grammar.canonical_of_rule hq).agrees (Grammar.canonical_of_rule hq') hreduced
    refine ⟨q, q', hq, hq', hreduced.conditions_eq, ?_⟩
    intro env
    constructor
    · rw [evaluate_of_program hprogram, evaluate_of_program hprogram',
        Program.evaluate_of_agrees hreduce hreduce' hagrees]
    · apply decided_or_undefined htokens h hq
  · left
    use i, e
    rw [canonical, program, htokens, canonical, program, htokens']
    constructor
    · exact congrArg (Except.bind · Program.reduce) hf
    · exact congrArg (Except.bind · Program.reduce) hf'

/-- A rule on one line. -/
def plainRule : String :=
  "IF (x == 7) RETURN 1 ELSE RETURN 2"

def plainTokens : List Token :=
  [⟨.keyword .ifWord, "IF", 0, 1, 1⟩, ⟨.leftParen, "(", 3, 1, 4⟩, ⟨.identifier, "x", 4, 1, 5⟩,
    ⟨.relation .eq, "==", 6, 1, 7⟩, ⟨.number, "7", 9, 1, 10⟩, ⟨.rightParen, ")", 10, 1, 11⟩,
    ⟨.keyword .returnWord, "RETURN", 12, 1, 13⟩, ⟨.number, "1", 19, 1, 20⟩,
    ⟨.keyword .elseWord, "ELSE", 21, 1, 22⟩, ⟨.keyword .returnWord, "RETURN", 26, 1, 27⟩,
    ⟨.number, "2", 33, 1, 34⟩]

/-- The same rule on two lines, with the other sign of equality and zeros in front of numbers. -/
def spreadRule : String :=
  "IF ( x IGUALQUE 007 )\nRETURN 01 ELSE RETURN 2"

def spreadTokens : List Token :=
  [⟨.keyword .ifWord, "IF", 0, 1, 1⟩, ⟨.leftParen, "(", 3, 1, 4⟩, ⟨.identifier, "x", 5, 1, 6⟩,
    ⟨.relation .eq, "IGUALQUE", 7, 1, 8⟩, ⟨.number, "007", 16, 1, 17⟩,
    ⟨.rightParen, ")", 20, 1, 21⟩, ⟨.keyword .returnWord, "RETURN", 22, 2, 1⟩,
    ⟨.number, "01", 29, 2, 8⟩, ⟨.keyword .elseWord, "ELSE", 32, 2, 11⟩,
    ⟨.keyword .returnWord, "RETURN", 37, 2, 16⟩, ⟨.number, "2", 44, 2, 23⟩]

/-- The name `x` has the value 7. -/
def sevenBound : Environment :=
  Environment.empty.set "x" (some (.integer 7))

theorem canonical_of_alike_spreadRule :
  tokens plainRule = .ok plainTokens ∧ tokens spreadRule = .ok spreadTokens
    ∧ (∀ t ∈ plainTokens, t.kind = .number → t.text.length ≤ Integer.maxDigits)
    ∧ List.Forall₂ Token.Alike plainTokens spreadTokens
    ∧ sevenBound.IsWritable
    ∧ ∃ q q', canonical plainRule = .ok q ∧ canonical spreadRule = .ok q'
      ∧ q.clauses.map (·.condition) = q'.clauses.map (·.condition)
      ∧ (∀ env, evaluate plainRule env = evaluate spreadRule env)
      ∧ ((∃ d, (evaluate plainRule sevenBound).result = .ok d)
        ∨ ∃ name comparison,
            (evaluate plainRule sevenBound).result = .error (Fault.undefined name comparison))
  := by
  have htokens : tokens plainRule = .ok plainTokens := by rfl
  have htokens' : tokens spreadRule = .ok spreadTokens := by rfl
  have hlength : ∀ t ∈ plainTokens, t.kind = .number → t.text.length ≤ Integer.maxDigits := by
    decide
  have halike : List.Forall₂ Token.Alike plainTokens spreadTokens := by decide
  have hseven : sevenBound.IsWritable := Environment.isWritable_of_entries (by decide)
  refine ⟨htokens, htokens', hlength, halike, hseven, ?_⟩
  rcases canonical_of_alike htokens htokens' hlength halike with
    ⟨i, e, hrefused, -⟩ | ⟨q, q', hq, hq', hconditions, hevaluate⟩
  · cases hrefused
  · exact ⟨q, q', hq, hq', hconditions, fun env => (hevaluate env).1,
      (hevaluate sevenBound).2 hseven⟩

/-! ### Values with too many digits -/

/-- A rule without a comparison. -/
def testingRule : String :=
  "IF (IS-MISSING(x)) RETURN 1 ELSE RETURN 0"

def testingTokens : List Token :=
  [⟨.keyword .ifWord, "IF", 0, 1, 1⟩, ⟨.leftParen, "(", 3, 1, 4⟩,
    ⟨.isMissing, "IS-MISSING", 4, 1, 5⟩, ⟨.leftParen, "(", 14, 1, 15⟩,
    ⟨.identifier, "x", 15, 1, 16⟩, ⟨.rightParen, ")", 16, 1, 17⟩,
    ⟨.rightParen, ")", 17, 1, 18⟩, ⟨.keyword .returnWord, "RETURN", 19, 1, 20⟩,
    ⟨.number, "1", 26, 1, 27⟩, ⟨.keyword .elseWord, "ELSE", 28, 1, 29⟩,
    ⟨.keyword .returnWord, "RETURN", 33, 1, 34⟩, ⟨.number, "0", 40, 1, 41⟩]

/-- The name `x` has the least value with too many digits. -/
def hugeBound : Environment :=
  Environment.empty.set "x" (some (.integer (10 ^ Integer.maxDigits)))

/-- The program that the rule writes. -/
def testingProgram : Program where
  clauses :=
    [⟨⟨.keyword .ifWord, "IF", 0, 1, 1⟩, .missing "x",
      ⟨⟨.keyword .returnWord, "RETURN", 19, 1, 20⟩, ⟨.number, "1", 26, 1, 27⟩⟩⟩]
  otherwise :=
    ⟨⟨.keyword .elseWord, "ELSE", 28, 1, 29⟩,
      ⟨⟨.keyword .returnWord, "RETURN", 33, 1, 34⟩, ⟨.number, "0", 40, 1, 41⟩⟩⟩

/-- The rule fails as its only test does. -/
theorem result_testingRule {env : Environment} {f : Failure}
    (h : (Condition.missing "x").evaluate env = .fail f) :
  (evaluate testingRule env).result = .error f
  := by
  have hprogram : program testingRule = .ok testingProgram := by rfl
  have hreduce : testingProgram.reduce = .ok testingProgram := by rfl
  rw [evaluate_of_program hprogram, Program.evaluate_of_reduce hreduce, testingProgram,
    evaluateClauses, Clause.evaluate, h]
  rfl

/-- Without the bound on the integers of the environment there may be neither a decision nor an
undefined variable, for the step of the test cannot be written. -/
theorem undecided_of_hugeBound :
  tokens testingRule = .ok testingTokens
    ∧ (∀ t ∈ testingTokens, t.kind = .number → t.text.length ≤ Integer.maxDigits)
    ∧ List.Forall₂ Token.Alike testingTokens testingTokens
    ∧ (∃ q, canonical testingRule = .ok q)
    ∧ (evaluate testingRule hugeBound).result = .error (.integer (.unwritable "x"))
    ∧ ¬ ((∃ d, (evaluate testingRule hugeBound).result = .ok d)
      ∨ ∃ name comparison,
          (evaluate testingRule hugeBound).result = .error (Fault.undefined name comparison))
  := by
  have htokens : tokens testingRule = .ok testingTokens := by rfl
  have hcanonical : ∃ q, canonical testingRule = .ok q := ⟨_, rfl⟩
  have hwritable : Integer.isWritable (10 ^ Integer.maxDigits) = false := by
    have hten : (10 : Int).natAbs = 10 := rfl
    rw [← Bool.not_eq_true, Integer.isWritable_iff, Int.natAbs_pow, hten]
    apply Nat.lt_irrefl
  have hresult : (evaluate testingRule hugeBound).result = .error (.integer (.unwritable "x")) := by
    apply result_testingRule
    rw [Condition.evaluate, Run.tell, Step.fault?, hugeBound, Environment.value?_set, if_pos rfl,
      Option.all_some, Number.isWritable, hwritable]
    rfl
  refine ⟨htokens, by decide, by decide, hcanonical, hresult, ?_⟩
  rw [hresult]
  simp

end Rule

end Verdict
