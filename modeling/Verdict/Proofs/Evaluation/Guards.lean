import Verdict.Proofs.Evaluation.Selection
import Verdict.Proofs.Grammar.Parentheses
import Verdict.Proofs.Number.Position
import Verdict.Proofs.Token.Course

/-!
# Guards

Tests for a missing value that stand in front of a condition, each with `OR` behind it, guard the
condition: since connectives nest to the right, all of them are evaluated before any part of it, and
the first that holds settles the value. So a rule whose comparisons mention guarded names only has a
value in every environment, however its condition is put together.
-/

namespace Verdict

open Token

/-! ### Guarded conditions -/

/-- The name has no value, or one at the position of a code for a missing value. -/
def Environment.Misses (env : Environment) (x : String) : Prop :=
  ∀ v, env.value? x = some v →
    v.position? = some (.ofRat 99) ∨ v.position? = some (.ofRat 999)

theorem Environment.misses_iff {env : Environment} {x : String} :
  env.Misses x ↔ isMissing (env.value? x) = true
  := by
  rw [Misses]
  cases env.value? x with
  | none => simp [isMissing]
  | some v => simp [Number.isMissing_some_iff]

namespace Condition

/-- The condition behind tests of the given names for a missing value. -/
def guarded : List String → Condition → Condition
  | [], e => e
  | x :: names, e => .join (.known .or) (.missing x) (guarded names e)

/-- The names of comparisons stay when groups are removed. -/
theorem comparedNames_reduce {e e' : Condition} (h : e.reduce = .ok e') :
  e'.comparedNames = e.comparedNames
  := by
  induction e, e', h using reduce_induction with
  | compare | missing => rfl
  | join op l l' r r' hl hr hop ihl ihr => rw [comparedNames, comparedNames, ihl, ihr]
  | group e e' h ih => exact ih

theorem reduce_guarded {e e' : Condition} (h : e.reduce = .ok e') (names : List String) :
  (e.guarded names).reduce = .ok (e'.guarded names)
  := by
  induction names with
  | nil => exact h
  | cons x names ih =>
    rw [guarded, reduce, ih]
    rfl

variable {env : Environment} (henv : env.IsWritable)
include henv

/-- A guarded condition holds where the value of a guarded name is missing. -/
theorem result_guarded_of_misses {names : List String} (h : ∃ x ∈ names, env.Misses x)
    (e : Condition) :
  ((e.guarded names).evaluate env).result = .ok true
  := by
  induction names with
  | nil => simp at h
  | cons x names ih =>
    rw [guarded, evaluate, Run.result_bind, evaluate_missing henv]
    cases hmissing : isMissing (env.value? x) with
    | true => rfl
    | false =>
      obtain ⟨y, hy, hmisses⟩ := h
      rcases List.mem_cons.mp hy with rfl | hy
      · rw [Environment.misses_iff, hmissing] at hmisses
        cases hmisses
      · exact ih ⟨y, hy, hmisses⟩

/-- A guarded condition has the value of the condition where all guarded names have values. -/
theorem result_guarded_of_present {names : List String} (h : ∀ x ∈ names, ¬ env.Misses x)
    (e : Condition) :
  ((e.guarded names).evaluate env).result = (e.evaluate env).result
  := by
  induction names with
  | nil => rfl
  | cons x names ih =>
    rw [List.forall_mem_cons, Environment.misses_iff, Bool.not_eq_true] at h
    rw [guarded, evaluate, Run.result_bind, evaluate_missing henv, h.1]
    exact ih h.2

/-- A condition all of whose names are present has its truth value. -/
theorem result_of_present {e : Condition} (h : e.WellFormed) (hfree : e.GroupFree)
    (hwritable : e.IsWritable) (hpresent : ∀ x ∈ e.comparedNames, env.value? x ≠ none) :
  (e.evaluate env).result = .ok (e.holds env)
  := by
  have hfirst : firstAbsent? env (e.comparisons env) = none := by
    rw [firstAbsent?, List.find?_eq_none]
    intro c hc habsent
    apply hpresent c.name (name_mem_comparedNames hc)
    apply Option.isNone_iff_eq_none.mp habsent
  rw [evaluate_result h hfree hwritable henv, hfirst]

end Condition

/-! ### The text of guards -/

/-- The text is a numeral that is short enough to be read. -/
abbrev IsShortNumeral (a : String) : Prop :=
  IsNumeral a.toList ∧ a.length ≤ Integer.maxDigits

/-- The text of tests for a missing value in front of a text. -/
def guardText : List String → String → String
  | [], text => text
  | x :: names, text => "IS-MISSING(" ++ x ++ ") OR " ++ guardText names text

namespace Rule

/-- The rule that returns one number if a value is missing or the condition holds, and another one
otherwise. -/
def guarded (names : List String) (text a b : String) : String :=
  "IF (" ++ guardText names text ++ ") RETURN " ++ a ++ " ELSE RETURN " ++ b

end Rule

namespace Grammar

theorem Terminal.spelling_fresh (k : Token.Kind) (text : String) :
  spelling (Terminal.fresh k text).token = (k, text)
  := rfl

/-- The chain of tests for a missing value in front of a chain. -/
def Chain.guarded : List String → Chain → Chain
  | [], content => content
  | x :: names, content =>
    .link (.missing (.fresh _ "IS-MISSING") (.fresh _ "(") (.fresh _ x) (.fresh _ ")")) .or
      (.fresh _ "OR") (guarded names content)

theorem Chain.condition_guarded (names : List String) (content : Chain) :
  (content.guarded names).condition = content.condition.guarded names
  := by
  induction names with
  | nil => rfl
  | cons x names ih =>
    rw [guarded, condition, ih]
    rfl

/-- The clause of the guarded rule, with tokens at no place. -/
def IfClause.guarded (names : List String) (content : Chain) (a : String) : IfClause :=
  ⟨.fresh _ "IF", .fresh _ "(", content.guarded names, .fresh _ ")", .fresh _ "RETURN", .fresh _ a⟩

/-- A derivation of the guarded rule. -/
def Derivation.guarded (names : List String) (content : Chain) (a b : String) : Derivation where
  clauses := [.guarded names content a]
  last := ⟨.fresh _ "ELSE", .fresh _ "RETURN", .fresh _ b⟩
  nonempty := by simp

/-- Guards spell the tokens of their chain. -/
theorem Chain.spelled_guarded {names : List String} (hnames : ∀ x ∈ names, IsName x)
    {content : Chain} {text : String} {s : List Char} {gs : List Spelling}
    (h : Spelled (text.toList ++ s) (content.tokens.map spelling ++ gs)) :
  Spelled ((guardText names text).toList ++ s) ((content.guarded names).tokens.map spelling ++ gs)
  := by
  induction names with
  | nil => exact h
  | cons x names ih =>
    rw [List.forall_mem_cons] at hnames
    have hor := (ih hnames.2).cons_space (k := .connective .or) (w := "OR") rfl
    have hname := (Spelled.blank (c := ' ') rfl hor).rightParen.cons (k := .identifier) (w := x)
      hnames.1 (.cons (by decide) _)
    have hword := hname.leftParen.cons (k := .isMissing) (w := "IS-MISSING") rfl
      (.cons (by decide) _)
    simpa [guardText, guarded, tokens, Operand.tokens, Terminal.spelling_fresh] using hword

/-- The guarded rule spells the tokens of its derivation. -/
theorem Derivation.spelled_guarded {names : List String} (hnames : ∀ x ∈ names, IsName x)
    {content : Chain} {text : String} (htext : Spelled text.toList (content.tokens.map spelling))
    {a b : String} (ha : IsNumeral a.toList) (hb : IsNumeral b.toList) :
  Spelled (Rule.guarded names text a b).toList
    ((Derivation.guarded names content a b).tokens.map spelling)
  := by
  have hvalue := Spelled.nil.cons (k := .number) (w := b) hb (by simp [Boundary])
  have hreturn := hvalue.cons_space (k := .keyword .returnWord) (w := "RETURN") rfl
  have helse := hreturn.cons_space (k := .keyword .elseWord) (w := "ELSE") rfl
  have hanswer := helse.cons_space (k := .number) (w := a) ha
  have hresult := hanswer.cons_space (k := .keyword .returnWord) (w := "RETURN") rfl
  have hright := (Spelled.blank (c := ' ') rfl hresult).rightParen
  have hcontent := Chain.spelled_guarded hnames (htext.append (.cons (by decide) _) hright)
  have hclause := hcontent.leftParen.cons_space (k := .keyword .ifWord) (w := "IF") rfl
  simpa [Rule.guarded, guarded, IfClause.guarded, tokens, IfClause.tokens, ElseClause.tokens,
    Answer.tokens, Terminal.spelling_fresh] using hclause

end Grammar

/-! ### Evaluation -/

/-- Tokens with the same kinds and texts are the same up to their places. -/
theorem moved_of_spelling_eq {ts us : List Token} (h : ts.map spelling = us.map spelling) :
  List.Forall₂ Token.Moved ts us
  := by
  rw [← List.forall₂_eq_eq_eq, List.forall₂_map_left_iff, List.forall₂_map_right_iff] at h
  apply h.imp
  intro t u hsame
  obtain ⟨hkind, htext⟩ := Prod.mk.inj hsame
  rw [Token.Moved, Token.unplaced, Token.unplaced, hkind, htext]

/-- The value of a program with a single clause. -/
theorem Program.result_of_clause {c : Clause} {o : Otherwise} {e : Condition}
    (hreduce : c.condition.reduce = .ok e) {m n : Int}
    (hm : clauseValue .ifWord c.keyword c.result = .ok m) (hn : o.Returns n) {env : Environment}
    {v : Bool} (hv : (e.evaluate env).result = .ok v) :
  ∃ d, ((Program.mk [c] o).evaluate env).result = .ok d ∧ d.value = if v then m else n
  := by
  have hclauses : reduceClauses [c] = .ok [{ c with condition := e }] := by
    rw [reduceClauses, hreduce]
    rfl
  have houtcomes :
      (evaluateClauses env 0 [{ c with condition := e }]).result = .ok [⟨0, v, m⟩] := by
    rw [evaluateClauses, Clause.evaluate, hm]
    simp [Run.result_bind, Run.ofExcept, Run.say, Run.pure, Except.bind, hv, evaluateClauses]
  rw [evaluate_of_reduceClauses hclauses (by simp) hn, Run.result_bind, houtcomes]
  cases v with
  | true => exact ⟨_, rfl, rfl⟩
  | false => exact ⟨_, rfl, rfl⟩

namespace Grammar

/-- A rule that spells the tokens of a derivation is evaluated as the program of the derivation. -/
theorem Derivation.evaluate_of_spelled {d : Derivation} (h : ∀ t ∈ d.tokens, t.Readable)
    {text : String} (htext : Spelled text.toList (d.tokens.map spelling)) (env : Environment) :
  Rule.evaluate text env = d.program.evaluate env
  := by
  obtain ⟨ts, htokens, hts⟩ := htext.exists_tokens
  have hp := d.ofTokens (Derivation.readable_content h)
  obtain ⟨q, hq⟩ := Program.exists_reduce_of_ofTokens h hp
  obtain ⟨-, p', hp', hcorresponds⟩ :=
    Program.exists_ofTokens_of_moved h hp (moved_of_spelling_eq hts.symm)
  have hprogram : Rule.program text = .ok p' := by
    rw [Rule.program, htokens]
    exact hp'
  rw [Rule.evaluate_of_program hprogram, (hcorresponds.equivalent hq).evaluate_eq]

theorem Chain.readable_guarded {content : Chain} (h : ∀ t ∈ content.tokens, t.Readable)
    (names : List String) :
  ∀ t ∈ (content.guarded names).tokens, t.Readable
  := by
  induction names with
  | nil => exact h
  | cons x names ih =>
    rw [guarded, tokens, List.forall_mem_append, List.forall_mem_cons]
    refine ⟨?_, Terminal.readable _ (by simp), ih⟩
    simp [Operand.tokens, Terminal.readable]

theorem Derivation.readable_guarded {content : Chain} (h : ∀ t ∈ content.tokens, t.Readable)
    (names : List String) {a b : String} (ha : IsShortNumeral a) (hb : IsShortNumeral b) :
  ∀ t ∈ (Derivation.guarded names content a b).tokens, t.Readable
  := by
  have hcontent := Chain.readable_guarded h names
  have hvalue : ∀ a, IsShortNumeral a → (Terminal.fresh .number a).token.Readable :=
    fun a ha _ => ha
  have hanswer : ∀ a, IsShortNumeral a →
      ∀ t ∈ Answer.tokens ⟨.fresh _ "RETURN", .fresh _ a⟩, t.Readable := by
    intro a ha
    rw [Answer.tokens, List.forall_mem_cons, List.forall_mem_singleton]
    exact ⟨Terminal.readable _ (by simp), hvalue a ha⟩
  rw [tokens, List.forall_mem_append]
  constructor
  · rw [guarded, List.flatMap_singleton, IfClause.guarded, IfClause.tokens, List.forall_mem_cons,
      List.forall_mem_cons, List.forall_mem_append, List.forall_mem_cons]
    exact ⟨Terminal.readable _ (by simp), Terminal.readable _ (by simp), hcontent,
      Terminal.readable _ (by simp), hanswer a ha⟩
  · rw [guarded, ElseClause.tokens, List.forall_mem_cons]
    exact ⟨Terminal.readable _ (by simp), hanswer b hb⟩

/-- The keywords being in their places, the number of a clause is that of its numeral. -/
theorem clauseValue_fresh {a : String} (ha : IsShortNumeral a) (k : Keyword) :
  clauseValue k (.fresh (.keyword k) k.text)
      ⟨.fresh (.keyword .returnWord) "RETURN", .fresh .number a⟩ =
    .ok (Text.ofDigitChars a.toList)
  := by
  have hkeyword : ∀ k : Keyword, (Token.fresh (.keyword k) k.text).Writes (.keyword k) := by
    intro k
    cases k
    all_goals exact ⟨rfl, rfl⟩
  have hreturn : Return.Canonical ⟨.fresh (.keyword .returnWord) "RETURN", .fresh .number a⟩ :=
    ⟨hkeyword .returnWord, ⟨rfl, ha.1⟩⟩
  have hnumber := hreturn.number_eq.trans (if_neg (Nat.not_lt.mpr ha.2))
  rw [hreturn.clauseValue_eq (hkeyword k), hnumber]
  rfl

/-- The value of the guarded rule is the number that the value of its condition selects. -/
theorem Derivation.exists_decision_guarded {content : Chain} {e : Condition}
    (hreduce : content.condition.reduce = .ok e) (names : List String) {a b : String}
    (ha : IsShortNumeral a) (hb : IsShortNumeral b) {env : Environment} {v : Bool}
    (hv : ((e.guarded names).evaluate env).result = .ok v) :
  ∃ d, ((Derivation.guarded names content a b).program.evaluate env).result = .ok d
    ∧ d.value = Text.ofDigitChars (if v then a else b).toList
  := by
  have hguarded := Condition.reduce_guarded hreduce names
  rw [← Chain.condition_guarded] at hguarded
  let c := (IfClause.guarded names content a).clause
  have hif : clauseValue .ifWord c.keyword c.result = .ok (Text.ofDigitChars a.toList) :=
    clauseValue_fresh ha .ifWord
  have hotherwise : (Derivation.guarded names content a b).last.otherwise.Returns
      (Text.ofDigitChars b.toList) := clauseValue_fresh hb .elseWord
  obtain ⟨d, hd, hvalue⟩ := Program.result_of_clause hguarded hif hotherwise hv
  use d, hd
  rw [hvalue]
  cases v
  all_goals rfl

end Grammar

/-- Guards protect any condition. The tests for a missing value stand in front of a condition whose
comparisons mention guarded names only, and which may be any chain of operands. Then the rule has a
value in every environment whose integers are written: the first number where a guarded name has no
value or one that stands for a missing value, and otherwise the first or the second one as the
condition holds or not. -/
theorem evaluate_guarded {names : List String} (hnames : ∀ x ∈ names, IsName x)
    {content : Grammar.Chain} {text : String} (htokens : Rule.tokens text = .ok content.tokens)
    (hlength : ∀ t ∈ content.tokens, t.kind = .number → t.text.length ≤ Integer.maxDigits)
    (hcompared : ∀ x ∈ content.condition.comparedNames, x ∈ names)
    {a b : String} (ha : IsShortNumeral a) (hb : IsShortNumeral b) {env : Environment}
    (henv : env.IsWritable) :
  ∃ d, (Rule.evaluate (Rule.guarded names text a b) env).result = .ok d
    ∧ ((∃ x ∈ names, env.Misses x) → d.value = Text.ofDigitChars a.toList)
    ∧ ((∀ x ∈ names, ¬ env.Misses x) → ∃ v, (content.condition.run env).result = .ok v
      ∧ d.value = Text.ofDigitChars (if v then a else b).toList)
  := by
  have hreadable : ∀ t ∈ content.tokens, t.Readable := fun t ht hkind =>
    ⟨Token.hasNumeral_of_tokens htokens t ht hkind, hlength t ht hkind⟩
  have htext := spelled_of_scanFrom (tokens_eq_ok_iff.mp htokens)
  obtain ⟨e, hreduce⟩ := content.wellFormed.reducible.exists_reduce
  rw [Grammar.Derivation.evaluate_of_spelled
    (Grammar.Derivation.readable_guarded hreadable names ha hb)
    (Grammar.Derivation.spelled_guarded hnames htext ha.1 hb.1)]
  by_cases hmisses : ∃ x ∈ names, env.Misses x
  · obtain ⟨d, hd, hvalue⟩ := Grammar.Derivation.exists_decision_guarded hreduce names ha hb
      (Condition.result_guarded_of_misses henv hmisses e)
    use d, hd, fun _ => hvalue
    intro hpresent
    obtain ⟨x, hx, hmiss⟩ := hmisses
    exact absurd hmiss (hpresent x hx)
  · have hpresent : ∀ x ∈ names, ¬ env.Misses x := fun x hx hmiss => hmisses ⟨x, hx, hmiss⟩
    have hcanonical :=
      content.canonical_of_reduce (Token.lexeme_of_tokens htokens) hreadable hreduce
    -- a name that is compared is guarded, and so it has a value
    have hholds : (e.evaluate env).result = .ok (e.holds env) := by
      apply Condition.result_of_present henv hcanonical.wellFormed hcanonical.groupFree
        hcanonical.isWritable
      intro x hx hnone
      rw [Condition.comparedNames_reduce hreduce] at hx
      apply hpresent x (hcompared x hx)
      rw [Environment.misses_iff, hnone]
      rfl
    have hguarded := Condition.result_guarded_of_present henv hpresent e
    obtain ⟨d, hd, hvalue⟩ := Grammar.Derivation.exists_decision_guarded hreduce names ha hb
      (hguarded.trans hholds)
    use d, hd, fun h => absurd h hmisses
    intro _
    rw [Condition.run_of_reduce hreduce]
    exact ⟨_, hholds, hvalue⟩

/-- A chain without parentheses. -/
def boundsText : String :=
  "x > 5 AND y < 3"

/-- The chain that the text writes. -/
def boundsChain : Grammar.Chain :=
  .link (.compare ⟨⟨.identifier, "x", 0, 1, 1⟩, rfl⟩ .gt ⟨⟨.relation .gt, ">", 2, 1, 3⟩, rfl⟩
      ⟨⟨.number, "5", 4, 1, 5⟩, rfl⟩)
    .and ⟨⟨.connective .and, "AND", 6, 1, 7⟩, rfl⟩
    (.last (.compare ⟨⟨.identifier, "y", 10, 1, 11⟩, rfl⟩ .lt
      ⟨⟨.relation .lt, "<", 12, 1, 13⟩, rfl⟩ ⟨⟨.number, "3", 14, 1, 15⟩, rfl⟩))

/-- The name `x` has the value 7 and `y` the value 99 in binary form. -/
def codeBound : Environment :=
  (Environment.empty.set "y"
    (some (.binary (.finite false 6966505673588736 (-46) (by decide))))).set "x"
      (some (.integer 7))

/-- The name `x` has the value 7 and `y` the value 3. -/
def valuesBound : Environment :=
  (Environment.empty.set "y" (some (.integer 3))).set "x" (some (.integer 7))

theorem evaluate_guarded_boundsText :
  (∀ x ∈ ["x", "y"], IsName x) ∧ Rule.tokens boundsText = .ok boundsChain.tokens
    ∧ (∀ x ∈ boundsChain.condition.comparedNames, x ∈ ["x", "y"])
    ∧ Rule.guarded ["x", "y"] boundsText "10" "20" =
      "IF (IS-MISSING(x) OR IS-MISSING(y) OR x > 5 AND y < 3) RETURN 10 ELSE RETURN 20"
    ∧ codeBound.IsWritable ∧ valuesBound.IsWritable ∧ codeBound.Misses "y"
    ∧ (∃ d, (Rule.evaluate (Rule.guarded ["x", "y"] boundsText "10" "20") codeBound).result = .ok d
      ∧ d.value = 10)
    ∧ ∃ d, (Rule.evaluate (Rule.guarded ["x", "y"] boundsText "10" "20") valuesBound).result = .ok d
      ∧ d.value = 20
  := by
  have hnames : ∀ x ∈ ["x", "y"], IsName x := by decide
  have htokens : Rule.tokens boundsText = .ok boundsChain.tokens := by rfl
  have hlength : ∀ t ∈ boundsChain.tokens,
      t.kind = .number → t.text.length ≤ Integer.maxDigits := by decide
  have hcompared : ∀ x ∈ boundsChain.condition.comparedNames, x ∈ ["x", "y"] := by decide
  have hten : IsShortNumeral "10" := by decide
  have htwenty : IsShortNumeral "20" := by decide
  have hcode : codeBound.IsWritable :=
    (Environment.isWritable_empty.set_some (Number.isWritable_binary _)).set_some rfl
  have hvalues : valuesBound.IsWritable := Environment.isWritable_of_entries (by decide)
  have hmisses : codeBound.Misses "y" := by
    rw [Environment.misses_iff]
    decide +kernel
  have hpresent : ∀ x ∈ ["x", "y"], ¬ valuesBound.Misses x := by
    simp only [Environment.misses_iff]
    decide
  have hfalse : (boundsChain.condition.run valuesBound).result = .ok false := rfl
  obtain ⟨d, hd, hmissing, -⟩ :=
    evaluate_guarded hnames htokens hlength hcompared hten htwenty hcode
  obtain ⟨d', hd', -, hselects⟩ :=
    evaluate_guarded hnames htokens hlength hcompared hten htwenty hvalues
  obtain ⟨v, hv, hvalue⟩ := hselects hpresent
  rw [hfalse] at hv
  cases hv
  exact ⟨hnames, htokens, hcompared, rfl, hcode, hvalues, hmisses,
    ⟨d, hd, hmissing ⟨"y", by simp, hmisses⟩⟩, d', hd', hvalue⟩

end Verdict
