import Mathlib.Data.List.Forall2
import Verdict.Proofs.Grammar.Acceptance
import Verdict.Proofs.Token.Spelling

/-!
# Writing a program

An outline is what a program says: conditions, each with a number to return, and the number to
return otherwise. `Outline.render` writes it as a rule. A connective reaches over all that stands
to its right, so its left side is put between parentheses if it is itself a connective, and its
right side never is. Every canonical outline is what the rule that writes it says, and every
accepted rule says the same as the rule that writes its outline.

The text of an outline spells lexemes; tokens with these kinds and texts have a derivation; and
the conditions of the derivation are those of the outline once the parentheses on the left sides
have been removed as groups.
-/

namespace Verdict

open Token

/-! ### Outlines -/

/-- What a program says. -/
structure Outline where
  clauses : List (Condition × Int)
  otherwise : Int

/-- All conditions are canonical, all numbers can be read, and there is a clause. -/
structure Outline.Canonical (o : Outline) : Prop where
  nonempty : o.clauses ≠ []
  clauses : ∀ c ∈ o.clauses, c.1.Canonical ∧ IsLiteral c.2
  otherwise : IsLiteral o.otherwise

/-- The clause has the condition and returns the number. -/
def Clause.Says (k : Clause) (c : Condition × Int) : Prop :=
  k.condition = c.1 ∧ k.result.number = .ok c.2

/-- The program has the conditions of the outline in their order, and returns its numbers. -/
structure Program.Says (p : Program) (o : Outline) : Prop where
  clauses : List.Forall₂ Clause.Says p.clauses o.clauses
  otherwise : p.otherwise.result.number = .ok o.otherwise

/-! ### The text of an outline -/

namespace Condition

/-- The condition is a connective with its two sides. -/
def isJoin : Condition → Bool
  | .join .. => true
  | _ => false

/-- The text of a condition. The blanks `gap` stand at the inner sides of parentheses. -/
def render (gap : String) : Condition → String
  | .compare name op literal => comparisonText name op literal
  | .missing name => "IS-MISSING" ++ gap ++ "(" ++ gap ++ name ++ gap ++ ")"
  | .join op left right =>
    (if left.isJoin then "(" ++ gap ++ left.render gap ++ gap ++ ")" else left.render gap) ++
      " " ++ op.text Connective.text ++ " " ++ right.render gap
  | .group inner => "(" ++ gap ++ inner.render gap ++ gap ++ ")"
  | .alien typeName => typeName

/-- The lexemes of a canonical condition. -/
def spellings : Condition → List Spelling
  | .compare name (.known r) literal =>
    [(.identifier, name), (.relation r, r.text), (.number, toString literal)]
  | .missing name =>
    [(.isMissing, "IS-MISSING"), (.leftParen, "("), (.identifier, name), (.rightParen, ")")]
  | .join (.known c) left right =>
    (if left.isJoin then (.leftParen, "(") :: (left.spellings ++ [(.rightParen, ")")])
      else left.spellings) ++ (.connective c, c.text) :: right.spellings
  | _ => []

end Condition

/-- The text of a clause. -/
def clauseText (gap : String) (c : Condition × Int) : String :=
  "IF (" ++ gap ++ c.1.render gap ++ gap ++ ") RETURN " ++ toString c.2

/-- The lexemes of a clause. -/
def clauseSpellings (c : Condition × Int) : List Spelling :=
  (.keyword .ifWord, "IF") :: (.leftParen, "(") :: (c.1.spellings ++
    [(.rightParen, ")"), (.keyword .returnWord, "RETURN"), (.number, toString c.2)])

namespace Outline

/-- The text of an outline. -/
def render (gap : String) (o : Outline) : String :=
  (o.clauses.map (clauseText gap)).foldr (fun clause rest => clause ++ " " ++ rest)
    ("ELSE RETURN " ++ toString o.otherwise)

/-- The lexemes of an outline. -/
def spellings (o : Outline) : List Spelling :=
  o.clauses.flatMap clauseSpellings ++
    [(.keyword .elseWord, "ELSE"), (.keyword .returnWord, "RETURN"),
      (.number, toString o.otherwise)]

end Outline

/-! ### The text spells the lexemes -/

theorem Relation.lexeme (r : Relation) :
  (Kind.relation r).Lexeme r.text.toList
  := by
  cases r with
  | eq => exact Or.inl rfl
  | _ => rfl

theorem Connective.lexeme (c : Connective) :
  (Kind.connective c).Lexeme c.text.toList
  := by
  cases c
  all_goals rfl

/-- A number that can be read is written by its digits. -/
theorem IsLiteral.lexeme {n : Int} (h : IsLiteral n) :
  Kind.number.Lexeme (toString n).toList
  := by
  rw [toList_toString_of_nonneg h.1]
  apply isNumeral_toDigits

variable {gap : String} {s : List Char} {gs : List Spelling}

/-- The text of a condition between parentheses. -/
theorem spelled_parens (hgap : IsGap gap) {text : String} {inner : List Spelling}
    (htext : ∀ {s gs}, Boundary s → Spelled s gs → Spelled (text.toList ++ s) (inner ++ gs))
    (h : Spelled s gs) :
  Spelled (("(" ++ gap ++ text ++ gap ++ ")").toList ++ s)
    ((.leftParen, "(") :: (inner ++ [(.rightParen, ")")]) ++ gs)
  := by
  have hclose : Spelled (gap.toList ++ ')' :: s) ((.rightParen, ")") :: gs) := h.rightParen.gap hgap
  have hinner := htext (Boundary.gap hgap (.cons (by decide) s)) hclose
  simpa using (hinner.gap hgap).leftParen

/-- The text of a canonical condition spells its lexemes, whatever follows them at a boundary. -/
theorem Condition.Canonical.spelled {e : Condition} (h : e.Canonical) (hgap : IsGap gap)
    (hs : Boundary s) (hrest : Spelled s gs) :
  Spelled ((e.render gap).toList ++ s) (e.spellings ++ gs)
  := by
  induction e generalizing s gs with
  | compare name op literal =>
    obtain ⟨hname, hop, hliteral⟩ := h
    cases op with
    | foreign text => cases hop
    | known r =>
      have hvalue := hrest.cons hliteral.lexeme hs
      have hsign := hvalue.cons_space r.lexeme
      have hcompare := hsign.cons_space (k := .identifier) (w := name) hname
      simpa [render, comparisonText, Operator.text, spellings] using hcompare
  | missing name =>
    have hname : Spelled (name.toList ++ (gap.toList ++ ')' :: s))
        ((.identifier, name) :: (.rightParen, ")") :: gs) :=
      (hrest.rightParen.gap hgap).cons h (.gap hgap (.cons (by decide) s))
    have hparen := (hname.gap hgap).leftParen.gap hgap
    have hword := hparen.cons (k := .isMissing) (w := "IS-MISSING") rfl
      (.gap hgap (.cons (by decide) _))
    simpa [render, spellings] using hword
  | join op left right ihleft ihright =>
    obtain ⟨hop, hleft, hright⟩ := h
    cases op with
    | foreign text => cases hop
    | known c =>
      have hconnective :=
        Spelled.blank (c := ' ') rfl ((ihright hright hs hrest).cons_space c.lexeme)
      rw [render, spellings]
      cases left.isJoin with
      | true =>
        have hoperand := spelled_parens hgap (ihleft hleft) hconnective
        simpa [Operator.text] using hoperand
      | false =>
        have hoperand := ihleft hleft (.cons (by decide) _) hconnective
        simpa [Operator.text] using hoperand
  | group inner => exact h.elim
  | alien typeName => exact h.elim

theorem spelled_clauseText (hgap : IsGap gap) {c : Condition × Int} (h : c.1.Canonical)
    (hvalue : IsLiteral c.2) (hrest : Spelled s gs) :
  Spelled ((clauseText gap c).toList ++ ' ' :: s) (clauseSpellings c ++ gs)
  := by
  have hreturn : Spelled (' ' :: ("RETURN".toList ++ ' ' :: ((toString c.2).toList ++ ' ' :: s)))
      ((.keyword .returnWord, "RETURN") :: (.number, toString c.2) :: gs) :=
    .blank rfl ((hrest.cons_space hvalue.lexeme).cons_space rfl)
  have hcondition := spelled_parens hgap (h.spelled hgap) hreturn
  have hclause := hcondition.cons_space (k := .keyword .ifWord) (w := "IF") rfl
  simpa [clauseText, clauseSpellings] using hclause

/-- The text of a canonical outline spells its lexemes. -/
theorem Outline.Canonical.spelled {o : Outline} (h : o.Canonical) (hgap : IsGap gap) :
  Spelled (o.render gap).toList o.spellings
  := by
  obtain ⟨clauses, otherwise⟩ := o
  have hall := h.clauses
  have hotherwise := h.otherwise
  clear h
  rw [render, spellings]
  induction clauses with
  | nil =>
    have hvalue := Spelled.nil.cons hotherwise.lexeme (by simp [Boundary])
    have hreturn := hvalue.cons_space (k := .keyword .returnWord) (w := "RETURN") rfl
    simpa using hreturn.cons_space (k := .keyword .elseWord) (w := "ELSE") rfl
  | cons c cs ih =>
    rw [List.forall_mem_cons] at hall
    have hclause := spelled_clauseText hgap hall.1.1 hall.1.2 (ih hall.2 hotherwise)
    simpa using hclause

/-! ### Derivations of the lexemes -/

/-- A token that writes a number that can be read is readable, and its digits write the number. -/
theorem IsLiteral.readable {n : Int} (h : IsLiteral n) {t : Token} (htext : t.text = toString n) :
  t.Readable ∧ (Text.ofDigitChars t.text.toList : Int) = n
  := by
  obtain ⟨m, rfl⟩ := Int.eq_ofNat_of_zero_le h.1
  rw [isLiteral_natCast_iff] at h
  have hchars : t.text.toList = Nat.toDigits 10 m := by
    rw [htext, toList_toString_of_nonneg (Int.natCast_nonneg m), Int.toNat_natCast]
  constructor
  · intro _
    rw [← String.length_toList, hchars]
    use isNumeral_toDigits m
    apply (Nat.length_toDigits_le_iff (by decide) (by decide)).mpr h
  · rw [hchars, ofDigitChars_toDigits]

namespace Grammar

/-- Tokens with the lexemes of a comparison or of a test are those of an operand. -/
theorem exists_operand_of_leaf {e : Condition} (h : e.Canonical) (hleaf : e.isJoin = false)
    {ts : List Token} (hts : ts.map spelling = e.spellings) :
  ∃ o : Operand, o.tokens = ts ∧ (∀ t ∈ ts, t.Readable) ∧ o.condition.reduce = .ok e
  := by
  cases e with
  | compare name op literal =>
    obtain ⟨-, hop, hliteral⟩ := h
    cases op with
    | foreign text => cases hop
    | known r =>
      simp only [Condition.spellings, List.map_eq_cons_iff, List.map_eq_nil_iff] at hts
      obtain ⟨x, _, rfl, hx, sign, _, rfl, hsign, n, _, rfl, hn, rfl⟩ := hts
      obtain ⟨hxkind, rfl⟩ := eq_of_spelling hx
      obtain ⟨hsignkind, -⟩ := eq_of_spelling hsign
      obtain ⟨hnkind, hntext⟩ := eq_of_spelling hn
      obtain ⟨hreadable, hvalue⟩ := hliteral.readable hntext
      refine ⟨.compare ⟨x, hxkind⟩ r ⟨sign, hsignkind⟩ ⟨n, hnkind⟩, rfl, ?_, ?_⟩
      · simp [Token.Readable, hxkind, hsignkind, hreadable hnkind]
      · rw [Operand.condition, hvalue]
        rfl
  | missing name =>
    simp only [Condition.spellings, List.map_eq_cons_iff, List.map_eq_nil_iff] at hts
    obtain ⟨word, _, rfl, hword, left, _, rfl, hleft, x, _, rfl, hx, right, _, rfl, hright, rfl⟩ :=
      hts
    obtain ⟨hwordkind, -⟩ := eq_of_spelling hword
    obtain ⟨hleftkind, -⟩ := eq_of_spelling hleft
    obtain ⟨hxkind, rfl⟩ := eq_of_spelling hx
    obtain ⟨hrightkind, -⟩ := eq_of_spelling hright
    refine ⟨.missing ⟨word, hwordkind⟩ ⟨left, hleftkind⟩ ⟨x, hxkind⟩ ⟨right, hrightkind⟩, rfl,
      ?_, rfl⟩
    simp [Token.Readable, hwordkind, hleftkind, hxkind, hrightkind]
  | join op left right => cases hleaf
  | group inner => exact h.elim
  | alien typeName => exact h.elim

/-- Tokens with the lexemes of a left side are those of an operand. Around a connective they are
those of a group. -/
theorem exists_operand_of_spellings {e : Condition} (h : e.Canonical)
    (hchain : ∀ {ts : List Token}, ts.map spelling = e.spellings →
      ∃ c : Chain, c.tokens = ts ∧ (∀ t ∈ ts, t.Readable) ∧ c.condition.reduce = .ok e)
    {ts : List Token}
    (hts : ts.map spelling =
      if e.isJoin then (.leftParen, "(") :: (e.spellings ++ [(.rightParen, ")")])
      else e.spellings) :
  ∃ o : Operand, o.tokens = ts ∧ (∀ t ∈ ts, t.Readable) ∧ o.condition.reduce = .ok e
  := by
  cases hjoin : e.isJoin with
  | false =>
    rw [hjoin, if_neg Bool.false_ne_true] at hts
    apply exists_operand_of_leaf h hjoin hts
  | true =>
    rw [hjoin, if_pos rfl] at hts
    simp only [List.map_eq_cons_iff, List.map_eq_append_iff, List.map_eq_nil_iff] at hts
    obtain ⟨left, _, rfl, hleft, us, _, rfl, hus, right, _, rfl, hright, rfl⟩ := hts
    obtain ⟨hleftkind, -⟩ := eq_of_spelling hleft
    obtain ⟨hrightkind, -⟩ := eq_of_spelling hright
    obtain ⟨c, rfl, hreadable, hreduce⟩ := hchain hus
    refine ⟨.group ⟨left, hleftkind⟩ c ⟨right, hrightkind⟩, rfl, ?_, hreduce⟩
    rw [List.forall_mem_cons, List.forall_mem_append, List.forall_mem_singleton]
    exact ⟨by simp [Token.Readable, hleftkind], hreadable, by simp [Token.Readable, hrightkind]⟩

/-- Tokens with the lexemes of a canonical condition are those of a chain, from which the
condition is left when groups are removed. -/
theorem exists_chain_of_spellings {e : Condition} (h : e.Canonical) {ts : List Token}
    (hts : ts.map spelling = e.spellings) :
  ∃ c : Chain, c.tokens = ts ∧ (∀ t ∈ ts, t.Readable) ∧ c.condition.reduce = .ok e
  := by
  induction e generalizing ts with
  | join op left right ihleft ihright =>
    obtain ⟨hop, hleft, hright⟩ := h
    cases op with
    | foreign text => cases hop
    | known c =>
      simp only [Condition.spellings, List.map_eq_append_iff, List.map_eq_cons_iff] at hts
      obtain ⟨us, _, rfl, hus, word, vs, rfl, hword, hvs⟩ := hts
      obtain ⟨hwordkind, -⟩ := eq_of_spelling hword
      obtain ⟨o, rfl, horeadable, horeduce⟩ := exists_operand_of_spellings hleft (ihleft hleft) hus
      obtain ⟨rest, rfl, hreadable, hreduce⟩ := ihright hright hvs
      refine ⟨.link o c ⟨word, hwordkind⟩ rest, rfl, ?_, ?_⟩
      · rw [List.forall_mem_append, List.forall_mem_cons]
        exact ⟨horeadable, by simp [Token.Readable, hwordkind], hreadable⟩
      · rw [Chain.condition, Condition.reduce, horeduce, hreduce]
        rfl
  | group inner => exact h.elim
  | alien typeName => exact h.elim
  | _ =>
    obtain ⟨o, htokens, hreadable, hreduce⟩ := exists_operand_of_leaf h rfl hts
    exact ⟨.last o, htokens, hreadable, hreduce⟩

/-- A number to return with a readable numeral. -/
theorem number_of_text {n : Int} (h : IsLiteral n) {r : Return} (hkind : r.value.kind = .number)
    (htext : r.value.text = toString n) :
  r.number = .ok n
  := by
  obtain ⟨hreadable, hvalue⟩ := h.readable htext
  obtain ⟨hnumeral, hlength⟩ := hreadable hkind
  rw [Return.number, Integer.read_numeral hnumeral, if_neg (Nat.not_lt.mpr hlength), hvalue]

/-- Tokens with the lexemes of a clause are those of a clause, of which a clause with the same
condition and number is left when groups are removed. -/
theorem exists_ifClause_of_spellings {c : Condition × Int} (h : c.1.Canonical)
    (hvalue : IsLiteral c.2) {ts : List Token} (hts : ts.map spelling = clauseSpellings c) :
  ∃ d : IfClause, d.tokens = ts ∧ (∀ t ∈ d.content.tokens, t.Readable)
    ∧ d.clause.condition.reduce = .ok c.1 ∧ d.clause.result.number = .ok c.2
  := by
  simp only [clauseSpellings, List.map_eq_cons_iff, List.map_eq_append_iff,
    List.map_eq_nil_iff] at hts
  obtain ⟨k, _, rfl, hk, left, _, rfl, hleft, us, _, rfl, hus, right, _, rfl, hright, r, _, rfl, hr,
    n, _, rfl, hn, rfl⟩ := hts
  obtain ⟨hkkind, -⟩ := eq_of_spelling hk
  obtain ⟨hleftkind, -⟩ := eq_of_spelling hleft
  obtain ⟨hrightkind, -⟩ := eq_of_spelling hright
  obtain ⟨hrkind, -⟩ := eq_of_spelling hr
  obtain ⟨hnkind, hntext⟩ := eq_of_spelling hn
  obtain ⟨content, rfl, hreadable, hreduce⟩ := exists_chain_of_spellings h hus
  exact ⟨⟨⟨k, hkkind⟩, ⟨left, hleftkind⟩, content, ⟨right, hrightkind⟩, ⟨r, hrkind⟩, ⟨n, hnkind⟩⟩,
    rfl, hreadable, hreduce, number_of_text hvalue hnkind hntext⟩

/-- Tokens with the lexemes of clauses are those of clauses, of which clauses with the same
conditions and numbers are left when groups are removed. -/
theorem exists_clauses_of_spellings {cs : List (Condition × Int)}
    (h : ∀ c ∈ cs, c.1.Canonical ∧ IsLiteral c.2) {ts : List Token}
    (hts : ts.map spelling = cs.flatMap clauseSpellings) :
  ∃ (ds : List IfClause) (ks : List Clause), ds.flatMap IfClause.tokens = ts
    ∧ (∀ d ∈ ds, ∀ t ∈ d.content.tokens, t.Readable)
    ∧ Program.reduceClauses (ds.map IfClause.clause) = .ok ks ∧ List.Forall₂ Clause.Says ks cs
  := by
  induction cs generalizing ts with
  | nil =>
    obtain rfl := List.map_eq_nil_iff.mp hts
    exact ⟨[], [], rfl, by simp, rfl, .nil⟩
  | cons c cs ih =>
    rw [List.forall_mem_cons] at h
    simp only [List.flatMap_cons, List.map_eq_append_iff] at hts
    obtain ⟨us, vs, rfl, hus, hvs⟩ := hts
    obtain ⟨d, rfl, hreadable, hreduce, hnumber⟩ := exists_ifClause_of_spellings h.1.1 h.1.2 hus
    obtain ⟨ds, ks, rfl, hall, hks, hsaid⟩ := ih h.2 hvs
    refine ⟨d :: ds, { d.clause with condition := c.1 } :: ks, rfl, ?_, ?_, ?_⟩
    · rw [List.forall_mem_cons]
      exact ⟨hreadable, hall⟩
    · rw [List.map_cons, Program.reduceClauses, hreduce, hks]
    · exact .cons ⟨rfl, hnumber⟩ hsaid

/-- Tokens with the lexemes of the last clause are those of one with the same number. -/
theorem exists_elseClause_of_spellings {n : Int} (h : IsLiteral n) {ts : List Token}
    (hts : ts.map spelling =
      [(.keyword .elseWord, "ELSE"), (.keyword .returnWord, "RETURN"), (.number, toString n)]) :
  ∃ d : ElseClause, d.tokens = ts ∧ d.otherwise.result.number = .ok n
  := by
  simp only [List.map_eq_cons_iff, List.map_eq_nil_iff] at hts
  obtain ⟨k, _, rfl, hk, r, _, rfl, hr, m, _, rfl, hm, rfl⟩ := hts
  obtain ⟨hkkind, -⟩ := eq_of_spelling hk
  obtain ⟨hrkind, -⟩ := eq_of_spelling hr
  obtain ⟨hmkind, hmtext⟩ := eq_of_spelling hm
  exact ⟨⟨⟨k, hkkind⟩, ⟨r, hrkind⟩, ⟨m, hmkind⟩⟩, rfl, number_of_text h hmkind hmtext⟩

end Grammar

/-- A rule that spells the lexemes of a canonical outline says what the outline says. -/
theorem Outline.Canonical.exists_program {o : Outline} (h : o.Canonical) {text : String}
    (htext : Spelled text.toList o.spellings) :
  ∃ p, Rule.canonical text = .ok p ∧ p.Says o
  := by
  obtain ⟨ts, htokens, hts⟩ := htext.exists_tokens
  rw [spellings, List.map_eq_append_iff] at hts
  obtain ⟨us, vs, rfl, hus, hvs⟩ := hts
  obtain ⟨ds, ks, rfl, hreadable, hks, hsaid⟩ := Grammar.exists_clauses_of_spellings h.clauses hus
  obtain ⟨e, rfl, hnumber⟩ := Grammar.exists_elseClause_of_spellings h.otherwise hvs
  have hne : ks ≠ [] := by
    rintro rfl
    exact h.nonempty (List.forall₂_nil_left_iff.mp hsaid)
  have hds : ds ≠ [] := by
    rintro rfl
    cases hks
    exact hne rfl
  have hprogram : Rule.program text = .ok (Grammar.Derivation.program ⟨ds, e, hds⟩) := by
    rw [Rule.program, htokens]
    apply Grammar.Derivation.ofTokens ⟨ds, e, hds⟩ hreadable
  use ⟨ks, e.otherwise⟩
  constructor
  · rw [Rule.canonical, hprogram]
    apply Program.reduce_of_clauses hks hne
  · exact ⟨hsaid, hnumber⟩

/-! ### The outline of a rule -/

/-- A number to return that is not too long can be read, and written again. -/
theorem Return.Canonical.exists_number {r : Return} (h : r.Canonical)
    (hlength : r.value.text.length ≤ Integer.maxDigits) :
  ∃ n, r.number = .ok n ∧ IsLiteral n
  := by
  use Text.ofDigitChars r.value.text.toList
  constructor
  · rw [h.number_eq, if_neg (Nat.not_lt.mpr hlength)]
  · apply Grammar.isLiteral_of_readable h.value.kind_eq
    intro _
    exact ⟨h.value.lexeme, hlength⟩

/-- Clauses whose numbers can be read say something, and what holds of their conditions holds of the
conditions that they say. -/
theorem exists_outline_of_clauses {P : Condition → Prop} {ks : List Clause}
    (h : ∀ k ∈ ks, P k.condition ∧ k.result.Canonical)
    (hlength : ∀ k ∈ ks, k.result.value.text.length ≤ Integer.maxDigits) :
  ∃ cs, List.Forall₂ Clause.Says ks cs ∧ ∀ c ∈ cs, P c.1 ∧ IsLiteral c.2
  := by
  induction ks with
  | nil => exact ⟨[], .nil, by simp⟩
  | cons k ks ih =>
    rw [List.forall_mem_cons] at h hlength
    obtain ⟨n, hnumber, hliteral⟩ := h.1.2.exists_number hlength.1
    obtain ⟨cs, hsaid, hall⟩ := ih h.2 hlength.2
    use (k.condition, n) :: cs, .cons ⟨rfl, hnumber⟩ hsaid
    rw [List.forall_mem_cons]
    exact ⟨⟨h.1.1, hliteral⟩, hall⟩

/-- A canonical program whose numbers can be read has a canonical outline. -/
theorem Program.Canonical.exists_outline {p : Program} (h : p.Canonical)
    (hlength : ∀ r ∈ p.returns, r.value.text.length ≤ Integer.maxDigits) :
  ∃ o : Outline, p.Says o ∧ o.Canonical
  := by
  rw [Program.forall_mem_returns] at hlength
  have hclauses : ∀ k ∈ p.clauses, k.condition.Canonical ∧ k.result.Canonical := fun k hk =>
    ⟨(h.clauses k hk).condition, (h.clauses k hk).result⟩
  obtain ⟨cs, hsaid, hall⟩ := exists_outline_of_clauses hclauses hlength.1
  obtain ⟨n, hnumber, hliteral⟩ := h.otherwise.result.exists_number hlength.2
  use ⟨cs, n⟩, ⟨hsaid, hnumber⟩
  refine ⟨?_, hall, hliteral⟩
  rintro rfl
  exact h.nonempty (List.forall₂_nil_right_iff.mp hsaid)

/-! ### Programs up to the texts and places of their tokens -/

/-- A token of the same kind without a text and a place. -/
def Token.bare (t : Token) : Token :=
  ⟨t.kind, "", 0, 0, 0⟩

/-- The number to return with bare tokens. -/
def Return.bare (r : Return) : Return :=
  ⟨r.keyword.bare, r.value.bare⟩

/-- The clause with bare tokens. -/
def Clause.bare (k : Clause) : Clause :=
  ⟨k.keyword.bare, k.condition, k.result.bare⟩

/-- The program with bare tokens. -/
def Program.bare (p : Program) : Program where
  clauses := p.clauses.map Clause.bare
  otherwise := ⟨p.otherwise.keyword.bare, p.otherwise.result.bare⟩

theorem Token.Writes.bare_eq {t t' : Token} {k : Kind} (h : t.Writes k) (h' : t'.Writes k) :
  t.bare = t'.bare
  := by
  rw [bare, bare, h.kind_eq, h'.kind_eq]

theorem Return.Canonical.bare_eq {r r' : Return} (h : r.Canonical) (h' : r'.Canonical) :
  r.bare = r'.bare
  := by
  rw [bare, bare, h.keyword.bare_eq h'.keyword, h.value.bare_eq h'.value]

/-- Canonical clauses that say the same are equal up to the texts and places of their tokens. -/
theorem map_bare_eq {cs : List (Condition × Int)} {ks ks' : List Clause}
    (h : ∀ k ∈ ks, k.Canonical) (h' : ∀ k ∈ ks', k.Canonical)
    (hsaid : List.Forall₂ Clause.Says ks cs) (hsaid' : List.Forall₂ Clause.Says ks' cs) :
  ks.map Clause.bare = ks'.map Clause.bare
  := by
  induction cs generalizing ks ks' with
  | nil =>
    obtain rfl := List.forall₂_nil_right_iff.mp hsaid
    obtain rfl := List.forall₂_nil_right_iff.mp hsaid'
    rfl
  | cons c cs ih =>
    obtain ⟨k, ks, hk, hks, rfl⟩ := List.forall₂_cons_right_iff.mp hsaid
    obtain ⟨k', ks', hk', hks', rfl⟩ := List.forall₂_cons_right_iff.mp hsaid'
    rw [List.forall_mem_cons] at h h'
    rw [List.map_cons, List.map_cons, ih h.2 h'.2 hks hks', Clause.bare, Clause.bare, hk.1, hk'.1,
      h.1.keyword.bare_eq h'.1.keyword, h.1.result.bare_eq h'.1.result]

/-- Canonical programs that say the same are equal up to the texts and places of their tokens. -/
theorem Program.Canonical.bare_eq {p p' : Program} {o : Outline} (h : p.Canonical)
    (h' : p'.Canonical) (hsaid : p.Says o) (hsaid' : p'.Says o) :
  p.bare = p'.bare
  := by
  rw [bare, bare, map_bare_eq h.clauses h'.clauses hsaid.clauses hsaid'.clauses,
    h.otherwise.keyword.bare_eq h'.otherwise.keyword,
    h.otherwise.result.bare_eq h'.otherwise.result]

/-! ### Writing and reading -/

/-- An outline is written as a rule that says the same, whatever blanks stand at the inner sides of
its parentheses. A rule that is accepted and whose numbers to return can be read has such an
outline, and the program that is read from the rule written for the outline is the same up to the
texts and places of its tokens. -/
theorem canonical_render (gap : String) (hgap : IsGap gap) :
  (∀ o : Outline, o.Canonical → ∃ p, Rule.canonical (o.render gap) = .ok p ∧ p.Says o)
    ∧ (∀ text q, Rule.canonical text = .ok q →
        (∀ r ∈ q.returns, r.value.text.length ≤ Integer.maxDigits) →
        ∃ o p, q.Says o ∧ Rule.canonical (o.render gap) = .ok p ∧ p.Says o ∧ p.bare = q.bare)
  := by
  constructor
  · intro o h
    apply h.exists_program (h.spelled hgap)
  · intro text q hq hlength
    have hcanonical := Grammar.canonical_of_rule hq
    obtain ⟨o, hsaid, ho⟩ := hcanonical.exists_outline hlength
    obtain ⟨p, hp, hpsaid⟩ := ho.exists_program (ho.spelled hgap)
    use o, p, hsaid, hp, hpsaid
    apply (Grammar.canonical_of_rule hp).bare_eq hcanonical hpsaid hsaid

/-- The outline of `IF ((a > 0 AND IS-MISSING(b)) OR c == 12) RETURN 7 ELSE RETURN 0`. -/
def leftOutline : Outline where
  clauses :=
    [(.join (.known .or)
        (.join (.known .and) (.compare "a" (.known .gt) 0) (.missing "b"))
        (.compare "c" (.known .eq) 12), 7)]
  otherwise := 0

/-- An accepted rule with a group and a numeral with leading zeros. -/
def paddedRule : String :=
  "IF ((a > 0))\nRETURN 007 ELSE RETURN 2"

theorem canonical_render_leftOutline :
  leftOutline.Canonical
    ∧ leftOutline.render "" =
      "IF ((a > 0 AND IS-MISSING(b)) OR c == 12) RETURN 7 ELSE RETURN 0"
    ∧ (∃ p, Rule.canonical (leftOutline.render "") = .ok p ∧ p.Says leftOutline)
    ∧ ∃ q o p, Rule.canonical paddedRule = .ok q ∧ q.Says o
        ∧ Rule.canonical (o.render " ") = .ok p ∧ p.bare = q.bare
  := by
  have htight : IsGap "" := by decide
  have hloose : IsGap " " := by decide
  have hcanonical : leftOutline.Canonical := ⟨by decide, by decide, by decide⟩
  have hlong : ∀ q, Rule.canonical paddedRule = .ok q →
      ∀ r ∈ q.returns, r.value.text.length ≤ Integer.maxDigits := by
    rintro q hq
    cases hq
    decide
  have hrule : ∃ q, Rule.canonical paddedRule = .ok q := ⟨_, rfl⟩
  obtain ⟨q, hq⟩ := hrule
  obtain ⟨o, p, hsaid, hp, -, hbare⟩ := (canonical_render " " hloose).2 paddedRule q hq (hlong q hq)
  exact ⟨hcanonical, rfl, (canonical_render "" htight).1 leftOutline hcanonical, q, o, p, hq, hsaid,
    hp, hbare⟩

end Verdict
