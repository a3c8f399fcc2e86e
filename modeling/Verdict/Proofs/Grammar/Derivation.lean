import Verdict.Program.Parser

/-!
# Derivations

The grammar of programs, as the trees of its derivations. A production is a constructor or a
structure, and a terminal symbol stands in it as a token of the right kind, so there is no tree
that breaks the grammar:

* a program is one or more clauses `IF ( cond ) RETURN number`, then `ELSE RETURN number`;
* a `cond` is an operand, or an operand, a connective and another `cond`;
* an operand is `identifier relation number`, or `IS-MISSING ( identifier )`, or `( cond )`.

`Derivation.tokens` is the sequence of tokens that a derivation derives, and
`Derivation.program` is the program that it writes. Tokens have at most one derivation, and
whether they have one depends only on their kinds.
-/

namespace Verdict.Grammar

/-- A token of the given kind. -/
@[ext]
structure Terminal (k : Token.Kind) where
  token : Token
  kind_eq : token.kind = k

/-- A terminal of one kind is a token of no other kind. -/
theorem Terminal.kind_unique {k k' : Token.Kind} (x : Terminal k) (y : Terminal k')
    (h : x.token = y.token) :
  k = k'
  := by
  rw [← x.kind_eq, ← y.kind_eq, h]

mutual

/-- An operand of a chain. -/
inductive Operand where
  | compare (name : Terminal .identifier) (r : Relation) (sign : Terminal (.relation r))
      (literal : Terminal .number)
  | missing (word : Terminal .isMissing) (left : Terminal .leftParen)
      (name : Terminal .identifier) (right : Terminal .rightParen)
  | group (left : Terminal .leftParen) (content : Chain) (right : Terminal .rightParen)

/-- A chain of operands with connectives between them. -/
inductive Chain where
  | last (o : Operand)
  | link (o : Operand) (c : Connective) (word : Terminal (.connective c)) (rest : Chain)

end

/-- A number to return. -/
@[ext]
structure Answer where
  keyword : Terminal (.keyword .returnWord)
  value : Terminal .number

/-- A clause with a condition. -/
@[ext]
structure IfClause where
  keyword : Terminal (.keyword .ifWord)
  left : Terminal .leftParen
  content : Chain
  right : Terminal .rightParen
  answer : Answer

/-- The last clause. -/
@[ext]
structure ElseClause where
  keyword : Terminal (.keyword .elseWord)
  answer : Answer

/-- A derivation of a program. -/
@[ext]
structure Derivation where
  clauses : List IfClause
  last : ElseClause
  nonempty : clauses ≠ []

/-! ### The tokens of a derivation -/

mutual

/-- The tokens of an operand. -/
def Operand.tokens : Operand → List Token
  | .compare name _ sign literal => [name.token, sign.token, literal.token]
  | .missing word left name right => [word.token, left.token, name.token, right.token]
  | .group left content right => left.token :: (content.tokens ++ [right.token])

/-- The tokens of a chain. -/
def Chain.tokens : Chain → List Token
  | .last o => o.tokens
  | .link o _ word rest => o.tokens ++ word.token :: rest.tokens

end

/-- The tokens of a number to return. -/
def Answer.tokens (a : Answer) : List Token :=
  [a.keyword.token, a.value.token]

/-- The tokens of a clause. -/
def IfClause.tokens (c : IfClause) : List Token :=
  c.keyword.token :: c.left.token :: (c.content.tokens ++ c.right.token :: c.answer.tokens)

/-- The tokens of the last clause. -/
def ElseClause.tokens (c : ElseClause) : List Token :=
  c.keyword.token :: c.answer.tokens

/-- The tokens of a derivation. -/
def Derivation.tokens (d : Derivation) : List Token :=
  d.clauses.flatMap IfClause.tokens ++ d.last.tokens

/-! ### The program of a derivation -/

mutual

/-- The condition that an operand writes: parentheses make a group. -/
def Operand.condition : Operand → Condition
  | .compare name r _ literal =>
    .compare name.token.text (.known r) (Text.ofDigitChars literal.token.text.toList)
  | .missing _ _ name _ => .missing name.token.text
  | .group _ content _ => .group content.condition

/-- The condition that a chain writes: its first connective joins the first operand with all
that follows. -/
def Chain.condition : Chain → Condition
  | .last o => o.condition
  | .link o c _ rest => .join (.known c) o.condition rest.condition

end

/-- The number to return, as it is written. -/
def Answer.result (a : Answer) : Return :=
  ⟨a.keyword.token, a.value.token⟩

/-- The clause that is written; the parentheses around its condition leave nothing behind. -/
def IfClause.clause (c : IfClause) : Clause :=
  ⟨c.keyword.token, c.content.condition, c.answer.result⟩

/-- The last clause that is written. -/
def ElseClause.otherwise (c : ElseClause) : Otherwise :=
  ⟨c.keyword.token, c.answer.result⟩

/-- The program that a derivation writes. -/
def Derivation.program (d : Derivation) : Program :=
  ⟨d.clauses.map IfClause.clause, d.last.otherwise⟩

/-! ### At most one derivation -/

/-- No connective comes first, so a chain may end in front of the tokens. -/
def EndsChain (ts : List Token) : Prop :=
  ∀ t ∈ ts.head?, ∀ c, t.kind ≠ .connective c

theorem endsChain_cons {k : Token.Kind} (x : Terminal k) (ts : List Token)
    (h : ∀ c, k ≠ .connective c) :
  EndsChain (x.token :: ts)
  := by
  intro t ht c
  obtain rfl : x.token = t := by simpa using ht
  rw [x.kind_eq]
  apply h

theorem not_endsChain_cons {c : Connective} (x : Terminal (.connective c)) (ts : List Token) :
  ¬ EndsChain (x.token :: ts)
  := fun h => h x.token rfl c x.kind_eq

mutual

/-- An operand is determined by any tokens that begin with its own. -/
theorem Operand.eq_of_tokens_append : ∀ (o o' : Operand) {us vs : List Token},
    o.tokens ++ us = o'.tokens ++ vs → o = o' ∧ us = vs
  | .compare name r sign literal, .compare name' r' sign' literal', us, vs, h => by
    simp only [Operand.tokens, List.cons_append, List.nil_append, List.cons.injEq] at h
    obtain ⟨hname, hsign, hliteral, hrest⟩ := h
    obtain rfl := Terminal.ext hname
    obtain rfl : r = r' := by simpa using sign.kind_unique sign' hsign
    obtain rfl := Terminal.ext hsign
    obtain rfl := Terminal.ext hliteral
    exact ⟨rfl, hrest⟩
  | .missing word left name right, .missing word' left' name' right', us, vs, h => by
    simp only [Operand.tokens, List.cons_append, List.nil_append, List.cons.injEq] at h
    obtain ⟨hword, hleft, hname, hright, hrest⟩ := h
    obtain rfl := Terminal.ext hword
    obtain rfl := Terminal.ext hleft
    obtain rfl := Terminal.ext hname
    obtain rfl := Terminal.ext hright
    exact ⟨rfl, hrest⟩
  | .group left content right, .group left' content' right', us, vs, h => by
    simp only [Operand.tokens, List.cons_append, List.append_assoc, List.nil_append,
      List.cons.injEq] at h
    obtain ⟨hleft, hcontent⟩ := h
    obtain ⟨rfl, hright⟩ := Chain.eq_of_tokens_append content content' hcontent
      (endsChain_cons right us (by simp)) (endsChain_cons right' vs (by simp))
    obtain ⟨hright, hrest⟩ := List.cons.inj hright
    obtain rfl := Terminal.ext hleft
    obtain rfl := Terminal.ext hright
    exact ⟨rfl, hrest⟩
  | .compare name .., .missing word .., _, _, h => by
    cases name.kind_unique word (List.cons.inj h).1
  | .compare name .., .group left .., _, _, h => by
    cases name.kind_unique left (List.cons.inj h).1
  | .missing word .., .compare name .., _, _, h => by
    cases word.kind_unique name (List.cons.inj h).1
  | .missing word .., .group left .., _, _, h => by
    cases word.kind_unique left (List.cons.inj h).1
  | .group left .., .compare name .., _, _, h => by
    cases left.kind_unique name (List.cons.inj h).1
  | .group left .., .missing word .., _, _, h => by
    cases left.kind_unique word (List.cons.inj h).1

/-- A chain is determined by any tokens that begin with its own and do not go on with a
connective. -/
theorem Chain.eq_of_tokens_append : ∀ (c c' : Chain) {us vs : List Token},
    c.tokens ++ us = c'.tokens ++ vs → EndsChain us → EndsChain vs → c = c' ∧ us = vs
  | .last o, .last o', us, vs, h, _, _ => by
    obtain ⟨rfl, hrest⟩ := Operand.eq_of_tokens_append o o' h
    exact ⟨rfl, hrest⟩
  | .last o, .link o' _ word' rest', us, vs, h, hus, _ => by
    simp only [Chain.tokens, List.append_assoc, List.cons_append] at h
    obtain ⟨-, rfl⟩ := Operand.eq_of_tokens_append o o' h
    exact absurd hus (not_endsChain_cons word' _)
  | .link o _ word rest, .last o', us, vs, h, _, hvs => by
    simp only [Chain.tokens, List.append_assoc, List.cons_append] at h
    obtain ⟨-, rfl⟩ := Operand.eq_of_tokens_append o o' h
    exact absurd hvs (not_endsChain_cons word _)
  | .link o k word rest, .link o' k' word' rest', us, vs, h, hus, hvs => by
    simp only [Chain.tokens, List.append_assoc, List.cons_append] at h
    obtain ⟨rfl, htail⟩ := Operand.eq_of_tokens_append o o' h
    obtain ⟨hword, hchain⟩ := List.cons.inj htail
    obtain rfl : k = k' := by simpa using word.kind_unique word' hword
    obtain rfl := Terminal.ext hword
    obtain ⟨rfl, hrest⟩ := Chain.eq_of_tokens_append rest rest' hchain hus hvs
    exact ⟨rfl, hrest⟩

end

theorem Answer.eq_of_tokens_append {a a' : Answer} {us vs : List Token}
    (h : a.tokens ++ us = a'.tokens ++ vs) :
  a = a' ∧ us = vs
  := by
  simp only [tokens, List.cons_append, List.nil_append, List.cons.injEq] at h
  obtain ⟨hkeyword, hvalue, hrest⟩ := h
  exact ⟨Answer.ext (Terminal.ext hkeyword) (Terminal.ext hvalue), hrest⟩

theorem IfClause.eq_of_tokens_append {c c' : IfClause} {us vs : List Token}
    (h : c.tokens ++ us = c'.tokens ++ vs) :
  c = c' ∧ us = vs
  := by
  simp only [tokens, List.cons_append, List.append_assoc, List.cons.injEq] at h
  obtain ⟨hkeyword, hleft, hcontent⟩ := h
  obtain ⟨hcontent, hright⟩ := Chain.eq_of_tokens_append _ _ hcontent
    (endsChain_cons c.right _ (by simp)) (endsChain_cons c'.right _ (by simp))
  obtain ⟨hright, hanswer⟩ := List.cons.inj hright
  obtain ⟨hanswer, hrest⟩ := Answer.eq_of_tokens_append hanswer
  exact ⟨IfClause.ext (Terminal.ext hkeyword) (Terminal.ext hleft) hcontent
    (Terminal.ext hright) hanswer, hrest⟩

theorem ElseClause.eq_of_tokens {c c' : ElseClause} (h : c.tokens = c'.tokens) :
  c = c'
  := by
  obtain ⟨hkeyword, htokens⟩ := List.cons.inj h
  obtain ⟨hanswer, -⟩ := Answer.eq_of_tokens_append (congrArg (· ++ []) htokens)
  apply ElseClause.ext (Terminal.ext hkeyword) hanswer

theorem eq_of_clauses_append : ∀ {cs cs' : List IfClause} {e e' : ElseClause},
    cs.flatMap IfClause.tokens ++ e.tokens = cs'.flatMap IfClause.tokens ++ e'.tokens →
    cs = cs' ∧ e = e'
  | [], [], _, _, h => ⟨rfl, ElseClause.eq_of_tokens h⟩
  | [], c' :: _, e, _, h => by
    cases e.keyword.kind_unique c'.keyword (List.cons.inj h).1
  | c :: _, [], _, e', h => by
    cases c.keyword.kind_unique e'.keyword (List.cons.inj h).1
  | c :: cs, c' :: cs', _, _, h => by
    simp only [List.flatMap_cons, List.append_assoc] at h
    obtain ⟨rfl, hrest⟩ := IfClause.eq_of_tokens_append h
    obtain ⟨rfl, he⟩ := eq_of_clauses_append hrest
    exact ⟨rfl, he⟩

/-- Tokens have at most one derivation. -/
theorem Derivation.eq_of_tokens {d d' : Derivation} (h : d.tokens = d'.tokens) :
  d = d'
  := by
  obtain ⟨hclauses, hlast⟩ := eq_of_clauses_append h
  apply Derivation.ext hclauses hlast

/-! ### Derivations and kinds -/

/-- The kinds derive from the grammar: they are the kinds of the tokens of a derivation. -/
def Sentence (ks : List Token.Kind) : Prop :=
  ∃ d : Derivation, d.tokens.map Token.kind = ks

mutual

/-- Tokens of the kinds of an operand are those of an operand. -/
theorem Operand.exists_of_kinds : ∀ (o : Operand) {ts : List Token},
    ts.map Token.kind = o.tokens.map Token.kind → ∃ o' : Operand, o'.tokens = ts
  | .compare name r sign literal, ts, h => by
    simp only [Operand.tokens, List.map_cons, List.map_nil, List.map_eq_cons_iff,
      List.map_eq_nil_iff, name.kind_eq, sign.kind_eq, literal.kind_eq] at h
    obtain ⟨x, _, rfl, hx, s, _, rfl, hs, n, _, rfl, hn, rfl⟩ := h
    exact ⟨.compare ⟨x, hx⟩ r ⟨s, hs⟩ ⟨n, hn⟩, rfl⟩
  | .missing word left name right, ts, h => by
    simp only [Operand.tokens, List.map_cons, List.map_nil, List.map_eq_cons_iff,
      List.map_eq_nil_iff, word.kind_eq, left.kind_eq, name.kind_eq, right.kind_eq] at h
    obtain ⟨w, _, rfl, hw, l, _, rfl, hl, x, _, rfl, hx, r, _, rfl, hr, rfl⟩ := h
    exact ⟨.missing ⟨w, hw⟩ ⟨l, hl⟩ ⟨x, hx⟩ ⟨r, hr⟩, rfl⟩
  | .group left content right, ts, h => by
    simp only [Operand.tokens, List.map_cons, List.map_append, List.map_nil,
      List.map_eq_cons_iff, List.map_eq_append_iff, List.map_eq_nil_iff, left.kind_eq,
      right.kind_eq] at h
    obtain ⟨l, _, rfl, hl, us, _, rfl, hus, r, _, rfl, hr, rfl⟩ := h
    obtain ⟨c, rfl⟩ := Chain.exists_of_kinds content hus
    exact ⟨.group ⟨l, hl⟩ c ⟨r, hr⟩, rfl⟩

/-- Tokens of the kinds of a chain are those of a chain. -/
theorem Chain.exists_of_kinds : ∀ (c : Chain) {ts : List Token},
    ts.map Token.kind = c.tokens.map Token.kind → ∃ c' : Chain, c'.tokens = ts
  | .last o, ts, h => by
    obtain ⟨o', rfl⟩ := Operand.exists_of_kinds o h
    exact ⟨.last o', rfl⟩
  | .link o k word rest, ts, h => by
    simp only [Chain.tokens, List.map_append, List.map_cons, List.map_eq_append_iff,
      List.map_eq_cons_iff, word.kind_eq] at h
    obtain ⟨us, _, rfl, hus, w, vs, rfl, hw, hvs⟩ := h
    obtain ⟨o', rfl⟩ := Operand.exists_of_kinds o hus
    obtain ⟨c', rfl⟩ := Chain.exists_of_kinds rest hvs
    exact ⟨.link o' k ⟨w, hw⟩ c', rfl⟩

end

theorem Answer.exists_of_kinds (a : Answer) {ts : List Token}
    (h : ts.map Token.kind = a.tokens.map Token.kind) :
  ∃ a' : Answer, a'.tokens = ts
  := by
  simp only [tokens, List.map_cons, List.map_nil, List.map_eq_cons_iff, List.map_eq_nil_iff,
    a.keyword.kind_eq, a.value.kind_eq] at h
  obtain ⟨k, _, rfl, hk, n, _, rfl, hn, rfl⟩ := h
  exact ⟨⟨⟨k, hk⟩, ⟨n, hn⟩⟩, rfl⟩

theorem IfClause.exists_of_kinds (c : IfClause) {ts : List Token}
    (h : ts.map Token.kind = c.tokens.map Token.kind) :
  ∃ c' : IfClause, c'.tokens = ts
  := by
  simp only [tokens, List.map_cons, List.map_append, List.map_eq_cons_iff,
    List.map_eq_append_iff, c.keyword.kind_eq, c.left.kind_eq, c.right.kind_eq] at h
  obtain ⟨k, _, rfl, hk, l, _, rfl, hl, us, _, rfl, hus, r, vs, rfl, hr, hvs⟩ := h
  obtain ⟨content, rfl⟩ := c.content.exists_of_kinds hus
  obtain ⟨answer, rfl⟩ := c.answer.exists_of_kinds hvs
  exact ⟨⟨⟨k, hk⟩, ⟨l, hl⟩, content, ⟨r, hr⟩, answer⟩, rfl⟩

theorem ElseClause.exists_of_kinds (c : ElseClause) {ts : List Token}
    (h : ts.map Token.kind = c.tokens.map Token.kind) :
  ∃ c' : ElseClause, c'.tokens = ts
  := by
  simp only [tokens, List.map_cons, List.map_eq_cons_iff, c.keyword.kind_eq] at h
  obtain ⟨k, us, rfl, hk, hus⟩ := h
  obtain ⟨answer, rfl⟩ := c.answer.exists_of_kinds hus
  exact ⟨⟨⟨k, hk⟩, answer⟩, rfl⟩

theorem exists_clauses_of_kinds (cs : List IfClause) {ts : List Token}
    (h : ts.map Token.kind = (cs.flatMap IfClause.tokens).map Token.kind) :
  ∃ cs' : List IfClause, cs'.length = cs.length ∧ cs'.flatMap IfClause.tokens = ts
  := by
  induction cs generalizing ts with
  | nil =>
    obtain rfl := List.map_eq_nil_iff.mp h
    exact ⟨[], rfl, rfl⟩
  | cons c cs ih =>
    simp only [List.flatMap_cons, List.map_append, List.map_eq_append_iff] at h
    obtain ⟨us, vs, rfl, hus, hvs⟩ := h
    obtain ⟨c', rfl⟩ := c.exists_of_kinds hus
    obtain ⟨cs', hlength, rfl⟩ := ih hvs
    exact ⟨c' :: cs', by simp [hlength], rfl⟩

/-- Tokens whose kinds derive from the grammar have a derivation. -/
theorem Sentence.exists_derivation {ts : List Token} (h : Sentence (ts.map Token.kind)) :
  ∃ d : Derivation, d.tokens = ts
  := by
  obtain ⟨d, hd⟩ := h
  rw [Derivation.tokens, List.map_append, eq_comm, List.map_eq_append_iff] at hd
  obtain ⟨us, vs, rfl, hus, hvs⟩ := hd
  obtain ⟨cs, hlength, rfl⟩ := exists_clauses_of_kinds d.clauses hus
  obtain ⟨e, rfl⟩ := d.last.exists_of_kinds hvs
  have hne : cs ≠ [] := by
    rintro rfl
    apply d.nonempty
    rw [← List.length_eq_zero_iff, ← hlength, List.length_nil]
  exact ⟨⟨cs, e, hne⟩, rfl⟩

theorem sentence_iff_exists_derivation {ts : List Token} :
  Sentence (ts.map Token.kind) ↔ ∃ d : Derivation, d.tokens = ts
  := by
  constructor
  · apply Sentence.exists_derivation
  · rintro ⟨d, rfl⟩
    exact ⟨d, rfl⟩

end Verdict.Grammar
