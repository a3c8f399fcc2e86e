import Mathlib.Logic.Relation
import Verdict.Proofs.Grammar.Lockstep
import Verdict.Proofs.Program.Unparsing

/-!
# Redundant parentheses

A node of a program is a part of one of its conditions: a leaf, a group, or a connective with its
two sides, which is a whole suffix of a chain. The tokens that write the node stand together in the
tokens of the program, and parentheses around exactly these tokens put a group around the node and
leave everything else as it is. Since groups are removed before the evaluation, the rule is the
same, however often this is done.

The parts of a derivation that hold the node are gone through from the inside to the outside, and
what stands in front of and behind each part is kept (`Encloses.frame`).
-/

namespace Verdict

/-! ### Nodes -/

/-- A way down from a condition to one of its parts. -/
inductive Branch where
  | left
  | right
  | inner
  deriving DecidableEq

namespace Condition

/-- The part of a condition at the end of a path. -/
def node? : List Branch → Condition → Option Condition
  | [], e => some e
  | .left :: path, .join _ left _ => node? path left
  | .right :: path, .join _ _ right => node? path right
  | .inner :: path, .group inner => node? path inner
  | _ :: _, _ => none

/-- The condition with a group around the part at the end of a path. -/
def enclose : List Branch → Condition → Condition
  | [], e => .group e
  | .left :: path, .join op left right => .join op (enclose path left) right
  | .right :: path, .join op left right => .join op left (enclose path right)
  | .inner :: path, .group inner => .group (enclose path inner)
  | _ :: _, e => e

/-- The number of tokens of a condition in front of those of the part at the end of a path. -/
def start : List Branch → Condition → Nat
  | .left :: path, .join _ left _ => start path left
  | .right :: path, .join _ left right => left.tokens.length + 1 + start path right
  | .inner :: path, .group inner => 1 + start path inner
  | _, _ => 0

/-- The group around a part is removed like any other. -/
theorem reduce_enclose (path : List Branch) (e : Condition) :
  (e.enclose path).reduce = e.reduce
  := by
  induction path generalizing e with
  | nil => rfl
  | cons b path ih =>
    cases b with
    | left =>
      cases e with
      | join op left right => rw [enclose, reduce, reduce, ih]
      | _ => rfl
    | right =>
      cases e with
      | join op left right => rw [enclose, reduce, reduce, ih]
      | _ => rfl
    | inner =>
      cases e with
      | group inner => rw [enclose, reduce, reduce, ih]
      | _ => rfl

end Condition

namespace Program

/-- A node of a program: a clause, and a part of its condition. -/
structure Node (p : Program) where
  before : List Clause
  clause : Clause
  after : List Clause
  clauses_eq : p.clauses = before ++ clause :: after
  path : List Branch
  node : Condition
  node_eq : clause.condition.node? path = some node

namespace Node

variable {p : Program} (x : p.Node)

/-- The number of tokens in front of those of the node: the tokens of the clauses before, the
keyword and the parenthesis of the clause, and what stands in front within the condition. -/
def start : Nat :=
  (x.before.flatMap Clause.tokens).length + (2 + x.clause.condition.start x.path)

/-- The number of tokens of the node. -/
def width : Nat :=
  x.node.tokens.length

/-- The tokens of the node among those that the program was read from. -/
def tokens (ts : List Token) : List Token :=
  (ts.drop x.start).take x.width

/-- The tokens with parentheses around those of the node. -/
def parenthesize (l r : Token) (ts : List Token) : List Token :=
  ts.take x.start ++ l :: (x.tokens ts ++ r :: ts.drop (x.start + x.width))

/-- The program with a group around the node. -/
def enclosed : Program where
  clauses := x.before ++
    { x.clause with condition := x.clause.condition.enclose x.path } :: x.after
  otherwise := p.otherwise

end Node

/-! ### Programs with groups -/

/-- Of clauses is left the same when one of them has another condition of which is left the same. -/
theorem reduceClauses_withCondition {e : Condition} {c : Clause} (h : e.reduce = c.condition.reduce)
    (before after : List Clause) :
  reduceClauses (before ++ { c with condition := e } :: after) =
    reduceClauses (before ++ c :: after)
  := by
  induction before with
  | nil => rw [List.nil_append, List.nil_append, reduceClauses, reduceClauses, h]
  | cons b before ih => rw [List.cons_append, List.cons_append, reduceClauses, reduceClauses, ih]

/-- Of a program with a group around a node is left what is left of the program. -/
theorem Node.reduce_enclosed {p : Program} (x : p.Node) :
  x.enclosed.reduce = p.reduce
  := by
  have hreduce := Condition.reduce_enclose x.path x.clause.condition
  rw [reduce, reduce, x.clauses_eq, ← reduceClauses_withCondition hreduce]
  rfl

/-- The evaluation of a program depends only on what is left of it. -/
theorem evaluate_of_reduce_eq {p p' : Program} (h : p.reduce = p'.reduce) (env : Environment) :
  p.evaluate env = p'.evaluate env
  := by
  rw [evaluate, evaluate, h]

end Program

/-! ### Parentheses in a derivation -/

namespace Grammar

/-- The tokens of a chain stand among others, with a number of tokens in front, and `P` holds of all
tokens when any parentheses are put around those of the chain. -/
def Encloses (ts : List Token) (start : Nat) (m : Chain) (P : List Token → Prop) : Prop :=
  ∃ us vs, ts = us ++ (m.tokens ++ vs) ∧ us.length = start
    ∧ ∀ (l : Terminal .leftParen) (r : Terminal .rightParen),
        P (us ++ l.token :: (m.tokens ++ r.token :: vs))

/-- Tokens around those that hold a chain are kept when parentheses are put around the chain. -/
theorem Encloses.frame {ts : List Token} {start : Nat} {m : Chain} {P Q : List Token → Prop}
    (h : Encloses ts start m P) (us vs : List Token) (hQ : ∀ ts', P ts' → Q (us ++ (ts' ++ vs))) :
  Encloses (us ++ (ts ++ vs)) (us.length + start) m Q
  := by
  obtain ⟨us', vs', rfl, rfl, hall⟩ := h
  refine ⟨us ++ us', vs' ++ vs, by simp, List.length_append, ?_⟩
  intro l r
  have hq := hQ _ (hall l r)
  simpa using hq

theorem Encloses.mono {ts : List Token} {start : Nat} {m : Chain} {P Q : List Token → Prop}
    (h : Encloses ts start m P) (hQ : ∀ ts', P ts' → Q ts') :
  Encloses ts start m Q
  := by
  obtain ⟨us, vs, htokens, hlength, hall⟩ := h
  exact ⟨us, vs, htokens, hlength, fun l r => hQ _ (hall l r)⟩

/-- The whole of some tokens is put between parentheses. -/
theorem Encloses.whole {m : Chain} {P : List Token → Prop}
    (h : ∀ (l : Terminal .leftParen) (r : Terminal .rightParen), P (Operand.group l m r).tokens) :
  Encloses m.tokens 0 m P
  := by
  refine ⟨[], [], by simp, rfl, ?_⟩
  intro l r
  exact h l r

mutual

/-- A part of the condition of an operand is that of a chain, and with parentheses around the chain
the operand writes the condition with a group around the part. -/
theorem Operand.exists_encloses : ∀ (o : Operand) (path : List Branch) {e : Condition},
    (∀ t ∈ o.tokens, t.Readable) → o.condition.node? path = some e →
    ∃ m : Chain, m.condition = e ∧ Encloses o.tokens (o.condition.start path) m
      fun ts => ∃ o' : Operand, o'.tokens = ts ∧ o'.condition = o.condition.enclose path
  | o, [], e, _, h => by
    cases h
    exact ⟨.last o, rfl, .whole (m := .last o) fun l r => ⟨.group l (.last o) r, rfl, rfl⟩⟩
  | .compare .., b :: path, e, _, h => by cases b <;> cases h
  | .missing .., b :: path, e, _, h => by cases b <;> cases h
  | .group _ _ _, .left :: path, e, _, h => by cases h
  | .group _ _ _, .right :: path, e, _, h => by cases h
  | .group left content right, .inner :: path, e, hreadable, h => by
    rw [Operand.tokens, List.forall_mem_cons, List.forall_mem_append] at hreadable
    obtain ⟨m, hm, hencloses⟩ := Chain.exists_encloses content path hreadable.2.1 h
    use m, hm
    apply hencloses.frame [left.token] [right.token]
    rintro ts ⟨content', rfl, hcondition⟩
    use .group left content' right, rfl
    rw [Operand.condition, hcondition]
    rfl

/-- A part of the condition of a chain is that of a chain, and with parentheses around the latter
the former writes the condition with a group around the part. -/
theorem Chain.exists_encloses : ∀ (c : Chain) (path : List Branch) {e : Condition},
    (∀ t ∈ c.tokens, t.Readable) → c.condition.node? path = some e →
    ∃ m : Chain, m.condition = e ∧ Encloses c.tokens (c.condition.start path) m
      fun ts => ∃ c' : Chain, c'.tokens = ts ∧ c'.condition = c.condition.enclose path
  | .last o, path, e, hreadable, h => by
    obtain ⟨m, hm, hencloses⟩ := Operand.exists_encloses o path hreadable h
    use m, hm
    apply hencloses.mono
    rintro ts ⟨o', rfl, hcondition⟩
    exact ⟨.last o', rfl, hcondition⟩
  | .link o c word rest, [], e, _, h => by
    -- the connective with its two sides is the whole chain, of which a group makes one operand
    cases h
    exact ⟨.link o c word rest, rfl, .whole fun l r =>
      ⟨.last (.group l (.link o c word rest) r), rfl, rfl⟩⟩
  | .link o c word rest, .left :: path, e, hreadable, h => by
    rw [Chain.tokens, List.forall_mem_append] at hreadable
    obtain ⟨m, hm, hencloses⟩ := Operand.exists_encloses o path hreadable.1 h
    use m, hm
    rw [Chain.condition, Condition.start, ← Nat.zero_add (Condition.start path o.condition)]
    apply hencloses.frame [] (word.token :: rest.tokens)
    rintro ts ⟨o', rfl, hcondition⟩
    use .link o' c word rest, rfl
    rw [Chain.condition, hcondition]
    rfl
  | .link o c word rest, .right :: path, e, hreadable, h => by
    rw [Chain.tokens, List.forall_mem_append, List.forall_mem_cons] at hreadable
    obtain ⟨m, hm, hencloses⟩ := Chain.exists_encloses rest path hreadable.2.2 h
    use m, hm
    rw [Chain.condition, Condition.start, (o.alike hreadable.1).length_eq]
    have hframe := hencloses.frame (o.tokens ++ [word.token]) []
      (Q := fun ts => ∃ c' : Chain, c'.tokens = ts
        ∧ c'.condition = (Condition.join (.known c) o.condition rest.condition).enclose
          (.right :: path))
    simp only [List.append_nil, List.append_assoc, List.singleton_append, List.length_append,
      List.length_singleton] at hframe
    apply hframe
    rintro ts ⟨rest', rfl, hcondition⟩
    use .link o c word rest', rfl
    rw [Chain.condition, hcondition]
    rfl
  | .link _ _ _ _, .inner :: path, e, _, h => by cases h

end

/-- A part of the condition of a clause is that of a chain, and with parentheses around the chain
the clause has the condition with a group around the part. -/
theorem IfClause.exists_encloses {d : IfClause} (hreadable : ∀ t ∈ d.content.tokens, t.Readable)
    {path : List Branch} {e : Condition} (h : d.clause.condition.node? path = some e) :
  ∃ m : Chain, m.condition = e ∧ Encloses d.tokens (2 + d.clause.condition.start path) m
    fun ts => ∃ d' : IfClause, d'.tokens = ts
      ∧ d'.clause = { d.clause with condition := d.clause.condition.enclose path }
  := by
  obtain ⟨m, hm, hencloses⟩ := d.content.exists_encloses path hreadable h
  use m, hm
  apply hencloses.frame [d.keyword.token, d.left.token] (d.right.token :: d.answer.tokens)
  rintro ts ⟨content, rfl, hcondition⟩
  use { d with content := content }, rfl
  rw [IfClause.clause, hcondition]
  rfl

/-- A node of the program of a derivation is the condition of a chain, and with parentheses around
the chain the derivation writes the program with a group around the node. -/
theorem Derivation.exists_encloses {d : Derivation} (hreadable : ∀ t ∈ d.tokens, t.Readable)
    (x : d.program.Node) :
  ∃ m : Chain, m.condition = x.node ∧ Encloses d.tokens x.start m
    fun ts => ∃ d' : Derivation, d'.tokens = ts ∧ d'.program = x.enclosed
  := by
  obtain ⟨ds, last, hne⟩ := d
  obtain ⟨before, clause, after, hclauses, path, node, hnode⟩ := x
  obtain ⟨ds₁, ds', rfl, rfl, hds'⟩ := List.map_eq_append_iff.mp hclauses
  obtain ⟨i, ds₂, rfl, rfl, rfl⟩ := List.map_eq_cons_iff.mp hds'
  have hcontent := Derivation.readable_content hreadable
  obtain ⟨m, hm, hencloses⟩ := i.exists_encloses (hcontent i (by simp)) hnode
  use m, hm
  have hbefore := alike_flatMap fun c hc => hcontent c (List.mem_append_left _ hc)
  rw [Program.Node.start, hbefore.length_eq, Derivation.tokens, List.flatMap_append,
    List.flatMap_cons, List.append_assoc, List.append_assoc]
  apply hencloses.frame (ds₁.flatMap IfClause.tokens) (ds₂.flatMap IfClause.tokens ++ last.tokens)
  rintro ts ⟨i', rfl, hclause⟩
  use ⟨ds₁ ++ i' :: ds₂, last, by simp⟩
  constructor
  · rw [Derivation.tokens, List.flatMap_append, List.flatMap_cons, List.append_assoc,
      List.append_assoc]
  · rw [Derivation.program, Program.Node.enclosed, List.map_append, List.map_cons, hclause]
    rfl

end Grammar

/-! ### Reading with more parentheses -/

namespace Program

open Grammar

/-- The tokens of a node are those of a chain that writes it. With parentheses around them the
tokens are readable, and they write the program with a group around the node. -/
theorem Node.parenthesize_spec {ts : List Token} {p : Program} (h : ∀ t ∈ ts, t.Readable)
    (hp : ofTokens ts = .ok p) (x : p.Node) :
  (∃ m : Chain, m.tokens = x.tokens ts ∧ m.condition = x.node)
    ∧ ∀ (l : Terminal .leftParen) (r : Terminal .rightParen),
        (∀ t ∈ x.parenthesize l.token r.token ts, t.Readable)
        ∧ ofTokens (x.parenthesize l.token r.token ts) = .ok x.enclosed
  := by
  obtain ⟨d, rfl, rfl⟩ := exists_derivation_of_ofTokens (fun t ht => (h t ht).hasNumeral) hp
  obtain ⟨m, hm, us, vs, htokens, hstart, hall⟩ := d.exists_encloses h x
  rw [htokens, List.forall_mem_append, List.forall_mem_append] at h
  have hwidth : x.width = m.tokens.length := by
    rw [Node.width, ← hm]
    apply (m.alike h.2.1).length_eq
  have hspan : x.tokens d.tokens = m.tokens := by
    rw [Node.tokens, htokens, ← hstart, List.drop_left, hwidth, List.take_left]
  constructor
  · exact ⟨m, hspan.symm, hm⟩
  · intro l r
    have hparenthesize : x.parenthesize l.token r.token d.tokens =
        us ++ l.token :: (m.tokens ++ r.token :: vs) := by
      rw [Node.parenthesize, hspan, htokens, ← hstart, List.take_left, hwidth,
        ← List.drop_drop, List.drop_left, List.drop_left]
    have hreadable : ∀ t ∈ us ++ l.token :: (m.tokens ++ r.token :: vs), t.Readable := by
      rw [List.forall_mem_append, List.forall_mem_cons, List.forall_mem_append,
        List.forall_mem_cons]
      exact ⟨h.1, l.readable (by simp), h.2.1, r.readable (by simp), h.2.2⟩
    rw [hparenthesize]
    obtain ⟨d', hd', hprogram⟩ := hall l r
    rw [← hd'] at hreadable ⊢
    rw [d'.ofTokens (Derivation.readable_content hreadable), hprogram]
    exact ⟨hreadable, rfl⟩

/-- The same is left of the two programs up to the places of tokens, and they have the same runs. -/
structure Equivalent (p p' : Program) : Prop where
  reduced : ∃ q q', p.reduce = .ok q ∧ p'.reduce = .ok q' ∧ q.unplaced = q'.unplaced
  evaluate_eq : ∀ env, p.evaluate env = p'.evaluate env

theorem Equivalent.trans {p p' p'' : Program} (h : p.Equivalent p') (h' : p'.Equivalent p'') :
  p.Equivalent p''
  := by
  obtain ⟨q, q₁, hq, hq₁, hunplaced⟩ := h.reduced
  obtain ⟨q₁', q', hq₁', hq', hunplaced'⟩ := h'.reduced
  rw [hq₁] at hq₁'
  cases hq₁'
  constructor
  · exact ⟨q, q', hq, hq', hunplaced.trans hunplaced'⟩
  · intro env
    rw [h.evaluate_eq, h'.evaluate_eq]

theorem Corresponds.equivalent {p p' q : Program} (h : p.Corresponds Token.Moved p')
    (hq : p.reduce = .ok q) :
  p.Equivalent p'
  := by
  obtain ⟨q', hq', hreduced⟩ := h.exists_reduce hq
  constructor
  · exact ⟨q, q', hq, hq', hreduced.unplaced_eq⟩
  · exact evaluate_of_agrees hq hq' hreduced.agrees

theorem exists_reduce_of_ofTokens {ts : List Token} {p : Program} (h : ∀ t ∈ ts, t.Readable)
    (hp : ofTokens ts = .ok p) :
  ∃ q, p.reduce = .ok q
  := by
  obtain ⟨d, -, rfl⟩ := exists_derivation_of_ofTokens (fun t ht => (h t ht).hasNumeral) hp
  obtain ⟨q, hq, -⟩ := d.wellFormed.exists_reduce
  exact ⟨q, hq⟩

/-- Tokens that are moved write a program that corresponds. -/
theorem exists_ofTokens_of_moved {ts ts' : List Token} {p : Program} (h : ∀ t ∈ ts, t.Readable)
    (hp : ofTokens ts = .ok p) (hmoved : List.Forall₂ Token.Moved ts ts') :
  (∀ t ∈ ts', t.Readable) ∧ ∃ p', ofTokens ts' = .ok p' ∧ p.Corresponds Token.Moved p'
  := by
  have h' : ∀ t ∈ ts', t.Readable := by
    intro t' ht'
    obtain ⟨t, ht, hsame⟩ := exists_mem_of_forall₂ hmoved ht'
    apply hsame.readable (h t ht)
  use h'
  rcases ofTokens_lockstep (fun _ _ => Token.Moved.alike) hmoved h h' with
    ⟨p₁, p', hp₁, hp', hcorresponds⟩ | ⟨i, e, hrefused, -⟩
  · rw [hp] at hp₁
    cases hp₁
    exact ⟨p', hp', hcorresponds⟩
  · rw [hp] at hrefused
    cases hrefused

/-- The second list of tokens is the first one with parentheses around a node of the program that it
writes, wherever the tokens are then placed. -/
def Parenthesized (ts ts' : List Token) : Prop :=
  ∃ (p : Program) (x : p.Node) (l : Terminal .leftParen) (r : Terminal .rightParen),
    ofTokens ts = .ok p
      ∧ List.Forall₂ Token.Moved (x.parenthesize l.token r.token ts) ts'

/-- Parentheses around a node are read as a group around it, which makes no difference. -/
theorem Node.exists_parenthesized {ts ts' : List Token} {p : Program} (h : ∀ t ∈ ts, t.Readable)
    (hp : ofTokens ts = .ok p) (x : p.Node) {l : Terminal .leftParen} {r : Terminal .rightParen}
    (hmoved : List.Forall₂ Token.Moved (x.parenthesize l.token r.token ts) ts') :
  (∀ t ∈ ts', t.Readable)
    ∧ ∃ p', ofTokens ts' = .ok p' ∧ x.enclosed.Corresponds Token.Moved p' ∧ p.Equivalent p'
  := by
  obtain ⟨hreadable, henclosed⟩ := (x.parenthesize_spec h hp).2 l r
  obtain ⟨hreadable', p', hp', hcorresponds⟩ := exists_ofTokens_of_moved hreadable henclosed hmoved
  obtain ⟨q, hq⟩ := exists_reduce_of_ofTokens h hp
  have hsame : p.Equivalent x.enclosed :=
    ⟨⟨q, q, hq, x.reduce_enclosed.trans hq, rfl⟩, evaluate_of_reduce_eq x.reduce_enclosed.symm⟩
  have hequivalent := hcorresponds.equivalent (x.reduce_enclosed.trans hq)
  exact ⟨hreadable', p', hp', hcorresponds, hsame.trans hequivalent⟩

/-- However often nodes are put between parentheses, the same rule is read. -/
theorem exists_of_parenthesized {ts ts' : List Token} {p : Program} (h : ∀ t ∈ ts, t.Readable)
    (hp : ofTokens ts = .ok p) (hsteps : Relation.ReflTransGen Parenthesized ts ts') :
  (∀ t ∈ ts', t.Readable) ∧ ∃ p', ofTokens ts' = .ok p' ∧ p.Equivalent p'
  := by
  induction hsteps with
  | refl =>
    obtain ⟨q, hq⟩ := exists_reduce_of_ofTokens h hp
    exact ⟨h, p, hp, ⟨q, q, hq, hq, rfl⟩, fun _ => rfl⟩
  | tail _ hstep ih =>
    obtain ⟨hreadable₁, p₁, hp₁, hequivalent⟩ := ih
    obtain ⟨p₁', x, l, r, hp₁', hmoved⟩ := hstep
    rw [hp₁] at hp₁'
    cases hp₁'
    obtain ⟨hreadable', p', hp', -, hequivalent'⟩ := x.exists_parenthesized hreadable₁ hp₁ hmoved
    exact ⟨hreadable', p', hp', hequivalent.trans hequivalent'⟩

/-- Redundant parentheses never change a rule. The tokens of a node write this node. Parentheses
around exactly these tokens are accepted, and a group around the node is read. However often nodes
are put between parentheses, the same is left of the program when groups are removed, up to the
places of tokens, and the program has the same run in every environment. -/
theorem ofTokens_parenthesize {ts : List Token} {p : Program} (h : ∀ t ∈ ts, t.Readable)
    (hp : ofTokens ts = .ok p) :
  (∀ x : p.Node, (∃ m : Chain, m.tokens = x.tokens ts ∧ m.condition = x.node)
      ∧ ∀ (l : Terminal .leftParen) (r : Terminal .rightParen) (ts' : List Token),
        List.Forall₂ Token.Moved (x.parenthesize l.token r.token ts) ts' →
          ∃ p', ofTokens ts' = .ok p' ∧ x.enclosed.Corresponds Token.Moved p')
    ∧ ∀ ts', Relation.ReflTransGen Parenthesized ts ts' →
        ∃ p', ofTokens ts' = .ok p' ∧ p.Equivalent p'
  := by
  constructor
  · intro x
    use (x.parenthesize_spec h hp).1
    intro l r ts' hmoved
    obtain ⟨-, p', hp', hcorresponds, -⟩ := x.exists_parenthesized h hp hmoved
    exact ⟨p', hp', hcorresponds⟩
  · intro ts' hsteps
    exact (exists_of_parenthesized h hp hsteps).2

/-- The right side of the connective in `nestedProgram`. -/
def missingNode : nestedProgram.Node where
  before := []
  clause := nestedProgram.clauses.head (by decide)
  after := []
  clauses_eq := rfl
  path := [.inner, .right]
  node := .missing "y"
  node_eq := rfl

theorem ofTokens_parenthesize_missingNode :
  (∀ t ∈ nestedTokens, t.Readable) ∧ ofTokens nestedTokens = .ok nestedProgram
    ∧ missingNode.start = 7 ∧ missingNode.width = 4
    ∧ ∃ p', ofTokens (nestedTokens.take 7 ++ .fresh .leftParen "(" :: ((nestedTokens.drop 7).take 4
          ++ .fresh .rightParen ")" :: nestedTokens.drop 11)) = .ok p'
      ∧ missingNode.enclosed.Corresponds Token.Moved p' ∧ nestedProgram.Equivalent p'
  := by
  have h : ∀ t ∈ nestedTokens, t.Readable := by decide
  have hp : ofTokens nestedTokens = .ok nestedProgram := by rfl
  obtain ⟨hnode, hrun⟩ := ofTokens_parenthesize h hp
  have hmoved : ∀ ts, List.Forall₂ Token.Moved ts ts :=
    fun ts => List.forall₂_same.mpr fun _ _ => rfl
  obtain ⟨p', hp', hcorresponds⟩ :=
    (hnode missingNode).2 (.fresh _ "(") (.fresh _ ")") _ (hmoved _)
  obtain ⟨p₁, hp₁, hequivalent⟩ :=
    hrun _ (.single ⟨nestedProgram, missingNode, .fresh _ "(", .fresh _ ")", hp, hmoved _⟩)
  rw [hp'] at hp₁
  cases hp₁
  exact ⟨h, hp, rfl, rfl, p', hp', hcorresponds, hequivalent⟩

end Program

end Verdict
