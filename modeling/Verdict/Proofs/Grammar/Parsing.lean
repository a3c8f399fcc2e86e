import Mathlib.Data.List.Induction
import Mathlib.Logic.ExistsUnique
import Mathlib.Tactic.Use
import Verdict.Proofs.Grammar.Derivation
import Verdict.Proofs.Grammar.Transition

/-!
# Parsing

Tokens write a program exactly if they have a derivation, and then it is the program of the
derivation.

The reader follows a derivation to its end: over an operand it goes from the beginning of the
operand to its end, and over a chain it collects the operands with their connectives, so that
closing what was collected gives the condition of the chain. Conversely, `Reads ts s` says that
the tokens `ts` begin a derivation and that the state `s` is what has been read of it. Every
transition keeps it, so a complete program has been read only from the tokens of a derivation.
-/

namespace Verdict.Grammar

open Verdict.Parser

theorem close_append (links top : Parser.Chain) (e : Condition) :
  (links ++ top).close e = top.close (links.close e)
  := List.foldl_append

/-! ### Following a derivation -/

mutual

/-- The reader goes over an operand. -/
theorem Operand.run : ∀ (o : Operand), (∀ t ∈ o.tokens, t.Readable) →
    ∀ (cs : List Clause) (k : Token) (stack : Stack),
    State.run ⟨cs, .condition k stack .operand⟩ o.tokens
      = .ok ⟨cs, .condition k stack (.closed o.condition)⟩
  | .compare name r sign literal, h, cs, k, stack => by
    have hliteral : literal.token.Readable := by
      apply h
      simp [Operand.tokens]
    rw [Operand.tokens, (Transition.name name.kind_eq).run_cons,
      (Transition.relation sign.kind_eq).run_cons,
      (Transition.literal literal.kind_eq
        (compared_of_readable literal.kind_eq hliteral)).run_cons]
    rfl
  | .missing word left name right, _, cs, k, stack => by
    rw [Operand.tokens, (Transition.missing word.kind_eq).run_cons,
      (Transition.missingParen left.kind_eq).run_cons,
      (Transition.missingName name.kind_eq).run_cons,
      (Transition.missingEnd right.kind_eq).run_cons]
    rfl
  | .group left content right, h, cs, k, stack => by
    have hcontent : ∀ t ∈ content.tokens, t.Readable := by
      intro t ht
      apply h
      simp [Operand.tokens, ht]
    obtain ⟨links, e, hclose, hrun⟩ :=
      Chain.run content hcontent cs k [] (stack.top :: stack.below)
    rw [Operand.tokens, (Transition.group left.kind_eq).run_cons, State.run_append hrun,
      (Transition.groupEnd right.kind_eq).run_cons, List.append_nil, hclose]
    rfl

/-- The reader goes over a chain, and what it has collected closes to the condition of the
chain. -/
theorem Chain.run : ∀ (c : Chain), (∀ t ∈ c.tokens, t.Readable) →
    ∀ (cs : List Clause) (k : Token) (top : Parser.Chain) (below : List Parser.Chain),
    ∃ (links : Parser.Chain) (e : Condition), links.close e = c.condition ∧
      State.run ⟨cs, .condition k ⟨top, below⟩ .operand⟩ c.tokens
        = .ok ⟨cs, .condition k ⟨links ++ top, below⟩ (.closed e)⟩
  | .last o, h, cs, k, top, below => by
    use [], o.condition, rfl
    apply Operand.run o h
  | .link o c word rest, h, cs, k, top, below => by
    have ho : ∀ t ∈ o.tokens, t.Readable := by
      intro t ht
      apply h
      simp [Chain.tokens, ht]
    have hrest : ∀ t ∈ rest.tokens, t.Readable := by
      intro t ht
      apply h
      simp [Chain.tokens, ht]
    obtain ⟨links, e, hclose, hrun⟩ := Chain.run rest hrest cs k ((o.condition, c) :: top) below
    use links ++ [(o.condition, c)], e
    constructor
    · rw [close_append, hclose]
      rfl
    · rw [Chain.tokens, State.run_append (Operand.run o ho cs k ⟨top, below⟩),
        (Transition.connective word.kind_eq).run_cons, hrun, List.append_assoc]
      rfl

end

/-- The reader goes over a clause. -/
theorem IfClause.run (c : IfClause) (h : ∀ t ∈ c.content.tokens, t.Readable)
    (cs : List Clause) :
  State.run ⟨cs, .clause⟩ c.tokens = .ok ⟨c.clause :: cs, .clause⟩
  := by
  obtain ⟨links, e, hclose, hrun⟩ := c.content.run h cs c.keyword.token [] []
  rw [tokens, (Transition.clause c.keyword.kind_eq).run_cons,
    (Transition.condition c.left.kind_eq).run_cons, State.run_append hrun,
    (Transition.conditionEnd c.right.kind_eq).run_cons, Answer.tokens,
    (Transition.result c.answer.keyword.kind_eq).run_cons,
    (Transition.value c.answer.value.kind_eq).run_cons, List.append_nil, hclose]
  rfl

theorem run_clauses (ds : List IfClause) (h : ∀ c ∈ ds, ∀ t ∈ c.content.tokens, t.Readable)
    (cs : List Clause) :
  State.run ⟨cs, .clause⟩ (ds.flatMap IfClause.tokens)
    = .ok ⟨(ds.map IfClause.clause).reverse ++ cs, .clause⟩
  := by
  induction ds generalizing cs with
  | nil => rfl
  | cons d ds ih =>
    obtain ⟨hd, hds⟩ := List.forall_mem_cons.mp h
    rw [List.flatMap_cons, State.run_append (d.run hd cs), ih hds]
    simp

/-- The reader goes over the last clause, which has a clause in front of it. -/
theorem ElseClause.run (e : ElseClause) {cs : List Clause} (h : cs ≠ []) :
  State.run ⟨cs, .clause⟩ e.tokens = .ok ⟨cs, .done e.otherwise⟩
  := by
  rw [tokens, (Transition.last e.keyword.kind_eq h).run_cons, Answer.tokens,
    (Transition.lastResult e.answer.keyword.kind_eq).run_cons,
    (Transition.lastValue e.answer.value.kind_eq).run_cons]
  rfl

theorem Derivation.run (d : Derivation)
    (h : ∀ c ∈ d.clauses, ∀ t ∈ c.content.tokens, t.Readable) :
  State.start.run d.tokens
    = .ok ⟨(d.clauses.map IfClause.clause).reverse, .done d.last.otherwise⟩
  := by
  have hclauses := run_clauses d.clauses h []
  rw [List.append_nil] at hclauses
  rw [tokens, State.start, State.run_append hclauses, ElseClause.run]
  simpa using d.nonempty

theorem Derivation.readable_content {d : Derivation} (h : ∀ t ∈ d.tokens, t.Readable) :
  ∀ c ∈ d.clauses, ∀ t ∈ c.content.tokens, t.Readable
  := by
  intro c hc t ht
  apply h
  rw [tokens, List.mem_append, List.mem_flatMap]
  left
  use c, hc
  simp [IfClause.tokens, ht]

/-- The tokens of a derivation write its program, if the numbers of its comparisons can be
read. -/
theorem Derivation.ofTokens (d : Derivation)
    (h : ∀ c ∈ d.clauses, ∀ t ∈ c.content.tokens, t.Readable) :
  Program.ofTokens d.tokens = .ok d.program
  := by
  rw [ofTokens_eq, d.run h]
  simp [Except.bind, State.finish, Derivation.program]

/-! ### What has been read -/

/-- Tokens write operands, each with the connective behind it. -/
inductive ReadsLinks : List Token → Parser.Chain → Prop where
  | nil : ReadsLinks [] []
  | link {ts chain c} (h : ReadsLinks ts chain) (o : Operand) (word : Terminal (.connective c)) :
    ReadsLinks (ts ++ (o.tokens ++ [word.token])) ((o.condition, c) :: chain)

/-- Tokens open parentheses, the outermost one first, and write operands in each of them. -/
inductive ReadsStack : List Token → Stack → Prop where
  | outer {ts top} (left : Terminal .leftParen) (h : ReadsLinks ts top) :
    ReadsStack (left.token :: ts) ⟨top, []⟩
  | inner {us vs chain top below} (hbelow : ReadsStack us ⟨chain, below⟩)
      (left : Terminal .leftParen) (h : ReadsLinks vs top) :
    ReadsStack (us ++ left.token :: vs) ⟨top, chain :: below⟩

/-- Tokens begin an operand. -/
inductive ReadsSpot : List Token → Spot → Prop where
  | operand : ReadsSpot [] .operand
  | name (x : Terminal .identifier) : ReadsSpot [x.token] (.name x.token.text)
  | relation (x : Terminal .identifier) {r} (sign : Terminal (.relation r)) :
    ReadsSpot [x.token, sign.token] (.relation x.token.text r)
  | missing (word : Terminal .isMissing) : ReadsSpot [word.token] .missing
  | missingParen (word : Terminal .isMissing) (left : Terminal .leftParen) :
    ReadsSpot [word.token, left.token] .missingParen
  | missingName (word : Terminal .isMissing) (left : Terminal .leftParen)
      (x : Terminal .identifier) :
    ReadsSpot [word.token, left.token, x.token] (.missingName x.token.text)
  | closed (o : Operand) : ReadsSpot o.tokens (.closed o.condition)

/-- Tokens begin a clause. -/
inductive ReadsStage : List Token → Stage → Prop where
  | clause : ReadsStage [] .clause
  | opening (k : Terminal (.keyword .ifWord)) : ReadsStage [k.token] (.opening k.token)
  | condition (k : Terminal (.keyword .ifWord)) {us vs stack spot} (h : ReadsStack us stack)
      (hspot : ReadsSpot vs spot) :
    ReadsStage (k.token :: (us ++ vs)) (.condition k.token stack spot)
  | result (k : Terminal (.keyword .ifWord)) (left : Terminal .leftParen) (c : Chain)
      (right : Terminal .rightParen) :
    ReadsStage (k.token :: left.token :: (c.tokens ++ [right.token])) (.result k.token c.condition)
  | value (k : Terminal (.keyword .ifWord)) (left : Terminal .leftParen) (c : Chain)
      (right : Terminal .rightParen) (r : Terminal (.keyword .returnWord)) :
    ReadsStage (k.token :: left.token :: (c.tokens ++ [right.token, r.token]))
      (.value k.token c.condition r.token)
  | lastResult (k : Terminal (.keyword .elseWord)) : ReadsStage [k.token] (.lastResult k.token)
  | lastValue (k : Terminal (.keyword .elseWord)) (r : Terminal (.keyword .returnWord)) :
    ReadsStage [k.token, r.token] (.lastValue k.token r.token)
  | done (e : ElseClause) : ReadsStage e.tokens (.done e.otherwise)

/-- The place lies within or behind the last clause. -/
def Stage.isLast : Stage → Bool
  | .lastResult _ | .lastValue .. | .done _ => true
  | _ => false

/-- Tokens begin a derivation, and the state is what has been read of it. -/
inductive Reads : List Token → State → Prop where
  | intro (ds : List IfClause) {ts stage} (h : ReadsStage ts stage)
      (hlast : Stage.isLast stage = true → ds ≠ []) :
    Reads (ds.flatMap IfClause.tokens ++ ts) ⟨(ds.map IfClause.clause).reverse, stage⟩

/-- Operands with their connectives and a chain behind them are a chain. -/
theorem ReadsLinks.exists_chain {ts : List Token} {links : Parser.Chain}
    (h : ReadsLinks ts links) (c : Chain) :
  ∃ c' : Chain, c'.tokens = ts ++ c.tokens ∧ c'.condition = links.close c.condition
  := by
  induction h generalizing c with
  | nil => exact ⟨c, rfl, rfl⟩
  | link _ o word ih =>
    obtain ⟨c', htokens, hcondition⟩ := ih (.link o _ word c)
    use c'
    constructor
    · rw [htokens, Chain.tokens]
      simp
    · rw [hcondition]
      rfl

/-! ### Transitions keep what has been read -/

/-- The next token within the last clause. -/
theorem Reads.of_last {ds : List IfClause} {ts : List Token} {t : Token} {stage : Stage}
    (h : ReadsStage (ts ++ [t]) stage) (hds : ds ≠ []) :
  Reads (ds.flatMap IfClause.tokens ++ ts ++ [t]) ⟨(ds.map IfClause.clause).reverse, stage⟩
  := by
  rw [List.append_assoc]
  apply Reads.intro ds h fun _ => hds

/-- The next token within another clause. -/
theorem Reads.of_stage {ds : List IfClause} {ts : List Token} {t : Token} {stage : Stage}
    (h : ReadsStage (ts ++ [t]) stage) (hstage : Stage.isLast stage = false) :
  Reads (ds.flatMap IfClause.tokens ++ ts ++ [t]) ⟨(ds.map IfClause.clause).reverse, stage⟩
  := by
  rw [List.append_assoc]
  apply Reads.intro ds h
  intro hlast
  rw [hstage] at hlast
  cases hlast

theorem ReadsStage.spot {k : Terminal (.keyword .ifWord)} {us vs : List Token} {stack : Stack}
    {spot : Spot} {t : Token} (h : ReadsStack us stack) (hspot : ReadsSpot (vs ++ [t]) spot) :
  ReadsStage (k.token :: (us ++ vs) ++ [t]) (.condition k.token stack spot)
  := by
  rw [List.cons_append, List.append_assoc]
  apply ReadsStage.condition k h hspot

theorem ReadsStack.connective {us : List Token} {stack : Stack} {c : Connective}
    (h : ReadsStack us stack) (k : Terminal (.keyword .ifWord)) (o : Operand)
    (word : Terminal (.connective c)) :
  ReadsStage (k.token :: (us ++ o.tokens) ++ [word.token])
    (.condition k.token ⟨(o.condition, c) :: stack.top, stack.below⟩ .operand)
  := by
  have h' : ReadsStack (us ++ (o.tokens ++ [word.token]))
      ⟨(o.condition, c) :: stack.top, stack.below⟩ := by
    cases h with
    | outer left hlinks => apply ReadsStack.outer left (hlinks.link o word)
    | inner hbelow left hlinks => simpa using hbelow.inner left (hlinks.link o word)
  simpa using ReadsStage.condition k h' .operand

theorem ReadsStack.groupEnd {us : List Token} {top chain : Parser.Chain}
    {below : List Parser.Chain} (h : ReadsStack us ⟨top, chain :: below⟩)
    (k : Terminal (.keyword .ifWord)) (o : Operand) (right : Terminal .rightParen) :
  ReadsStage (k.token :: (us ++ o.tokens) ++ [right.token])
    (.condition k.token ⟨chain, below⟩ (.closed (.group (top.close o.condition))))
  := by
  cases h with
  | inner hbelow left hlinks =>
    obtain ⟨c, htokens, hcondition⟩ := hlinks.exists_chain (.last o)
    have hspot := ReadsSpot.closed (.group left c right)
    rw [Operand.tokens, Operand.condition, htokens, hcondition] at hspot
    simpa [Chain.tokens, Chain.condition] using ReadsStage.condition k hbelow hspot

theorem ReadsStack.conditionEnd {us : List Token} {top : Parser.Chain}
    (h : ReadsStack us ⟨top, []⟩) (k : Terminal (.keyword .ifWord)) (o : Operand)
    (right : Terminal .rightParen) :
  ReadsStage (k.token :: (us ++ o.tokens) ++ [right.token])
    (.result k.token (top.close o.condition))
  := by
  cases h with
  | outer left hlinks =>
    obtain ⟨c, htokens, hcondition⟩ := hlinks.exists_chain (.last o)
    have hstage := ReadsStage.result k left c right
    rw [htokens, hcondition] at hstage
    simpa [Chain.tokens, Chain.condition] using hstage

theorem ReadsStack.group {us : List Token} {stack : Stack} (h : ReadsStack us stack)
    (k : Terminal (.keyword .ifWord)) (left : Terminal .leftParen) :
  ReadsStage (k.token :: (us ++ []) ++ [left.token])
    (.condition k.token ⟨[], stack.top :: stack.below⟩ .operand)
  := by
  rw [List.append_nil, List.cons_append, ← List.append_nil (_ ++ [left.token])]
  apply ReadsStage.condition k (.inner h left .nil) .operand

/-- The next token within a condition. It finishes no clause and is not within the last one. -/
theorem ReadsStack.transition {us vs : List Token} {stack : Stack} {spot : Spot} {cs : List Clause}
    {s : State} {t : Token} (hstack : ReadsStack us stack) (hspot : ReadsSpot vs spot)
    (k : Terminal (.keyword .ifWord)) (ht : t.HasNumeral)
    (hstep : Transition ⟨cs, .condition k.token stack spot⟩ t s) :
  ∃ stage, s = ⟨cs, stage⟩ ∧ ReadsStage (k.token :: (us ++ vs) ++ [t]) stage
    ∧ Stage.isLast stage = false
  := by
  cases hstep with
  | group hkind =>
    cases hspot
    exact ⟨_, rfl, hstack.group k ⟨t, hkind⟩, rfl⟩
  | name hkind =>
    cases hspot
    exact ⟨_, rfl, .spot hstack (.name ⟨t, hkind⟩), rfl⟩
  | relation hkind =>
    cases hspot with
    | name x => exact ⟨_, rfl, .spot hstack (.relation x ⟨t, hkind⟩), rfl⟩
  | literal hkind he =>
    obtain ⟨-, rfl⟩ := eq_of_compared hkind ht he
    cases hspot with
    | relation x sign => exact ⟨_, rfl, .spot hstack (.closed (.compare x _ sign ⟨t, hkind⟩)), rfl⟩
  | missing hkind =>
    cases hspot
    exact ⟨_, rfl, .spot hstack (.missing ⟨t, hkind⟩), rfl⟩
  | missingParen hkind =>
    cases hspot with
    | missing word => exact ⟨_, rfl, .spot hstack (.missingParen word ⟨t, hkind⟩), rfl⟩
  | missingName hkind =>
    cases hspot with
    | missingParen word left =>
      exact ⟨_, rfl, .spot hstack (.missingName word left ⟨t, hkind⟩), rfl⟩
  | missingEnd hkind =>
    cases hspot with
    | missingName word left x =>
      exact ⟨_, rfl, .spot hstack (.closed (.missing word left x ⟨t, hkind⟩)), rfl⟩
  | connective hkind =>
    cases hspot with
    | closed o => exact ⟨_, rfl, hstack.connective k o ⟨t, hkind⟩, rfl⟩
  | groupEnd hkind =>
    cases hspot with
    | closed o => exact ⟨_, rfl, hstack.groupEnd k o ⟨t, hkind⟩, rfl⟩
  | conditionEnd hkind =>
    cases hspot with
    | closed o => exact ⟨_, rfl, hstack.conditionEnd k o ⟨t, hkind⟩, rfl⟩

/-- Every transition keeps what has been read. -/
theorem Reads.transition {ts : List Token} {s s' : State} {t : Token} (h : Reads ts s)
    (ht : t.HasNumeral) (hstep : Transition s t s') :
  Reads (ts ++ [t]) s'
  := by
  obtain ⟨ds, hstage, hlast⟩ := h
  cases hstage with
  | clause =>
    cases hstep with
    | clause hkind => apply Reads.of_stage (.opening ⟨t, hkind⟩) rfl
    | last hkind hcs =>
      apply Reads.of_last (.lastResult ⟨t, hkind⟩)
      simpa using hcs
  | opening k =>
    cases hstep with
    | condition hkind =>
      apply Reads.of_stage (.condition k (.outer ⟨t, hkind⟩ .nil) .operand) rfl
  | condition k hstack hspot =>
    obtain ⟨stage, rfl, hnext, hnot⟩ := hstack.transition hspot k ht hstep
    apply Reads.of_stage hnext hnot
  | result k left c right =>
    cases hstep with
    | result hkind =>
      apply Reads.of_stage
      · simpa using ReadsStage.value k left c right ⟨t, hkind⟩
      · rfl
  | value k left c right r =>
    cases hstep with
    | value hkind =>
      have h := Reads.intro (ds ++ [⟨k, left, c, right, r, ⟨t, hkind⟩⟩]) .clause
        (by simp [Stage.isLast])
      simpa [IfClause.tokens, Answer.tokens, IfClause.clause, Answer.result] using h
  | lastResult k =>
    cases hstep with
    | lastResult hkind => apply Reads.of_last (.lastValue k ⟨t, hkind⟩) (hlast rfl)
  | lastValue k r =>
    cases hstep with
    | lastValue hkind => apply Reads.of_last (.done ⟨k, r, ⟨t, hkind⟩⟩) (hlast rfl)
  | done e => cases hstep

/-- What has been read after some tokens, from the beginning of a program. -/
theorem Reads.run {ts : List Token} {s : State} (h : ∀ t ∈ ts, t.HasNumeral)
    (hrun : State.start.run ts = .ok s) :
  Reads ts s
  := by
  induction ts using List.reverseRecOn generalizing s with
  | nil =>
    cases hrun
    apply Reads.intro [] .clause
    intro hlast
    cases hlast
  | append_singleton ts t ih =>
    rw [List.forall_mem_append, List.forall_mem_singleton] at h
    obtain ⟨s₁, hs₁, hstep⟩ := State.run_concat hrun
    apply (ih h.1 hs₁).transition h.2 hstep

theorem Reads.exists_derivation {ts : List Token} {cs : List Clause} {o : Otherwise}
    (h : Reads ts ⟨cs, .done o⟩) :
  ∃ d : Derivation, d.tokens = ts ∧ d.program = ⟨cs.reverse, o⟩
  := by
  obtain ⟨ds, hstage, hlast⟩ := h
  cases hstage with
  | done e =>
    use ⟨ds, e, hlast rfl⟩, rfl
    simp [Derivation.program]

/-! ### Accepted and refused tokens -/

/-- Tokens that write a program have a derivation of it, if their numbers are numerals. -/
theorem exists_derivation_of_ofTokens {ts : List Token} {p : Program}
    (h : ∀ t ∈ ts, t.HasNumeral) (hp : Program.ofTokens ts = .ok p) :
  ∃ d : Derivation, d.tokens = ts ∧ d.program = p
  := by
  rw [ofTokens_eq] at hp
  cases hrun : State.start.run ts with
  | error f =>
    rw [hrun] at hp
    cases hp
  | ok s =>
    rw [hrun] at hp
    obtain ⟨cs, stage⟩ := s
    cases stage with
    | done o =>
      cases hp
      apply (Reads.run h hrun).exists_derivation
    | _ => cases hp

/-- Tokens are refused because a token is misplaced, or the end of the input is, or because a
number has too many digits. -/
theorem misplaced_or_tooLong_of_ofTokens {ts : List Token} {f : Failure}
    (h : ∀ t ∈ ts, t.HasNumeral)
    (hf : Program.ofTokens ts = .error f) :
  (∃ position expected found, f = Fault.misplaced position expected found)
    ∨ ∃ t ∈ ts, TooLong t f
  := by
  rw [ofTokens_eq] at hf
  cases hrun : State.start.run ts with
  | error f' =>
    rw [hrun] at hf
    cases hf
    obtain ⟨us, t, vs, s, rfl, -, hstep⟩ := State.run_eq_error hrun
    have ht : t ∈ us ++ t :: vs := by simp
    rcases misfit_or_tooLong_of_step (h t ht) hstep with rfl | hlong
    · exact Or.inl ⟨_, _, _, rfl⟩
    · exact Or.inr ⟨t, ht, hlong⟩
  | ok s =>
    rw [hrun] at hf
    obtain ⟨cs, stage⟩ := s
    cases stage with
    | done o => cases hf
    | _ =>
      cases hf
      exact Or.inl ⟨_, _, _, rfl⟩

/-- Readable tokens are refused because a token is misplaced, or the end of the input is. -/
theorem ofTokens_eq_error {ts : List Token} {f : Failure} (h : ∀ t ∈ ts, t.Readable)
    (hf : Program.ofTokens ts = .error f) :
  ∃ position expected found, f = Fault.misplaced position expected found
  := by
  rcases misplaced_or_tooLong_of_ofTokens (fun t ht => (h t ht).hasNumeral) hf
    with hmisplaced | ⟨t, ht, hlong⟩
  · exact hmisplaced
  · exact absurd hlong (not_tooLong_of_readable (h t ht))

/-- Tokens whose numbers are numerals of at most `Integer.maxDigits` digits write a program
exactly if they have a derivation, and then it is the program of the derivation. They have one,
and only one, exactly if their kinds derive from the grammar. Otherwise a token is misplaced, or
the end of the input is. -/
theorem ofTokens_iff_derivation {ts : List Token} (h : ∀ t ∈ ts, t.Readable) :
  (∀ p, Program.ofTokens ts = .ok p ↔ ∃ d : Derivation, d.tokens = ts ∧ d.program = p)
    ∧ (Sentence (ts.map Token.kind) ↔ ∃! d : Derivation, d.tokens = ts)
    ∧ (¬ Sentence (ts.map Token.kind) → ∃ position expected found,
        Program.ofTokens ts = .error (Fault.misplaced position expected found))
  := by
  refine ⟨?_, ?_, ?_⟩
  · intro p
    constructor
    · apply exists_derivation_of_ofTokens fun t ht => (h t ht).hasNumeral
    · rintro ⟨d, rfl, rfl⟩
      apply d.ofTokens (Derivation.readable_content h)
  · rw [sentence_iff_exists_derivation]
    constructor
    · rintro ⟨d, rfl⟩
      use d, rfl
      intro d' hd'
      apply Derivation.eq_of_tokens hd'
    · apply ExistsUnique.exists
  · intro hnot
    cases hf : Program.ofTokens ts with
    | error f =>
      obtain ⟨position, expected, found, rfl⟩ := ofTokens_eq_error h hf
      exact ⟨position, expected, found, rfl⟩
    | ok p =>
      obtain ⟨d, hd, -⟩ := exists_derivation_of_ofTokens (fun t ht => (h t ht).hasNumeral) hf
      exact absurd (sentence_iff_exists_derivation.mpr ⟨d, hd⟩) hnot

/-- The tokens of `IF ((x > 5 OR IS-MISSING(y))) RETURN 1 ELSE RETURN 0`. -/
def nestedTokens : List Token :=
  [⟨.keyword .ifWord, "IF", 0, 1, 1⟩, ⟨.leftParen, "(", 3, 1, 4⟩, ⟨.leftParen, "(", 4, 1, 5⟩,
    ⟨.identifier, "x", 5, 1, 6⟩, ⟨.relation .gt, ">", 7, 1, 8⟩, ⟨.number, "5", 9, 1, 10⟩,
    ⟨.connective .or, "OR", 11, 1, 12⟩, ⟨.isMissing, "IS-MISSING", 14, 1, 15⟩,
    ⟨.leftParen, "(", 24, 1, 25⟩, ⟨.identifier, "y", 25, 1, 26⟩, ⟨.rightParen, ")", 26, 1, 27⟩,
    ⟨.rightParen, ")", 27, 1, 28⟩, ⟨.rightParen, ")", 28, 1, 29⟩,
    ⟨.keyword .returnWord, "RETURN", 30, 1, 31⟩, ⟨.number, "1", 37, 1, 38⟩,
    ⟨.keyword .elseWord, "ELSE", 39, 1, 40⟩, ⟨.keyword .returnWord, "RETURN", 44, 1, 45⟩,
    ⟨.number, "0", 51, 1, 52⟩]

/-- The program that `nestedTokens` write. -/
def nestedProgram : Program where
  clauses :=
    [⟨⟨.keyword .ifWord, "IF", 0, 1, 1⟩,
      .group (.join (.known .or) (.compare "x" (.known .gt) 5) (.missing "y")),
      ⟨⟨.keyword .returnWord, "RETURN", 30, 1, 31⟩, ⟨.number, "1", 37, 1, 38⟩⟩⟩]
  otherwise :=
    ⟨⟨.keyword .elseWord, "ELSE", 39, 1, 40⟩,
      ⟨⟨.keyword .returnWord, "RETURN", 44, 1, 45⟩, ⟨.number, "0", 51, 1, 52⟩⟩⟩

theorem exists_derivation_nestedProgram :
  (∀ t ∈ nestedTokens, t.Readable)
    ∧ ∃ d : Derivation, d.tokens = nestedTokens ∧ d.program = nestedProgram
  := by
  have h : ∀ t ∈ nestedTokens, t.Readable := by decide
  have hprogram : Program.ofTokens nestedTokens = .ok nestedProgram := by rfl
  exact ⟨h, ((ofTokens_iff_derivation h).1 nestedProgram).mp hprogram⟩

end Verdict.Grammar
