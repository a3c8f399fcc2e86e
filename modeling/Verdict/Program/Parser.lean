import Verdict.Program.Basic

/-!
# From tokens to a program

A program consists of one or more clauses `IF ( cond ) RETURN number` and a last clause
`ELSE RETURN number`. A `cond` is an operand, possibly followed by a connective and another
`cond`, so that a connective reaches over all that stands to its right. An operand is a
comparison, a test for a missing value, or a `cond` between parentheses, which is a group.

The tokens are read one by one. `Parser.State` is what has been read of a program so far:
finished clauses and a stage within the next one, in which the open parentheses form a stack
of chains of operands. A token either fits and gives the next state, or it does not, and
`Parser.State.expected` tells what would.
-/

namespace Verdict

namespace Parser

/-- The operands of a chain that have been read, with the connectives behind them, the last
one first. -/
abbrev Chain := List (Condition × Connective)

/-- The condition of a chain that ends with the given operand. -/
def Chain.close (chain : Chain) (last : Condition) : Condition :=
  chain.foldl (fun right p => .join (.known p.2) p.1 right) last

/-- The chain within the innermost open parenthesis, and the chains around it from the inside
to the outside. The outermost parenthesis belongs to the clause. -/
structure Stack where
  top : Chain
  below : List Chain

/-- A place within a condition. -/
inductive Spot where
  /-- An operand begins. -/
  | operand
  /-- The name of a comparison has been read. -/
  | name (name : String)
  /-- The name and the relation of a comparison have been read. -/
  | relation (name : String) (r : Relation)
  /-- The first word of a test for a missing value has been read. -/
  | missing
  /-- The parenthesis of such a test has been read. -/
  | missingParen
  /-- The name of such a test has been read. -/
  | missingName (name : String)
  /-- An operand has been read. -/
  | closed (e : Condition)

/-- A place within a clause. -/
inductive Stage where
  /-- A clause begins. -/
  | clause
  /-- The first keyword has been read. -/
  | opening (keyword : Token)
  /-- The condition has been read in part. -/
  | condition (keyword : Token) (stack : Stack) (spot : Spot)
  /-- The condition has been read. -/
  | result (keyword : Token) (e : Condition)
  /-- The second keyword has been read. -/
  | value (keyword : Token) (e : Condition) (returns : Token)
  /-- The keyword of the last clause has been read. -/
  | lastResult (keyword : Token)
  /-- Both keywords of the last clause have been read. -/
  | lastValue (keyword returns : Token)
  /-- The program is complete. -/
  | done (otherwise : Otherwise)

/-- What has been read of a program: its finished clauses, the last one first, and a place
within the next one. -/
structure State where
  clauses : List Clause
  stage : Stage

namespace State

/-- Nothing has been read. -/
def start : State := ⟨[], .clause⟩

/-- What may come next within a condition; where a connective may come, the parenthesis that
ends the condition is named. -/
def spotExpected : Spot → Expected
  | .operand => .operand
  | .name _ => .relation
  | .relation .. => .kind .number
  | .missing => .kind .leftParen
  | .missingParen => .kind .identifier
  | .missingName _ => .kind .rightParen
  | .closed _ => .kind .rightParen

/-- What may come next. -/
def expected (s : State) : Expected :=
  match s.stage with
  | .clause => if s.clauses.isEmpty then .kind (.keyword .ifWord) else .ifOrElse
  | .opening _ => .kind .leftParen
  | .condition _ _ spot => spotExpected spot
  | .result .. => .kind (.keyword .returnWord)
  | .value .. => .kind .number
  | .lastResult _ => .kind (.keyword .returnWord)
  | .lastValue .. => .kind .number
  | .done _ => .endOfInput

/-- The failure at a token that does not fit. -/
def misfit (s : State) (t : Token) : Failure :=
  Fault.misplaced t.offset s.expected (some t.text)

/-- The comparison with the integer that a token writes, which must not be negative. -/
def compared (name : String) (r : Relation) (t : Token) : Except Failure Condition :=
  match Integer.read t.text with
  | .error f => .error (.integer f)
  | .ok n => if 0 ≤ n then .ok (.compare name (.known r) n) else .error .invalid

/-- The stage after an operand and the parenthesis that follows it. -/
def closeParen (keyword : Token) (stack : Stack) (e : Condition) : Stage :=
  match stack.below with
  | [] => .result keyword (stack.top.close e)
  | chain :: below => .condition keyword ⟨chain, below⟩ (.closed (.group (stack.top.close e)))

/-- The stage after a token within a condition, or `none` when the token does not fit. -/
def stepCondition (keyword : Token) (stack : Stack) (spot : Spot) (t : Token) :
    Option (Except Failure Stage) :=
  match spot, t.kind with
  | .operand, .leftParen =>
    some (.ok (.condition keyword ⟨[], stack.top :: stack.below⟩ .operand))
  | .operand, .identifier => some (.ok (.condition keyword stack (.name t.text)))
  | .operand, .isMissing => some (.ok (.condition keyword stack .missing))
  | .name x, .relation r => some (.ok (.condition keyword stack (.relation x r)))
  | .relation x r, .number =>
    some ((compared x r t).map fun e => .condition keyword stack (.closed e))
  | .missing, .leftParen => some (.ok (.condition keyword stack .missingParen))
  | .missingParen, .identifier => some (.ok (.condition keyword stack (.missingName t.text)))
  | .missingName x, .rightParen =>
    some (.ok (.condition keyword stack (.closed (.missing x))))
  | .closed e, .connective c =>
    some (.ok (.condition keyword ⟨(e, c) :: stack.top, stack.below⟩ .operand))
  | .closed e, .rightParen => some (.ok (closeParen keyword stack e))
  | _, _ => none

/-- The state after a token. -/
def step (s : State) (t : Token) : Except Failure State :=
  match s.stage, t.kind with
  | .clause, .keyword .ifWord => .ok ⟨s.clauses, .opening t⟩
  | .clause, .keyword .elseWord =>
    if s.clauses.isEmpty then .error (s.misfit t) else .ok ⟨s.clauses, .lastResult t⟩
  | .opening keyword, .leftParen => .ok ⟨s.clauses, .condition keyword ⟨[], []⟩ .operand⟩
  | .condition keyword stack spot, _ =>
    match stepCondition keyword stack spot t with
    | none => .error (s.misfit t)
    | some stage => stage.map fun stage => ⟨s.clauses, stage⟩
  | .result keyword e, .keyword .returnWord => .ok ⟨s.clauses, .value keyword e t⟩
  | .value keyword e returns, .number =>
    .ok ⟨⟨keyword, e, ⟨returns, t⟩⟩ :: s.clauses, .clause⟩
  | .lastResult keyword, .keyword .returnWord => .ok ⟨s.clauses, .lastValue keyword t⟩
  | .lastValue keyword returns, .number => .ok ⟨s.clauses, .done ⟨keyword, ⟨returns, t⟩⟩⟩
  | _, _ => .error (s.misfit t)

/-- The program that has been read when no token is left; `position` is the end of the last
one. -/
def finish (s : State) (position : Int) : Except Failure Program :=
  match s.stage with
  | .done otherwise => .ok ⟨s.clauses.reverse, otherwise⟩
  | _ => .error (Fault.misplaced position s.expected none)

end State

end Parser

/-- The offset just behind the last of some tokens. -/
def Token.endOfAll (ts : List Token) : Int :=
  match ts.getLast? with
  | some t => t.endOffset
  | none => 0

/-- The program that tokens write. -/
def Program.ofTokens (ts : List Token) : Except Failure Program :=
  match ts.foldlM Parser.State.step Parser.State.start with
  | .error f => .error f
  | .ok s => s.finish (Token.endOfAll ts)

end Verdict
