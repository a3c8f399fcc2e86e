import Verdict.Program.Parser

/-!
# Chains as two lists

A level of parentheses can also be collected in two lists, one of its operands and one of the
connectives between them, in the order in which they are read. At the end of the level the lists are
folded from the right: the last operand is joined with the one in front of it by the last
connective, the result with the next operand by the next connective, and so on. `Parser.Chain` keeps
each operand together with the connective behind it, and `Parser.Chain.close` gives the same
condition.
-/

namespace Verdict.Parser

/-- The operands and the connectives of a level of parentheses. -/
structure Frame where
  operands : List Condition
  connectives : List Connective

namespace Frame

/-- The frame of a level that begins. -/
def empty : Frame := ⟨[], []⟩

/-- The frame with one more operand. -/
def addOperand (f : Frame) (e : Condition) : Frame :=
  { f with operands := f.operands ++ [e] }

/-- The frame with one more connective. -/
def addConnective (f : Frame) (c : Connective) : Frame :=
  { f with connectives := f.connectives ++ [c] }

/-- The condition of a level, which must have an operand. -/
def fold? (f : Frame) : Option Condition :=
  f.operands.getLast?.map fun last =>
    (f.connectives.reverse.zip f.operands.dropLast.reverse).foldl
      (fun node p => .join (.known p.1) p.2 node) last

/-- The frame of a chain. -/
def ofChain (chain : Chain) : Frame :=
  ⟨chain.reverse.map (·.1), chain.reverse.map (·.2)⟩

theorem ofChain_nil :
  ofChain [] = empty
  := rfl

/-- An operand and the connective behind it are added one after the other. -/
theorem ofChain_cons (e : Condition) (c : Connective) (chain : Chain) :
  ofChain ((e, c) :: chain) = ((ofChain chain).addOperand e).addConnective c
  := by
  simp [ofChain, addOperand, addConnective]

/-- With a last operand, the two lists fold to the condition of the chain. -/
theorem fold?_addOperand (chain : Chain) (e : Condition) :
  ((ofChain chain).addOperand e).fold? = some (chain.close e)
  := by
  have hzip : (chain.map (·.2)).zip (chain.map (·.1)) = chain.map fun p => (p.2, p.1) := by
    rw [List.zip_map']
  rw [fold?, addOperand, ofChain]
  simp only [List.getLast?_append, List.getLast?_singleton, Option.some_or, Option.map_some,
    List.dropLast_concat, ← List.map_reverse, List.reverse_reverse, hzip, List.foldl_map]
  rfl

example :
  (mk [.missing "a", .missing "b", .missing "c"] [.and, .or]).fold? =
    some (.join (.known .and) (.missing "a")
      (.join (.known .or) (.missing "b") (.missing "c")))
  := rfl

end Frame

/-- A parenthesis closes the innermost level, whose condition is folded. If there is a level around
it, the condition is a group and the next operand of that level, and otherwise it is the condition
of the clause. -/
theorem State.closeParen_eq_fold (keyword : Token) (stack : Stack) (e : Condition) :
  ∃ node, ((Frame.ofChain stack.top).addOperand e).fold? = some node
    ∧ State.closeParen keyword stack e =
      match stack.below with
      | [] => .result keyword node
      | chain :: below => .condition keyword ⟨chain, below⟩ (.closed (.group node))
  := ⟨_, Frame.fold?_addOperand stack.top e, rfl⟩

end Verdict.Parser
