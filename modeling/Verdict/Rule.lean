import Verdict.Environment.Assignments
import Verdict.Evaluation.Basic
import Verdict.Program.Parser

/-!
# Rules

A rule is a text that writes a program. `Rule.program` reads the program with its groups,
`Rule.canonical` removes them, and `Rule.evaluate` evaluates the program in an environment.
-/

namespace Verdict.Rule

/-- The tokens of a rule. -/
def tokens (text : String) : Except Failure (List Token) :=
  (Token.scan text).mapError fun stuck => Fault.lexical stuck

/-- The program that a rule writes, with its groups. -/
def program (text : String) : Except Failure Program :=
  (tokens text).bind Program.ofTokens

/-- The program that a rule writes, without groups. -/
def canonical (text : String) : Except Failure Program :=
  (program text).bind Program.reduce

/-- The value of a rule in an environment that may have failed to be formed. The rule is read
first, so its faults prevail. -/
def evaluateIn (text : String) (env : Except Failure Environment) : Run Decision :=
  (Run.ofExcept (program text)).bind fun p =>
    (Run.ofExcept env).bind fun env => p.evaluate env

/-- The value of a rule. -/
def evaluate (text : String) (env : Environment) : Run Decision :=
  evaluateIn text (.ok env)

end Verdict.Rule
