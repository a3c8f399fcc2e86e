import Verdict.Environment.History
import Verdict.Json.Writer
import Verdict.Main
import Verdict.Proofs.Condition.Depth
import Verdict.Proofs.Condition.Groups
import Verdict.Proofs.Condition.Malformed
import Verdict.Proofs.Condition.Nodes
import Verdict.Proofs.Condition.Walk
import Verdict.Proofs.Console.Agreement
import Verdict.Proofs.Console.Drawing
import Verdict.Proofs.Console.Endings
import Verdict.Proofs.Console.Labels
import Verdict.Proofs.Console.Legibility
import Verdict.Proofs.Console.Options
import Verdict.Proofs.Environment.Assignments
import Verdict.Proofs.Environment.Binding
import Verdict.Proofs.Environment.Format
import Verdict.Proofs.Environment.History
import Verdict.Proofs.Environment.Listing
import Verdict.Proofs.Environment.Merging
import Verdict.Proofs.Environment.Naming
import Verdict.Proofs.Environment.Writing
import Verdict.Proofs.Evaluation.Absence
import Verdict.Proofs.Evaluation.Comparison
import Verdict.Proofs.Evaluation.FirstFault
import Verdict.Proofs.Evaluation.Guards
import Verdict.Proofs.Evaluation.Layout
import Verdict.Proofs.Evaluation.Lookups
import Verdict.Proofs.Evaluation.Loop
import Verdict.Proofs.Evaluation.Outcomes
import Verdict.Proofs.Evaluation.Regrouping
import Verdict.Proofs.Evaluation.Representation
import Verdict.Proofs.Evaluation.Selection
import Verdict.Proofs.Evaluation.SourceOrder
import Verdict.Proofs.Evaluation.Visits
import Verdict.Proofs.Evaluation.Writing
import Verdict.Proofs.Failure.Causes
import Verdict.Proofs.Failure.Overlong
import Verdict.Proofs.Failure.Printable
import Verdict.Proofs.Failure.Rule
import Verdict.Proofs.Grammar.Acceptance
import Verdict.Proofs.Grammar.Derivation
import Verdict.Proofs.Grammar.Expectation
import Verdict.Proofs.Grammar.Frames
import Verdict.Proofs.Grammar.Lockstep
import Verdict.Proofs.Grammar.Parentheses
import Verdict.Proofs.Grammar.Parsing
import Verdict.Proofs.Grammar.Transition
import Verdict.Proofs.Grammar.ViablePrefix
import Verdict.Proofs.Number.Numeral
import Verdict.Proofs.Number.Position
import Verdict.Proofs.Number.Rounding
import Verdict.Proofs.Number.Writing
import Verdict.Proofs.Program.Canonical
import Verdict.Proofs.Program.Correspondence
import Verdict.Proofs.Program.Reduction
import Verdict.Proofs.Program.Rendering
import Verdict.Proofs.Program.Unparsing
import Verdict.Proofs.Service.Answers
import Verdict.Proofs.Service.DepthGate
import Verdict.Proofs.Service.Reading
import Verdict.Proofs.Service.Surrogates
import Verdict.Proofs.Token.Composition
import Verdict.Proofs.Token.Course
import Verdict.Proofs.Token.Lexeme
import Verdict.Proofs.Token.Placement
import Verdict.Proofs.Token.Segmentation
import Verdict.Proofs.Token.Spelling
import Verdict.Proofs.Token.Stuck
import Verdict.Proofs.Token.Sweep
import Verdict.Service.Basic
