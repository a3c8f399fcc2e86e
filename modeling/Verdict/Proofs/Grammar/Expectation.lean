import Verdict.Failure

/-!
# What an expectation names

What may stand at the place of a token that does not fit is told in words. The text lists its
alternatives, with commas and the word `or` between them; where a list stands between parentheses
at the end of the text, only what is listed there counts. `alternatives` reads such a text. Each
alternative in the text of an expectation is the phrase of a kind of token, `Token.Kind.phrase`, or
it is the end of the input.
-/

namespace Verdict

/-! ### Texts with lists -/

namespace Text

/-- The pieces of a text between separators; the first `skip` characters end a separator that has
begun. -/
def pieces (separator : List Char) : (skip : Nat) → List Char → List (List Char)
  | _, [] => [[]]
  | skip + 1, _ :: s => pieces separator skip s
  | 0, c :: s =>
    if separator.isPrefixOf (c :: s) then [] :: pieces separator (separator.length - 1) s
    else (pieces separator 0 s).modifyHead (c :: ·)

/-- What stands between parentheses at the end of a text, or else the text. -/
def listed (s : List Char) : List Char :=
  match pieces " (".toList 0 s with
  | [_, inner] => if inner.getLast? = some ')' then inner.dropLast else s
  | _ => s

/-- The alternatives that a text lists. -/
def alternatives (text : String) : List String :=
  ((pieces " or ".toList 0 (listed text.toList)).flatMap (pieces ", ".toList 0)).map String.ofList

end Text

/-! ### Kinds of token in words -/

namespace Token.Kind

/-- The phrase for a kind of token. -/
def phrase : Token.Kind → String
  | .leftParen => "'('"
  | .rightParen => "')'"
  | .relation r => r.text
  | .connective c => c.text
  | .keyword k => k.text
  | .isMissing => "IS-MISSING"
  | .number => "integer literal"
  | .identifier => "identifier"

/-- A phrase stands for one kind only. -/
theorem phrase_injective :
  Function.Injective phrase
  := by
  have h : ∀ k ∈ all, ∀ k' ∈ all, k.phrase = k'.phrase → k = k' := by decide
  intro k k' hphrase
  apply h k k.mem_all k' k'.mem_all hphrase

end Token.Kind

namespace Expected

/-- The kinds of token that an expectation names. -/
def kinds : Expected → List Token.Kind
  | .kind k => [k]
  | .ifOrElse => [.keyword .ifWord, .keyword .elseWord]
  | .operand => [.identifier, .isMissing, .leftParen]
  | .relation =>
    [.relation .gt, .relation .ge, .relation .lt, .relation .le, .relation .eq]
  | .endOfInput => []

/-- The text of an expectation lists the phrases of its kinds. A single relation is the exception,
for its text is the name of its kind. -/
theorem alternatives_text {e : Expected} (hrelation : ∀ r, e ≠ .kind (.relation r))
    (hend : e ≠ .endOfInput) :
  Text.alternatives e.text = e.kinds.map Token.Kind.phrase
  := by
  cases e with
  | kind k =>
    cases k with
    | relation r => exact absurd rfl (hrelation r)
    | connective c => cases c <;> rfl
    | keyword k => cases k <;> rfl
    | _ => rfl
  | endOfInput => exact absurd rfl hend
  | _ => rfl

example : Text.alternatives operand.text = ["identifier", "IS-MISSING", "'('"] := rfl

theorem alternatives_endOfInput :
  Text.alternatives endOfInput.text = [endOfInput.text]
  := rfl

end Expected

end Verdict
