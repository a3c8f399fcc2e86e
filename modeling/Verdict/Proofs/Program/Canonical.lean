import Mathlib.Algebra.Group.Int.Defs
import Mathlib.Tactic.Use
import Verdict.Number.Integer
import Verdict.Program.Basic
import Verdict.Proofs.Token.Lexeme

/-!
# Canonical programs

A canonical condition has no groups, its operators are known, its names are words that are not
reserved, and its integers are not negative and have few enough digits to be read. A program is
canonical if its conditions are, and its tokens are the keywords and numerals that stand in their
places. Everything that can be wrong with a program put together by hand is ruled out.
-/

namespace Verdict

/-- The text may name a variable in a rule: it is a word, and not a reserved one. -/
def IsName (x : String) : Prop :=
  isWord x.toList = true ∧ x.toList ∉ Token.reservedWords

/-- The number has a numeral that can be read. -/
def IsLiteral (n : Int) : Prop :=
  0 ≤ n ∧ n < 10 ^ Integer.maxDigits

instance (x : String) : Decidable (IsName x) :=
  inferInstanceAs (Decidable (_ ∧ _))

theorem isLiteral_natCast_iff {n : Nat} :
  IsLiteral n ↔ n < 10 ^ Integer.maxDigits
  := by
  rw [← Int.ofNat_lt, Int.natCast_pow]
  exact and_iff_right (Int.natCast_nonneg n)

/-- The bound is a number too large to compute with, the number of digits is not. -/
theorem isLiteral_iff {n : Int} :
  IsLiteral n ↔ 0 ≤ n ∧ (Nat.toDigits 10 n.toNat).length ≤ Integer.maxDigits
  := by
  rw [Nat.length_toDigits_le_iff (by decide) (by decide), ← isLiteral_natCast_iff]
  constructor
  · intro h
    rw [Int.toNat_of_nonneg h.1]
    exact ⟨h.1, h⟩
  · rintro ⟨hn, h⟩
    rwa [Int.toNat_of_nonneg hn] at h

instance (n : Int) : Decidable (IsLiteral n) :=
  decidable_of_iff _ isLiteral_iff.symm

namespace Condition

/-- The condition is canonical. -/
def Canonical : Condition → Prop
  | .compare name op literal => IsName name ∧ op.isKnown = true ∧ IsLiteral literal
  | .missing name => IsName name
  | .join op left right => op.isKnown = true ∧ left.Canonical ∧ right.Canonical
  | .group _ => False
  | .alien _ => False

instance decidableCanonical : (e : Condition) → Decidable e.Canonical
  | .compare _ _ _ => inferInstanceAs (Decidable (_ ∧ _ ∧ _))
  | .missing name => inferInstanceAs (Decidable (IsName name))
  | .join _ left right =>
    have := decidableCanonical left
    have := decidableCanonical right
    inferInstanceAs (Decidable (_ ∧ _ ∧ _))
  | .group _ => inferInstanceAs (Decidable False)
  | .alien _ => inferInstanceAs (Decidable False)

theorem Canonical.wellFormed {e : Condition} (h : e.Canonical) :
  e.WellFormed
  := by
  induction e with
  | compare name op literal => exact ⟨h.2.1, h.2.2.1⟩
  | missing name => exact trivial
  | join op left right ihleft ihright => exact ⟨h.1, ihleft h.2.1, ihright h.2.2⟩
  | group inner => exact h.elim
  | alien typeName => exact h.elim

theorem Canonical.groupFree {e : Condition} (h : e.Canonical) :
  e.GroupFree
  := by
  induction e with
  | join op left right ihleft ihright => exact ⟨ihleft h.2.1, ihright h.2.2⟩
  | group inner => exact h.elim
  | _ => exact trivial

end Condition

/-- The token is one of the given kind, and has a lexeme of it. -/
structure Token.Writes (t : Token) (k : Token.Kind) : Prop where
  kind_eq : t.kind = k
  lexeme : k.Lexeme t.text.toList

/-- The keyword and the numeral of a number to return are in their places. -/
structure Return.Canonical (r : Return) : Prop where
  keyword : r.keyword.Writes (.keyword .returnWord)
  value : r.value.Writes .number

/-- The number to return is the one that its numeral writes, unless that is too long. -/
theorem Return.Canonical.number_eq {r : Return} (h : r.Canonical) :
  r.number =
    if Integer.maxDigits < r.value.text.length then
      .error (.tooLong r.value.text.length)
    else
      .ok (Text.ofDigitChars r.value.text.toList)
  := Integer.read_numeral h.value.lexeme

/-- The condition is canonical, and the keywords and the numeral are in their places. -/
structure Clause.Canonical (c : Clause) : Prop where
  keyword : c.keyword.Writes (.keyword .ifWord)
  condition : c.condition.Canonical
  result : c.result.Canonical

/-- The keywords and the numeral are in their places. -/
structure Otherwise.Canonical (o : Otherwise) : Prop where
  keyword : o.keyword.Writes (.keyword .elseWord)
  result : o.result.Canonical

/-- There are clauses, and all parts of the program are canonical. -/
structure Program.Canonical (p : Program) : Prop where
  nonempty : p.clauses ≠ []
  clauses : ∀ c ∈ p.clauses, c.Canonical
  otherwise : p.otherwise.Canonical

/-- The numbers to return, as they are written. -/
def Program.returns (p : Program) : List Return :=
  p.clauses.map (·.result) ++ [p.otherwise.result]

theorem Program.forall_mem_returns {p : Program} {P : Return → Prop} :
  (∀ r ∈ p.returns, P r) ↔ (∀ c ∈ p.clauses, P c.result) ∧ P p.otherwise.result
  := by
  rw [returns, List.forall_mem_append, List.forall_mem_map, List.forall_mem_singleton]

theorem Program.Canonical.returns {p : Program} (h : p.Canonical) :
  ∀ r ∈ p.returns, r.Canonical
  := Program.forall_mem_returns.mpr ⟨fun c hc => (h.clauses c hc).result, h.otherwise.result⟩

end Verdict
