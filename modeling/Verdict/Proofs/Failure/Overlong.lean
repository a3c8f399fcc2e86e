import Verdict.Proofs.Environment.Assignments
import Verdict.Proofs.Evaluation.Absence
import Verdict.Proofs.Token.Spelling

/-!
# Numerals that are too long

A numeral with more than `Integer.maxDigits` digits is a number to the scanner and to the grammar,
and cannot be read. Where a comparison has such a numeral, reading the rule fails; where a clause
returns one, its evaluation fails in every environment; and a list of assignments fails where a
value is one. None of these failures is a fault.
-/

namespace Verdict

open Token Verdict.Parser

variable {digits : String}

/-! ### In a comparison -/

/-- The rule that compares with a numeral. -/
def comparingRule (digits : String) : String :=
  "IF (x > " ++ digits ++ ") RETURN 1 ELSE RETURN 0"

/-- The lexemes of `comparingRule`. -/
def comparingSpellings (digits : String) : List Spelling :=
  [(.keyword .ifWord, "IF"), (.leftParen, "("), (.identifier, "x"), (.relation .gt, ">"),
    (.number, digits), (.rightParen, ")"), (.keyword .returnWord, "RETURN"), (.number, "1"),
    (.keyword .elseWord, "ELSE"), (.keyword .returnWord, "RETURN"), (.number, "0")]

theorem spelled_comparingRule (h : IsNumeral digits.toList) :
  Spelled (comparingRule digits).toList (comparingSpellings digits)
  := by
  have hnumeral : ∀ w : String, IsNumeral w.toList → Kind.number.Lexeme w.toList := fun _ => id
  have hname : Kind.identifier.Lexeme "x".toList := ⟨by decide, by decide⟩
  have hzero : Spelled ("0".toList ++ []) [(.number, "0")] :=
    Spelled.nil.cons (hnumeral "0" (by decide)) (by simp [Boundary])
  have helse : Spelled ("ELSE RETURN 0").toList
      [(.keyword .elseWord, "ELSE"), (.keyword .returnWord, "RETURN"), (.number, "0")] :=
    Spelled.cons_space (w := "ELSE") rfl (Spelled.cons_space (w := "RETURN") rfl hzero)
  have hreturn : Spelled (" RETURN 1 ELSE RETURN 0").toList
      ((.keyword .returnWord, "RETURN") :: (.number, "1") ::
        [(.keyword .elseWord, "ELSE"), (.keyword .returnWord, "RETURN"), (.number, "0")]) :=
    .blank rfl (Spelled.cons_space (w := "RETURN") rfl
      (Spelled.cons_space (hnumeral "1" (by decide)) helse))
  have hdigits := hreturn.rightParen.cons (hnumeral digits h) (.cons (by decide) _)
  have hsign := hdigits.cons_space (k := .relation .gt) (w := ">") rfl
  have hif := (hsign.cons_space hname).leftParen.cons_space (k := .keyword .ifWord) (w := "IF") rfl
  simpa [comparingRule, comparingSpellings] using hif

/-- Reading a rule fails at a comparison with a numeral that is too long. -/
theorem canonical_comparingRule (h : IsNumeral digits.toList)
    (hlong : Integer.maxDigits < digits.length) :
  Rule.canonical (comparingRule digits) = .error (.integer (.tooLong digits.length))
  := by
  obtain ⟨ts, htokens, hts⟩ := (spelled_comparingRule h).exists_tokens
  rw [comparingSpellings] at hts
  obtain ⟨k, ts, rfl, hk, hts⟩ := List.map_eq_cons_iff.mp hts
  obtain ⟨l, ts, rfl, hl, hts⟩ := List.map_eq_cons_iff.mp hts
  obtain ⟨x, ts, rfl, hx, hts⟩ := List.map_eq_cons_iff.mp hts
  obtain ⟨r, ts, rfl, hr, hts⟩ := List.map_eq_cons_iff.mp hts
  obtain ⟨n, ts, rfl, hn, -⟩ := List.map_eq_cons_iff.mp hts
  obtain ⟨hkind, htext⟩ := eq_of_spelling hn
  have hstep : State.step ⟨[], .condition k ⟨[], []⟩ (.relation x.text .gt)⟩ n =
      .error (.integer (.tooLong digits.length)) := by
    have hnumeral : n.HasNumeral := by
      apply hasNumeral_of_tokens htokens
      simp
    rw [← htext] at hlong ⊢
    simp [State.step, State.stepCondition, hkind, compared_of_hasNumeral hkind hnumeral, hlong,
      Except.map]
  have hrun : State.start.run (k :: l :: x :: r :: n :: ts) =
      .error (.integer (.tooLong digits.length)) := by
    rw [State.start, (Transition.clause (eq_of_spelling hk).1).run_cons,
      (Transition.condition (eq_of_spelling hl).1).run_cons,
      (Transition.name (eq_of_spelling hx).1).run_cons,
      (Transition.relation (eq_of_spelling hr).1).run_cons, State.run_cons_of_error hstep]
  have hprogram : Rule.program (comparingRule digits) =
      .error (.integer (.tooLong digits.length)) := by
    rw [Rule.program, htokens]
    change Program.ofTokens _ = _
    rw [ofTokens_eq, hrun]
    rfl
  rw [Rule.canonical, hprogram]
  rfl

/-- The comparison with a numeral that has one digit more than can be read. -/
theorem canonical_comparingRule_ones :
  Rule.canonical (comparingRule (String.ofList (List.replicate 4301 '1'))) =
    .error (.integer (.tooLong 4301))
  := by
  have hlength : (String.ofList (List.replicate 4301 '1')).length = 4301 := by
    rw [String.length_ofList, List.length_replicate]
  have hnumeral : IsNumeral (String.ofList (List.replicate 4301 '1')).toList := by
    rw [String.toList_ofList]
    constructor
    · rw [Ne, ← List.length_eq_zero_iff, List.length_replicate]
      decide
    · intro c hc
      obtain rfl := List.eq_of_mem_replicate hc
      rfl
  have hlong : Integer.maxDigits < (String.ofList (List.replicate 4301 '1')).length := by
    rw [hlength]
    decide
  rw [canonical_comparingRule hnumeral hlong, hlength]

/-! ### In an assignment -/

theorem isAmount_of_isNumeral {s : List Char} (h : IsNumeral s) :
  Environment.isAmount s = true
  := by
  have hdigits : ∀ c ∈ s, Text.isDigit c = true := fun c hc => isDigit_of_isNumeral (h.2 c hc)
  have hsplit : Integer.splitSign s = (false, s) := by
    unfold Integer.splitSign
    split
    · cases h.2 '-' List.mem_cons_self
    · cases h.2 '+' List.mem_cons_self
    · rfl
  rw [Environment.isAmount, hsplit]
  simp only [List.takeWhile_eq_self_iff.mpr hdigits, List.dropWhile_eq_nil_iff.mpr hdigits]
  simpa using h.1

/-- A value that is a numeral too long cannot be read. -/
theorem readValue_overlong (h : IsNumeral digits.toList)
    (hlong : Integer.maxDigits < digits.length) (piece : String) :
  Environment.readValue piece digits.toList = .error (.integer (.tooLong digits.length))
  := by
  have hne : ¬ digits.toList.isEmpty := by
    rw [List.isEmpty_iff]
    exact h.1
  have hpoint : ¬ digits.toList.contains '.' := by
    rw [List.contains_iff_mem]
    intro hmem
    cases h.2 '.' hmem
  rw [Environment.readValue, if_neg hne, isAmount_of_isNumeral h, if_neg (by decide),
    if_neg hpoint, String.ofList_toList, Integer.read_numeral h, if_pos hlong]

/-- A list of assignments is refused at a value that is too long. -/
theorem ofAssignments_overlong (h : IsNumeral digits.toList)
    (hlong : Integer.maxDigits < digits.length) :
  Environment.ofAssignments ("x=" ++ digits) = .error (.integer (.tooLong digits.length))
  := by
  have hseparator : ∀ c ∈ 'x' :: '=' :: digits.toList, Environment.isSeparator c = false := by
    simp only [List.forall_mem_cons]
    refine ⟨rfl, rfl, fun c hc => ?_⟩
    apply Environment.isSeparator_eq_false_of_class (h.2 c hc) ⟨rfl, rfl⟩
  have hcompact : Text.removeBlanks ('x' :: '=' :: digits.toList) =
      'x' :: '=' :: digits.toList := by
    rw [Text.removeBlanks, List.filter_eq_self]
    simp only [List.forall_mem_cons]
    refine ⟨rfl, rfl, fun c hc => ?_⟩
    rw [isBlank_of_isNumeral (h.2 c hc), Bool.not_false]
  have hpieces : Environment.pieces ("x=" ++ digits) = ['x' :: '=' :: digits.toList] := by
    rw [Environment.pieces, String.toList_append]
    apply List.splitOnP_eq_singleton hseparator
  have hread : Environment.readPiece ('x' :: '=' :: digits.toList) =
      .error (.integer (.tooLong digits.length)) := by
    have hname : ('x' :: '=' :: digits.toList).takeWhile (· != '=') = ['x'] := rfl
    have hvalue : ('x' :: '=' :: digits.toList).dropWhile (· != '=') = '=' :: digits.toList := rfl
    simp only [Environment.readPiece, hcompact, hname, hvalue, readValue_overlong h hlong]
    rfl
  rw [Environment.ofAssignments, hpieces, List.foldlM_cons, Environment.assignPiece, hread]
  rfl

/-! ### In a number to return -/

/-- A rule whose first number to return is too long fails in every environment: the number is read
before the condition is evaluated. -/
theorem evaluate_overlong {text : String} {q : Program} (h : Rule.canonical text = .ok q)
    {c : Clause} {cs : List Clause} (hclauses : q.clauses = c :: cs)
    (hlong : Integer.maxDigits < c.result.value.text.length) (env : Environment) :
  (Rule.evaluate text env).result = .error (.integer (.tooLong c.result.value.text.length))
  := by
  have hc : c.Canonical := by
    apply (Grammar.canonical_of_rule h).clauses
    rw [hclauses]
    apply List.mem_cons_self
  have hvalue : clauseValue .ifWord c.keyword c.result =
      .error (.integer (.tooLong c.result.value.text.length)) := by
    rw [hc.result.clauseValue_eq hc.keyword, hc.result.number_eq, if_pos hlong]
    rfl
  obtain ⟨p, hprogram, hreduce⟩ := Grammar.exists_program_of_canonical h
  rw [Rule.evaluate_of_program hprogram, Program.evaluate_of_reduce hreduce, hclauses,
    evaluateClauses, Clause.evaluate, hvalue]
  rfl

end Verdict
