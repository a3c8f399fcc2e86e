import Verdict.Proofs.Environment.Listing
import Verdict.Proofs.Environment.History
import Verdict.Proofs.Evaluation.Lookups
import Verdict.Proofs.Program.Rendering

/-!
# Names in rules and in assignments

The names of a list of assignments and those of a rule are read in different ways: one is cut off at
an equals sign and tested as a whole, the other is cut off by the scanner, which knows reserved
words and the test for a missing value. Both take the same texts, the words. A word that is not
reserved can be mentioned by a rule, and every other name that can be assigned a value is one of the
reserved words. -/

namespace Verdict

open Text

/-! ### Words as tokens -/

/-- The text is cut into one token, which is an identifier or a reserved word. -/
def Token.IsSoleWord (s : String) : Prop :=
  ∃ t, Rule.tokens s = .ok [t] ∧ t.text = s
    ∧ (t.kind = .identifier ∨ s.toList ∈ Token.reservedWords)

/-- A word is cut into itself. -/
theorem Token.exists_tokens_of_isWord {s : String} (h : isWord s.toList = true) :
  ∃ t, Rule.tokens s = .ok [t] ∧ t.text = s ∧ t.kind = Token.wordKind s.toList
  := by
  have hcut : Token.Cut (Token.wordKind s.toList) s.toList [] := .word h (by simp)
  have hspelled := Token.Spelled.lexeme hcut .nil
  rw [List.append_nil] at hspelled
  obtain ⟨ts, htokens, hts⟩ := hspelled.exists_tokens
  obtain ⟨t, rfl, ht⟩ := List.map_eq_singleton_iff.mp hts
  obtain ⟨hkind, htext⟩ := Token.eq_of_spelling ht
  exact ⟨t, htokens, htext, hkind⟩

theorem Token.isSoleWord_iff {s : String} :
  Token.IsSoleWord s ↔ isWord s.toList = true
  := by
  constructor
  · rintro ⟨t, htokens, htext, hidentifier | hreserved⟩
    · have hlexeme := Token.lexeme_of_tokens htokens t (List.mem_singleton_self t)
      rw [hidentifier, htext] at hlexeme
      apply hlexeme.1
    · have hwords : ∀ w ∈ Token.reservedWords, isWord w = true := by decide
      apply hwords _ hreserved
  · intro h
    obtain ⟨t, htokens, htext, hkind⟩ := Token.exists_tokens_of_isWord h
    refine ⟨t, htokens, htext, ?_⟩
    by_cases hreserved : s.toList ∈ Token.reservedWords
    · right
      apply hreserved
    · left
      rw [hkind, Token.wordKind_of_not_reserved hreserved]

/-! ### Names that a rule can mention -/

/-- The names in a canonical condition are names. -/
theorem Condition.Canonical.isName {e : Condition} (h : e.Canonical) :
  ∀ x ∈ e.names, IsName x
  := by
  induction e with
  | compare name op literal =>
    rw [names, List.forall_mem_singleton]
    apply h.1
  | missing name =>
    rw [names, List.forall_mem_singleton]
    apply h
  | join op left right ihleft ihright =>
    rw [names, List.forall_mem_append]
    use ihleft h.2.1, ihright h.2.2
  | group inner => exact h.elim
  | alien typeName => exact h.elim

/-- An accepted rule has the name in one of its conditions. -/
def Rule.CanMention (x : String) : Prop :=
  ∃ text q, Rule.canonical text = .ok q ∧ x ∈ q.names

/-- The outline of a rule that asks nothing but whether the variable is missing. -/
def askingOutline (x : String) : Outline where
  clauses := [(.missing x, 1)]
  otherwise := 0

theorem askingOutline_canonical {x : String} (h : IsName x) :
  (askingOutline x).Canonical
  := by
  have hone : IsLiteral 1 := by decide
  have hzero : IsLiteral 0 := by decide
  refine ⟨by simp [askingOutline], ?_, hzero⟩
  rw [askingOutline, List.forall_mem_singleton]
  use h

/-- A rule can mention the words that are not reserved. -/
theorem Rule.canMention_iff {x : String} :
  Rule.CanMention x ↔ IsName x
  := by
  constructor
  · rintro ⟨text, q, hq, hx⟩
    obtain ⟨k, hk, hx⟩ := List.mem_flatMap.mp hx
    apply ((Grammar.canonical_of_rule hq).clauses k hk).condition.isName x hx
  · intro h
    have hgap : Token.IsGap "" := by decide
    have houtline := askingOutline_canonical h
    obtain ⟨q, hq, hsaid⟩ := houtline.exists_program (houtline.spelled hgap)
    use (askingOutline x).render "", q, hq
    obtain ⟨k, ks, hk, -, hclauses⟩ := List.forall₂_cons_right_iff.mp hsaid.clauses
    rw [Program.names, hclauses, List.flatMap_cons, hk.1]
    apply List.mem_append_left
    apply List.mem_singleton_self

/-! ### Names that can be assigned -/

namespace Environment

/-- The text is not empty, and neither white space nor a semicolon nor an equals sign stands in
it. -/
def IsPlain (s : String) : Prop :=
  s ≠ "" ∧ ∀ c ∈ s.toList, isBlank c = false ∧ c ≠ ';' ∧ c ≠ '='

instance (s : String) : Decidable (IsPlain s) :=
  have := List.decidableBAll (fun c => isBlank c = false ∧ c ≠ ';' ∧ c ≠ '=') s.toList
  inferInstanceAs (Decidable (s ≠ "" ∧ ∀ c ∈ s.toList, isBlank c = false ∧ c ≠ ';' ∧ c ≠ '='))

/-- The list that assigns the value 1 to the text. -/
def assignment (s : String) : String :=
  s ++ "=1"

theorem toList_assignment (s : String) :
  (assignment s).toList = s.toList ++ ['=', '1']
  := by simp [assignment]

/-- A word is bound, and nothing else is. -/
theorem ofAssignments_of_isWord {s : String} (h : isWord s.toList = true) :
  ofAssignments (assignment s) = .ok (empty.set s (some (.integer 1)))
  := by
  have hlistable : ∀ b ∈ [(s, some (.integer 1))], IsListable b := by
    rw [List.forall_mem_singleton]
    apply isListable_integer h
    decide
  have hlist : Lists [(s, some (.integer 1))] (assignment s).toList := by
    rw [toList_assignment]
    apply Lists.piece (.binding (.integer 1) (.refl _))
  apply hlist.foldlM_assignPiece hlistable

/-- Nothing is removed from the two ends of a text without white space. -/
theorem stripChars_eq_self {s : List Char} (h : ∀ c ∈ s, isBlank c = false) :
  stripChars s = s
  := by
  have hdrop : ∀ t : List Char, (∀ c ∈ t, isBlank c = false) → t.dropWhile isBlank = t := by
    intro t ht
    rw [List.dropWhile_eq_self_iff]
    intro hlength
    simp [ht t[0] (List.getElem_mem hlength)]
  have hreverse : ∀ c ∈ s.reverse, isBlank c = false := by simpa using h
  rw [stripChars, hdrop s h, hdrop s.reverse hreverse, List.reverse_reverse]

theorem IsPlain.isMark {s : String} (h : IsPlain s) :
  ∀ c ∈ s.toList ++ ['=', '1'], IsMark c
  := by
  rw [List.forall_mem_append]
  constructor
  · intro c hc
    obtain ⟨hblank, hsemicolon, -⟩ := h.2 c hc
    use hblank
    rw [← Bool.not_eq_true, isSeparator_iff, not_or]
    use hsemicolon
    rintro rfl
    cases hblank
  · rw [List.forall_mem_cons, List.forall_mem_singleton]
    decide

/-- A plain text that is no word is told as a wrong name. -/
theorem ofAssignments_of_not_isWord {s : String} (hplain : IsPlain s)
    (h : ¬ isWord s.toList = true) :
  ofAssignments (assignment s) = .error (Fault.assignment (assignment s) (.name s))
  := by
  have hblank : ∀ c ∈ s.toList ++ ['=', '1'], isBlank c = false := fun c hc =>
    (hplain.isMark c hc).1
  have hseparator : ∀ c ∈ s.toList ++ ['=', '1'], isSeparator c = false := fun c hc =>
    (hplain.isMark c hc).2
  have hequals : ∀ c ∈ s.toList, (c != '=') = true := by
    intro c hc
    rw [bne_iff_ne]
    apply (hplain.2 c hc).2.2
  have hname : (s.toList ++ ['=', '1']).takeWhile (· != '=') = s.toList := by
    rw [List.takeWhile_append_of_pos hequals]
    simp
  have hvalue : (s.toList ++ ['=', '1']).dropWhile (· != '=') = ['=', '1'] := by
    rw [List.dropWhile_append_of_pos hequals]
    rfl
  have hline : String.ofList (s.toList ++ ['=', '1']) = assignment s := by
    rw [← toList_assignment, String.ofList_toList]
  have hread : readPiece (s.toList ++ ['=', '1']) =
      .error (Fault.assignment (assignment s) (.name s)) := by
    have hne : ¬ (s.toList ++ ['=', '1']).isEmpty := by simp
    simp only [readPiece, (Padded.refl _).removeBlanks_eq hblank, hname, hvalue, if_neg hne,
      if_neg h, stripChars_eq_self hblank, hline, String.ofList_toList]
  rw [ofAssignments, pieces, toList_assignment, List.splitOnP_eq_singleton hseparator,
    List.foldlM_cons, assignPiece, hread]
  rfl

/-- The list that assigns a value to the text is accepted, and binds the text and nothing else. -/
def IsAssignable (s : String) : Prop :=
  ∃ env, ofAssignments (assignment s) = .ok env ∧ env.boundNames = [s]

/-- The plain texts that can be assigned a value are the words. -/
theorem isAssignable_iff {s : String} (h : IsPlain s) :
  IsAssignable s ↔ isWord s.toList = true
  := by
  constructor
  · rintro ⟨env, henv, -⟩
    by_contra hnot
    rw [ofAssignments_of_not_isWord h hnot] at henv
    cases henv
  · intro hword
    use empty.set s (some (.integer 1)), ofAssignments_of_isWord hword
    rfl

theorem isPlain_of_isWord {s : String} (h : isWord s.toList = true) :
  IsPlain s
  := by
  constructor
  · rintro rfl
    cases h
  · intro c hc
    have hchar := isWordChar_of_isWord h hc
    use (isMark_of_isWordChar hchar).1
    use ne_of_class hchar rfl
    apply ne_of_class hchar rfl

/-- A text without white space, semicolons and equals signs can be assigned a value if and only if
it is cut into one token, which is an identifier or a reserved word, and otherwise it is told as a
wrong name. Every name that a rule can mention can be assigned a value, and of the texts that can be
assigned one a rule can mention all but the reserved words. -/
theorem assignable_names :
  (∀ s, IsPlain s →
      (IsAssignable s ↔ Token.IsSoleWord s)
        ∧ (¬ Token.IsSoleWord s →
          ofAssignments (assignment s) = .error (Fault.assignment (assignment s) (.name s))))
    ∧ (∀ x, Rule.CanMention x → IsPlain x ∧ IsAssignable x)
    ∧ ∀ s, IsPlain s → IsAssignable s → (¬ Rule.CanMention s ↔ s.toList ∈ Token.reservedWords)
  := by
  refine ⟨?_, ?_, ?_⟩
  · intro s h
    rw [Token.isSoleWord_iff, isAssignable_iff h]
    use Iff.rfl
    apply ofAssignments_of_not_isWord h
  · intro x hx
    have hword := (Rule.canMention_iff.mp hx).1
    have hplain := isPlain_of_isWord hword
    use hplain
    apply (isAssignable_iff hplain).mpr hword
  · intro s h hs
    have hword := (isAssignable_iff h).mp hs
    rw [Rule.canMention_iff, IsName, not_and, not_not]
    constructor
    · intro hreserved
      apply hreserved hword
    · intro hreserved _
      apply hreserved

/-- A text that begins like a word and goes on with a hyphen is no name, a reserved word is one that
no rule can mention, and a word that begins like a reserved one is mentioned by a rule. -/
theorem assignable_names_hyphened :
  IsPlain "IS-MISSING"
    ∧ ofAssignments "IS-MISSING=1" =
      .error (Fault.assignment "IS-MISSING=1" (.name "IS-MISSING"))
    ∧ IsPlain "IGUALQUE" ∧ IsAssignable "IGUALQUE" ∧ ¬ Rule.CanMention "IGUALQUE"
    ∧ Rule.CanMention "IFFY" ∧ IsAssignable "IFFY"
  := by
  obtain ⟨hplain, hmention, hreserved⟩ := assignable_names
  have hhyphen : IsPlain "IS-MISSING" := by decide
  have hequal : IsPlain "IGUALQUE" := by decide
  have hsole : ¬ Token.IsSoleWord "IS-MISSING" := by
    rw [Token.isSoleWord_iff]
    decide
  have hassignable : IsAssignable "IGUALQUE" := by
    rw [isAssignable_iff hequal]
    decide
  have hword : Rule.CanMention "IFFY" := Rule.canMention_iff.mpr (by decide)
  refine ⟨hhyphen, (hplain _ hhyphen).2 hsole, hequal, hassignable, ?_, hword,
    (hmention _ hword).2⟩
  apply (hreserved _ hequal hassignable).mpr
  decide

end Environment

end Verdict
