import Verdict.Proofs.Token.Segmentation

/-!
# Spelled texts

A text spells a list of lexemes if it consists of them in their order, each cut off from what
follows it, with any blanks between them. The tokens of a spelled text are its lexemes, so a text
can be put together from lexemes and is sure to be cut into the same ones again. It is enough that
no letter, digit, underscore or equals sign follows a lexeme.
-/

namespace Verdict.Token

/-- A kind of token and a text. -/
abbrev Spelling := Token.Kind × String

/-- The kind and the text of a token. -/
def spelling (t : Token) : Spelling :=
  (t.kind, t.text)

theorem eq_of_spelling {t : Token} {k : Token.Kind} {w : String} (h : t.spelling = (k, w)) :
  t.kind = k ∧ t.text = w
  := Prod.mk.inj h

/-- The text consists of lexemes that are cut off, and of blanks between them. -/
inductive Spelled : List Char → List Spelling → Prop where
  | nil : Spelled [] []
  | blank {c s gs} (hc : isSpacing c = true) (h : Spelled s gs) : Spelled (c :: s) gs
  | lexeme {k w s gs} (hcut : Cut k w.toList s) (h : Spelled s gs) :
    Spelled (w.toList ++ s) ((k, w) :: gs)

/-- A spelled text does not begin with a hyphen. -/
theorem Spelled.head?_ne_hyphen {s : List Char} {gs : List Spelling} (h : Spelled s gs) :
  s.head? ≠ some '-'
  := by
  cases h with
  | nil => decide
  | blank hc h =>
    intro hhyphen
    cases hhyphen
    cases hc
  | lexeme hcut h =>
    obtain ⟨c, us, htext, -, hne⟩ := hcut.lexeme.exists_cons
    rw [htext]
    intro hhyphen
    exact hne (Option.some.inj hhyphen)

/-- The tokens of a spelled text are the lexemes that it spells. -/
theorem Spelled.exists_scanFrom {s : List Char} {gs : List Spelling} (h : Spelled s gs)
    (p : Place) :
  ∃ ts, scanFrom p 0 s = .ok ts ∧ ts.map spelling = gs
  := by
  induction h generalizing p with
  | nil => exact ⟨[], rfl, rfl⟩
  | blank hc h ih =>
    rw [scanFrom_blank p _ hc]
    apply ih
  | @lexeme k w s gs hcut h ih =>
    obtain ⟨c, us, htext, hspacing, -⟩ := hcut.lexeme.exists_cons
    obtain ⟨ts, hscan, hspelling⟩ := ih (p.after (c :: us))
    rw [htext] at hcut
    have hfirst := first?_complete hcut h.head?_ne_hyphen
    use .atPlace p k (String.ofList (c :: us)) :: ts
    constructor
    · rw [htext, List.cons_append]
      exact (scanFrom_lexeme_iff hspacing).mpr ⟨k, us, s, ts, rfl, hfirst, hscan, rfl⟩
    · rw [List.map_cons, hspelling, ← htext, String.ofList_toList]
      rfl

/-- The tokens of a rule that spells lexemes are these lexemes. -/
theorem Spelled.exists_tokens {text : String} {gs : List Spelling} (h : Spelled text.toList gs) :
  ∃ ts, Rule.tokens text = .ok ts ∧ ts.map spelling = gs
  := by
  obtain ⟨ts, hscan, hspelling⟩ := h.exists_scanFrom .start
  exact ⟨ts, tokens_eq_ok_iff.mpr hscan, hspelling⟩

/-! ### Putting a text together -/

/-- No lexeme goes on into the text: it does not begin with a letter, a digit, an underscore or an
equals sign. -/
def Boundary (s : List Char) : Prop :=
  ∀ c ∈ s.head?, isWordChar c = false ∧ c ≠ '='

theorem Boundary.cons {c : Char} (h : isWordChar c = false ∧ c ≠ '=') (s : List Char) :
  Boundary (c :: s)
  := by
  intro d hd
  obtain rfl := Option.some.inj hd
  exact h

/-- The text is nothing but blanks. -/
def IsGap (gap : String) : Prop :=
  ∀ c ∈ gap.toList, isSpacing c = true

instance (gap : String) : Decidable (IsGap gap) :=
  List.decidableBAll (isSpacing · = true) gap.toList

theorem not_isWordChar_of_isSpacing {c : Char} (h : isSpacing c = true) :
  isWordChar c = false ∧ c ≠ '='
  := by
  simp only [isSpacing, Bool.or_eq_true, beq_iff_eq] at h
  rcases h with ((rfl | rfl) | rfl) | rfl
  all_goals decide

theorem Boundary.gap {gap : String} (hgap : IsGap gap) {s : List Char} (h : Boundary s) :
  Boundary (gap.toList ++ s)
  := by
  rw [IsGap] at hgap
  cases hchars : gap.toList with
  | nil => exact h
  | cons c cs =>
    apply Boundary.cons
    apply not_isWordChar_of_isSpacing
    apply hgap
    rw [hchars]
    apply List.mem_cons_self

/-- What continues a lexeme is a character of words or an equals sign. -/
theorem Kind.continues_eq_false {k : Kind} {w : List Char} {c : Char}
    (hword : isWordChar c = false) (hequals : c ≠ '=') :
  k.continues w c = false
  := by
  have hnumeral : isNumeral c = false := by
    rw [isWordChar, Bool.or_eq_false_iff] at hword
    exact hword.2
  have hsign : (c == '=') = false := beq_eq_false_iff_ne.mpr hequals
  rcases k with _ | _ | r | c | k | _ | _ | _
  case relation => cases r <;> simp [continues, hword, hsign]
  all_goals simp [continues, hword, hnumeral]

theorem Cut.of_boundary {k : Kind} {w s : List Char} (hlexeme : k.Lexeme w) (h : Boundary s) :
  Cut k w s
  := by
  use hlexeme
  intro c hc
  obtain ⟨hword, hequals⟩ := h c hc
  apply Kind.continues_eq_false hword hequals

namespace Spelled

variable {s : List Char} {gs : List Spelling}

/-- A lexeme in front of a boundary. -/
theorem cons {k : Kind} {w : String} (hlexeme : k.Lexeme w.toList) (hs : Boundary s)
    (h : Spelled s gs) :
  Spelled (w.toList ++ s) ((k, w) :: gs)
  := .lexeme (.of_boundary hlexeme hs) h

/-- A parenthesis, behind which anything may stand. -/
theorem leftParen (h : Spelled s gs) :
  Spelled ('(' :: s) ((.leftParen, "(") :: gs)
  := @Spelled.lexeme .leftParen "(" s gs (.sign rfl fun _ => rfl) h

theorem rightParen (h : Spelled s gs) :
  Spelled (')' :: s) ((.rightParen, ")") :: gs)
  := @Spelled.lexeme .rightParen ")" s gs (.sign rfl fun _ => rfl) h

theorem gap {gap : String} (hgap : IsGap gap) (h : Spelled s gs) :
  Spelled (gap.toList ++ s) gs
  := by
  rw [IsGap] at hgap
  generalize gap.toList = chars at hgap
  induction chars with
  | nil => exact h
  | cons c cs ih =>
    rw [List.forall_mem_cons] at hgap
    exact .blank hgap.1 (ih hgap.2)

/-- A spelled text stands behind another one if it begins at a boundary. -/
theorem append {u : List Char} {fs : List Spelling} (h : Spelled u fs) (hs : Boundary s)
    (hbehind : Spelled s gs) :
  Spelled (u ++ s) (fs ++ gs)
  := by
  induction h with
  | nil => exact hbehind
  | blank hc _ ih => exact .blank hc ih
  | @lexeme k w u fs hcut _ ih =>
    rw [List.append_assoc]
    -- what follows the last lexeme is the boundary, and what follows any other is as before
    cases u with
    | nil => exact .lexeme (.of_boundary hcut.lexeme hs) ih
    | cons c u => exact .lexeme ⟨hcut.lexeme, hcut.ends⟩ ih

/-- A lexeme with a space behind it. -/
theorem cons_space {k : Kind} {w : String} (hlexeme : k.Lexeme w.toList) (h : Spelled s gs) :
  Spelled (w.toList ++ ' ' :: s) ((k, w) :: gs)
  := cons hlexeme (.cons (by decide) s) (.blank rfl h)

end Spelled

end Verdict.Token
