import Verdict.Proofs.Number.Numeral
import Mathlib.Tactic.Use
import Verdict.Token.Lexer

/-!
# Lexemes

A lexeme of a kind is a text that a token of that kind may have. A lexeme is cut off where the
next character does not continue it. `Token.first?` finds a lexeme that is cut off, and every
lexeme that is cut off in front of anything but a hyphen. The hyphen is an exception because the
word `IS` in front of `-MISSING` is cut off, but is not the first token.
-/

namespace Verdict.Token

/-- The words that are no identifiers. -/
def reservedWords : List (List Char) :=
  [['I', 'F'], ['E', 'L', 'S', 'E'], ['A', 'N', 'D'], ['O', 'R'],
    ['R', 'E', 'T', 'U', 'R', 'N'], ['I', 'G', 'U', 'A', 'L', 'Q', 'U', 'E']]

/-- The text is a lexeme of the kind. -/
def Kind.Lexeme : Kind → List Char → Prop
  | .leftParen, w => w = ['(']
  | .rightParen, w => w = [')']
  | .relation .gt, w => w = ['>']
  | .relation .ge, w => w = ['>', '=']
  | .relation .lt, w => w = ['<']
  | .relation .le, w => w = ['<', '=']
  | .relation .eq, w => w = ['=', '='] ∨ w = ['I', 'G', 'U', 'A', 'L', 'Q', 'U', 'E']
  | .connective .and, w => w = ['A', 'N', 'D']
  | .connective .or, w => w = ['O', 'R']
  | .keyword .ifWord, w => w = ['I', 'F']
  | .keyword .elseWord, w => w = ['E', 'L', 'S', 'E']
  | .keyword .returnWord, w => w = ['R', 'E', 'T', 'U', 'R', 'N']
  | .isMissing, w => w = ['I', 'S', '-', 'M', 'I', 'S', 'S', 'I', 'N', 'G']
  | .number, w => IsNumeral w
  | .identifier, w => isWord w = true ∧ w ∉ reservedWords

/-- The character continues a lexeme of the kind, which therefore does not end in front of it:
an equals sign continues the signs `>` and `<`, a digit a number, and a letter, a digit or an
underscore every word and the test for a missing value. -/
def Kind.continues (k : Kind) (w : List Char) (c : Char) : Bool :=
  match k with
  | .relation .gt | .relation .lt => c == '='
  | .number => isNumeral c
  | .isMissing => isWordChar c
  | _ => isWord w && isWordChar c

/-- The text is a lexeme of the kind, cut off in front of another text. -/
structure Cut (k : Kind) (w rest : List Char) : Prop where
  lexeme : k.Lexeme w
  ends : ∀ c ∈ rest.head?, k.continues w c = false

/-! ### Characters of lexemes -/

theorem isLetter_iff {c : Char} :
  isLetter c = true ↔ 97 ≤ c.toNat ∧ c.toNat ≤ 122 ∨ 65 ≤ c.toNat ∧ c.toNat ≤ 90
  := by
  simp only [isLetter, Bool.or_eq_true, Bool.and_eq_true, decide_eq_true_eq, Char.le_def,
    UInt32.le_iff_toNat_le]
  rfl

theorem isNumeral_eq_false_of_isLetter {c : Char} (h : isLetter c = true) :
  isNumeral c = false
  := by
  rw [← Bool.not_eq_true, isNumeral_iff]
  rw [isLetter_iff] at h
  omega

/-- A character of a class without blanks is no blank. -/
theorem isSpacing_eq_false_of_class {p : Char → Bool} {c : Char} (h : p c = true)
    (hp : p ' ' = false ∧ p '\t' = false ∧ p '\r' = false ∧ p '\n' = false) :
  isSpacing c = false
  := by
  obtain ⟨hspace, htab, hreturn, hfeed⟩ := hp
  simp [isSpacing, ne_of_class h hspace, ne_of_class h htab, ne_of_class h hreturn,
    ne_of_class h hfeed]

/-- A lexeme begins with neither a blank nor a hyphen. -/
theorem Kind.Lexeme.exists_cons {k : Kind} {w : List Char} (h : k.Lexeme w) :
  ∃ c us, w = c :: us ∧ isSpacing c = false ∧ c ≠ '-'
  := by
  rcases k with _ | _ | r | c | k | _ | _ | _
  case number =>
    obtain ⟨c, us, rfl⟩ := List.exists_cons_of_ne_nil h.1
    have hc := h.2 c List.mem_cons_self
    exact ⟨c, us, rfl, isSpacing_eq_false_of_class hc (by decide), ne_of_class hc rfl⟩
  case identifier =>
    obtain ⟨hword, -⟩ := h
    cases w with
    | nil => cases hword
    | cons c us =>
      have hc := (Bool.and_eq_true_iff.mp hword).1
      exact ⟨c, us, rfl, isSpacing_eq_false_of_class hc (by decide), ne_of_class hc rfl⟩
  case relation =>
    cases r with
    | eq =>
      rcases h with h | h
      all_goals exact ⟨_, _, h, by decide, by decide⟩
    | _ => exact ⟨_, _, h, by decide, by decide⟩
  case connective => cases c <;> exact ⟨_, _, h, by decide, by decide⟩
  case keyword => cases k <;> exact ⟨_, _, h, by decide, by decide⟩
  all_goals exact ⟨_, _, h, by decide, by decide⟩

/-! ### Words -/

theorem wordKind_of_not_reserved {w : List Char} (h : w ∉ reservedWords) :
  wordKind w = .identifier
  := by
  simp only [reservedWords, List.mem_cons, List.not_mem_nil, or_false, not_or] at h
  obtain ⟨hif, helse, hand, hor, hreturn, hequal⟩ := h
  rw [wordKind, if_neg hif, if_neg helse, if_neg hand, if_neg hor, if_neg hreturn, if_neg hequal]

/-- A word is a lexeme of its kind. -/
theorem wordKind_lexeme {w : List Char} (h : isWord w = true) :
  (wordKind w).Lexeme w
  := by
  by_cases hreserved : w ∈ reservedWords
  · simp only [reservedWords, List.mem_cons, List.not_mem_nil, or_false] at hreserved
    rcases hreserved with rfl | rfl | rfl | rfl | rfl | rfl
    case inr.inr.inr.inr.inr => exact Or.inr rfl
    all_goals rfl
  · rw [wordKind_of_not_reserved hreserved]
    exact ⟨h, hreserved⟩

/-- A word is a lexeme of no other kind. -/
theorem Kind.Lexeme.wordKind_eq {k : Kind} {w : List Char} (h : k.Lexeme w)
    (hword : isWord w = true) :
  wordKind w = k
  := by
  have hliteral : ∀ {v : List Char}, w = v → isWord v = false → wordKind w = k := by
    rintro v rfl hv
    rw [hword] at hv
    cases hv
  rcases k with _ | _ | r | c | k | _ | _ | _
  case number =>
    obtain ⟨c, us, rfl⟩ := List.exists_cons_of_ne_nil h.1
    have hc := (Bool.and_eq_true_iff.mp hword).1
    have hnumeral := h.2 c List.mem_cons_self
    rw [isNumeral_eq_false_of_isLetter hc] at hnumeral
    cases hnumeral
  case identifier => apply wordKind_of_not_reserved h.2
  case connective =>
    cases c
    all_goals
      obtain rfl : w = _ := h
      rfl
  case keyword =>
    cases k
    all_goals
      obtain rfl : w = _ := h
      rfl
  case relation =>
    cases r with
    | eq =>
      rcases h with h | rfl
      · exact hliteral h (by decide)
      · rfl
    | _ => exact hliteral h (by decide)
  all_goals exact hliteral h (by decide)

/-- What continues a word is a character of words. -/
theorem Kind.Lexeme.continues_eq {k : Kind} {w : List Char} (h : k.Lexeme w)
    (hword : isWord w = true) (c : Char) :
  k.continues w c = isWordChar c
  := by
  rw [← h.wordKind_eq hword]
  unfold wordKind
  repeat' split
  all_goals simp [Kind.continues, hword]

/-! ### The first lexeme of a text -/

theorem takeWhile_append_of_ends {p : Char → Bool} {us vs : List Char}
    (hus : ∀ c ∈ us, p c = true) (hvs : ∀ c ∈ vs.head?, p c = false) :
  (us ++ vs).takeWhile p = us
  := by
  rw [List.takeWhile_append_of_pos hus]
  cases vs with
  | nil => simp
  | cons d vs => simp [hvs d rfl]

/-- The longest beginning of a text with characters of one class. -/
theorem exists_takeWhile (p : Char → Bool) (cs : List Char) :
  ∃ us vs, cs = us ++ vs ∧ (∀ c ∈ us, p c = true) ∧ ∀ c ∈ vs.head?, p c = false
  := by
  use cs.takeWhile p, cs.dropWhile p, List.takeWhile_append_dropWhile.symm
  constructor
  · intro c hc
    apply List.mem_takeWhile_imp hc
  · intro c hc
    have hnot := List.head?_dropWhile_not p cs
    rw [Option.mem_def.mp hc] at hnot
    simpa using hnot

theorem beginsWithMissing_iff {s : List Char} :
  beginsWithMissing s = true
    ↔ ∃ rest, s = missingWord ++ rest ∧ ∀ c ∈ rest.head?, isWordChar c = false
  := by
  rw [beginsWithMissing, Bool.and_eq_true, List.isPrefixOf_iff_prefix]
  constructor
  · rintro ⟨⟨rest, rfl⟩, hrest⟩
    use rest, rfl
    intro c hc
    rw [List.drop_left, Option.mem_def.mp hc] at hrest
    simpa using hrest
  · rintro ⟨rest, rfl, hrest⟩
    use List.prefix_append missingWord rest
    rw [List.drop_left]
    cases rest with
    | nil => rfl
    | cons d rest => simp [hrest d rfl]

/-- A sign that nothing continues is cut off. -/
theorem Cut.sign {k : Kind} {w rest : List Char} (hlexeme : k.Lexeme w)
    (hends : ∀ c, k.continues w c = false) :
  Cut k w rest
  := ⟨hlexeme, fun c _ => hends c⟩

/-- A word that ends is cut off. -/
theorem Cut.word {w rest : List Char} (hword : isWord w = true)
    (hends : ∀ c ∈ rest.head?, isWordChar c = false) :
  Cut (wordKind w) w rest
  := by
  refine ⟨wordKind_lexeme hword, ?_⟩
  intro c hc
  rw [(wordKind_lexeme hword).continues_eq hword, hends c hc]

theorem head?_ne_equals_iff {cs : List Char} :
  cs.head? ≠ some '=' ↔ ∀ c ∈ cs.head?, (c == '=') = false
  := by
  constructor
  · intro h c hc
    rw [beq_eq_false_iff_ne]
    rintro rfl
    exact h hc
  · intro h hc
    cases h '=' hc

/-- The characters with which signs begin. -/
def signs : List Char := ['(', ')', '>', '<', '=']

theorem first?_blank {c : Char} (cs : List Char) (h : isSpacing c = true) :
  first? c cs = some (none, 0)
  := if_pos h

/-- A character that is neither a blank nor a sign begins the test for a missing value, a number
or a word. -/
theorem first?_of_not_sign {c : Char} (cs : List Char) (hspacing : isSpacing c = false)
    (hsign : c ∉ signs) :
  first? c cs =
    if beginsWithMissing (c :: cs) then some (some .isMissing, missingWord.length - 1)
    else if isNumeral c then some (some .number, (cs.takeWhile isNumeral).length)
    else if isLetter c then
      some (some (wordKind (c :: cs.takeWhile isWordChar)), (cs.takeWhile isWordChar).length)
    else none
  := by
  simp only [signs, List.mem_cons, List.not_mem_nil, or_false, not_or] at hsign
  obtain ⟨hleft, hright, hgt, hlt, heq⟩ := hsign
  rw [first?, hspacing, if_neg Bool.false_ne_true, if_neg hleft, if_neg hright, if_neg hgt,
    if_neg hlt, if_neg heq]

/-- A character of a class without signs is no sign. -/
theorem not_mem_signs_of_class {p : Char → Bool} {c : Char} (h : p c = true)
    (hp : signs.any p = false) :
  c ∉ signs
  := by
  intro hc
  rw [List.any_eq_false] at hp
  exact hp c hc h

/-- A sign that an equals sign continues is cut off, with the equals sign or without it. -/
theorem cut_of_comparison {c : Char} {cs : List Char} {k : Kind} {n : Nat} (long short : Kind)
    (hlong : long.Lexeme [c, '=']) (hshort : short.Lexeme [c])
    (hend : ∀ d, long.continues [c, '='] d = false)
    (hequals : ∀ d, short.continues [c] d = (d == '='))
    (h : (if cs.head? = some '=' then some (some long, 1) else some (some short, 0))
      = some (some k, n)) :
  ∃ us vs, cs = us ++ vs ∧ us.length = n ∧ Cut k (c :: us) vs
  := by
  split at h
  · next hhead =>
    cases h
    obtain ⟨vs, rfl⟩ := List.head?_eq_some_iff.mp hhead
    exact ⟨['='], vs, rfl, rfl, .sign hlong hend⟩
  · next hhead =>
    cases h
    refine ⟨[], cs, rfl, rfl, hshort, ?_⟩
    intro d hd
    rw [hequals]
    apply head?_ne_equals_iff.mp hhead d hd

/-- A sign that begins a text is cut off. -/
theorem cut_of_sign {c : Char} {cs : List Char} {k : Kind} {n : Nat} (hc : c ∈ signs)
    (h : first? c cs = some (some k, n)) :
  ∃ us vs, cs = us ++ vs ∧ us.length = n ∧ Cut k (c :: us) vs
  := by
  simp only [signs, List.mem_cons, List.not_mem_nil, or_false] at hc
  rcases hc with rfl | rfl | rfl | rfl | rfl
  · cases h
    exact ⟨[], cs, rfl, rfl, .sign rfl fun _ => rfl⟩
  · cases h
    exact ⟨[], cs, rfl, rfl, .sign rfl fun _ => rfl⟩
  · apply cut_of_comparison (.relation .ge) (.relation .gt) rfl rfl (fun _ => rfl)
      (fun _ => rfl) h
  · apply cut_of_comparison (.relation .le) (.relation .lt) rfl rfl (fun _ => rfl)
      (fun _ => rfl) h
  · change (if cs.head? = some '=' then some (some _, 1) else none) = _ at h
    split at h
    · next hhead =>
      cases h
      obtain ⟨vs, rfl⟩ := List.head?_eq_some_iff.mp hhead
      exact ⟨['='], vs, rfl, rfl, .sign (Or.inl rfl) fun _ => rfl⟩
    · cases h

/-- What begins a text is a lexeme that is cut off. -/
theorem first?_sound {c : Char} {cs : List Char} {k : Kind} {n : Nat}
    (h : first? c cs = some (some k, n)) :
  ∃ us vs, cs = us ++ vs ∧ us.length = n ∧ Cut k (c :: us) vs
  := by
  by_cases hsign : c ∈ signs
  · apply cut_of_sign hsign h
  cases hspacing : isSpacing c with
  | true =>
    rw [first?_blank cs hspacing] at h
    cases h
  | false =>
    rw [first?_of_not_sign cs hspacing hsign] at h
    split at h
    · next hmissing =>
      cases h
      obtain ⟨rest, hrest, hends⟩ := beginsWithMissing_iff.mp hmissing
      obtain ⟨rfl, rfl⟩ := List.cons.inj hrest
      exact ⟨_, rest, rfl, rfl, rfl, hends⟩
    split at h
    · next hc =>
      cases h
      obtain ⟨us, vs, rfl, hus, hvs⟩ := exists_takeWhile isNumeral cs
      refine ⟨us, vs, rfl, ?_, ⟨List.cons_ne_nil c us, List.forall_mem_cons.mpr ⟨hc, hus⟩⟩, hvs⟩
      rw [takeWhile_append_of_ends hus hvs]
    split at h
    · next hc =>
      cases h
      obtain ⟨us, vs, rfl, hus, hvs⟩ := exists_takeWhile isWordChar cs
      rw [takeWhile_append_of_ends hus hvs]
      have hword : isWord (c :: us) = true := by
        rw [isWord, hc, Bool.true_and, List.all_eq_true]
        apply hus
      exact ⟨us, vs, rfl, rfl, .word hword hvs⟩
    · cases h

theorem first?_number {c : Char} {us vs : List Char} (h : Cut .number (c :: us) vs) :
  first? c (us ++ vs) = some (some .number, us.length)
  := by
  obtain ⟨hc, hus⟩ := List.forall_mem_cons.mp h.lexeme.2
  have hmissing : ¬ beginsWithMissing (c :: (us ++ vs)) = true := by
    rw [beginsWithMissing_iff]
    rintro ⟨rest, hrest, -⟩
    exact ne_of_class hc rfl (List.cons.inj hrest).1
  rw [first?_of_not_sign _ (isSpacing_eq_false_of_class hc (by decide))
    (not_mem_signs_of_class hc rfl), if_neg hmissing, if_pos hc,
    takeWhile_append_of_ends hus h.ends]

theorem first?_word {c : Char} {us vs : List Char} (hword : isWord (c :: us) = true)
    (hends : ∀ d ∈ vs.head?, isWordChar d = false) (hhyphen : vs.head? ≠ some '-') :
  first? c (us ++ vs) = some (some (wordKind (c :: us)), us.length)
  := by
  rw [isWord, Bool.and_eq_true, List.all_eq_true] at hword
  obtain ⟨hc, hus⟩ := hword
  have htake := takeWhile_append_of_ends hus hends
  have hmissing : ¬ beginsWithMissing (c :: (us ++ vs)) = true := by
    rw [beginsWithMissing_iff]
    rintro ⟨rest, hrest, -⟩
    -- the word would be `IS`, and the hyphen of `IS-MISSING` would follow
    have htail := (List.cons.inj hrest).2
    rw [htail] at htake
    obtain rfl : ['S'] = us := htake
    rw [List.singleton_append] at htail
    apply hhyphen
    rw [(List.cons.inj htail).2]
    rfl
  rw [first?_of_not_sign _ (isSpacing_eq_false_of_class hc (by decide))
    (not_mem_signs_of_class hc rfl), if_neg hmissing, isNumeral_eq_false_of_isLetter hc,
    if_neg Bool.false_ne_true, if_pos hc, htake]

/-- A lexeme that is cut off in front of anything but a hyphen is what begins the text. -/
theorem first?_complete {c : Char} {us vs : List Char} {k : Kind} (h : Cut k (c :: us) vs)
    (hhyphen : vs.head? ≠ some '-') :
  first? c (us ++ vs) = some (some k, us.length)
  := by
  by_cases hword : isWord (c :: us) = true
  · have hends : ∀ d ∈ vs.head?, isWordChar d = false := by
      intro d hd
      rw [← h.lexeme.continues_eq hword, h.ends d hd]
    rw [first?_word hword hends hhyphen, h.lexeme.wordKind_eq hword]
  · obtain ⟨hlexeme, hends⟩ := h
    rcases k with _ | _ | r | k | k | _ | _ | _
    case leftParen =>
      obtain ⟨rfl, rfl⟩ := List.cons.inj hlexeme
      rfl
    case rightParen =>
      obtain ⟨rfl, rfl⟩ := List.cons.inj hlexeme
      rfl
    case relation =>
      cases r with
      | ge =>
        obtain ⟨rfl, rfl⟩ := List.cons.inj hlexeme
        rfl
      | le =>
        obtain ⟨rfl, rfl⟩ := List.cons.inj hlexeme
        rfl
      | eq =>
        rcases hlexeme with hlexeme | hlexeme
        · obtain ⟨rfl, rfl⟩ := List.cons.inj hlexeme
          rfl
        · rw [hlexeme] at hword
          exact absurd rfl hword
      | gt =>
        obtain ⟨rfl, rfl⟩ := List.cons.inj hlexeme
        apply if_neg (head?_ne_equals_iff.mpr hends)
      | lt =>
        obtain ⟨rfl, rfl⟩ := List.cons.inj hlexeme
        apply if_neg (head?_ne_equals_iff.mpr hends)
    case isMissing =>
      obtain ⟨rfl, rfl⟩ := List.cons.inj hlexeme
      have hmissing : beginsWithMissing (missingWord ++ vs) = true :=
        beginsWithMissing_iff.mpr ⟨vs, rfl, hends⟩
      rw [first?_of_not_sign _ rfl (by decide)]
      apply if_pos hmissing
    case number => apply first?_number ⟨hlexeme, hends⟩
    case identifier => exact absurd hlexeme.1 hword
    case connective =>
      cases k
      all_goals
        rw [hlexeme] at hword
        exact absurd rfl hword
    case keyword =>
      cases k
      all_goals
        rw [hlexeme] at hword
        exact absurd rfl hword

end Verdict.Token
