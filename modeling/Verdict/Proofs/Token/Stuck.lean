import Verdict.Proofs.Token.Course

/-!
# Where the scanner is stuck

A character that is no blank, sign, digit or letter begins no token, and neither does a lone equals
sign. The scanner is stuck at the first such character that stands where a token must begin, and the
text in front of it has tokens. No text behind a character that belongs to no token at all can move
the place where the scanner is stuck.
-/

namespace Verdict.Token

/-- The character is a blank, a sign, a digit or a letter. -/
def isInitial (c : Char) : Bool :=
  isSpacing c || signs.contains c || isNumeral c || isLetter c

/-- The test for a missing value begins with a letter. -/
theorem isLetter_of_beginsWithMissing {c : Char} {cs : List Char}
    (h : beginsWithMissing (c :: cs) = true) :
  isLetter c = true
  := by
  obtain ⟨rest, hrest, -⟩ := beginsWithMissing_iff.mp h
  rw [(List.cons.inj hrest).1]
  rfl

/-- Of the signs only a lone equals sign begins no token. -/
theorem first?_sign_eq_none_iff {c : Char} (h : c ∈ signs) (cs : List Char) :
  first? c cs = none ↔ c = '=' ∧ cs.head? ≠ some '='
  := by
  simp only [signs, List.mem_cons, List.not_mem_nil, or_false] at h
  by_cases hequals : cs.head? = some '='
  all_goals
    rcases h with rfl | rfl | rfl | rfl | rfl
    all_goals simp [first?, isSpacing, hequals]

/-- No token and no blank begins with a lone equals sign, or with a character that is no blank,
sign, digit or letter. -/
theorem first?_eq_none_iff {c : Char} {cs : List Char} :
  first? c cs = none ↔ c = '=' ∧ cs.head? ≠ some '=' ∨ isInitial c = false
  := by
  by_cases hsign : c ∈ signs
  · have hinitial : isInitial c = true := by simp [isInitial, hsign]
    rw [first?_sign_eq_none_iff hsign, hinitial]
    simp
  · have hequals : c ≠ '=' := by
      rintro rfl
      apply hsign
      decide
    cases hspacing : isSpacing c with
    | true =>
      rw [first?_blank cs hspacing]
      simp [isInitial, hspacing, hequals]
    | false =>
      have hinitial : isInitial c = (isNumeral c || isLetter c) := by
        simp [isInitial, hspacing, hsign]
      have hletter := @isLetter_of_beginsWithMissing c cs
      rw [first?_of_not_sign cs hspacing hsign, hinitial]
      split
      · next hmissing => simp [hletter hmissing, hequals]
      · split
        · next hnumeral => simp [hnumeral, hequals]
        · next hnumeral =>
          split
          · next hl => simp [hl, hequals]
          · next hl => simp [hnumeral, hl]

/-- No lexeme goes on with a character that belongs to no token. -/
theorem boundary_of_not_initial {c : Char} (hinitial : isInitial c = false) (h : c ≠ '_')
    (s : List Char) :
  Boundary (c :: s)
  := by
  simp only [isInitial, Bool.or_eq_false_iff] at hinitial
  obtain ⟨⟨⟨-, hsigns⟩, hnumeral⟩, hletter⟩ := hinitial
  apply Boundary.cons
  constructor
  · simp [isWordChar, h, hletter, hnumeral]
  · rintro rfl
    cases hsigns

/-- Behind a text that has tokens, the scanner is stuck at a character that belongs to no token,
whatever follows it. -/
theorem Spelled.scanFrom_append {u : List Char} {gs : List Spelling} (h : Spelled u gs) {c : Char}
    (hinitial : isInitial c = false) (hunderscore : c ≠ '_') (hhyphen : c ≠ '-') (v : List Char)
    (p : Place) :
  scanFrom p 0 (u ++ c :: v) = .error ⟨p.after u, c⟩
  := by
  induction h generalizing p with
  | nil => apply scanFrom_stuck p (first?_eq_none_iff.mpr (Or.inr hinitial))
  | blank hc _ ih =>
    rw [List.cons_append, scanFrom_blank p _ hc]
    apply ih
  | @lexeme k w s gs hcut hs ih =>
    -- the character behind the lexeme is that of the text behind it, or the one that is stuck
    have hcut' : Cut k w.toList (s ++ c :: v) := by
      cases s with
      | nil => apply Cut.of_boundary hcut.lexeme (boundary_of_not_initial hinitial hunderscore v)
      | cons e s =>
        use hcut.lexeme
        apply hcut.ends
    have hhead : (s ++ c :: v).head? ≠ some '-' := by
      cases s with
      | nil => simpa using hhyphen
      | cons e s => apply hs.head?_ne_hyphen
    obtain ⟨d, us, htext, -⟩ := hcut.lexeme.exists_cons
    rw [htext] at hcut' ⊢
    have hscan := scanFrom_lexeme p (first?_complete hcut' hhead)
    rw [ih, ← Place.after_append] at hscan
    rw [List.append_assoc]
    apply hscan

/-- A rule without tokens is refused at the first place where the scanner is stuck: the character
there is told, the text in front of it has tokens, and the character is a lone equals sign or no
blank, sign, digit or letter. Conversely, behind a text that has tokens a character that is none of
these, and neither an underscore nor a hyphen, is told, whatever follows it. -/
theorem tokens_stuck :
  (∀ (text : String) (stuck : Stuck), Rule.tokens text = .error (Fault.lexical stuck) →
      stuck.place.offset < text.length
        ∧ text.toList[stuck.place.offset]? = some stuck.char
        ∧ (∃ ts, Rule.tokens (String.ofList (text.toList.take stuck.place.offset)) = .ok ts)
        ∧ (stuck.char = '=' ∧ text.toList[stuck.place.offset + 1]? ≠ some '='
          ∨ isInitial stuck.char = false))
    ∧ ∀ (u v : String) (c : Char), (∃ ts, Rule.tokens u = .ok ts) → isInitial c = false →
        c ≠ '_' → c ≠ '-' → ∃ stuck,
          Rule.tokens (u ++ String.singleton c ++ v) = .error (Fault.lexical stuck)
            ∧ stuck.place.offset = u.length ∧ stuck.char = c
  := by
  simp only [tokens_eq_ok_iff, tokens_eq_error_iff]
  constructor
  · intro text stuck hstuck
    obtain ⟨u, v, gs, htext, hplace, hspelled, hfirst⟩ := exists_spelled_of_error hstuck
    obtain ⟨ts, hts, -⟩ := hspelled.exists_scanFrom .start
    rw [hplace, Place.offset_after_start, ← String.length_toList, htext]
    refine ⟨by simp, by simp, ⟨ts, ?_⟩, ?_⟩
    · rw [List.take_left, scan, String.toList_ofList, hts]
    · have hnext : (u ++ stuck.char :: v)[u.length + 1]? = v.head? := by
        rw [List.getElem?_append_right (Nat.le_succ _), List.head?_eq_getElem?]
        simp
      rw [hnext]
      apply first?_eq_none_iff.mp hfirst
  · rintro u v c ⟨ts, hts⟩ hinitial hunderscore hhyphen
    have htext : (u ++ String.singleton c ++ v).toList = u.toList ++ c :: v.toList := by simp
    use ⟨Place.start.after u.toList, c⟩
    rw [scan, htext]
    refine ⟨?_, ?_, rfl⟩
    · apply (spelled_of_scanFrom hts).scanFrom_append hinitial hunderscore hhyphen
    · rw [Place.offset_after_start, String.length_toList]

theorem tokens_stuck_loneEquals :
  Rule.tokens "x>=1=\t=" = .error (Fault.lexical ⟨⟨4, 1, 5⟩, '='⟩)
    ∧ (∃ ts, Rule.tokens "x>=1" = .ok ts)
    ∧ (∃ ts, Rule.tokens "IF (IS" = .ok ts)
    ∧ isInitial '–' = false
    ∧ ∃ stuck, Rule.tokens ("IF (IS" ++ String.singleton '–' ++ "MISSING(x))") =
        .error (Fault.lexical stuck)
      ∧ stuck.place.offset = 6 ∧ stuck.char = '–'
  := by
  have hequals : Rule.tokens "x>=1=\t=" = .error (Fault.lexical ⟨⟨4, 1, 5⟩, '='⟩) := rfl
  have hinitial : isInitial '–' = false := by decide
  refine ⟨hequals, (tokens_stuck.1 _ _ hequals).2.2.1, ⟨_, rfl⟩, hinitial, ?_⟩
  apply tokens_stuck.2 "IF (IS" "MISSING(x))" '–' ⟨_, rfl⟩ hinitial (by decide) (by decide)

end Verdict.Token
