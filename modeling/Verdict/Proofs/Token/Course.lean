import Verdict.Proofs.Environment.Assignments
import Verdict.Proofs.Token.Spelling

/-!
# The course of the scanner

The scanner is at the end of its text, at a blank, stuck, or at a lexeme that is cut off, behind
which it goes on. `scan_induction` is the induction along this course, with one equation for
`scanFrom` in each of the four cases. How a text begins is decided by its characters in front of the
first blank, since no blank stands in a lexeme and none continues one. -/

namespace Verdict

theorem Place.after_append (p : Place) (us vs : List Char) :
  p.after (us ++ vs) = (p.after us).after vs
  := List.foldl_append

theorem Place.offset_after_start (s : List Char) :
  (Place.start.after s).offset = s.length
  := (Place.offset_after .start s).trans (Nat.zero_add _)

namespace Token

theorem tokens_eq_error_iff {text : String} {stuck : Stuck} :
  Rule.tokens text = .error (Fault.lexical stuck) ↔ scan text = .error stuck
  := by
  rw [Rule.tokens]
  cases scan text with
  | error e =>
    constructor
    · rintro ⟨⟩
      rfl
    · rintro ⟨⟩
      rfl
  | ok ts =>
    constructor
    all_goals
      intro h
      cases h

theorem scanFrom_stuck (p : Place) {c : Char} {cs : List Char} (h : first? c cs = none) :
  scanFrom p 0 (c :: cs) = .error ⟨p, c⟩
  := by
  rw [scanFrom, h]

/-- The scanner goes on behind the lexeme that it finds. -/
theorem scanFrom_lexeme (p : Place) {k : Kind} {c : Char} {us vs : List Char}
    (h : first? c (us ++ vs) = some (some k, us.length)) :
  scanFrom p 0 (c :: (us ++ vs)) =
    (scanFrom (p.after (c :: us)) 0 vs).map (.atPlace p k (String.ofList (c :: us)) :: ·)
  := by
  have hbehind : scanFrom (p.next c) us.length (us ++ vs) = scanFrom (p.after (c :: us)) 0 vs :=
    scanFrom_append (p.next c) us vs
  simp only [scanFrom, h, hbehind, List.take_left]
  cases scanFrom (p.after (c :: us)) 0 vs with
  | error stuck => rfl
  | ok ts => rfl

/-- A property of texts that holds at the end, where the scanner is stuck, and in front of a blank
or a lexeme if it holds behind it, holds of all texts. -/
@[elab_as_elim]
theorem scan_induction {motive : List Char → Prop} (nil : motive [])
    (blank : ∀ c cs, isSpacing c = true → motive cs → motive (c :: cs))
    (stuck : ∀ c cs, first? c cs = none → motive (c :: cs))
    (lexeme : ∀ k c us vs, Cut k (c :: us) vs →
      first? c (us ++ vs) = some (some k, us.length) → motive vs → motive (c :: (us ++ vs)))
    (s : List Char) :
  motive s
  := by
  induction hlength : s.length using Nat.strongRecOn generalizing s with
  | ind n ih =>
    subst hlength
    cases s with
    | nil => apply nil
    | cons c cs =>
      rcases hfirst : first? c cs with - | ⟨- | k, n⟩
      · apply stuck c cs hfirst
      · cases hspacing : isSpacing c with
        | true =>
          apply blank c cs hspacing
          apply ih cs.length (Nat.lt_succ_self _) cs rfl
        | false => exact absurd hfirst (first?_ne_blank hspacing)
      · obtain ⟨us, vs, rfl, rfl, hcut⟩ := first?_sound hfirst
        apply lexeme k c us vs hcut hfirst
        apply ih vs.length _ vs rfl
        rw [List.length_cons, List.length_append]
        omega

/-- A lexeme that is cut off, in front of a spelled text. -/
theorem Spelled.of_cut {k : Kind} {w s : List Char} {gs : List Spelling} (hcut : Cut k w s)
    (h : Spelled s gs) :
  Spelled (w ++ s) ((k, String.ofList w) :: gs)
  := by
  rw [← String.toList_ofList (l := w)] at hcut
  have hspelled := Spelled.lexeme hcut h
  rwa [String.toList_ofList] at hspelled

/-- A text that has tokens spells them. -/
theorem spelled_of_scanFrom {s : List Char} {p : Place} {ts : List Token}
    (h : scanFrom p 0 s = .ok ts) :
  Spelled s (ts.map spelling)
  := by
  induction s using scan_induction generalizing p ts with
  | nil =>
    cases h
    apply Spelled.nil
  | blank c cs hc ih =>
    rw [scanFrom_blank p cs hc] at h
    apply Spelled.blank hc (ih h)
  | stuck c cs hc =>
    rw [scanFrom_stuck p hc] at h
    cases h
  | lexeme k c us vs hcut hfirst ih =>
    rw [scanFrom_lexeme p hfirst] at h
    obtain ⟨ts', hts', rfl⟩ := exists_of_map_eq_ok h
    apply Spelled.of_cut hcut (ih hts')

/-- Where the scanner is stuck, the text in front spells tokens, and the character behind it begins
none. -/
theorem exists_spelled_of_error {s : List Char} {p : Place} {stuck : Stuck}
    (h : scanFrom p 0 s = .error stuck) :
  ∃ u v gs, s = u ++ stuck.char :: v ∧ stuck.place = p.after u ∧ Spelled u gs
    ∧ first? stuck.char v = none
  := by
  induction s using scan_induction generalizing p with
  | nil => cases h
  | blank c cs hc ih =>
    rw [scanFrom_blank p cs hc] at h
    obtain ⟨u, v, gs, rfl, hplace, hspelled, hfirst⟩ := ih h
    exact ⟨c :: u, v, gs, rfl, hplace, .blank hc hspelled, hfirst⟩
  | stuck c cs hc =>
    rw [scanFrom_stuck p hc] at h
    cases h
    exact ⟨[], cs, [], rfl, rfl, .nil, hc⟩
  | lexeme k c us vs hcut hfirst ih =>
    rw [scanFrom_lexeme p hfirst] at h
    obtain ⟨u, v, gs, rfl, hplace, hspelled, hstuck⟩ := ih (eq_error_of_map_eq_error h)
    -- what cuts a lexeme off in front of the whole text cuts it off in front of its beginning
    have hcut' : Cut k (c :: us) u := by
      use hcut.lexeme
      intro d hd
      apply hcut.ends
      rw [List.head?_append, Option.mem_def.mp hd]
      rfl
    refine ⟨_, v, _, ?_, ?_, .of_cut hcut' hspelled, hstuck⟩
    · simp
    · rw [hplace, Place.after_append]

/-! ### The stretch in front of the first blank -/

theorem isSpacing_eq_false_of_any {w : List Char} (h : w.any isSpacing = false) :
  ∀ c ∈ w, isSpacing c = false
  := by
  intro c hc
  rw [List.any_eq_false] at h
  simpa using h c hc

/-- No blank stands in a lexeme. -/
theorem Kind.Lexeme.isSpacing_eq_false {k : Kind} {w : List Char} (h : k.Lexeme w) :
  ∀ c ∈ w, isSpacing c = false
  := by
  rcases k with _ | _ | r | c | k | _ | _ | _
  case number =>
    intro c hc
    apply isSpacing_eq_false_of_class (h.2 c hc) (by decide)
  case identifier =>
    intro c hc
    apply isSpacing_eq_false_of_class (Environment.isWordChar_of_isWord h.1 hc) (by decide)
  case relation =>
    cases r with
    | eq => rcases h with rfl | rfl <;> apply isSpacing_eq_false_of_any rfl
    | _ => cases h; apply isSpacing_eq_false_of_any rfl
  case connective => cases c <;> cases h <;> apply isSpacing_eq_false_of_any rfl
  case keyword => cases k <;> cases h <;> apply isSpacing_eq_false_of_any rfl
  all_goals cases h; apply isSpacing_eq_false_of_any rfl

/-- The characters of a text in front of its first blank. -/
def stretch (s : List Char) : List Char :=
  s.takeWhile fun c => !isSpacing c

theorem stretch_cons {c : Char} (h : isSpacing c = false) (cs : List Char) :
  stretch (c :: cs) = c :: stretch cs
  := by
  apply List.takeWhile_cons_of_pos
  simp [h]

theorem stretch_append {us : List Char} (hus : ∀ c ∈ us, isSpacing c = false) (vs : List Char) :
  stretch (us ++ vs) = us ++ stretch vs
  := by
  apply List.takeWhile_append_of_pos
  intro c hc
  simp [hus c hc]

theorem stretch_blank {c : Char} (h : isSpacing c = true) (cs : List Char) :
  stretch (c :: cs) = []
  := by
  apply List.takeWhile_cons_of_neg
  simp [h]

/-- A property of the first character that blanks do not have is decided by the stretch. -/
theorem any_head?_stretch {p : Char → Bool} (hp : ∀ c, isSpacing c = true → p c = false)
    (s : List Char) :
  (stretch s).head?.any p = s.head?.any p
  := by
  cases s with
  | nil => rfl
  | cons c cs =>
    cases hspacing : isSpacing c with
    | true =>
      rw [stretch_blank hspacing]
      simp [hp c hspacing]
    | false =>
      rw [stretch_cons hspacing]
      rfl

/-- Characters of a class without blanks all stand in the stretch. -/
theorem takeWhile_stretch {p : Char → Bool} (hp : ∀ c, isSpacing c = true → p c = false)
    (s : List Char) :
  (stretch s).takeWhile p = s.takeWhile p
  := by
  rw [stretch, List.takeWhile_takeWhile]
  congr
  funext c
  cases hspacing : isSpacing c with
  | true => simp [hp c hspacing]
  | false => simp

theorem beginsWithMissing_stretch (s : List Char) :
  beginsWithMissing (stretch s) = beginsWithMissing s
  := by
  by_cases h : missingWord <+: s
  · obtain ⟨rest, rfl⟩ := h
    have hword : ∀ c, isSpacing c = true → isWordChar c = false := fun c hc =>
      (not_isWordChar_of_isSpacing hc).1
    rw [stretch_append (isSpacing_eq_false_of_any rfl), beginsWithMissing, beginsWithMissing,
      List.drop_left, List.drop_left, any_head?_stretch hword]
    rfl
  · have hstretch : ¬ missingWord <+: stretch s := fun hbegins =>
      h (hbegins.trans (List.takeWhile_prefix _))
    rw [← List.isPrefixOf_iff_prefix, Bool.not_eq_true] at h hstretch
    rw [beginsWithMissing, beginsWithMissing, h, hstretch]
    rfl

/-- How a text begins is decided by the characters in front of its first blank. -/
theorem first?_stretch (c : Char) (cs : List Char) :
  first? c (stretch cs) = first? c cs
  := by
  cases hspacing : isSpacing c with
  | true => rw [first?_blank _ hspacing, first?_blank _ hspacing]
  | false =>
    have hequals : (stretch cs).head? = some '=' ↔ cs.head? = some '=' := by
      have hany := any_head?_stretch (p := (· == '='))
        (fun d hd => by simpa using (not_isWordChar_of_isSpacing hd).2) cs
      rw [Bool.eq_iff_iff, Option.any_eq_true, Option.any_eq_true] at hany
      simpa using hany
    have hmissing : beginsWithMissing (c :: stretch cs) = beginsWithMissing (c :: cs) := by
      rw [← stretch_cons hspacing, beginsWithMissing_stretch]
    have hword := takeWhile_stretch (fun d hd => (not_isWordChar_of_isSpacing hd).1) cs
    have hnumeral : (stretch cs).takeWhile isNumeral = cs.takeWhile isNumeral := by
      apply takeWhile_stretch
      intro d hd
      have hnot := (not_isWordChar_of_isSpacing hd).1
      rw [isWordChar, Bool.or_eq_false_iff] at hnot
      exact hnot.2
    simp only [first?, hequals, hmissing, hword, hnumeral]

end Token

end Verdict
