import Verdict.Proofs.Token.Placement

/-!
# Texts with blanks between them

No lexeme goes on over a blank, and none begins differently because of what stands behind the next
blank. Two texts with blanks between them are therefore scanned one after the other: the first as if
it stood alone, and the second behind it, with its places counted on from the end of the first.
-/

namespace Verdict

/-! ### Places behind a text -/

/-- The place of a text when another one stands in front of it. Its offset and its line are counted
on, and its column only if it is in the first line, which goes on the last line of the text in
front. -/
def Place.behind (u : List Char) (p : Place) : Place where
  offset := u.length + p.offset
  line := u.count '\n' + p.line
  column := if p.line = 1 then (lastLine u).length + p.column else p.column

namespace Place

theorem behind_start (u : List Char) :
  start.behind u = start.after u
  := by
  have hline := line_after start u
  have hcolumn := column_after_start u
  have hoffset := offset_after_start u
  cases hplace : start.after u
  rw [hplace] at hline hcolumn hoffset
  subst hline hcolumn hoffset
  change Place.mk (u.length + 0) (u.count '\n' + 1) ((lastLine u).length + 1) = _
  rw [Nat.add_zero, Nat.add_comm (u.count '\n'), Nat.add_comm (lastLine u).length]
  rfl

/-- A line feed begins a line that is not the first, so its column is not counted on. -/
theorem behind_next {p : Place} (h : 0 < p.line) (u : List Char) (c : Char) :
  (p.behind u).next c = (p.next c).behind u
  := by
  rw [next, next]
  by_cases hc : c = '\n'
  · have hline : p.line + 1 ≠ 1 := by omega
    rw [if_pos hc, if_pos hc, behind, behind, if_neg hline]
    rfl
  · rw [if_neg hc, if_neg hc, behind, behind]
    congr 1
    split
    · rfl
    · rfl

theorem line_pos_next {p : Place} (h : 0 < p.line) (c : Char) :
  0 < (p.next c).line
  := by
  rw [next]
  split
  · apply Nat.succ_pos
  · exact h

theorem line_pos_after {p : Place} (h : 0 < p.line) (s : List Char) :
  0 < (p.after s).line
  := by
  rw [line_after]
  apply Nat.add_pos_left h

theorem behind_after {p : Place} (h : 0 < p.line) (u s : List Char) :
  (p.behind u).after s = (p.after s).behind u
  := by
  induction s generalizing p with
  | nil => rfl
  | cons c s ih =>
    change ((p.behind u).next c).after s = ((p.next c).after s).behind u
    rw [behind_next h, ih (line_pos_next h c)]

end Place

namespace Token

/-- The token of a text when another one stands in front of it. -/
def behind (u : List Char) (t : Token) : Token :=
  { t with
    offset := u.length + t.offset
    line := u.count '\n' + t.line
    column := if t.line = 1 then (lastLine u).length + t.column else t.column }

theorem behind_atPlace (u : List Char) (p : Place) (k : Kind) (w : String) :
  (atPlace p k w).behind u = atPlace (p.behind u) k w
  := by
  have hline : (p.line : Int) = 1 ↔ p.line = 1 := by omega
  simp only [behind, atPlace, Place.behind, hline]
  split
  · rfl
  · rfl

/-- The character that begins no token, when another text stands in front of its own. -/
def Stuck.behind (u : List Char) (e : Stuck) : Stuck :=
  { e with place := e.place.behind u }

/-- A text is scanned in the same way from a place that is counted on. -/
theorem scanFrom_behind {p : Place} (h : 0 < p.line) (u s : List Char) :
  scanFrom (p.behind u) 0 s =
    ((scanFrom p 0 s).mapError (Stuck.behind u)).map (List.map (Token.behind u))
  := by
  induction s using scan_induction generalizing p with
  | nil => rfl
  | blank c cs hc ih =>
    rw [scanFrom_blank _ cs hc, scanFrom_blank p cs hc, Place.behind_next h]
    apply ih (Place.line_pos_next h c)
  | stuck c cs hc =>
    rw [scanFrom_stuck _ hc, scanFrom_stuck p hc]
    rfl
  | lexeme k c us vs hcut hfirst ih =>
    rw [scanFrom_lexeme _ hfirst, scanFrom_lexeme p hfirst, Place.behind_after h,
      ih (Place.line_pos_after h _), ← behind_atPlace]
    cases scanFrom (p.after (c :: us)) 0 vs with
    | error stuck => rfl
    | ok ts => rfl

/-! ### Blanks between texts -/

/-- What stands in front of the first blank is the same, whatever stands behind a blank. -/
theorem stretch_append_blank {d : Char} (hd : isSpacing d = true) (cs s : List Char) :
  stretch (cs ++ d :: s) = stretch cs
  := by
  induction cs with
  | nil => apply stretch_blank hd
  | cons c cs ih =>
    rw [List.cons_append]
    cases hspacing : isSpacing c with
    | true => rw [stretch_blank hspacing, stretch_blank hspacing]
    | false => rw [stretch_cons hspacing, stretch_cons hspacing, ih]

theorem first?_append_blank {d : Char} (hd : isSpacing d = true) (c : Char) (cs s : List Char) :
  first? c (cs ++ d :: s) = first? c cs
  := by
  rw [← first?_stretch, stretch_append_blank hd, first?_stretch]

/-- A text is scanned up to a blank as if it ended there, and what follows is scanned behind it. -/
theorem scanFrom_append_blank (p : Place) {d : Char} (hd : isSpacing d = true) (a s : List Char) :
  scanFrom p 0 (a ++ d :: s) =
    (scanFrom p 0 a).bind fun ts => (scanFrom (p.after a) 0 (d :: s)).map (ts ++ ·)
  := by
  induction a using scan_induction generalizing p with
  | nil =>
    change _ = (scanFrom p 0 (d :: s)).map ([] ++ ·)
    rw [List.nil_append]
    cases scanFrom p 0 (d :: s) with
    | error stuck => rfl
    | ok ts => rfl
  | blank c cs hc ih =>
    rw [List.cons_append, scanFrom_blank p _ hc, scanFrom_blank p cs hc]
    apply ih
  | stuck c cs hc =>
    have hc' := (first?_append_blank hd c cs s).trans hc
    rw [List.cons_append, scanFrom_stuck p hc', scanFrom_stuck p hc]
    rfl
  | lexeme k c us vs hcut hfirst ih =>
    have hfirst' : first? c (us ++ (vs ++ d :: s)) = some (some k, us.length) := by
      rw [← List.append_assoc, first?_append_blank hd, hfirst]
    have htext : c :: (us ++ vs) ++ d :: s = c :: (us ++ (vs ++ d :: s)) := by simp
    have hplace : p.after (c :: (us ++ vs)) = (p.after (c :: us)).after vs :=
      p.after_append (c :: us) vs
    rw [htext, scanFrom_lexeme p hfirst', scanFrom_lexeme p hfirst, ih, hplace]
    cases scanFrom (p.after (c :: us)) 0 vs with
    | error stuck => rfl
    | ok ts =>
      change _ = (scanFrom ((p.after (c :: us)).after vs) 0 (d :: s)).map _
      cases scanFrom ((p.after (c :: us)).after vs) 0 (d :: s) with
      | error stuck => rfl
      | ok us => rfl

theorem scanFrom_blanks (p : Place) {w : List Char} (h : ∀ c ∈ w, isSpacing c = true)
    (s : List Char) :
  scanFrom p 0 (w ++ s) = scanFrom (p.after w) 0 s
  := by
  induction w generalizing p with
  | nil => rfl
  | cons c w ih =>
    rw [List.forall_mem_cons] at h
    rw [List.cons_append, scanFrom_blank p _ h.1, ih (p.next c) h.2]
    rfl

/-- Two texts with blanks between them are scanned one after the other. -/
theorem scan_append_gap {gap : String} (hgap : IsGap gap) (hne : gap ≠ "") (a b : String) :
  scan (a ++ gap ++ b) = (scan a).bind fun ts =>
    (((scan b).mapError (Stuck.behind (a ++ gap).toList)).map
      (List.map (Token.behind (a ++ gap).toList))).map (ts ++ ·)
  := by
  obtain ⟨d, w, hd⟩ : ∃ d w, gap.toList = d :: w := by
    apply List.exists_cons_of_ne_nil
    rwa [Ne, String.toList_eq_nil_iff]
  have hgap' := hgap
  rw [IsGap, hd, List.forall_mem_cons] at hgap'
  have htext : (a ++ gap ++ b).toList = a.toList ++ d :: (w ++ b.toList) := by simp [hd]
  have hblanks : scanFrom (Place.start.after a.toList) 0 (d :: (w ++ b.toList)) =
      scanFrom (Place.start.behind (a ++ gap).toList) 0 b.toList := by
    have hsplit : d :: (w ++ b.toList) = gap.toList ++ b.toList := by simp [hd]
    rw [hsplit, scanFrom_blanks _ hgap, ← Place.after_append, ← String.toList_append,
      Place.behind_start]
  have hcounted := scanFrom_behind (p := .start) Nat.one_pos (a ++ gap).toList b.toList
  rw [scan, htext, scanFrom_append_blank .start hgap'.1, hblanks, hcounted]
  rfl

/-- Two texts with blanks between them. What begins no token in the first is told as if the first
stood alone. If the first has tokens, what begins no token in the second is told at the place that
it has behind the first. If both have tokens, these are those of the first and then those of the
second, with the same kinds and texts, at the places that they have behind the first. -/
theorem tokens_append_gap {gap : String} (hgap : IsGap gap) (hne : gap ≠ "") (a b : String) :
  (∀ f, Rule.tokens a = .error f → Rule.tokens (a ++ gap ++ b) = .error f)
    ∧ (∀ ts stuck, Rule.tokens a = .ok ts → Rule.tokens b = .error (Fault.lexical stuck) →
        Rule.tokens (a ++ gap ++ b) =
          .error (Fault.lexical (stuck.behind (a ++ gap).toList)))
    ∧ ∀ ts us, Rule.tokens a = .ok ts → Rule.tokens b = .ok us →
        Rule.tokens (a ++ gap ++ b) = .ok (ts ++ us.map (Token.behind (a ++ gap).toList))
  := by
  have hscan := scan_append_gap hgap hne a b
  refine ⟨?_, ?_, ?_⟩
  · intro f ha
    cases hfirst : scan a with
    | error stuck =>
      rw [hfirst] at hscan
      rw [Rule.tokens, hfirst] at ha
      rw [Rule.tokens, hscan]
      exact ha
    | ok ts =>
      rw [Rule.tokens, hfirst] at ha
      cases ha
  · intro ts stuck ha hb
    rw [tokens_eq_ok_iff] at ha
    rw [tokens_eq_error_iff] at hb ⊢
    rw [hscan, ha, hb]
    rfl
  · intro ts us ha hb
    rw [tokens_eq_ok_iff] at ha hb ⊢
    rw [hscan, ha, hb]
    rfl

/-- The text in front ends with a sign that an equals sign would go on, and the blanks begin a line.
-/
theorem tokens_append_gap_danglingSign :
  IsGap "\n\t" ∧ "\n\t" ≠ ""
    ∧ Rule.tokens "x=" = .error (Fault.lexical ⟨⟨1, 1, 2⟩, '='⟩)
    ∧ Rule.tokens ("x=" ++ "\n\t" ++ "=1") = .error (Fault.lexical ⟨⟨1, 1, 2⟩, '='⟩)
    ∧ Rule.tokens "a\nx >" =
      .ok [⟨.identifier, "a", 0, 1, 1⟩, ⟨.identifier, "x", 2, 2, 1⟩, ⟨.relation .gt, ">", 4, 2, 3⟩]
    ∧ Rule.tokens "= 1" = .error (Fault.lexical ⟨⟨0, 1, 1⟩, '='⟩)
    ∧ Rule.tokens ("a\nx >" ++ "\n\t" ++ "= 1") = .error (Fault.lexical ⟨⟨7, 3, 2⟩, '='⟩)
    ∧ Rule.tokens "==\n1" = .ok [⟨.relation .eq, "==", 0, 1, 1⟩, ⟨.number, "1", 3, 2, 1⟩]
    ∧ Rule.tokens ("a\nx >" ++ "\n\t" ++ "==\n1") =
      .ok [⟨.identifier, "a", 0, 1, 1⟩, ⟨.identifier, "x", 2, 2, 1⟩, ⟨.relation .gt, ">", 4, 2, 3⟩,
        ⟨.relation .eq, "==", 7, 3, 2⟩, ⟨.number, "1", 10, 4, 1⟩]
  := by
  have hgap : IsGap "\n\t" := by decide
  have hne : "\n\t" ≠ "" := by decide
  have hstuck : Rule.tokens "x=" = .error (Fault.lexical ⟨⟨1, 1, 2⟩, '='⟩) := rfl
  have hlone : Rule.tokens "= 1" = .error (Fault.lexical ⟨⟨0, 1, 1⟩, '='⟩) := rfl
  obtain ⟨hfirst, -, -⟩ := tokens_append_gap hgap hne "x=" "=1"
  obtain ⟨-, hsecond, -⟩ := tokens_append_gap hgap hne "a\nx >" "= 1"
  obtain ⟨-, -, hboth⟩ := tokens_append_gap hgap hne "a\nx >" "==\n1"
  exact ⟨hgap, hne, hstuck, hfirst _ hstuck, rfl, hlone, hsecond _ _ rfl hlone, rfl,
    hboth _ _ rfl rfl⟩

end Token

end Verdict
