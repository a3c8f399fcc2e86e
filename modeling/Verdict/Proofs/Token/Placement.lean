import Mathlib.Data.List.DropRight
import Verdict.Proofs.Token.Course

/-!
# Lines and columns

The line of a place is counted by the line feeds in front of it, and its column by the characters
behind the last of them. Every token of a rule, and the character that begins none, is at such a
place. Lines that end with a carriage return as well therefore move no token and no fault to another
line or column.
-/

namespace Verdict

/-! ### Counting lines and columns -/

/-- The characters of a text behind its last line feed, or all of them where it has none. -/
def lastLine (s : List Char) : List Char :=
  s.rtakeWhile (· != '\n')

theorem lastLine_concat_feed (s : List Char) :
  lastLine (s ++ ['\n']) = []
  := by
  apply List.rtakeWhile_concat_neg
  simp

theorem lastLine_concat {c : Char} (h : c ≠ '\n') (s : List Char) :
  lastLine (s ++ [c]) = lastLine s ++ [c]
  := by
  apply List.rtakeWhile_concat_pos
  simpa using h

namespace Place

theorem after_concat (p : Place) (s : List Char) (c : Char) :
  p.after (s ++ [c]) = (p.after s).next c
  := p.after_append s [c]

/-- Behind a text the line is greater by the number of its line feeds. -/
theorem line_after (p : Place) (s : List Char) :
  (p.after s).line = p.line + s.count '\n'
  := by
  induction s using List.reverseRecOn with
  | nil => rfl
  | append_singleton s c ih =>
    rw [after_concat, next, List.count_append]
    by_cases hc : c = '\n'
    · rw [if_pos hc, hc, ih]
      rfl
    · have hcount : [c].count '\n' = 0 := List.count_eq_zero.mpr (by simpa using Ne.symm hc)
      rw [if_neg hc, hcount]
      apply ih

/-- Behind a text the column is counted from its last line feed, and goes on from the column in
front of it where it has none. -/
theorem column_after (p : Place) (s : List Char) :
  (p.after s).column = if '\n' ∈ s then 1 + (lastLine s).length else p.column + s.length
  := by
  induction s using List.reverseRecOn with
  | nil => rfl
  | append_singleton s c ih =>
    rw [after_concat, next]
    by_cases hc : c = '\n'
    · rw [if_pos hc, hc, lastLine_concat_feed, if_pos (by simp)]
      rfl
    · have hmem : '\n' ∈ s ++ [c] ↔ '\n' ∈ s := by simp [Ne.symm hc]
      rw [if_neg hc, lastLine_concat hc, List.length_append, List.length_append]
      simp only [hmem, ih]
      split
      · rw [Nat.add_assoc]
        rfl
      · rw [Nat.add_assoc]
        rfl

/-- The column behind a text is counted from its last line feed, or from its beginning. -/
theorem column_after_start (s : List Char) :
  (start.after s).column = 1 + (lastLine s).length
  := by
  rw [column_after]
  split
  · rfl
  · next h =>
    have hall : ∀ c ∈ s, (c != '\n') = true := by
      intro c hc
      rw [bne_iff_ne]
      rintro rfl
      apply h hc
    rw [lastLine, List.rtakeWhile_eq_self_iff.mpr hall]
    rfl

/-- The place without its offset. -/
def withoutOffset (p : Place) : Place :=
  { p with offset := 0 }

theorem withoutOffset_next {p q : Place} (h : p.withoutOffset = q.withoutOffset) (c : Char) :
  (p.next c).withoutOffset = (q.next c).withoutOffset
  := by
  injection h with _ hline hcolumn
  rw [next, next, hline, hcolumn]
  split
  · rfl
  · rfl

theorem withoutOffset_after {p q : Place} (h : p.withoutOffset = q.withoutOffset)
    (s : List Char) :
  (p.after s).withoutOffset = (q.after s).withoutOffset
  := by
  induction s generalizing p q with
  | nil => exact h
  | cons c s ih => apply ih (withoutOffset_next h c)

/-- The place in front of the character with the given offset, counted out. -/
theorem after_take {s u v : List Char} (h : s = u ++ v) :
  (start.after u).line = 1 + (s.take u.length).count '\n'
    ∧ (start.after u).column = 1 + (lastLine (s.take u.length)).length
  := by
  rw [h, List.take_left, line_after, column_after_start]
  exact ⟨rfl, rfl⟩

end Place

namespace Token

/-- The tokens of a text are at the places behind its beginnings. -/
theorem exists_place_of_scanFrom {s : List Char} {p : Place} {ts : List Token}
    (h : scanFrom p 0 s = .ok ts) :
  ∀ t ∈ ts, ∃ u v, s = u ++ v ∧ t = .atPlace (p.after u) t.kind t.text
  := by
  induction s using scan_induction generalizing p ts with
  | nil =>
    cases h
    simp
  | blank c cs hc ih =>
    rw [scanFrom_blank p cs hc] at h
    intro t ht
    obtain ⟨u, v, rfl, hplace⟩ := ih h t ht
    exact ⟨c :: u, v, rfl, hplace⟩
  | stuck c cs hc =>
    rw [scanFrom_stuck p hc] at h
    cases h
  | lexeme k c us vs hcut hfirst ih =>
    rw [scanFrom_lexeme p hfirst] at h
    obtain ⟨ts', hts', rfl⟩ := exists_of_map_eq_ok h
    rw [List.forall_mem_cons]
    constructor
    · exact ⟨[], _, rfl, rfl⟩
    · intro t ht
      obtain ⟨u, v, rfl, hplace⟩ := ih hts' t ht
      refine ⟨c :: us ++ u, v, by simp, ?_⟩
      rwa [Place.after_append]

/-! ### Carriage returns at the ends of lines -/

/-- The text with a carriage return put in front of each of its line feeds. -/
def withReturns (s : List Char) : List Char :=
  s.flatMap fun c => if c = '\n' then ['\r', '\n'] else [c]

theorem withReturns_feed (s : List Char) :
  withReturns ('\n' :: s) = '\r' :: '\n' :: withReturns s
  := rfl

theorem withReturns_cons {c : Char} (h : c ≠ '\n') (s : List Char) :
  withReturns (c :: s) = c :: withReturns s
  := by
  rw [withReturns, List.flatMap_cons, if_neg h]
  rfl

/-- Characters among which there is no line feed are left as they are. -/
theorem withReturns_append {us : List Char} (h : ∀ c ∈ us, isSpacing c = false) (vs : List Char) :
  withReturns (us ++ vs) = us ++ withReturns vs
  := by
  induction us with
  | nil => rfl
  | cons c us ih =>
    rw [List.forall_mem_cons] at h
    have hc : c ≠ '\n' := by
      rintro rfl
      cases h.1
    rw [List.cons_append, withReturns_cons hc, ih h.2]
    rfl

/-- The first blank is at the same place. -/
theorem stretch_withReturns (s : List Char) :
  stretch (withReturns s) = stretch s
  := by
  induction s with
  | nil => rfl
  | cons c s ih =>
    by_cases hc : c = '\n'
    · subst hc
      rfl
    · rw [withReturns_cons hc]
      cases hspacing : isSpacing c with
      | true => rw [stretch_blank hspacing, stretch_blank hspacing]
      | false => rw [stretch_cons hspacing, stretch_cons hspacing, ih]

/-- The token without its offset. -/
def withoutOffset (t : Token) : Token :=
  { t with offset := 0 }

/-- The character that begins no token, without its offset. -/
def Stuck.withoutOffset (e : Stuck) : Stuck :=
  { e with place := e.place.withoutOffset }

/-- The outcome of a scan without offsets. -/
def withoutOffsets (r : Except Stuck (List Token)) : Except Stuck (List Token) :=
  match r with
  | .ok ts => .ok (ts.map withoutOffset)
  | .error e => .error e.withoutOffset

theorem withoutOffsets_map_cons (t : Token) (r : Except Stuck (List Token)) :
  withoutOffsets (r.map (t :: ·)) = (withoutOffsets r).map (t.withoutOffset :: ·)
  := by
  cases r with
  | error e => rfl
  | ok ts => rfl

/-- A scan that agrees with a successful one up to offsets is successful. -/
theorem exists_of_withoutOffsets_eq_ok {r : Except Stuck (List Token)} {ts : List Token}
    (h : withoutOffsets r = withoutOffsets (.ok ts)) :
  ∃ ts', r = .ok ts' ∧ ts'.map withoutOffset = ts.map withoutOffset
  := by
  cases r with
  | error e => cases h
  | ok ts' =>
    use ts', rfl
    apply Except.ok.inj h

/-- A scan that agrees with a stuck one up to offsets is stuck at the same line and column. -/
theorem exists_of_withoutOffsets_eq_error {r : Except Stuck (List Token)} {stuck : Stuck}
    (h : withoutOffsets r = withoutOffsets (.error stuck)) :
  ∃ stuck', r = .error stuck' ∧ stuck'.place.line = stuck.place.line
    ∧ stuck'.place.column = stuck.place.column ∧ stuck'.char = stuck.char
  := by
  cases r with
  | error e =>
    use e, rfl
    injection h with hstuck
    injection hstuck with hplace hchar
    injection hplace with _ hline hcolumn
    exact ⟨hline, hcolumn, hchar⟩
  | ok ts => cases h

theorem withoutOffset_atPlace {p q : Place} (h : p.withoutOffset = q.withoutOffset) (k : Kind)
    (w : String) :
  (Token.atPlace p k w).withoutOffset = (Token.atPlace q k w).withoutOffset
  := by
  injection h with _ hline hcolumn
  simp [Token.atPlace, withoutOffset, hline, hcolumn]

/-- Carriage returns in front of the line feeds change nothing but offsets. -/
theorem scanFrom_withReturns {p q : Place} (h : p.withoutOffset = q.withoutOffset)
    (s : List Char) :
  withoutOffsets (scanFrom p 0 (withReturns s)) = withoutOffsets (scanFrom q 0 s)
  := by
  induction s using scan_induction generalizing p q with
  | nil => rfl
  | blank c cs hc ih =>
    rw [scanFrom_blank q cs hc]
    by_cases hfeed : c = '\n'
    · subst hfeed
      rw [withReturns_feed, scanFrom_blank p _ rfl, scanFrom_blank (p.next '\r') _ rfl]
      -- the carriage return has moved the column, which the line feed sets back
      apply ih
      injection h with _ hline
      simp [Place.withoutOffset, Place.next, hline]
    · rw [withReturns_cons hfeed, scanFrom_blank p _ hc]
      apply ih (Place.withoutOffset_next h c)
  | stuck c cs hc =>
    have hfeed : c ≠ '\n' := by
      rintro rfl
      cases hc
    have hc' : first? c (withReturns cs) = none := by
      rw [← first?_stretch, stretch_withReturns, first?_stretch, hc]
    rw [withReturns_cons hfeed, scanFrom_stuck p hc', scanFrom_stuck q hc]
    simp [withoutOffsets, Stuck.withoutOffset, h]
  | lexeme k c us vs hcut hfirst ih =>
    have hspacing := hcut.lexeme.isSpacing_eq_false
    have hfirst' : first? c (us ++ withReturns vs) = some (some k, us.length) := by
      rw [List.forall_mem_cons] at hspacing
      rw [← withReturns_append hspacing.2, ← first?_stretch, stretch_withReturns, first?_stretch,
        hfirst]
    have htext : withReturns (c :: (us ++ vs)) = c :: (us ++ withReturns vs) :=
      withReturns_append hspacing vs
    have hbehind := ih (Place.withoutOffset_after h (c :: us))
    rw [htext, scanFrom_lexeme p hfirst', scanFrom_lexeme q hfirst, withoutOffsets_map_cons,
      withoutOffsets_map_cons, hbehind, withoutOffset_atPlace h]

/-! ### The places of tokens and of faults -/

/-- The line of every token is one more than the number of line feeds in front of it, and its column
one more than the number of characters between the last of them and the token. A character that
begins no token is told with its line and column in the same way. If a carriage return is put in
front of every line feed, the tokens keep their kinds, texts, lines and columns, and the character
that begins none its line and column. -/
theorem tokens_placement (text : String) :
  (∀ ts, Rule.tokens text = .ok ts → ∀ t ∈ ts, ∃ n ≤ text.length, t.offset = n
      ∧ t.line = (1 + (text.toList.take n).count '\n' : Nat)
      ∧ t.column = (1 + (lastLine (text.toList.take n)).length : Nat))
    ∧ (∀ stuck, Rule.tokens text = .error (Fault.lexical stuck) →
        stuck.place.line = 1 + (text.toList.take stuck.place.offset).count '\n'
          ∧ stuck.place.column = 1 + (lastLine (text.toList.take stuck.place.offset)).length)
    ∧ (∀ ts, Rule.tokens text = .ok ts →
        ∃ ts', Rule.tokens (String.ofList (withReturns text.toList)) = .ok ts'
          ∧ ts'.map withoutOffset = ts.map withoutOffset)
    ∧ ∀ stuck, Rule.tokens text = .error (Fault.lexical stuck) →
        ∃ stuck', Rule.tokens (String.ofList (withReturns text.toList)) =
            .error (Fault.lexical stuck')
          ∧ stuck'.place.line = stuck.place.line ∧ stuck'.place.column = stuck.place.column
          ∧ stuck'.char = stuck.char
  := by
  have hreturns : withoutOffsets (scan (String.ofList (withReturns text.toList))) =
      withoutOffsets (scan text) := by
    rw [scan, scan, String.toList_ofList]
    apply scanFrom_withReturns rfl
  simp only [tokens_eq_ok_iff, tokens_eq_error_iff]
  refine ⟨?_, ?_, ?_, ?_⟩
  · intro ts hts t ht
    obtain ⟨u, v, htext, hplace⟩ := exists_place_of_scanFrom hts t ht
    obtain ⟨hline, hcolumn⟩ := Place.after_take htext
    refine ⟨u.length, ?_, ?_, ?_, ?_⟩
    · rw [← String.length_toList, htext, List.length_append]
      omega
    · rw [hplace, Token.atPlace, Place.offset_after_start]
    · rw [hplace, Token.atPlace, hline]
    · rw [hplace, Token.atPlace, hcolumn]
  · intro stuck hstuck
    obtain ⟨u, v, gs, htext, hplace, -⟩ := exists_spelled_of_error hstuck
    rw [hplace, Place.offset_after_start]
    apply Place.after_take htext
  · intro ts hts
    rw [hts] at hreturns
    apply exists_of_withoutOffsets_eq_ok hreturns
  · intro stuck hstuck
    rw [hstuck] at hreturns
    apply exists_of_withoutOffsets_eq_error hreturns

/-- A text with blanks of all kinds at the ends and beginnings of its lines. -/
def brokenLines : String :=
  "IF\r\n\t(x\n \n>="

/-- A text with a character that begins no token in its third line. -/
def strayLine : String :=
  "a\n\n\tb ? c"

theorem tokens_placement_brokenLines :
  (∃ ts, Rule.tokens brokenLines = .ok ts
      ∧ (⟨.relation .ge, ">=", 10, 4, 1⟩ : Token) ∈ ts
      ∧ (∃ n ≤ brokenLines.length, (10 : Int) = n
        ∧ (4 : Int) = (1 + (brokenLines.toList.take n).count '\n' : Nat)
        ∧ (1 : Int) = (1 + (lastLine (brokenLines.toList.take n)).length : Nat))
      ∧ ∃ ts', Rule.tokens (String.ofList (withReturns brokenLines.toList)) = .ok ts'
        ∧ ts'.map withoutOffset = ts.map withoutOffset)
    ∧ ∃ stuck, Rule.tokens strayLine = .error (Fault.lexical stuck)
      ∧ (stuck.place.line = 1 + (strayLine.toList.take stuck.place.offset).count '\n'
        ∧ stuck.place.column = 1 + (lastLine (strayLine.toList.take stuck.place.offset)).length)
      ∧ ∃ stuck', Rule.tokens (String.ofList (withReturns strayLine.toList)) =
          .error (Fault.lexical stuck')
        ∧ stuck'.place.line = stuck.place.line ∧ stuck'.place.column = stuck.place.column
        ∧ stuck'.char = stuck.char
  := by
  obtain ⟨hplaces, -, hreturns, -⟩ := tokens_placement brokenLines
  obtain ⟨-, hstray, -, hstray'⟩ := tokens_placement strayLine
  refine ⟨⟨_, rfl, by decide, hplaces _ rfl ⟨.relation .ge, ">=", 10, 4, 1⟩ (by decide),
    hreturns _ rfl⟩, ⟨⟨6, 3, 4⟩, '?'⟩, rfl, hstray _ rfl, hstray' _ rfl⟩

end Token

end Verdict
