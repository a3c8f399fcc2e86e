import Verdict.Proofs.Token.Composition
import Verdict.Proofs.Token.Placement

/-!
# Sweeping over a text

The tokens of a text can also be found by a sweep, which keeps the number of the current line and
the offset at which this line begins. The sweep goes over all blanks up to the next lexeme at once:
then the line is greater by the number of line feeds among them, and it begins behind the last one.
Lines and columns are thus counted once for each run of blanks, and not for each character. The
sweep finds the tokens that `scan` finds, and it is stuck where `scan` is.
-/

namespace Verdict

/-- Behind its last line feed a text has as many characters as its reversal has in front of the
first one. -/
theorem length_lastLine (s : List Char) :
  (lastLine s).length = s.reverse.idxOf '\n'
  := by
  have hfind : s.reverse.findIdx (fun c => !(c != '\n')) = s.reverse.idxOf '\n' := by
    simp [List.idxOf, bne]
  rw [lastLine, List.rtakeWhile, List.length_reverse, List.takeWhile_eq_take_findIdx_not,
    List.length_take, hfind, Nat.min_eq_left List.idxOf_le_length]

namespace Token

/-- A sweep over a text: the offset where it is, the number of the line, the offset at which the
line begins, and the tokens that have been found. -/
structure Sweep where
  offset : Nat
  line : Nat
  lineStart : Nat
  tokens : List Token

namespace Sweep

/-- The sweep at the beginning of a text. -/
def start : Sweep := ⟨0, 1, 0, []⟩

/-- The place where a sweep is. -/
def place (w : Sweep) : Place :=
  ⟨w.offset, w.line, w.offset - w.lineStart + 1⟩

/-- The index of the last line feed among some characters. -/
def lastFeed (run : List Char) : Nat :=
  run.length - 1 - run.reverse.idxOf '\n'

/-- The sweep behind a run of blanks. -/
def overBlanks (w : Sweep) (run : List Char) : Sweep :=
  let feeds := run.count '\n'
  if feeds = 0 then
    { w with offset := w.offset + run.length }
  else
    ⟨w.offset + run.length, w.line + feeds, w.offset + lastFeed run + 1, w.tokens⟩

/-- The sweep behind a lexeme, which is a token of the given kind. -/
def overLexeme (w : Sweep) (kind : Kind) (lexeme : List Char) : Sweep :=
  { w with
    offset := w.offset + lexeme.length
    tokens := w.tokens ++ [.atPlace w.place kind (String.ofList lexeme)] }

/-- One round of a sweep. At the end of the text nothing is left to do. -/
def step (text : List Char) (w : Sweep) : Except Stuck Sweep :=
  match text.drop w.offset with
  | [] => .ok w
  | c :: cs =>
    match first? c cs with
    | none => .error ⟨w.place, c⟩
    | some (none, _) => .ok (w.overBlanks ((c :: cs).takeWhile isSpacing))
    | some (some kind, n) => .ok (w.overLexeme kind (c :: cs.take n))

/-- The given number of rounds, unless the sweep is stuck. -/
def rounds (text : List Char) : Nat → Sweep → Except Stuck Sweep
  | 0, w => .ok w
  | n + 1, w => (w.step text).bind (rounds text n)

/-! ### Places -/

section

variable {w : Sweep} (h : w.lineStart ≤ w.offset)

theorem lastFeed_add_length {run : List Char} (hmem : '\n' ∈ run) :
  lastFeed run + 1 + (lastLine run).length = run.length
  := by
  have hlt : run.reverse.idxOf '\n' < run.length := by
    rw [← List.length_reverse, List.idxOf_lt_length_iff, List.mem_reverse]
    exact hmem
  rw [length_lastLine, lastFeed]
  omega

include h in
/-- Behind a run of blanks the sweep is at the place that is counted out character by character. -/
theorem place_overBlanks (run : List Char) :
  (w.overBlanks run).place = w.place.after run
  := by
  have hcolumn := Place.column_after w.place run
  rw [overBlanks]
  by_cases hmem : '\n' ∈ run
  · have hlength := lastFeed_add_length hmem
    rw [if_pos hmem] at hcolumn
    rw [if_neg (List.count_pos_iff.mpr hmem).ne', place, Place.mk.injEq, Place.offset_after,
      Place.line_after, hcolumn]
    refine ⟨rfl, rfl, ?_⟩
    change w.offset + run.length - (w.offset + lastFeed run + 1) + 1 = _
    omega
  · have hcount := List.count_eq_zero.mpr hmem
    rw [if_neg hmem] at hcolumn
    rw [if_pos hcount, place, Place.mk.injEq, Place.offset_after, Place.line_after, hcolumn, hcount]
    refine ⟨rfl, rfl, ?_⟩
    change w.offset + run.length - w.lineStart + 1 = w.offset - w.lineStart + 1 + run.length
    omega

include h in
theorem place_overLexeme (kind : Kind) {lexeme : List Char} (hfeed : '\n' ∉ lexeme) :
  (w.overLexeme kind lexeme).place = w.place.after lexeme
  := by
  have hcolumn := Place.column_after w.place lexeme
  rw [if_neg hfeed] at hcolumn
  rw [overLexeme, place, Place.mk.injEq, Place.offset_after, Place.line_after, hcolumn,
    List.count_eq_zero.mpr hfeed]
  refine ⟨rfl, rfl, ?_⟩
  change w.offset + lexeme.length - w.lineStart + 1 = w.offset - w.lineStart + 1 + lexeme.length
  omega

end

/-! ### One round -/

/-- The sweep has the rest of a text in front of it, in a line that begins behind it. -/
structure Faces (w : Sweep) (text rest : List Char) : Prop where
  drop : text.drop w.offset = rest
  lineStart : w.lineStart ≤ w.offset

namespace Faces

variable {w : Sweep} {text rest : List Char}

theorem overBlanks {run : List Char} (h : w.Faces text (run ++ rest)) :
  (w.overBlanks run).Faces text rest
  := by
  have hdrop : text.drop (w.offset + run.length) = rest := by
    rw [← List.drop_drop, h.drop, List.drop_left]
  have hstart := h.lineStart
  rw [Sweep.overBlanks]
  by_cases hmem : '\n' ∈ run
  · have hlength := lastFeed_add_length hmem
    rw [if_neg (List.count_pos_iff.mpr hmem).ne']
    exact ⟨hdrop, by dsimp only; omega⟩
  · rw [if_pos (List.count_eq_zero.mpr hmem)]
    exact ⟨hdrop, by dsimp only; omega⟩

theorem overLexeme {lexeme : List Char} (h : w.Faces text (lexeme ++ rest)) (kind : Kind) :
  (w.overLexeme kind lexeme).Faces text rest
  := by
  have hdrop : text.drop (w.offset + lexeme.length) = rest := by
    rw [← List.drop_drop, h.drop, List.drop_left]
  exact ⟨hdrop, Nat.le_add_right_of_le h.lineStart⟩

/-- A sweep is stuck as the scanner is. -/
theorem step_stuck {c : Char} {cs : List Char} (h : w.Faces text (c :: cs))
    (hfirst : first? c cs = none) :
  w.step text = .error ⟨w.place, c⟩
  := by
  rw [step, h.drop]
  simp only [hfirst]

theorem step_blanks {c : Char} {cs : List Char} (h : w.Faces text (c :: cs))
    (hblank : isSpacing c = true) :
  w.step text = .ok (w.overBlanks ((c :: cs).takeWhile isSpacing))
  := by
  rw [step, h.drop]
  simp only [first?_blank cs hblank]

theorem step_lexeme {kind : Kind} {c : Char} {us vs : List Char}
    (h : w.Faces text (c :: (us ++ vs)))
    (hfirst : first? c (us ++ vs) = some (some kind, us.length)) :
  w.step text = .ok (w.overLexeme kind (c :: us))
  := by
  rw [step, h.drop]
  simp only [hfirst, List.take_left]

/-- In one round a sweep is stuck as the scanner is, or it goes on to where the scanner goes on with
the tokens that have been found. -/
theorem step {c : Char} {cs : List Char} (h : w.Faces text (c :: cs)) :
  (∃ stuck, w.step text = .error stuck ∧ scanFrom w.place 0 (c :: cs) = .error stuck)
    ∨ ∃ w' rest ts, w.step text = .ok w' ∧ w'.Faces text rest ∧ rest.length < (c :: cs).length
      ∧ w'.tokens = w.tokens ++ ts
      ∧ scanFrom w.place 0 (c :: cs) = (scanFrom w'.place 0 rest).map (ts ++ ·)
  := by
  rcases hfirst : first? c cs with - | ⟨- | kind, n⟩
  · left
    exact ⟨_, h.step_stuck hfirst, scanFrom_stuck w.place hfirst⟩
  · right
    have hblank : isSpacing c = true := by
      by_contra hnot
      rw [Bool.not_eq_true] at hnot
      exact first?_ne_blank hnot hfirst
    have hsplit : (c :: cs).takeWhile isSpacing ++ (c :: cs).dropWhile isSpacing = c :: cs :=
      List.takeWhile_append_dropWhile
    have hspacing : ∀ d ∈ (c :: cs).takeWhile isSpacing, isSpacing d = true :=
      fun d hd => List.mem_takeWhile_imp hd
    have hstep := h.step_blanks hblank
    have hshorter : ((c :: cs).dropWhile isSpacing).length < (c :: cs).length := by
      rw [List.dropWhile_cons_of_pos hblank, List.length_cons, Nat.lt_succ_iff]
      apply (List.dropWhile_suffix isSpacing).length_le
    have hfaces := h
    rw [← hsplit] at hfaces
    refine ⟨_, _, [], hstep, hfaces.overBlanks, hshorter, ?_, ?_⟩
    · rw [Sweep.overBlanks, List.append_nil]
      split
      · rfl
      · rfl
    · rw [place_overBlanks h.lineStart, ← scanFrom_blanks w.place hspacing, hsplit]
      cases scanFrom w.place 0 (c :: cs) with
      | error stuck => rfl
      | ok ts => rfl
  · right
    obtain ⟨us, vs, rfl, rfl, hcut⟩ := first?_sound hfirst
    have hfeed : '\n' ∉ c :: us := by
      intro hmem
      cases hcut.lexeme.isSpacing_eq_false _ hmem
    refine ⟨_, vs, [.atPlace w.place kind (String.ofList (c :: us))], h.step_lexeme hfirst,
      overLexeme h kind, ?_, rfl, ?_⟩
    · rw [List.length_cons, List.length_append]
      omega
    · rw [place_overLexeme h.lineStart kind hfeed, scanFrom_lexeme w.place hfirst]
      rfl

/-! ### All rounds -/

/-- A sweep finds what the scanner finds in the rest of the text, if there are enough rounds. -/
theorem tokens_rounds (h : w.Faces text rest) {n : Nat} (hn : rest.length ≤ n) :
  (rounds text n w).map tokens = (scanFrom w.place 0 rest).map (w.tokens ++ ·)
  := by
  induction n generalizing w rest with
  | zero =>
    rw [List.eq_nil_of_length_eq_zero (Nat.le_zero.mp hn), scanFrom, rounds]
    simp [Except.map]
  | succ n ih =>
    rw [rounds]
    cases rest with
    | nil =>
      have hdone : w.step text = .ok w := by rw [Sweep.step, h.drop]
      rw [hdone]
      apply ih h (Nat.zero_le n)
    | cons c cs =>
      rcases h.step with ⟨stuck, hstep, hscan⟩ | ⟨w', rest, ts, hstep, hfaces, hlt, htokens, hscan⟩
      · rw [hstep, hscan]
        rfl
      · rw [hstep, hscan]
        change (rounds text n w').map tokens = _
        rw [ih hfaces (by omega), htokens]
        cases scanFrom w'.place 0 rest with
        | error stuck => rfl
        | ok us => simp [Except.map]

end Faces

/-- A sweep over a text finds its tokens, or is stuck where the scanner is. -/
theorem tokens_rounds_start (text : String) :
  (rounds text.toList text.length start).map tokens = scan text
  := by
  have hfaces : start.Faces text.toList text.toList := ⟨rfl, Nat.le_refl 0⟩
  rw [hfaces.tokens_rounds (by rw [String.length_toList]), scan]
  change (scanFrom .start 0 text.toList).map ([] ++ ·) = _
  cases scanFrom .start 0 text.toList with
  | error stuck => rfl
  | ok ts => rfl

end Sweep

end Token

end Verdict
