import Mathlib.Tactic.Use
import Verdict.Proofs.Grammar.Transition
import Verdict.Proofs.Token.Lexeme
import Verdict.Rule

/-!
# Segmentations

A segmentation of a text is a list of segments that stand in it one behind the other, with
nothing but blanks outside of them, such that each of them is a lexeme and no lexeme is continued
by the character behind it. A text has at most one segmentation, and the tokens of a rule are its
segmentation. A rule without one has no tokens.

`SegmentedFrom s n gs` is a segmentation of the characters of `s` from the `n`-th on. The
scanner, which is at the `n`-th character, and the segmentation go on together: over a blank, or
over a lexeme that is cut off.
-/

namespace Verdict

open Token

/-- A segment of a text: a token without its line and column. -/
@[ext]
structure Segment where
  kind : Token.Kind
  text : String
  offset : Int

/-- The segment of a token. -/
def Token.segment (t : Token) : Segment :=
  ⟨t.kind, t.text, t.offset⟩

namespace Segment

/-- The offset just behind a segment. -/
def endOffset (g : Segment) : Int :=
  g.offset + g.text.length

/-- The character with the given offset belongs to the segment. -/
def Covers (g : Segment) (i : Nat) : Prop :=
  g.offset ≤ i ∧ (i : Int) < g.endOffset

/-- The segment stands in the text at its offset, is a lexeme of its kind, and is not continued
by the character behind it. -/
structure Fits (s : List Char) (g : Segment) : Prop where
  nonneg : 0 ≤ g.offset
  stands : (s.drop g.offset.toNat).take g.text.length = g.text.toList
  lexeme : g.kind.Lexeme g.text.toList
  ends : ∀ c, s[g.endOffset.toNat]? = some c → g.kind.continues g.text.toList c = false

end Segment

/-- The segments cut the text: each of them fits, each ends in front of the next one, and the
characters outside of them are blanks. -/
structure Segmentation (s : List Char) (gs : List Segment) : Prop where
  fits : ∀ g ∈ gs, g.Fits s
  ordered : gs.Pairwise fun g h => g.offset < h.offset ∧ g.endOffset ≤ h.offset
  blanks : ∀ (i : Nat) (hi : i < s.length), (∀ g ∈ gs, ¬ g.Covers i) → isSpacing s[i] = true

/-- The segments cut the text from the `n`-th character on. -/
structure SegmentedFrom (s : List Char) (n : Nat) (gs : List Segment) : Prop where
  fits : ∀ g ∈ gs, g.Fits s
  ordered : gs.Pairwise fun g h => g.offset < h.offset ∧ g.endOffset ≤ h.offset
  behind : ∀ g ∈ gs, (n : Int) ≤ g.offset
  blanks : ∀ (i : Nat) (hi : i < s.length), n ≤ i → (∀ g ∈ gs, ¬ g.Covers i) →
    isSpacing s[i] = true

theorem segmentation_iff {s : List Char} {gs : List Segment} :
  Segmentation s gs ↔ SegmentedFrom s 0 gs
  := by
  constructor
  · intro h
    exact ⟨h.fits, h.ordered, fun g hg => (h.fits g hg).nonneg, fun i hi _ => h.blanks i hi⟩
  · intro h
    exact ⟨h.fits, h.ordered, fun i hi => h.blanks i hi (Nat.zero_le i)⟩

theorem getElem?_of_drop {s cs : List Char} {c : Char} {n : Nat} (h : s.drop n = c :: cs) :
  s[n]? = some c
  := by
  rw [← List.head?_drop, h]
  rfl

/-! ### Segments that fit -/

/-- A segment fits where the text goes on with a lexeme that is cut off. -/
theorem Segment.fits_iff {s : List Char} {g : Segment} {n : Nat} (hn : g.offset = n) :
  g.Fits s ↔ ∃ vs, s.drop n = g.text.toList ++ vs ∧ Cut g.kind g.text.toList vs
  := by
  have hend : g.endOffset.toNat = n + g.text.length := by
    rw [endOffset, hn]
    rfl
  constructor
  · intro h
    have hstands := h.stands
    rw [hn, Int.toNat_natCast] at hstands
    use (s.drop n).drop g.text.length
    constructor
    · rw [← hstands, List.take_append_drop]
    · refine ⟨h.lexeme, ?_⟩
      intro c hc
      apply h.ends
      rwa [hend, ← List.head?_drop, ← List.drop_drop]
  · rintro ⟨vs, hdrop, hcut⟩
    refine ⟨by omega, ?_, hcut.lexeme, ?_⟩
    · rw [hn, Int.toNat_natCast, hdrop, ← String.length_toList, List.take_left]
    · intro c hc
      apply hcut.ends
      rwa [hend, ← List.head?_drop, ← List.drop_drop, hdrop, ← String.length_toList,
        List.drop_left] at hc

/-- A segment that fits begins with a character that is neither a blank nor a hyphen. -/
theorem Segment.Fits.exists_getElem? {s : List Char} {g : Segment} {n : Nat} (h : g.Fits s)
    (hn : g.offset = n) :
  ∃ c, s[n]? = some c ∧ isSpacing c = false ∧ c ≠ '-'
  := by
  obtain ⟨vs, hdrop, -⟩ := (fits_iff hn).mp h
  obtain ⟨c, us, htext, hspacing, hhyphen⟩ := h.lexeme.exists_cons
  refine ⟨c, ?_, hspacing, hhyphen⟩
  rw [← List.head?_drop, hdrop, htext]
  rfl

theorem Segment.Fits.length_pos {s : List Char} {g : Segment} (h : g.Fits s) :
  0 < g.text.length
  := by
  obtain ⟨c, us, htext, -⟩ := h.lexeme.exists_cons
  rw [← String.length_toList, htext]
  apply Nat.succ_pos

/-! ### Segmentations of what is left of a text -/

namespace SegmentedFrom

variable {s : List Char} {n : Nat} {gs : List Segment}

/-- Only the empty list cuts an empty text. -/
theorem nil_iff (hn : s.length ≤ n) :
  SegmentedFrom s n gs ↔ gs = []
  := by
  constructor
  · intro h
    cases gs with
    | nil => rfl
    | cons g gs =>
      have hfits := h.fits g List.mem_cons_self
      have hbehind := h.behind g List.mem_cons_self
      obtain ⟨m, hm⟩ := Int.eq_ofNat_of_zero_le hfits.nonneg
      obtain ⟨c, hc, -⟩ := hfits.exists_getElem? hm
      obtain ⟨hlt, -⟩ := List.getElem?_eq_some_iff.mp hc
      omega
  · rintro rfl
    refine ⟨by simp, .nil, by simp, ?_⟩
    intro i hi hni
    omega

/-- A blank at the beginning belongs to no segment. -/
theorem blank_iff {c : Char} {cs : List Char} (hdrop : s.drop n = c :: cs)
    (hblank : isSpacing c = true) :
  SegmentedFrom s n gs ↔ SegmentedFrom s (n + 1) gs
  := by
  have hget := getElem?_of_drop hdrop
  constructor
  · intro h
    refine ⟨h.fits, h.ordered, ?_, fun i hi hni => h.blanks i hi (by omega)⟩
    intro g hg
    have hne : g.offset ≠ n := by
      intro heq
      obtain ⟨d, hd, hspacing, -⟩ := (h.fits g hg).exists_getElem? heq
      obtain rfl := Option.some.inj (hget.symm.trans hd)
      rw [hblank] at hspacing
      cases hspacing
    have hbehind := h.behind g hg
    omega
  · intro h
    refine ⟨h.fits, h.ordered, ?_, ?_⟩
    · intro g hg
      have hbehind := h.behind g hg
      omega
    · intro i hi hni huncovered
      rcases Nat.lt_or_eq_of_le hni with hlt | rfl
      · apply h.blanks i hi hlt huncovered
      · obtain ⟨_, rfl⟩ := List.getElem?_eq_some_iff.mp hget
        exact hblank

/-- Behind a segment at the beginning the text is cut by the others. -/
theorem cons_iff {g : Segment} (hn : g.offset = n) :
  SegmentedFrom s n (g :: gs) ↔ g.Fits s ∧ SegmentedFrom s (n + g.text.length) gs
  := by
  have hend : g.endOffset = (n + g.text.length : Nat) := by
    rw [Segment.endOffset, hn]
    rfl
  constructor
  · intro h
    obtain ⟨hfirst, hordered⟩ := List.pairwise_cons.mp h.ordered
    refine ⟨h.fits g List.mem_cons_self, ?_, hordered, ?_, ?_⟩
    · intro g' hg'
      apply h.fits g' (List.mem_cons_of_mem g hg')
    · intro g' hg'
      rw [← hend]
      apply (hfirst g' hg').2
    · intro i hi hni huncovered
      apply h.blanks i hi (by omega)
      rw [List.forall_mem_cons]
      refine ⟨?_, huncovered⟩
      rintro ⟨-, hlt⟩
      omega
  · rintro ⟨hfits, h⟩
    refine ⟨?_, List.pairwise_cons.mpr ⟨?_, h.ordered⟩, ?_, ?_⟩
    · rw [List.forall_mem_cons]
      exact ⟨hfits, h.fits⟩
    · intro g' hg'
      have hbehind := h.behind g' hg'
      have hpos := hfits.length_pos
      omega
    · rw [List.forall_mem_cons]
      refine ⟨Int.le_of_eq hn.symm, ?_⟩
      intro g' hg'
      have hbehind := h.behind g' hg'
      omega
    · intro i hi hni huncovered
      rw [List.forall_mem_cons] at huncovered
      obtain ⟨hfirst, hothers⟩ := huncovered
      apply h.blanks i hi _ hothers
      rcases Nat.lt_or_ge i (n + g.text.length) with hlt | hge
      · exact absurd ⟨by omega, by omega⟩ hfirst
      · exact hge

/-- A segment begins at a character that is no blank. -/
theorem exists_cons (h : SegmentedFrom s n gs) (hn : n < s.length)
    (hnot : isSpacing s[n] = false) :
  ∃ g gs', gs = g :: gs' ∧ g.offset = n
  := by
  have hcovered : ∃ g ∈ gs, g.Covers n := by
    apply Classical.byContradiction
    intro hnone
    rw [h.blanks n hn (Nat.le_refl n) fun g hg hcovers => hnone ⟨g, hg, hcovers⟩] at hnot
    cases hnot
  obtain ⟨g, hg, hle, -⟩ := hcovered
  have heq : g.offset = n := Int.le_antisymm hle (h.behind g hg)
  cases gs with
  | nil => cases hg
  | cons g' gs' =>
    rcases List.mem_cons.mp hg with rfl | hg
    · exact ⟨g, gs', rfl, heq⟩
    · -- the first segment would begin before the place from which the text is cut
      have hlt := ((List.pairwise_cons.mp h.ordered).1 g hg).1
      have hbehind := h.behind g' List.mem_cons_self
      omega

/-- No hyphen is at the beginning. -/
theorem head?_drop_ne_hyphen (h : SegmentedFrom s n gs) :
  (s.drop n).head? ≠ some '-'
  := by
  rw [List.head?_drop]
  intro hhyphen
  obtain ⟨hn, hget⟩ := List.getElem?_eq_some_iff.mp hhyphen
  have hnot : isSpacing s[n] = false := by
    rw [hget]
    rfl
  obtain ⟨g, gs', rfl, hoffset⟩ := h.exists_cons hn hnot
  obtain ⟨c, hc, -, hne⟩ := (h.fits g List.mem_cons_self).exists_getElem? hoffset
  rw [hhyphen] at hc
  exact hne (Option.some.inj hc).symm

/-- In front of a character that is no blank, a segmentation goes on with the lexeme that the
scanner finds. -/
theorem lexeme_iff {c : Char} {cs : List Char} (hdrop : s.drop n = c :: cs)
    (hnot : isSpacing c = false) :
  SegmentedFrom s n gs ↔
    ∃ k us vs gs', cs = us ++ vs ∧ first? c cs = some (some k, us.length) ∧
      SegmentedFrom s (n + (us.length + 1)) gs' ∧ gs = ⟨k, String.ofList (c :: us), n⟩ :: gs'
  := by
  obtain ⟨hn, hc⟩ := List.getElem?_eq_some_iff.mp (getElem?_of_drop hdrop)
  constructor
  · intro h
    rw [← hc] at hnot
    obtain ⟨g, gs', rfl, hoffset⟩ := h.exists_cons hn hnot
    obtain ⟨hfits, hrest⟩ := (cons_iff hoffset).mp h
    obtain ⟨vs, htext, hcut⟩ := (Segment.fits_iff hoffset).mp hfits
    obtain ⟨c', us, hcons, -⟩ := hfits.lexeme.exists_cons
    have hlength : g.text.length = us.length + 1 := by
      rw [← String.length_toList, hcons]
      rfl
    rw [hdrop, hcons, List.cons_append] at htext
    obtain ⟨rfl, rfl⟩ := List.cons.inj htext
    have hvs : s.drop (n + g.text.length) = vs := by
      rw [← List.drop_drop, hdrop, hlength, List.drop_succ_cons, List.drop_left]
    have hhyphen := hrest.head?_drop_ne_hyphen
    rw [hvs] at hhyphen
    rw [hcons] at hcut
    refine ⟨g.kind, us, vs, gs', rfl, first?_complete hcut hhyphen, ?_, ?_⟩
    · rwa [← hlength]
    · rw [← hcons, String.ofList_toList, ← hoffset]
  · rintro ⟨k, us, vs, gs', rfl, hfirst, hrest, rfl⟩
    obtain ⟨us', vs', happend, hlength, hcut⟩ := first?_sound hfirst
    obtain ⟨rfl, rfl⟩ := List.append_inj happend hlength.symm
    apply (cons_iff rfl).mpr
    rw [Segment.fits_iff rfl, hdrop]
    constructor
    · use vs
      rw [String.toList_ofList]
      exact ⟨rfl, hcut⟩
    · rwa [← String.length_toList, String.toList_ofList]

end SegmentedFrom

/-! ### The tokens of a rule -/

theorem Place.offset_next (p : Place) (c : Char) :
  (p.next c).offset = p.offset + 1
  := by
  unfold next
  split
  all_goals rfl

theorem Place.offset_after (p : Place) (w : List Char) :
  (p.after w).offset = p.offset + w.length
  := by
  induction w generalizing p with
  | nil => rfl
  | cons c w ih =>
    apply (ih (p.next c)).trans
    rw [offset_next, List.length_cons, Nat.add_right_comm, Nat.add_assoc]

namespace Token

theorem scanFrom_append (p : Place) (us vs : List Char) :
  scanFrom p us.length (us ++ vs) = scanFrom (p.after us) 0 vs
  := by
  induction us generalizing p with
  | nil => rfl
  | cons c us ih => apply ih

theorem first?_ne_blank {c : Char} {cs : List Char} {n : Nat} (h : isSpacing c = false) :
  first? c cs ≠ some (none, n)
  := by
  unfold first?
  rw [h, if_neg Bool.false_ne_true]
  repeat' split
  all_goals simp

theorem scanFrom_blank (p : Place) {c : Char} (cs : List Char) (h : isSpacing c = true) :
  scanFrom p 0 (c :: cs) = scanFrom (p.next c) 0 cs
  := by
  rw [scanFrom, first?_blank cs h]

/-- In front of a character that is no blank, the scanner goes on behind the lexeme that it
finds. -/
theorem scanFrom_lexeme_iff {p : Place} {c : Char} {cs : List Char} {ts : List Token}
    (hnot : isSpacing c = false) :
  scanFrom p 0 (c :: cs) = .ok ts ↔
    ∃ k us vs ts', cs = us ++ vs ∧ first? c cs = some (some k, us.length) ∧
      scanFrom (p.after (c :: us)) 0 vs = .ok ts' ∧
      ts = .atPlace p k (String.ofList (c :: us)) :: ts'
  := by
  rw [scanFrom]
  rcases hfirst : first? c cs with _ | ⟨_ | k, n⟩
  · simp
  · exact absurd hfirst (first?_ne_blank hnot)
  · obtain ⟨us, vs, rfl, rfl, -⟩ := first?_sound hfirst
    have hbehind : scanFrom (p.next c) us.length (us ++ vs) = scanFrom (p.after (c :: us)) 0 vs :=
      scanFrom_append (p.next c) us vs
    simp only [hbehind, List.take_left]
    constructor
    · cases hscan : scanFrom (p.after (c :: us)) 0 vs with
      | error stuck =>
        intro h
        cases h
      | ok ts' =>
        intro h
        cases h
        exact ⟨k, us, vs, ts', rfl, rfl, hscan, rfl⟩
    · rintro ⟨k', us', vs', ts', happend, hsome, hscan, rfl⟩
      obtain ⟨hkind, hlength⟩ := Prod.mk.inj (Option.some.inj hsome)
      obtain rfl := Option.some.inj hkind
      obtain ⟨rfl, rfl⟩ := List.append_inj happend hlength
      rw [hscan]

/-- The scanner at a place finds the segmentation of what is left of the text. -/
theorem scanFrom_iff {s : List Char} {p : Place} {rest : List Char} {gs : List Segment}
    (hdrop : s.drop p.offset = rest) :
  (∃ ts, scanFrom p 0 rest = .ok ts ∧ ts.map segment = gs) ↔ SegmentedFrom s p.offset gs
  := by
  induction hlength : rest.length using Nat.strongRecOn generalizing p rest gs with
  | ind n ih =>
    subst hlength
    cases rest with
    | nil =>
      rw [SegmentedFrom.nil_iff (List.drop_eq_nil_iff.mp hdrop)]
      constructor
      · rintro ⟨ts, hscan, rfl⟩
        cases hscan
        rfl
      · rintro rfl
        exact ⟨[], rfl, rfl⟩
    | cons c cs =>
      have hbehind : ∀ {us vs}, cs = us ++ vs → s.drop (p.after (c :: us)).offset = vs := by
        rintro us vs rfl
        rw [Place.offset_after, ← List.drop_drop, hdrop, List.length_cons, List.drop_succ_cons,
          List.drop_left]
      have hshorter : ∀ {us vs}, cs = us ++ vs → vs.length < (c :: cs).length := by
        rintro us vs rfl
        rw [List.length_cons, List.length_append]
        omega
      cases hspacing : isSpacing c with
      | true =>
        rw [scanFrom_blank p cs hspacing, SegmentedFrom.blank_iff hdrop hspacing,
          ← Place.offset_next p c]
        exact ih cs.length (@hshorter [] cs rfl) (@hbehind [] cs rfl) rfl
      | false =>
        -- both sides go on behind the same lexeme
        rw [SegmentedFrom.lexeme_iff hdrop hspacing]
        constructor
        · rintro ⟨ts, hscan, rfl⟩
          obtain ⟨k, us, vs, ts', hcs, hfirst, htail, rfl⟩ :=
            (scanFrom_lexeme_iff hspacing).mp hscan
          refine ⟨k, us, vs, ts'.map segment, hcs, hfirst, ?_, rfl⟩
          rw [← List.length_cons (a := c), ← Place.offset_after]
          exact (ih vs.length (hshorter hcs) (hbehind hcs) rfl).mp ⟨ts', htail, rfl⟩
        · rintro ⟨k, us, vs, gs', hcs, hfirst, hrest, rfl⟩
          rw [← List.length_cons (a := c), ← Place.offset_after] at hrest
          obtain ⟨ts', htail, rfl⟩ := (ih vs.length (hshorter hcs) (hbehind hcs) rfl).mpr hrest
          use .atPlace p k (String.ofList (c :: us)) :: ts'
          exact ⟨(scanFrom_lexeme_iff hspacing).mpr ⟨k, us, vs, ts', hcs, hfirst, htail, rfl⟩, rfl⟩

theorem scan_iff {text : String} {gs : List Segment} :
  (∃ ts, scan text = .ok ts ∧ ts.map segment = gs) ↔ Segmentation text.toList gs
  := by
  rw [segmentation_iff]
  exact scanFrom_iff (p := .start) rfl

theorem tokens_eq_ok_iff {text : String} {ts : List Token} :
  Rule.tokens text = .ok ts ↔ scan text = .ok ts
  := by
  rw [Rule.tokens]
  cases scan text with
  | error stuck =>
    constructor
    all_goals
      intro h
      cases h
  | ok ts' =>
    constructor
    all_goals
      intro h
      cases h
      rfl

/-- The text of every token of a rule is a lexeme of its kind. -/
theorem lexeme_of_tokens {text : String} {ts : List Token} (h : Rule.tokens text = .ok ts) :
  ∀ t ∈ ts, t.kind.Lexeme t.text.toList
  := by
  intro t ht
  have hsegments := scan_iff.mp ⟨ts, tokens_eq_ok_iff.mp h, rfl⟩
  exact (hsegments.fits t.segment (List.mem_map_of_mem ht)).lexeme

/-- The text of every token of a rule is a part of the rule. -/
theorem infix_of_tokens {text : String} {ts : List Token} (h : Rule.tokens text = .ok ts) :
  ∀ t ∈ ts, t.text.toList <:+: text.toList
  := by
  intro t ht
  have hsegments := scan_iff.mp ⟨ts, tokens_eq_ok_iff.mp h, rfl⟩
  have hstands := (hsegments.fits t.segment (List.mem_map_of_mem ht)).stands
  rw [← show t.segment.text = t.text from rfl, ← hstands]
  apply (List.take_prefix _ _).isInfix.trans (List.drop_suffix _ _).isInfix

/-- The numbers of a rule are numerals. -/
theorem hasNumeral_of_tokens {text : String} {ts : List Token} (h : Rule.tokens text = .ok ts) :
  ∀ t ∈ ts, t.HasNumeral
  := by
  intro t ht hkind
  have hlexeme := lexeme_of_tokens h t ht
  rwa [hkind] at hlexeme

/-- A rule has the tokens that cut its text. When no tokens cut it, a character of it begins no
token. -/
theorem tokens_iff_segmentation (text : String) :
  (∀ L : List Token,
      (∃ ts, Rule.tokens text = .ok ts ∧ ts.map segment = L.map segment)
        ↔ Segmentation text.toList (L.map segment))
    ∧ ((∀ L : List Token, ¬ Segmentation text.toList (L.map segment)) →
        ∃ stuck, Rule.tokens text = .error (Fault.lexical stuck))
  := by
  constructor
  · intro L
    simp only [tokens_eq_ok_iff]
    apply scan_iff
  · intro hnone
    cases hscan : scan text with
    | error stuck =>
      use stuck
      rw [Rule.tokens, hscan]
      rfl
    | ok ts =>
      exfalso
      apply hnone ts
      rw [← scan_iff]
      exact ⟨ts, hscan, rfl⟩

end Token

end Verdict
