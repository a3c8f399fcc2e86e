import Mathlib.Data.List.Infix
import Verdict.Environment.Assignments
import Verdict.Proofs.Failure.Causes
import Verdict.Proofs.Number.Numeral

/-!
# What is wrong with lists of assignments

A list of assignments is refused because of one of its pieces, which is not of the right form or
whose value has too many digits. A list that is accepted consists of characters that may occur in
one, so one with any other character is refused.
-/

namespace Verdict.Environment

open Text

/-! ### Pieces -/

theorem isSeparator_iff {c : Char} :
  isSeparator c = true ↔ c = ';' ∨ c = '\n'
  := by
  simp [isSeparator]

/-- A character of a class without separators is none. -/
theorem isSeparator_eq_false_of_class {p : Char → Bool} {c : Char} (h : p c = true)
    (hp : p ';' = false ∧ p '\n' = false) :
  isSeparator c = false
  := by
  rw [← Bool.not_eq_true, isSeparator_iff, not_or]
  exact ⟨ne_of_class h hp.1, ne_of_class h hp.2⟩

section

variable {α : Type} {p : α → Bool}

/-- The first piece of a list begins it, and the others are parts of it. -/
theorem exists_splitOnP (p : α → Bool) (s : List α) :
  ∃ us ps, s.splitOnP p = us :: ps ∧ us <+: s ∧ ∀ q ∈ ps, q <:+: s
  := by
  induction s with
  | nil => exact ⟨[], [], List.splitOnP_nil, List.nil_prefix, by simp⟩
  | cons c s ih =>
    obtain ⟨us, ps, hsplit, hus, hps⟩ := ih
    have hcons : s <:+: c :: s := (List.suffix_cons c s).isInfix
    rw [List.splitOnP_cons_eq_if_modifyHead, hsplit]
    split
    · refine ⟨[], us :: ps, rfl, List.nil_prefix, ?_⟩
      rw [List.forall_mem_cons]
      exact ⟨hus.isInfix.trans hcons, fun q hq => (hps q hq).trans hcons⟩
    · refine ⟨c :: us, ps, rfl, ?_, fun q hq => (hps q hq).trans hcons⟩
      exact (List.prefix_cons_inj c).mpr hus

/-- A piece of a list is a part of it. -/
theorem infix_of_mem_splitOnP {s piece : List α} (h : piece ∈ s.splitOnP p) :
  piece <:+: s
  := by
  obtain ⟨us, ps, hsplit, hus, hps⟩ := exists_splitOnP p s
  rw [hsplit] at h
  rcases List.mem_cons.mp h with rfl | hmem
  · exact hus.isInfix
  · exact hps piece hmem

/-- No separator stands in a piece. -/
theorem eq_false_of_mem_splitOnP {s piece : List α} (h : piece ∈ s.splitOnP p) :
  ∀ c ∈ piece, p c = false
  := by
  induction s generalizing piece with
  | nil =>
    rw [List.splitOnP_nil, List.mem_singleton] at h
    simp [h]
  | cons d s ih =>
    obtain ⟨us, ps, hsplit, -, -⟩ := exists_splitOnP p s
    rw [List.splitOnP_cons_eq_if_modifyHead] at h
    rw [hsplit] at ih h
    split at h
    · rcases List.mem_cons.mp h with rfl | hmem
      · simp
      · apply ih hmem
    · next hd =>
      rcases List.mem_cons.mp h with rfl | hmem
      · rw [List.forall_mem_cons]
        exact ⟨Bool.eq_false_iff.mpr hd, ih List.mem_cons_self⟩
      · exact ih (List.mem_cons_of_mem us hmem)

/-- What is no separator stands in a piece. -/
theorem exists_mem_splitOnP {s : List α} {c : α} (hc : c ∈ s) (hp : p c = false) :
  ∃ piece ∈ s.splitOnP p, c ∈ piece
  := by
  induction s with
  | nil => cases hc
  | cons d s ih =>
    obtain ⟨us, ps, hsplit, -, -⟩ := exists_splitOnP p s
    rw [List.splitOnP_cons_eq_if_modifyHead]
    rw [hsplit] at ih ⊢
    rcases List.mem_cons.mp hc with rfl | hmem
    · rw [if_neg (by simp [hp])]
      exact ⟨c :: us, List.mem_cons_self, List.mem_cons_self⟩
    · obtain ⟨piece, hpiece, hcpiece⟩ := ih hmem
      split
      · exact ⟨piece, List.mem_cons_of_mem [] hpiece, hcpiece⟩
      · rcases List.mem_cons.mp hpiece with rfl | hps
        · exact ⟨d :: piece, List.mem_cons_self, List.mem_cons_of_mem d hcpiece⟩
        · exact ⟨piece, List.mem_cons_of_mem (d :: us) hps, hcpiece⟩

/-- The pieces that separators are put between are found again. -/
theorem splitOnP_intercalate {x : α} (hx : p x = true) {ps : List (List α)} (hne : ps ≠ [])
    (h : ∀ q ∈ ps, ∀ c ∈ q, p c = false) :
  (List.intercalate [x] ps).splitOnP p = ps
  := by
  induction ps with
  | nil => exact absurd rfl hne
  | cons q ps ih =>
    rw [List.forall_mem_cons] at h
    cases ps with
    | nil => rw [List.intercalate_singleton, List.splitOnP_eq_singleton h.1]
    | cons r ps =>
      rw [List.intercalate_cons_cons, List.append_assoc, List.singleton_append,
        List.splitOnP_append_cons_of_forall_mem h.1 x hx, ih (List.cons_ne_nil r ps) h.2]

end

/-! ### Values -/

theorem splitSign_suffix (s : List Char) :
  (Integer.splitSign s).2 <:+ s
  := by
  unfold Integer.splitSign
  split
  · apply List.suffix_cons
  · apply List.suffix_cons
  · apply List.suffix_rfl

/-- An amount without a point consists of digits, behind a sign or without one. -/
theorem digits_of_isAmount {s : List Char} (h : isAmount s = true) (hpoint : '.' ∉ s) :
  (Integer.splitSign s).2 ≠ [] ∧ ∀ c ∈ (Integer.splitSign s).2, isDigit c = true
  := by
  have hbody : '.' ∉ (Integer.splitSign s).2 := fun hmem => hpoint ((splitSign_suffix s).mem hmem)
  rw [isAmount] at h
  generalize (Integer.splitSign s).2 = body at h hbody
  rw [Bool.and_eq_true] at h
  obtain ⟨hne, hrest⟩ := h
  cases hdrop : body.dropWhile isDigit with
  | nil =>
    rw [List.dropWhile_eq_nil_iff] at hdrop
    refine ⟨?_, hdrop⟩
    rintro rfl
    cases hne
  | cons c cs =>
    simp only [hdrop, Bool.and_eq_true, beq_iff_eq] at hrest
    obtain ⟨⟨rfl, -⟩, -⟩ := hrest
    exfalso
    apply hbody
    apply (List.dropWhile_suffix isDigit).mem
    rw [hdrop]
    apply List.mem_cons_self

theorem dropWhile_isPadding {s : List Char} (h : ∀ c ∈ s, isBlank c = false) :
  s.dropWhile Integer.isPadding = s
  := by
  rw [List.dropWhile_eq_self_iff]
  intro hs
  simp [Integer.isPadding, h s[0] (List.getElem_mem hs)]

/-- A value is refused because it is no number, or because it has too many digits. -/
theorem failsOnly_readValue {piece : String} {s : List Char} (h : ∀ c ∈ s, isBlank c = false) :
  FailsOnly (fun f => f.IsFault ["assignment_error"] ∨ f.IsOverlong s) (readValue piece s)
  := by
  unfold readValue
  split
  · trivial
  · split
    · exact Or.inl ⟨_, rfl, List.mem_singleton_self _⟩
    · next hamount =>
      split
      · trivial
      · next hpoint =>
        rw [Bool.not_eq_true, Bool.not_eq_false'] at hamount
        rw [List.contains_iff_mem] at hpoint
        have hsuffix := splitSign_suffix s
        obtain ⟨hne, hdigits⟩ := digits_of_isAmount hamount hpoint
        cases hsplit : Integer.splitSign s with
        | mk negative ds =>
          rw [hsplit] at hsuffix hne hdigits
          have hread : Integer.splitSign ((String.ofList s).toList.dropWhile Integer.isPadding) =
              (negative, ds) := by
            rw [String.toList_ofList, dropWhile_isPadding h, hsplit]
          rw [Integer.read_digits hread hne hdigits]
          by_cases hlong : Integer.maxDigits < ds.length
          · rw [if_pos hlong]
            exact Or.inr ⟨ds, hsuffix.isInfix, hdigits, hlong, rfl⟩
          · rw [if_neg hlong]
            trivial

/-! ### Lists -/

/-- A piece is refused because it is not of the right form, or because its value has too many
digits. -/
theorem failsOnly_readPiece (s : List Char) :
  FailsOnly (fun f => f.IsFault ["assignment_error"] ∨ f.IsOverlong (removeBlanks s)) (readPiece s)
  := by
  have hblank : ∀ c ∈ removeBlanks s, isBlank c = false := by
    intro c hc
    simpa using (List.mem_filter.mp hc).2
  unfold readPiece
  generalize removeBlanks s = compact at hblank
  simp only
  split
  · trivial
  · split
    · exact Or.inl ⟨_, rfl, List.mem_singleton_self _⟩
    · next d value hdrop =>
      split
      · apply FailsOnly.map
        have hsuffix : value <:+ compact := by
          apply (List.suffix_cons d value).trans
          rw [← hdrop]
          apply List.dropWhile_suffix
        apply (failsOnly_readValue fun c hc => hblank c (hsuffix.mem hc)).mono
        rintro f (hfault | hlong)
        · exact Or.inl hfault
        · exact Or.inr (hlong.mono hsuffix.isInfix)
      · exact Or.inl ⟨_, rfl, List.mem_singleton_self _⟩

/-- A list of assignments is refused because a piece is not of the right form, or because the value
of a piece has too many digits. -/
theorem failsOnly_pieces (list : String) :
  FailsOnly
    (fun f => f.IsFault ["assignment_error"]
      ∨ ∃ piece ∈ pieces list, f.IsOverlong (removeBlanks piece))
    (ofAssignments list)
  := by
  apply FailsOnly.foldlM
  intro env piece hpiece
  apply FailsOnly.map
  apply (failsOnly_readPiece piece).mono
  rintro f (hfault | hlong)
  · exact Or.inl hfault
  · exact Or.inr ⟨piece, hpiece, hlong⟩

/-- The digits of a value that is too long follow one another in the list, blanks aside. -/
theorem failsOnly_ofAssignments (list : String) :
  FailsOnly
    (fun f => f.IsFault ["assignment_error"] ∨ f.IsOverlong (removeBlanks list.toList))
    (ofAssignments list)
  := by
  apply (failsOnly_pieces list).mono
  rintro f (hfault | ⟨piece, hpiece, hlong⟩)
  · exact Or.inl hfault
  · exact Or.inr (hlong.mono ((infix_of_mem_splitOnP hpiece).filter _))

/-! ### The characters of a list -/

/-- The character may occur in a list of assignments. -/
def mayOccur (c : Char) : Bool :=
  isSeparator c || isBlank c || isWordChar c || isDigit c || ['=', '+', '-', '.'].contains c

theorem mem_or_mem_splitSign {s : List Char} {c : Char} (hc : c ∈ s) :
  c ∈ ['+', '-'] ∨ c ∈ (Integer.splitSign s).2
  := by
  unfold Integer.splitSign
  split
  · rcases List.mem_cons.mp hc with rfl | hmem
    · exact Or.inl (by decide)
    · exact Or.inr hmem
  · rcases List.mem_cons.mp hc with rfl | hmem
    · exact Or.inl (by decide)
    · exact Or.inr hmem
  · exact Or.inr hc

/-- The characters of an amount are digits, a sign and a point. -/
theorem mayOccur_of_isAmount {s : List Char} (h : isAmount s = true) {c : Char} (hc : c ∈ s) :
  mayOccur c = true
  := by
  have hdigit : isDigit c = true → mayOccur c = true := fun hc => by simp [mayOccur, hc]
  rcases mem_or_mem_splitSign hc with hsign | hbody
  · rcases List.mem_pair.mp hsign with rfl | rfl
    · decide
    · decide
  · rw [isAmount] at h
    generalize (Integer.splitSign s).2 = body at h hbody
    rw [Bool.and_eq_true] at h
    rw [← List.takeWhile_append_dropWhile (p := isDigit) (l := body), List.mem_append] at hbody
    rcases hbody with hwhole | hrest
    · apply hdigit
      apply List.mem_takeWhile_imp hwhole
    · obtain ⟨-, h⟩ := h
      cases hdrop : body.dropWhile isDigit with
      | nil =>
        rw [hdrop] at hrest
        cases hrest
      | cons d cs =>
        simp only [hdrop, Bool.and_eq_true, beq_iff_eq, List.all_eq_true] at h
        rw [hdrop] at hrest
        obtain ⟨⟨rfl, -⟩, hfraction⟩ := h
        rcases List.mem_cons.mp hrest with rfl | hmem
        · decide
        · exact hdigit (hfraction c hmem)

/-- A word consists of characters that may stand in one. -/
theorem isWordChar_of_isWord {s : List Char} (h : isWord s = true) {c : Char} (hc : c ∈ s) :
  isWordChar c = true
  := by
  cases s with
  | nil => cases hc
  | cons d cs =>
    rw [isWord, Bool.and_eq_true, List.all_eq_true] at h
    rcases List.mem_cons.mp hc with rfl | hmem
    · simp [isWordChar, h.1]
    · exact h.2 c hmem

theorem mayOccur_of_isWord {s : List Char} (h : isWord s = true) {c : Char} (hc : c ∈ s) :
  mayOccur c = true
  := by
  simp [mayOccur, isWordChar_of_isWord h hc]

theorem mayOccur_of_readValue {piece : String} {s : List Char} {v : Option Number}
    (h : readValue piece s = .ok v) {c : Char} (hc : c ∈ s) :
  mayOccur c = true
  := by
  have hamount : isAmount s = true := by
    unfold readValue at h
    split at h
    · next hempty =>
      rw [List.isEmpty_iff] at hempty
      subst hempty
      cases hc
    · split at h
      · cases h
      · next hamount => simpa using hamount
  apply mayOccur_of_isAmount hamount hc

/-- A piece that is accepted consists of a name, an equals sign and a value, and of blanks. -/
theorem mayOccur_of_readPiece {s : List Char} {b : Option (String × Option Number)}
    (h : readPiece s = .ok b) {c : Char} (hc : c ∈ s) :
  mayOccur c = true
  := by
  cases hblank : isBlank c with
  | true => simp [mayOccur, hblank]
  | false =>
    have hcompact : c ∈ removeBlanks s := List.mem_filter.mpr ⟨hc, by simp [hblank]⟩
    unfold readPiece at h
    generalize removeBlanks s = compact at h hcompact
    simp only at h
    split at h
    · next hempty =>
      rw [List.isEmpty_iff] at hempty
      subst hempty
      cases hcompact
    · split at h
      · cases h
      · next d value hdrop =>
        split at h
        · next hword =>
          have hequals := List.head?_dropWhile_not (· != '=') compact
          rw [hdrop] at hequals
          rw [← List.takeWhile_append_dropWhile (p := (· != '=')) (l := compact), List.mem_append,
            hdrop, List.mem_cons] at hcompact
          rcases hcompact with hname | rfl | hvalue
          · exact mayOccur_of_isWord hword hname
          · obtain rfl : c = '=' := by simpa using hequals
            decide
          · obtain ⟨v, hread, -⟩ := exists_of_map_eq_ok h
            exact mayOccur_of_readValue hread hvalue
        · cases h

theorem exists_readPiece_of_foldlM {ps : List (List Char)} {env env' : Environment}
    (h : ps.foldlM assignPiece env = .ok env') :
  ∀ piece ∈ ps, ∃ b, readPiece piece = .ok b
  := by
  induction ps generalizing env with
  | nil => simp
  | cons piece ps ih =>
    rw [List.foldlM_cons] at h
    obtain ⟨env₁, hassign, hrest⟩ := exists_of_bind_eq_ok h
    obtain ⟨b, hread, -⟩ := exists_of_map_eq_ok hassign
    rw [List.forall_mem_cons]
    exact ⟨⟨b, hread⟩, ih hrest⟩

/-- A list of assignments that is accepted consists of characters that may occur in one. -/
theorem mayOccur_of_ofAssignments {list : String} {env : Environment}
    (h : ofAssignments list = .ok env) {c : Char} (hc : c ∈ list.toList) :
  mayOccur c = true
  := by
  cases hseparator : isSeparator c with
  | true => simp [mayOccur, hseparator]
  | false =>
    obtain ⟨piece, hpiece, hcpiece⟩ := exists_mem_splitOnP hc hseparator
    obtain ⟨b, hread⟩ := exists_readPiece_of_foldlM h piece hpiece
    exact mayOccur_of_readPiece hread hcpiece

end Verdict.Environment
