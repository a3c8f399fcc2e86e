import Verdict.Proofs.Environment.Assignments
import Verdict.Proofs.Token.Lexeme
import Verdict.Service.Basic

/-!
# Lists of assignments with surrogates

A list of assignments that a request holds need not be a text. `Service.refuseBroken` refuses one
with surrogates in it: for a reason that lies in the pieces before the first piece with a surrogate,
or because of that piece. In the second case a stand-in takes the place of each surrogate, and since
no stand-in may occur in a list of assignments, the piece is found to be at fault.
-/

namespace Verdict

open Text

/-- A string with code points that are no characters has surrogates in it. -/
def Json.Chars.IsProper : Json.Chars → Prop
  | .text _ => True
  | .broken codes => ∃ n ∈ codes, Utf8.isSurrogate n = true

/-- The characters of a string. Each surrogate has its `Service.standIn` in its place. -/
def Json.Chars.characters (s : Json.Chars) : List Char :=
  s.codes.map fun n => Char.ofNat (Service.standIn n)

namespace Service

/-! ### Stand-ins -/

theorem isSurrogate_toNat (c : Char) :
  Utf8.isSurrogate c.toNat = false
  := by
  have hvalid : c.toNat.isValidChar := c.valid
  rw [Nat.isValidChar] at hvalid
  rw [Utf8.isSurrogate, Bool.and_eq_false_iff, decide_eq_false_iff_not, decide_eq_false_iff_not]
  omega

theorem standIn_of_not_isSurrogate {n : Nat} (h : Utf8.isSurrogate n = false) :
  standIn n = n
  := by
  rw [standIn, h, if_neg Bool.false_ne_true]

/-- A text consists of its characters. -/
theorem characters_text (s : String) :
  (Json.Chars.text s).characters = s.toList
  := by
  rw [Json.Chars.characters, Json.Chars.codes, List.map_map]
  apply List.map_id''
  intro c
  rw [Function.comp_apply, standIn_of_not_isSurrogate (isSurrogate_toNat c), Char.ofNat_toNat]

theorem toNat_standIn {n : Nat} (h : Utf8.isSurrogate n = true) :
  0xE000 ≤ (Char.ofNat (standIn n)).toNat ∧ (Char.ofNat (standIn n)).toNat < 0xE800
  := by
  rw [standIn, if_pos h]
  rw [Utf8.isSurrogate, Bool.and_eq_true, decide_eq_true_eq, decide_eq_true_eq] at h
  have hvalid : (n + 0x800).isValidChar := by
    right
    omega
  rw [Char.ofNat, dif_pos hvalid]
  change 0xE000 ≤ n + 0x800 ∧ n + 0x800 < 0xE800
  omega

/-- Neither blanks nor digits lie among the stand-ins of surrogates. -/
theorem toNat_lt_or_of_mayOccur {c : Char} (h : Environment.mayOccur c = true) :
  c.toNat < 0xE000 ∨ 0xE800 ≤ c.toNat
  := by
  simp only [Environment.mayOccur, Bool.or_eq_true] at h
  rcases h with (((hseparator | hblank) | hword) | hdigit) | hsign
  · rw [Environment.isSeparator, Bool.or_eq_true, beq_iff_eq, beq_iff_eq] at hseparator
    rcases hseparator with rfl | rfl
    all_goals decide
  · have hranges : ∀ r ∈ blankRanges, r.2 < 0xE000 := by decide
    rw [isBlank, List.any_eq_true] at hblank
    obtain ⟨r, hr, hbounds⟩ := hblank
    rw [Bool.and_eq_true, decide_eq_true_eq, decide_eq_true_eq] at hbounds
    exact Or.inl (Nat.lt_of_le_of_lt hbounds.2 (hranges r hr))
  · rw [isWordChar, Bool.or_eq_true, Bool.or_eq_true, Token.isLetter_iff, isNumeral_iff,
      beq_iff_eq] at hword
    rcases hword with (rfl | hletter) | hnumeral
    · decide
    · omega
    · omega
  · have hzeros : ∀ z ∈ digitZeros, z + 10 ≤ 0xE000 ∨ 0xE800 ≤ z := by decide
    obtain ⟨d, hd⟩ := Option.isSome_iff_exists.mp hdigit
    rw [digitValue?, Option.map_eq_some_iff] at hd
    obtain ⟨z, hz, -⟩ := hd
    have hbounds := List.find?_some hz
    rw [Bool.and_eq_true, decide_eq_true_eq, decide_eq_true_eq] at hbounds
    have hzero := hzeros z (List.mem_of_find?_eq_some hz)
    omega
  · rw [List.contains_iff_mem, List.mem_cons, List.mem_cons, List.mem_pair] at hsign
    rcases hsign with rfl | rfl | rfl | rfl
    all_goals decide

/-- No list of assignments with the stand-in of a surrogate is accepted. -/
theorem not_ofAssignments_of_standIn {codes : List Nat} {n : Nat} (hn : n ∈ codes)
    (hsurrogate : Utf8.isSurrogate n = true) {env : Environment} :
  Environment.ofAssignments (String.ofList ((codes.map standIn).map Char.ofNat)) ≠ .ok env
  := by
  intro h
  have hmem : Char.ofNat (standIn n) ∈ (codes.map standIn).map Char.ofNat :=
    List.mem_map_of_mem (List.mem_map_of_mem hn)
  rw [← String.toList_ofList (l := (codes.map standIn).map Char.ofNat)] at hmem
  have hbounds := toNat_standIn hsurrogate
  have hoccurs := toNat_lt_or_of_mayOccur (Environment.mayOccur_of_ofAssignments h hmem)
  omega

/-! ### Surrogates that are written -/

/-- Code points with a surrogate among them have first surrogates. -/
theorem exists_firstSurrogates {codes : List Nat} {n : Nat} (hn : n ∈ codes)
    (h : Utf8.isSurrogate n = true) (position : Nat) :
  ∃ s, Utf8.firstSurrogates? position codes = some s
  := by
  induction codes generalizing position with
  | nil => cases hn
  | cons m codes ih =>
    rw [Utf8.firstSurrogates?]
    split_ifs with hm
    · exact ⟨_, rfl⟩
    · rcases List.mem_cons.mp hn with rfl | hn
      · exact absurd h hm
      · exact ih hn (position + 1)

/-- A value with a surrogate in a piece of its text cannot be written. -/
theorem exists_writable_eq_error {j : Json} {piece : Json.Chars} {n : Nat}
    (hpiece : piece ∈ j.addPieces []) (hn : n ∈ piece.codes) (h : Utf8.isSurrogate n = true) :
  ∃ crash, writable j = .error crash
  := by
  rw [writable]
  split_ifs with hfinite
  · exact ⟨_, rfl⟩
  · have hcode : n ∈ j.codes := List.mem_flatMap.mpr ⟨piece, hpiece, hn⟩
    obtain ⟨s, hs⟩ := exists_firstSurrogates hcode h 0
    rw [hs]
    exact ⟨_, rfl⟩

/-! ### Pieces -/

/-- The code point is that of a separator. -/
def isSeparatorCode (n : Nat) : Bool :=
  Environment.isSeparator (Char.ofNat n)

theorem isSeparatorCode_of_isSurrogate {n : Nat} (h : Utf8.isSurrogate n = true) :
  isSeparatorCode n = false
  := by
  rw [Utf8.isSurrogate, Bool.and_eq_true, decide_eq_true_eq, decide_eq_true_eq] at h
  have hinvalid : ¬ n.isValidChar := by
    rw [Nat.isValidChar]
    omega
  rw [isSeparatorCode, Char.ofNat, dif_neg hinvalid]
  rfl

/-- No surrogate is among the code points. -/
def isSound (q : List Nat) : Bool :=
  !q.any Utf8.isSurrogate

theorem isSound_eq_true_iff {q : List Nat} :
  isSound q = true ↔ ∀ n ∈ q, Utf8.isSurrogate n = false
  := by
  rw [isSound, Bool.not_eq_true', List.any_eq_false]
  simp only [Bool.not_eq_true]

theorem isSound_eq_false_iff {q : List Nat} :
  isSound q = false ↔ ∃ n ∈ q, Utf8.isSurrogate n = true
  := by
  rw [isSound, Bool.not_eq_false', List.any_eq_true]

theorem map_intercalate {α β : Type} (f : α → β) (x : α) (ls : List (List α)) :
  (List.intercalate [x] ls).map f = List.intercalate [f x] (ls.map (List.map f))
  := by
  induction ls with
  | nil => rfl
  | cons l ls ih =>
    cases ls with
    | nil => simp
    | cons l' ls => simp [List.intercalate_cons_cons, ih]

theorem drop_length_takeWhile {α : Type} (p : α → Bool) (l : List α) :
  l.drop (l.takeWhile p).length = l.dropWhile p
  := by
  induction l with
  | nil => rfl
  | cons a l ih =>
    cases hp : p a with
    | true => simp [hp, ih]
    | false => simp [hp]

section

variable {codes : List Nat}

/-- The first piece with a surrogate. -/
theorem exists_dropWhile_isSound (h : (Json.Chars.broken codes).IsProper) :
  ∃ q rest, (codes.splitOnP isSeparatorCode).dropWhile isSound = q :: rest
    ∧ q ∈ codes.splitOnP isSeparatorCode ∧ ∃ n ∈ q, Utf8.isSurrogate n = true
  := by
  obtain ⟨n, hn, hsurrogate⟩ := h
  obtain ⟨p, hp, hnp⟩ :=
    Environment.exists_mem_splitOnP hn (isSeparatorCode_of_isSurrogate hsurrogate)
  cases hdrop : (codes.splitOnP isSeparatorCode).dropWhile isSound with
  | nil =>
    have hsound := List.dropWhile_eq_nil_iff.mp hdrop p hp
    rw [isSound_eq_true_iff.mp hsound n hnp] at hsurrogate
    cases hsurrogate
  | cons q rest =>
    refine ⟨q, rest, rfl, ?_, ?_⟩
    · apply (List.dropWhile_suffix isSound).mem
      rw [hdrop]
      apply List.mem_cons_self
    · have hhead := List.head?_dropWhile_not isSound (codes.splitOnP isSeparatorCode)
      rw [hdrop] at hhead
      exact isSound_eq_false_iff.mp hhead

/-! ### Refusals -/

/-- A piece is not of the right form, or has too many digits in its value. -/
def Refuses (codes : List Nat) (f : Failure) : Prop :=
  f.IsFault ["assignment_error"] ∨ f.IsOverlong (removeBlanks (Json.Chars.broken codes).characters)

/-- Pieces without surrogates are refused for the same reasons as a text. -/
theorem failsOnly_intercalate {ps : List (List Nat)}
    (hps : ∀ q ∈ ps, q ∈ codes.splitOnP isSeparatorCode) (hsound : ∀ q ∈ ps, isSound q = true) :
  FailsOnly (Refuses codes)
    (Environment.ofAssignments
      (String.ofList ((List.intercalate [';'.toNat] ps).map Char.ofNat)))
  := by
  by_cases hne : ps = []
  · subst hne
    trivial
  · apply (Environment.failsOnly_pieces _).mono
    rintro f (hf | ⟨piece, hpiece, hlong⟩)
    · exact Or.inl hf
    · have hseparator : ∀ piece ∈ ps.map (List.map Char.ofNat),
          ∀ c ∈ piece, Environment.isSeparator c = false := by
        simp only [List.forall_mem_map]
        intro q hq
        exact Environment.eq_false_of_mem_splitOnP (hps q hq)
      rw [Environment.pieces, String.toList_ofList, map_intercalate,
        Environment.splitOnP_intercalate rfl (by simp [hne]) hseparator] at hpiece
      obtain ⟨q, hq, rfl⟩ := List.mem_map.mp hpiece
      have hchars : q.map Char.ofNat = q.map fun n => Char.ofNat (standIn n) := by
        apply List.map_congr_left
        intro n hn
        rw [standIn_of_not_isSurrogate (isSound_eq_true_iff.mp (hsound q hq) n hn)]
      rw [hchars] at hlong
      have hpart := Environment.infix_of_mem_splitOnP (hps q hq)
      exact Or.inr (hlong.mono ((hpart.map _).filter _))

/-- A piece is refused in the form in which it is told of. -/
theorem failsOnly_standIn {q : List Nat} (hq : q ∈ codes.splitOnP isSeparatorCode) :
  FailsOnly (Refuses codes)
    (Environment.ofAssignments (String.ofList ((q.map standIn).map Char.ofNat)))
  := by
  apply (Environment.failsOnly_ofAssignments _).mono
  rintro f (hf | hlong)
  · exact Or.inl hf
  · rw [String.toList_ofList, List.map_map] at hlong
    have hpart := Environment.infix_of_mem_splitOnP hq
    exact Or.inr (hlong.mono ((hpart.map _).filter _))

/-- A list with surrogates is refused for a reason that a text could have, or its first piece with a
surrogate is told of as it is. -/
theorem refuseBroken_eq (h : (Json.Chars.broken codes).IsProper) :
  (∃ f, Refuses codes f ∧ refuseBroken codes = refuse f)
    ∨ ∃ (f : Fault) (line : List Nat), refuseBroken codes =
        (writable (.object (withLine line f.fields))).map (Response.reply 422)
  := by
  obtain ⟨q, rest, hdrop, hq, n, hn, hsurrogate⟩ := exists_dropWhile_isSound h
  have hsound : FailsOnly (Refuses codes) (Environment.ofAssignments (String.ofList
      ((List.intercalate [';'.toNat] ((codes.splitOnP isSeparatorCode).takeWhile isSound)).map
        Char.ofNat))) := by
    apply failsOnly_intercalate
    · intro p hp
      apply (List.takeWhile_prefix isSound).mem hp
    · intro p hp
      apply List.mem_takeWhile_imp hp
  have hbroken := failsOnly_standIn hq
  have hpieces : (codes.splitOnP fun n => Environment.isSeparator (Char.ofNat n)) =
      codes.splitOnP isSeparatorCode := rfl
  have hisSound : (fun q : List Nat => !q.any Utf8.isSurrogate) = isSound := rfl
  simp only [refuseBroken, hpieces, hisSound, drop_length_takeWhile, hdrop, List.headD_cons]
  split
  · next f hf => exact Or.inl ⟨f, hsound.of_error hf, rfl⟩
  · split
    · next f hf => exact Or.inr ⟨f, _, rfl⟩
    · next f hfault hf => exact Or.inl ⟨f, hbroken.of_error hf, rfl⟩
    · next env hf => exact absurd hf (not_ofAssignments_of_standIn hn hsurrogate)

end

end Service

end Verdict
