import Verdict.Proofs.Environment.Format

/-!
# Writing lists of assignments

An environment of integers can be written as a list of assignments: a piece for every binding, in
any order, with white space anywhere in the pieces and blank pieces between them. `Lists` is the
relation between the bindings and the texts that write them so. Each of these texts is read as the
environment again.
-/

namespace Verdict.Environment

open Text

/-! ### Written pieces -/

/-- The second text is the first one with white space at any places, but no line feed. -/
inductive Padded : List Char → List Char → Prop where
  | nil : Padded [] []
  | blank {c s t} (hblank : isBlank c = true) (hfeed : c ≠ '\n') (h : Padded s t) :
    Padded s (c :: t)
  | char {c s t} (h : Padded s t) : Padded (c :: s) (c :: t)

/-- The text writes the value: nothing writes that there is none, and an integer is written in base
ten, where a plus sign may stand in front of one that is not negative. -/
inductive WritesValue : Option Number → List Char → Prop where
  | nothing : WritesValue none []
  | integer (n : Int) : WritesValue (some (.integer n)) (toString n).toList
  | plus {n : Int} (hn : 0 ≤ n) : WritesValue (some (.integer n)) ('+' :: (toString n).toList)

/-- The piece writes a binding, or it is blank and writes none. -/
inductive WritesPiece : List (String × Option Number) → List Char → Prop where
  | blank {s} (h : Padded [] s) : WritesPiece [] s
  | binding {name v amount s} (hv : WritesValue v amount)
    (h : Padded (name.toList ++ '=' :: amount) s) : WritesPiece [(name, v)] s

/-- The text writes the bindings in their order, in pieces with separators between them. -/
inductive Lists : List (String × Option Number) → List Char → Prop where
  | piece {bs s} (h : WritesPiece bs s) : Lists bs s
  | cons {bs bs' s c t} (hs : WritesPiece bs s) (hc : c = ';' ∨ c = '\n') (ht : Lists bs' t) :
    Lists (bs ++ bs') (s ++ c :: t)

/-- The binding can be written: its name is a word, and its value, if there is one, an integer with
no more digits than can be read. -/
structure IsListable (b : String × Option Number) : Prop where
  name : isWord b.1.toList = true
  value : ∀ v, b.2 = some v → ∃ n : Int, v = .integer n ∧ n.natAbs < 10 ^ Integer.maxDigits

theorem isListable_none {name : String} (h : isWord name.toList = true) :
  IsListable (name, none)
  := by
  use h
  intro v hv
  cases hv

/-- The bound is a number too large to compute with, the number of digits is not. -/
theorem isListable_integer {name : String} {n : Int} (h : isWord name.toList = true)
    (hlength : (Nat.toDigits 10 n.natAbs).length ≤ Integer.maxDigits) :
  IsListable (name, some (.integer n))
  := by
  use h
  intro v hv
  cases hv
  use n, rfl
  apply (Nat.length_toDigits_le_iff (by decide) (by decide)).mp hlength

/-! ### White space -/

section

variable {s t : List Char}

/-- A text without line feeds is what is left of it without white space, with white space. -/
theorem padded_removeBlanks {t : List Char} (h : '\n' ∉ t) :
  Padded (removeBlanks t) t
  := by
  induction t with
  | nil => apply Padded.nil
  | cons c t ih =>
    rw [List.mem_cons, not_or] at h
    by_cases hblank : isBlank c = true
    · rw [removeBlanks, List.filter_cons_of_neg (by simp [hblank])]
      apply Padded.blank hblank (Ne.symm h.1) (ih h.2)
    · rw [removeBlanks, List.filter_cons_of_pos (by simp [hblank])]
      apply Padded.char (ih h.2)

theorem Padded.refl (s : List Char) :
  Padded s s
  := by
  induction s with
  | nil => apply Padded.nil
  | cons c s ih => apply Padded.char ih

/-- What is written without white space is found again when the white space is removed. -/
theorem Padded.removeBlanks_eq (h : Padded s t) (hs : ∀ c ∈ s, isBlank c = false) :
  removeBlanks t = s
  := by
  induction h with
  | nil => rfl
  | blank hblank _ _ ih =>
    rw [removeBlanks, List.filter_cons_of_neg (by simp [hblank])]
    apply ih hs
  | char _ ih =>
    rw [List.forall_mem_cons] at hs
    rw [removeBlanks, List.filter_cons_of_pos (by simp [hs.1])]
    apply congrArg (List.cons _)
    apply ih hs.2

/-- White space adds no separator. -/
theorem Padded.isSeparator_eq_false (h : Padded s t) (hs : ∀ c ∈ s, isSeparator c = false) :
  ∀ c ∈ t, isSeparator c = false
  := by
  induction h with
  | nil => exact hs
  | blank hblank hfeed _ ih =>
    rw [List.forall_mem_cons]
    refine ⟨?_, ih hs⟩
    rw [← Bool.not_eq_true, isSeparator_iff, not_or]
    exact ⟨ne_of_class hblank rfl, hfeed⟩
  | char _ ih =>
    rw [List.forall_mem_cons] at hs ⊢
    exact ⟨hs.1, ih hs.2⟩

end

/-- A blank text without line feeds is a blank piece. -/
theorem WritesPiece.of_blank {s : List Char} (hfeed : '\n' ∉ s) (h : removeBlanks s = []) :
  WritesPiece [] s
  := by
  apply WritesPiece.blank
  rw [← h]
  apply padded_removeBlanks hfeed

/-- A text without line feeds writes the binding that it is without white space. -/
theorem WritesPiece.of_compact {name : String} {v : Option Number} {amount s : List Char}
    (hv : WritesValue v amount) (hfeed : '\n' ∉ s)
    (h : removeBlanks s = name.toList ++ '=' :: amount) :
  WritesPiece [(name, v)] s
  := by
  apply WritesPiece.binding hv
  rw [← h]
  apply padded_removeBlanks hfeed

/-! ### Values -/

theorem isDigits_toDigits (n : Nat) :
  IsDigits (Nat.toDigits 10 n)
  := by
  use (isNumeral_toDigits n).1
  intro c hc
  apply isDigit_of_isNumeral ((isNumeral_toDigits n).2 c hc)

theorem positional_toDigits (n : Nat) :
  positional (Nat.toDigits 10 n) = n
  := by
  rw [← ofDigitChars_eq_positional, ofDigitChars_toDigits]

theorem toList_toString_of_neg {n : Int} (h : n < 0) :
  (toString n).toList = '-' :: Nat.toDigits 10 n.natAbs
  := by
  obtain ⟨m, rfl⟩ := Int.eq_negSucc_of_lt_zero h
  change ("-" ++ toString (m + 1)).toList = _
  rw [Nat.toString_eq_ofList_toDigits, String.toList_append, String.toList_ofList]
  simp

/-- The text of an integer is a sign and the digits of its size. -/
theorem WritesValue.exists_sign {n : Int} {amount : List Char}
    (h : WritesValue (some (.integer n)) amount) :
  ∃ sign, IsSign sign ∧ amount = sign ++ Nat.toDigits 10 n.natAbs
    ∧ Integer.signed (sign == ['-']) n.natAbs = n
  := by
  have hdigits : 0 ≤ n → (toString n).toList = Nat.toDigits 10 n.natAbs := by
    intro hn
    rw [toList_toString_of_nonneg hn]
    congr
    omega
  cases h with
  | integer =>
    rcases lt_or_ge n 0 with hn | hn
    · use ['-'], Or.inr (Or.inr rfl), toList_toString_of_neg hn
      change -(n.natAbs : Int) = n
      omega
    · use [], Or.inl rfl, hdigits hn
      change (n.natAbs : Int) = n
      omega
  | plus hn =>
    use ['+'], Or.inr (Or.inl rfl), congrArg (List.cons '+') (hdigits hn)
    change (n.natAbs : Int) = n
    omega

/-- What is written for a value denotes it, and can be read. -/
theorem WritesValue.denotes {b : String × Option Number} (hb : IsListable b) {amount : List Char}
    (h : WritesValue b.2 amount) :
  Denotes amount b.2 ∧ (Integer.splitSign amount).2.length ≤ Integer.maxDigits
  := by
  obtain ⟨name, v⟩ := b
  cases v with
  | none =>
    cases h
    use Denotes.nothing
    decide
  | some v =>
    obtain ⟨n, rfl, hn⟩ := hb.value v rfl
    obtain ⟨sign, hsign, rfl, hvalue⟩ := h.exists_sign
    have hdenotes := Denotes.whole hsign (isDigits_toDigits n.natAbs)
    have hsplit := splitSign_append hsign (isDigits_toDigits n.natAbs) []
    rw [positional_toDigits, hvalue] at hdenotes
    rw [List.append_nil] at hsplit
    use hdenotes
    rw [hsplit]
    apply (Nat.length_toDigits_le_iff (by decide) (by decide)).mpr hn

/-- The character is neither white space nor a separator. -/
def IsMark (c : Char) : Prop :=
  isBlank c = false ∧ isSeparator c = false

instance (c : Char) : Decidable (IsMark c) :=
  inferInstanceAs (Decidable (_ ∧ _))

/-- The characters of words are neither white space nor separators. -/
theorem isMark_of_isWordChar {c : Char} (h : isWordChar c = true) :
  IsMark c
  := by
  refine ⟨?_, isSeparator_eq_false_of_class h ⟨rfl, rfl⟩⟩
  rw [isWordChar, Bool.or_eq_true, Bool.or_eq_true, beq_iff_eq] at h
  rcases h with (rfl | hletter) | hnumeral
  · decide
  · rw [Token.isLetter_iff] at hletter
    simp only [isBlank, blankRanges, List.any_cons, List.any_nil, Bool.or_false,
      Bool.or_eq_false_iff, Bool.and_eq_false_iff, decide_eq_false_iff_not]
    omega
  · apply isBlank_of_isNumeral hnumeral

/-- Neither white space nor separators stand in what is written for a value. -/
theorem WritesValue.isMark {b : String × Option Number} (hb : IsListable b) {amount : List Char}
    (h : WritesValue b.2 amount) :
  ∀ c ∈ amount, IsMark c
  := by
  obtain ⟨name, v⟩ := b
  cases v with
  | none =>
    cases h
    simp
  | some v =>
    obtain ⟨n, rfl, -⟩ := hb.value v rfl
    obtain ⟨sign, hsign, rfl, -⟩ := h.exists_sign
    rw [List.forall_mem_append]
    constructor
    · rcases hsign with rfl | rfl | rfl
      · simp
      · rw [List.forall_mem_singleton]
        decide
      · rw [List.forall_mem_singleton]
        decide
    · intro c hc
      have hnumeral := (isNumeral_toDigits n.natAbs).2 c hc
      apply isMark_of_isWordChar
      simp [isWordChar, hnumeral]

/-- Neither white space nor separators stand in what is written for a binding. -/
theorem isMark_of_binding {b : String × Option Number} (hb : IsListable b) {amount : List Char}
    (h : WritesValue b.2 amount) :
  ∀ c ∈ b.1.toList ++ '=' :: amount, IsMark c
  := by
  rw [List.forall_mem_append, List.forall_mem_cons]
  refine ⟨?_, by decide, h.isMark hb⟩
  intro c hc
  apply isMark_of_isWordChar (isWordChar_of_isWord hb.name hc)

/-! ### Reading what is written -/

section

variable {bs : List (String × Option Number)} {s : List Char}

/-- No separator stands in a piece. -/
theorem WritesPiece.isSeparator_eq_false (h : WritesPiece bs s) (hbs : ∀ b ∈ bs, IsListable b) :
  ∀ c ∈ s, isSeparator c = false
  := by
  cases h with
  | blank h =>
    apply h.isSeparator_eq_false
    simp
  | binding hv h =>
    have hmark := isMark_of_binding (hbs _ List.mem_cons_self) hv
    apply h.isSeparator_eq_false fun c hc => (hmark c hc).2

/-- A piece that writes a binding is read as this binding, and a blank one is skipped. -/
theorem WritesPiece.assignPiece_eq (h : WritesPiece bs s) (hbs : ∀ b ∈ bs, IsListable b)
    (env : Environment) :
  assignPiece env s = .ok (bs.foldl (fun env b => env.set b.1 b.2) env)
  := by
  cases h with
  | blank h =>
    rw [assignPiece, readPiece_of_blank (h.removeBlanks_eq (by simp))]
    rfl
  | binding hv h =>
    have hb := hbs _ List.mem_cons_self
    obtain ⟨hdenotes, hlength⟩ := hv.denotes hb
    have hmark := isMark_of_binding hb hv
    have hcompact := h.removeBlanks_eq fun c hc => (hmark c hc).1
    rw [assignPiece, readPiece_of_assigns ⟨hb.name, _, hcompact, hdenotes⟩
      (isReadable_of_compact hb.name hcompact hlength)]
    rfl

/-- A text that writes bindings is read as these bindings, one after another. -/
theorem Lists.foldlM_assignPiece (h : Lists bs s) (hbs : ∀ b ∈ bs, IsListable b)
    (env : Environment) :
  (s.splitOnP isSeparator).foldlM assignPiece env =
    .ok (bs.foldl (fun env b => env.set b.1 b.2) env)
  := by
  induction h generalizing env with
  | piece hs =>
    rw [List.splitOnP_eq_singleton (hs.isSeparator_eq_false hbs), List.foldlM_cons,
      hs.assignPiece_eq hbs]
    rfl
  | @cons bs bs' s c t hs hc _ ih =>
    rw [List.forall_mem_append] at hbs
    rw [List.splitOnP_append_cons_of_forall_mem (hs.isSeparator_eq_false hbs.1) c
      (isSeparator_iff.mpr hc), List.foldlM_cons, hs.assignPiece_eq hbs.1, List.foldl_append]
    apply ih hbs.2

/-- Bindings can be written in their order, with a semicolon behind each of them. -/
theorem exists_lists (hbs : ∀ b ∈ bs, IsListable b) :
  ∃ s, Lists bs s
  := by
  induction bs with
  | nil =>
    use []
    apply Lists.piece (.blank .nil)
  | cons b bs ih =>
    rw [List.forall_mem_cons] at hbs
    obtain ⟨s, hs⟩ := ih hbs.2
    have hvalue : ∃ amount, WritesValue b.2 amount := by
      cases hv : b.2 with
      | none => exact ⟨[], .nothing⟩
      | some v =>
        obtain ⟨n, rfl, -⟩ := hbs.1.value v hv
        exact ⟨_, .integer n⟩
    obtain ⟨amount, hamount⟩ := hvalue
    exact ⟨_, .cons (.binding hamount (.refl _)) (Or.inl rfl) hs⟩

end

/-! ### Environments -/

/-- Every environment of integers that can be read and of names without a value is written by texts,
whatever the order of its bindings, and each of these texts is read as this environment: with white
space anywhere in the pieces, a plus sign in front of an integer or none, semicolons and line feeds
between the pieces, and blank pieces among them. -/
theorem ofAssignments_of_lists {env : Environment} (henv : ∀ b ∈ env.entries, IsListable b)
    {bs : List (String × Option Number)} (hbs : bs.Perm env.entries) :
  (∃ text : String, Lists bs text.toList)
    ∧ ∀ text : String, Lists bs text.toList → ofAssignments text = .ok env
  := by
  have hlistable : ∀ b ∈ bs, IsListable b := fun b hb => henv b (hbs.mem_iff.mp hb)
  constructor
  · obtain ⟨s, hs⟩ := exists_lists hlistable
    use String.ofList s
    rwa [String.toList_ofList]
  · intro text htext
    rw [← ofList_of_perm hbs]
    apply htext.foldlM_assignPiece hlistable

/-- An environment with a negative integer, a name without a value, and a positive integer. -/
def threefold : Environment :=
  ofList [("x_1", some (.integer (-12))), ("y", none), ("z", some (.integer 907))]

theorem ofAssignments_of_lists_threefold :
  (∀ b ∈ threefold.entries, IsListable b)
    ∧ [("z", some (.integer 907)), ("x_1", some (.integer (-12))), ("y", none)].Perm
      threefold.entries
    ∧ ofAssignments " \t;z\r= +9 07;;\n x _1=-1\u30002\n\ny =;" = .ok threefold
  := by
  have hentries : threefold.entries =
      [("x_1", some (.integer (-12))), ("y", none), ("z", some (.integer 907))] := by rfl
  have henv : ∀ b ∈ threefold.entries, IsListable b := by
    rw [hentries]
    simp only [List.forall_mem_cons]
    refine ⟨?_, ?_, ?_, by simp⟩
    · apply isListable_integer rfl (by decide)
    · apply isListable_none rfl
    · apply isListable_integer rfl (by decide)
  have hperm : [("z", some (.integer 907)), ("x_1", some (.integer (-12))), ("y", none)].Perm
      threefold.entries := by
    rw [hentries]
    apply @List.perm_append_comm _ [_]
  have hz : WritesPiece [("z", some (.integer 907))] "z\r= +9 07".toList :=
    .of_compact (.plus (by decide)) (by decide) rfl
  have hx : WritesPiece [("x_1", some (.integer (-12)))] " x _1=-1\u30002".toList :=
    .of_compact (.integer (-12)) (by decide) rfl
  have hy : WritesPiece [("y", none)] "y =".toList := .of_compact .nothing (by decide) rfl
  have hblank : WritesPiece [] " \t".toList := .of_blank (by decide) rfl
  have hnone : WritesPiece [] [] := .of_blank (by decide) rfl
  have hlist := Lists.cons hblank (Or.inl rfl) (.cons hz (Or.inl rfl)
    (.cons hnone (Or.inl rfl) (.cons hnone (Or.inr rfl) (.cons hx (Or.inr rfl)
      (.cons hnone (Or.inr rfl) (.cons hy (Or.inl rfl) (.piece hnone)))))))
  refine ⟨henv, hperm, ?_⟩
  apply (ofAssignments_of_lists henv hperm).2
  apply hlist

end Verdict.Environment
