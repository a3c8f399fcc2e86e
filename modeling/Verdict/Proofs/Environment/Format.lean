import Mathlib.Data.Nat.Digits.Defs
import Verdict.Proofs.Environment.Assignments
import Verdict.Proofs.Environment.Binding
import Verdict.Proofs.Token.Lexeme

/-!
# The format of a list of assignments

Without its white space, a piece of a list of assignments is empty, or a name, an equals sign and a
value. `Denotes` tells the texts that are values, and what number each of them writes: the digits
count by their positions, and a text with a point stands for the binary number nearest to it.
A list is accepted if all of its pieces have this form, and then each name has the value of the last
piece with that name. Otherwise the first piece of another form is told.
-/

namespace Verdict.Environment

open Text

/-! ### Values -/

/-- A sign, or none. -/
def IsSign (s : List Char) : Prop :=
  s = [] ∨ s = ['+'] ∨ s = ['-']

/-- One or more decimal digits of any script. -/
def IsDigits (s : List Char) : Prop :=
  s ≠ [] ∧ ∀ c ∈ s, isDigit c = true

/-- The number that digits write by their positions, the last one counting once and each other ten
times as much as the one behind it. -/
def positional (ds : List Char) : Nat :=
  Nat.ofDigits 10 (ds.filterMap digitValue?).reverse

/-- The text writes the value: nothing writes that there is none, digits behind a sign or without
one write an integer, and digits with a point between them the nearest binary number. -/
inductive Denotes : List Char → Option Number → Prop where
  | nothing : Denotes [] none
  | whole {sign ds : List Char} (hsign : IsSign sign) (hds : IsDigits ds) :
    Denotes (sign ++ ds) (some (.integer (Integer.signed (sign == ['-']) (positional ds))))
  | fraction {sign ds fs : List Char} (hsign : IsSign sign) (hds : IsDigits ds)
      (hfs : IsDigits fs) :
    Denotes (sign ++ (ds ++ '.' :: fs))
      (some (.binary (Decimal.toBinary ⟨sign == ['-'], positional (ds ++ fs), -fs.length⟩)))

theorem ofDigitChars_eq_positional (s : List Char) :
  ofDigitChars s = positional s
  := by
  rw [ofDigitChars, ofDigits, positional, Nat.ofDigits_eq_foldr, List.foldr_reverse]
  congr
  funext n d
  rw [Nat.add_comm]
  rfl

section

variable {sign ds fs : List Char}

/-- Every text is its sign and what follows it. -/
theorem exists_sign (s : List Char) :
  ∃ sign, IsSign sign ∧ s = sign ++ (Integer.splitSign s).2
  := by
  unfold Integer.splitSign
  split
  · use ['-'], Or.inr (Or.inr rfl)
    rfl
  · use ['+'], Or.inr (Or.inl rfl)
    rfl
  · use [], Or.inl rfl
    rfl

/-- A sign in front of a text that begins with a digit is found. -/
theorem splitSign_append (hsign : IsSign sign) (hds : IsDigits ds) (rest : List Char) :
  Integer.splitSign (sign ++ (ds ++ rest)) = (sign == ['-'], ds ++ rest)
  := by
  obtain ⟨hne, hdigits⟩ := hds
  cases ds with
  | nil => contradiction
  | cons d ds =>
    have hd : isDigit d = true := hdigits d List.mem_cons_self
    rcases hsign with rfl | rfl | rfl
    · unfold Integer.splitSign
      split
      · next heq => exact absurd (List.cons.inj heq).1 (ne_of_class hd rfl)
      · next heq => exact absurd (List.cons.inj heq).1 (ne_of_class hd rfl)
      · rfl
    · rfl
    · rfl

/-- Digits are all taken, up to the end or to a character that is none. -/
theorem takeWhile_isDigit (hds : IsDigits ds) (rest : List Char)
    (hrest : ∀ c ∈ rest.head?, isDigit c = false) :
  (ds ++ rest).takeWhile isDigit = ds ∧ (ds ++ rest).dropWhile isDigit = rest
  := by
  use Token.takeWhile_append_of_ends hds.2 hrest
  rw [List.dropWhile_append_of_pos hds.2]
  cases rest with
  | nil => rfl
  | cons c rest =>
    apply List.dropWhile_cons_of_neg
    simp [hrest c rfl]

/-- A text is accepted as a number if it writes one. -/
theorem isAmount_iff {s : List Char} :
  isAmount s = true ↔ ∃ v, Denotes s (some v)
  := by
  constructor
  · intro h
    obtain ⟨sign, hsign, hs⟩ := exists_sign s
    rw [isAmount] at h
    generalize (Integer.splitSign s).2 = body at h hs
    subst hs
    rw [Bool.and_eq_true] at h
    obtain ⟨hwhole, hrest⟩ := h
    have hds : IsDigits (body.takeWhile isDigit) := by
      use by simpa using hwhole
      intro c hc
      apply List.mem_takeWhile_imp hc
    rw [← List.takeWhile_append_dropWhile (p := isDigit) (l := body)]
    cases hdrop : body.dropWhile isDigit with
    | nil =>
      rw [List.append_nil]
      exact ⟨_, .whole hsign hds⟩
    | cons c fs =>
      simp only [hdrop, Bool.and_eq_true, beq_iff_eq, List.all_eq_true] at hrest
      obtain ⟨⟨rfl, hne⟩, hdigits⟩ := hrest
      exact ⟨_, .fraction hsign hds ⟨by simpa using hne, hdigits⟩⟩
  · rintro ⟨v, h⟩
    cases h with
    | @whole sign ds hsign hds =>
      have hsplit := splitSign_append hsign hds []
      have hcut := takeWhile_isDigit hds [] (by simp)
      rw [List.append_nil] at hsplit hcut
      rw [isAmount, hsplit]
      simp only [hcut.1, hcut.2]
      simpa using hds.1
    | @fraction sign ds fs hsign hds hfs =>
      have hcut := takeWhile_isDigit hds ('.' :: fs) (by simp; rfl)
      rw [isAmount, splitSign_append hsign hds]
      simp only [hcut.1, hcut.2, List.all_eq_true.mpr hfs.2]
      simp [hds.1, hfs.1]

/-- Digits with a point between them are read as a decimal number. -/
theorem read?_fraction (hsign : IsSign sign) (hds : IsDigits ds) (hfs : IsDigits fs) :
  Decimal.read? (sign ++ (ds ++ '.' :: fs)) =
    some ⟨sign == ['-'], positional (ds ++ fs), -fs.length⟩
  := by
  have hcut := takeWhile_isDigit hds ('.' :: fs) (by simp; rfl)
  have hfraction : Decimal.splitFraction ('.' :: fs) = (fs, []) := by
    rw [Decimal.splitFraction, List.takeWhile_eq_self_iff.mpr hfs.2,
      List.dropWhile_eq_nil_iff.mpr hfs.2]
  have hne : ds.isEmpty = false := by simpa using hds.1
  simp [Decimal.read?, splitSign_append hsign hds, hcut.1, hcut.2, hfraction, hne,
    Decimal.readExponent?, ofDigitChars_eq_positional]

/-- A value without a point is read unless its digits are too many. -/
theorem readValue_whole (hsign : IsSign sign) (hds : IsDigits ds)
    (hblank : ∀ c ∈ sign ++ ds, isBlank c = false) (hlength : ds.length ≤ Integer.maxDigits)
    (piece : String) :
  readValue piece (sign ++ ds) =
    .ok (some (.integer (Integer.signed (sign == ['-']) (positional ds))))
  := by
  have hne : ¬ (sign ++ ds).isEmpty := by
    rw [List.isEmpty_iff, List.append_eq_nil_iff]
    exact fun h => hds.1 h.2
  have hamount : isAmount (sign ++ ds) = true := isAmount_iff.mpr ⟨_, .whole hsign hds⟩
  have hpoint : ¬ (sign ++ ds).contains '.' := by
    rw [List.contains_iff_mem, List.mem_append]
    rintro (hmem | hmem)
    · rcases hsign with rfl | rfl | rfl
      · cases hmem
      · cases List.mem_singleton.mp hmem
      · cases List.mem_singleton.mp hmem
    · cases hds.2 '.' hmem
  have hsplit : Integer.splitSign ((String.ofList (sign ++ ds)).toList.dropWhile
      Integer.isPadding) = (sign == ['-'], ds) := by
    rw [String.toList_ofList, dropWhile_isPadding hblank]
    simpa using splitSign_append hsign hds []
  rw [readValue, if_neg hne, hamount, if_neg (by decide), if_neg hpoint,
    Integer.read_digits hsplit hds.1 hds.2, if_neg (Nat.not_lt.mpr hlength),
    ofDigitChars_eq_positional]

/-- A value with a point is the binary number nearest to it. -/
theorem readValue_fraction (hsign : IsSign sign) (hds : IsDigits ds) (hfs : IsDigits fs)
    (piece : String) :
  readValue piece (sign ++ (ds ++ '.' :: fs)) =
    .ok (some (.binary (Decimal.toBinary ⟨sign == ['-'], positional (ds ++ fs), -fs.length⟩)))
  := by
  have hamount : isAmount (sign ++ (ds ++ '.' :: fs)) = true :=
    isAmount_iff.mpr ⟨_, .fraction hsign hds hfs⟩
  have hne : ¬ (sign ++ (ds ++ '.' :: fs)).isEmpty := by simp
  have hpoint : (sign ++ (ds ++ '.' :: fs)).contains '.' = true := by simp
  rw [readValue, if_neg hne, hamount, if_neg (by decide), if_pos hpoint, readBinary,
    read?_fraction hsign hds hfs]

end

/-- A text that writes no value is refused. -/
theorem readValue_of_not_denotes {s : List Char} (h : ∀ v, ¬ Denotes s v) (piece : String) :
  readValue piece s = .error (Fault.assignment piece (.value (String.ofList s)))
  := by
  have hne : ¬ s.isEmpty := by
    rw [List.isEmpty_iff]
    rintro rfl
    apply h none .nothing
  have hamount : ¬ isAmount s = true := by
    rw [isAmount_iff]
    rintro ⟨v, hv⟩
    apply h (some v) hv
  rw [readValue, if_neg hne, if_pos (by simpa using hamount)]

/-! ### Pieces -/

/-- Without its white space, the piece is the name, an equals sign, and a text that writes the
value. -/
def Assigns (piece : List Char) (name : String) (v : Option Number) : Prop :=
  isWord name.toList = true
    ∧ ∃ s, removeBlanks piece = name.toList ++ '=' :: s ∧ Denotes s v

/-- The piece is empty but for white space, or assigns a value to a name. -/
def IsFormed (piece : List Char) : Prop :=
  removeBlanks piece = [] ∨ ∃ name v, Assigns piece name v

/-- Where the piece assigns a value without a point, this value has no more digits than can be
read. -/
def IsReadable (piece : List Char) : Prop :=
  ∀ name sign ds, isWord name = true → IsSign sign → IsDigits ds →
    removeBlanks piece = name ++ '=' :: (sign ++ ds) → ds.length ≤ Integer.maxDigits

/-- A name ends at the equals sign behind it. -/
theorem takeWhile_name {name : List Char} (h : isWord name = true) (s : List Char) :
  (name ++ '=' :: s).takeWhile (· != '=') = name
    ∧ (name ++ '=' :: s).dropWhile (· != '=') = '=' :: s
  := by
  have hname : ∀ c ∈ name, (c != '=') = true := by
    intro c hc
    rw [bne_iff_ne]
    rintro rfl
    cases isWordChar_of_isWord h hc
  rw [List.takeWhile_append_of_pos hname, List.dropWhile_append_of_pos hname]
  simp

theorem isBlank_removeBlanks (piece : List Char) :
  ∀ c ∈ removeBlanks piece, isBlank c = false
  := by
  intro c hc
  simpa using (List.mem_filter.mp hc).2

theorem readPiece_of_blank {piece : List Char} (h : removeBlanks piece = []) :
  readPiece piece = .ok none
  := by
  simp [readPiece, h]

/-- A piece that assigns a value is read as the binding of the name to this value. -/
theorem readPiece_of_assigns {piece : List Char} {name : String} {v : Option Number}
    (h : Assigns piece name v) (hreadable : IsReadable piece) :
  readPiece piece = .ok (some (name, v))
  := by
  obtain ⟨hword, s, hcompact, hdenotes⟩ := h
  obtain ⟨htake, hdrop⟩ := takeWhile_name hword s
  have hblank : ∀ c ∈ s, isBlank c = false := by
    intro c hc
    apply isBlank_removeBlanks piece
    rw [hcompact]
    apply List.mem_append_right _ (List.mem_cons_of_mem _ hc)
  have hvalue : readValue (String.ofList (stripChars piece)) s = .ok v := by
    cases hdenotes with
    | nothing => rfl
    | whole hsign hds =>
      apply readValue_whole hsign hds hblank
      apply hreadable _ _ _ hword hsign hds hcompact
    | fraction hsign hds hfs => apply readValue_fraction hsign hds hfs
  have hne : ¬ (name.toList ++ '=' :: s).isEmpty := by simp
  simp only [readPiece, hcompact, htake, hdrop, if_neg hne, if_pos hword, hvalue,
    String.ofList_toList]
  rfl

/-- A piece of another form is refused, and told without the white space around it. -/
theorem readPiece_of_not_formed {piece : List Char} (h : ¬ IsFormed piece) :
  ∃ cause, readPiece piece =
    .error (Fault.assignment (String.ofList (stripChars piece)) cause)
  := by
  have hne : ¬ (removeBlanks piece).isEmpty := by
    rw [List.isEmpty_iff]
    intro hblank
    apply h (Or.inl hblank)
  rw [readPiece]
  simp only [if_neg hne]
  cases hdrop : (removeBlanks piece).dropWhile (· != '=') with
  | nil => exact ⟨_, rfl⟩
  | cons d s =>
    by_cases hword : isWord ((removeBlanks piece).takeWhile (· != '=')) = true
    · have hequals := List.head?_dropWhile_not (· != '=') (removeBlanks piece)
      rw [hdrop] at hequals
      obtain rfl : d = '=' := by simpa using hequals
      have hvalue : ∀ v, ¬ Denotes s v := by
        intro v hdenotes
        apply h
        right
        use String.ofList ((removeBlanks piece).takeWhile (· != '=')), v
        rw [Assigns, String.toList_ofList]
        use hword, s
        rw [← hdrop, List.takeWhile_append_dropWhile]
        use rfl
      simp only [if_pos hword, readValue_of_not_denotes hvalue]
      exact ⟨_, rfl⟩
    · simp only [if_neg hword]
      exact ⟨_, rfl⟩

/-- The pieces of the right form are those that can be read. -/
theorem isFormed_iff {piece : List Char} (hreadable : IsReadable piece) :
  IsFormed piece ↔ ∃ b, readPiece piece = .ok b
  := by
  constructor
  · rintro (hblank | ⟨name, v, hassigns⟩)
    · exact ⟨_, readPiece_of_blank hblank⟩
    · exact ⟨_, readPiece_of_assigns hassigns hreadable⟩
  · rintro ⟨b, hread⟩
    by_contra hnot
    obtain ⟨cause, hrefused⟩ := readPiece_of_not_formed hnot
    rw [hread] at hrefused
    cases hrefused

/-- The digits of a short piece are not too many. -/
theorem isReadable_of_length {piece : List Char} (h : piece.length ≤ Integer.maxDigits) :
  IsReadable piece
  := by
  intro name sign ds _ _ _ hcompact
  have hlength : (removeBlanks piece).length ≤ piece.length := List.length_filter_le _ _
  rw [hcompact, List.length_append, List.length_cons, List.length_append] at hlength
  omega

/-- A value that is not too long can be read. -/
theorem isReadable_of_compact {piece name amount : List Char} (hname : isWord name = true)
    (hcompact : removeBlanks piece = name ++ '=' :: amount)
    (hlength : (Integer.splitSign amount).2.length ≤ Integer.maxDigits) :
  IsReadable piece
  := by
  intro name' sign ds hname' hsign hds hcompact'
  have hdrop := (takeWhile_name hname amount).2
  rw [← hcompact, hcompact', (takeWhile_name hname' _).2] at hdrop
  have hsplit := splitSign_append hsign hds []
  rw [List.append_nil, (List.cons.inj hdrop).2] at hsplit
  rwa [hsplit] at hlength

/-- A piece assigns at most one value to at most one name. -/
theorem Assigns.unique {piece : List Char} {name name' : String} {v v' : Option Number}
    (h : Assigns piece name v) (h' : Assigns piece name' v') (hreadable : IsReadable piece) :
  name = name' ∧ v = v'
  := by
  have heq := readPiece_of_assigns h hreadable
  rw [readPiece_of_assigns h' hreadable] at heq
  cases heq
  exact ⟨rfl, rfl⟩

/-! ### Lists -/

/-- The last of the pieces that assign a value to the name assigns this one. -/
def LastAssigns (ps : List (List Char)) (name : String) (v : Option Number) : Prop :=
  ∃ before piece after, ps = before ++ piece :: after ∧ Assigns piece name v
    ∧ ∀ q ∈ after, ∀ w, ¬ Assigns q name w

theorem lastAssigns_concat {ps : List (List Char)} {piece : List Char} {name : String}
    {v : Option Number} :
  LastAssigns (ps ++ [piece]) name v
    ↔ Assigns piece name v ∨ (∀ w, ¬ Assigns piece name w) ∧ LastAssigns ps name v
  := by
  constructor
  · rintro ⟨before, q, after, heq, hassigns, hafter⟩
    rcases List.eq_nil_or_concat after with rfl | ⟨after, r, rfl⟩
    · obtain ⟨rfl, hq⟩ := List.append_inj' heq rfl
      cases hq
      exact Or.inl hassigns
    · rw [List.concat_eq_append, ← List.cons_append, ← List.append_assoc] at heq
      obtain ⟨rfl, hr⟩ := List.append_inj' heq rfl
      cases hr
      rw [List.concat_eq_append, List.forall_mem_append, List.forall_mem_singleton] at hafter
      exact Or.inr ⟨hafter.2, before, q, after, rfl, hassigns, hafter.1⟩
  · rintro (hassigns | ⟨hnot, before, q, after, rfl, hassigns, hafter⟩)
    · use ps, piece, [], rfl, hassigns
      simp
    · use before, q, after ++ [piece], by simp, hassigns
      rw [List.forall_mem_append, List.forall_mem_singleton]
      use hafter

/-- If a piece assigns a value to the name, so does a last one. -/
theorem exists_lastAssigns {ps : List (List Char)} {name : String} :
  (∃ v, LastAssigns ps name v) ↔ ∃ piece ∈ ps, ∃ v, Assigns piece name v
  := by
  constructor
  · rintro ⟨v, before, piece, after, rfl, hassigns, -⟩
    use piece, by simp, v
  · intro h
    induction ps using List.reverseRecOn with
    | nil => simp at h
    | append_singleton ps piece ih =>
      simp only [lastAssigns_concat]
      by_cases hpiece : ∃ w, Assigns piece name w
      · obtain ⟨w, hw⟩ := hpiece
        use w, Or.inl hw
      · obtain ⟨q, hq, v, hassigns⟩ := h
        rw [List.mem_append, List.mem_singleton] at hq
        rcases hq with hq | rfl
        · obtain ⟨w, hw⟩ := ih ⟨q, hq, v, hassigns⟩
          use w, Or.inr ⟨not_exists.mp hpiece, hw⟩
        · cases hpiece ⟨v, hassigns⟩

/-- What a piece of the right form does to an environment: the name that it assigns a value to has
this value, and all other names have theirs. -/
theorem exists_assignPiece {piece : List Char} (h : IsFormed piece) (hreadable : IsReadable piece)
    (env : Environment) :
  ∃ env', assignPiece env piece = .ok env' ∧ ∀ name v, env'.find? name = some v ↔
    Assigns piece name v ∨ (∀ w, ¬ Assigns piece name w) ∧ env.find? name = some v
  := by
  rcases h with hblank | ⟨name, v, hassigns⟩
  · have hnot : ∀ name w, ¬ Assigns piece name w := by
      rintro name w ⟨-, s, hcompact, -⟩
      simp [hblank] at hcompact
    use env
    constructor
    · rw [assignPiece, readPiece_of_blank hblank]
      rfl
    · simp [hnot]
  · use env.set name v
    constructor
    · rw [assignPiece, readPiece_of_assigns hassigns hreadable]
      rfl
    · intro other w
      rw [find?_set]
      by_cases heq : other = name
      · subst heq
        rw [if_pos rfl, Option.some_inj]
        constructor
        · rintro rfl
          apply Or.inl hassigns
        · rintro (hw | ⟨hnot, -⟩)
          · apply (hassigns.unique hw hreadable).2
          · cases hnot v hassigns
      · have hnot : ∀ w, ¬ Assigns piece other w := fun w hw =>
          heq (hw.unique hassigns hreadable).1
        rw [if_neg heq]
        simp [hnot]

/-- Pieces of the right form make an environment in which each name has the value that the last
piece with that name assigns. -/
theorem exists_foldlM_assignPiece {ps : List (List Char)} (h : ∀ piece ∈ ps, IsFormed piece)
    (hreadable : ∀ piece ∈ ps, IsReadable piece) :
  ∃ env, ps.foldlM assignPiece empty = .ok env
    ∧ ∀ name v, env.find? name = some v ↔ LastAssigns ps name v
  := by
  induction ps using List.reverseRecOn with
  | nil =>
    use empty, rfl
    intro name v
    simp [LastAssigns, find?, empty]
  | append_singleton ps piece ih =>
    rw [List.forall_mem_append, List.forall_mem_singleton] at h hreadable
    obtain ⟨env, hfold, henv⟩ := ih h.1 hreadable.1
    obtain ⟨env', hassign, henv'⟩ := exists_assignPiece h.2 hreadable.2 env
    use env'
    constructor
    · rw [List.foldlM_append, hfold]
      change [piece].foldlM assignPiece env = _
      rw [List.foldlM_cons, hassign]
      rfl
    · intro name v
      rw [henv', henv, lastAssigns_concat]

/-- The first piece of another form is refused, whatever follows it. -/
theorem foldlM_assignPiece_of_not_formed {before after : List (List Char)} {piece : List Char}
    (h : ∀ q ∈ before, IsFormed q) (hreadable : ∀ q ∈ before, IsReadable q)
    (hpiece : ¬ IsFormed piece) :
  ∃ cause, (before ++ piece :: after).foldlM assignPiece empty =
    .error (Fault.assignment (String.ofList (stripChars piece)) cause)
  := by
  obtain ⟨env, hfold, -⟩ := exists_foldlM_assignPiece h hreadable
  obtain ⟨cause, hread⟩ := readPiece_of_not_formed hpiece
  use cause
  rw [List.foldlM_append, hfold]
  change (piece :: after).foldlM assignPiece env = _
  rw [List.foldlM_cons, assignPiece, hread]
  rfl

/-- A list of assignments whose values without a point can be read is accepted if each of its pieces
is of the right form. Then each name has the value that the last piece with that name assigns, and a
name is bound if a piece has it. Otherwise the first piece of another form is told, whatever follows
it. -/
theorem ofAssignments_format (text : String) (h : ∀ piece ∈ pieces text, IsReadable piece) :
  ((∃ env, ofAssignments text = .ok env) ↔ ∀ piece ∈ pieces text, IsFormed piece)
    ∧ (∀ env, ofAssignments text = .ok env → ∀ name,
        (env.find? name ≠ none ↔ ∃ piece ∈ pieces text, ∃ v, Assigns piece name v)
          ∧ ∀ v, env.find? name = some v ↔ LastAssigns (pieces text) name v)
    ∧ ∀ before piece after, pieces text = before ++ piece :: after → (∀ q ∈ before, IsFormed q) →
        ¬ IsFormed piece → ∃ cause, ofAssignments text =
          .error (Fault.assignment (String.ofList (stripChars piece)) cause)
  := by
  have haccepted : (∃ env, ofAssignments text = .ok env) →
      ∀ piece ∈ pieces text, IsFormed piece := by
    rintro ⟨env, henv⟩ piece hpiece
    apply (isFormed_iff (h piece hpiece)).mpr
    apply exists_readPiece_of_foldlM henv piece hpiece
  refine ⟨⟨haccepted, ?_⟩, ?_, ?_⟩
  · intro hformed
    obtain ⟨env, henv, -⟩ := exists_foldlM_assignPiece hformed h
    use env, henv
  · intro env henv name
    obtain ⟨env', henv', hlast⟩ := exists_foldlM_assignPiece (haccepted ⟨env, henv⟩) h
    obtain rfl : env' = env := by
      rw [ofAssignments, henv'] at henv
      cases henv
      rfl
    constructor
    · rw [← exists_lastAssigns, Option.ne_none_iff_exists']
      simp only [hlast]
    · apply hlast
  · intro before piece after heq hbefore hpiece
    rw [ofAssignments, heq]
    apply foldlM_assignPiece_of_not_formed hbefore _ hpiece
    intro q hq
    apply h
    rw [heq]
    apply List.mem_append_left _ hq

/-- A list in which a name occurs twice, a digit is not one of ASCII, and a name has no value. -/
def layeredList : String :=
  "x=1; y = 2.5\nx = -٤;w="

/-- A list whose fourth piece begins with a digit. -/
def brokenList : String :=
  "x=1; y = 2;; 3z=4 ;x!"

theorem ofAssignments_format_layeredList :
  (∀ piece ∈ pieces layeredList, IsReadable piece)
    ∧ (∀ piece ∈ pieces layeredList, IsFormed piece)
    ∧ LastAssigns (pieces layeredList) "x" (some (.integer (-4)))
    ∧ LastAssigns (pieces layeredList) "w" none
    ∧ (∀ piece ∈ pieces brokenList, IsReadable piece)
    ∧ ∃ cause, ofAssignments brokenList = .error (Fault.assignment "3z=4" cause)
  := by
  have hlayered : ∀ piece ∈ pieces layeredList, IsReadable piece := by
    intro piece hpiece
    have hlength : ∀ q ∈ pieces layeredList, q.length ≤ Integer.maxDigits := by decide
    apply isReadable_of_length (hlength piece hpiece)
  have hbroken : ∀ piece ∈ pieces brokenList, IsReadable piece := by
    intro piece hpiece
    have hlength : ∀ q ∈ pieces brokenList, q.length ≤ Integer.maxDigits := by decide
    apply isReadable_of_length (hlength piece hpiece)
  have hcut : pieces brokenList = ["x=1".toList, " y = 2".toList, []] ++ " 3z=4 ".toList ::
      ["x!".toList] := by rfl
  have hformed : ∀ q ∈ ["x=1".toList, " y = 2".toList, []], IsFormed q := by
    intro q hq
    rw [isFormed_iff (hbroken q (hcut ▸ List.mem_append_left _ hq))]
    simp only [List.mem_cons, List.not_mem_nil, or_false] at hq
    rcases hq with rfl | rfl | rfl
    all_goals exact ⟨_, rfl⟩
  have hfourth : ¬ IsFormed " 3z=4 ".toList := by
    rw [isFormed_iff (hbroken _ (by decide))]
    rintro ⟨b, hread⟩
    cases hread
  obtain ⟨haccepted, hlast, -⟩ := ofAssignments_format layeredList hlayered
  refine ⟨hlayered, haccepted.mp ⟨_, rfl⟩, ((hlast _ rfl "x").2 _).mp (by decide),
    ((hlast _ rfl "w").2 _).mp (by decide), hbroken, ?_⟩
  apply (ofAssignments_format brokenList hbroken).2.2 _ _ _ hcut hformed hfourth

end Verdict.Environment
