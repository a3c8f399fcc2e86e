import Verdict.Proofs.Environment.Listing

/-!
# Merging lists of assignments

A list of assignments merges the bindings of its pieces one after another. Two lists with a
separator between them therefore make the environments of both, merged, and fail as the first of
them that fails. Pieces that bind different names may change places. -/

namespace Verdict.Environment

open Text

/-! ### Pieces of a list of assignments -/

/-- The piece is read as a binding of the name. -/
def Binds (piece : List Char) (name : String) : Prop :=
  ∃ v, readPiece piece = .ok (some (name, v))

/-- No name is bound by both pieces. -/
def Apart (p q : List Char) : Prop :=
  ∀ name, ¬ (Binds p name ∧ Binds q name)

theorem Apart.symm {p q : List Char} (h : Apart p q) :
  Apart q p
  := fun name hboth => h name hboth.symm

/-- A piece is merged into what the pieces before it have made. -/
theorem assignPiece_merge (env new : Environment) (piece : List Char) :
  assignPiece (env.merge new) piece = (assignPiece new piece).map env.merge
  := by
  rw [assignPiece, assignPiece]
  rcases readPiece piece with f | - | ⟨name, v⟩
  · rfl
  · rfl
  · apply congrArg Except.ok
    apply (merge_set env new name v).symm

/-- Pieces are merged into an environment as a whole. -/
theorem foldlM_assignPiece_merge (ps : List (List Char)) (env new : Environment) :
  ps.foldlM assignPiece (env.merge new) = (ps.foldlM assignPiece new).map env.merge
  := by
  induction ps generalizing new with
  | nil => rfl
  | cons piece ps ih =>
    rw [List.foldlM_cons, List.foldlM_cons, assignPiece_merge]
    cases assignPiece new piece with
    | error f => rfl
    | ok new' => apply ih

/-- Pieces that are accepted and bind different names may change places. -/
theorem assignPiece_comm {p q : List Char} (hp : ∃ b, readPiece p = .ok b)
    (hq : ∃ b, readPiece q = .ok b) (h : Apart p q) (env : Environment) :
  ((assignPiece env p).bind fun env => assignPiece env q) =
    (assignPiece env q).bind fun env => assignPiece env p
  := by
  obtain ⟨b, hp⟩ := hp
  obtain ⟨d, hq⟩ := hq
  simp only [assignPiece, hp, hq]
  rcases b with - | ⟨name, v⟩
  · rfl
  · rcases d with - | ⟨other, w⟩
    · rfl
    · have hne : name ≠ other := by
        rintro rfl
        apply h name ⟨⟨v, hp⟩, ⟨w, hq⟩⟩
      apply congrArg Except.ok
      apply set_comm hne

/-- Pieces that are accepted and bind different names may stand in any order. -/
theorem foldlM_assignPiece_perm {ps qs : List (List Char)} (h : ps.Perm qs)
    (hread : ∀ p ∈ ps, ∃ b, readPiece p = .ok b) (happart : ps.Pairwise Apart)
    (env : Environment) :
  ps.foldlM assignPiece env = qs.foldlM assignPiece env
  := by
  induction h generalizing env with
  | nil => rfl
  | cons p hperm ih =>
    rw [List.forall_mem_cons] at hread
    rw [List.foldlM_cons, List.foldlM_cons]
    congr
    funext env'
    apply ih hread.2 (List.pairwise_cons.mp happart).2
  | swap p q ps =>
    rw [List.forall_mem_cons, List.forall_mem_cons] at hread
    have hcomm := assignPiece_comm hread.1 hread.2.1
      ((List.pairwise_cons.mp happart).1 p List.mem_cons_self) env
    simp only [List.foldlM_cons, ← bind_assoc]
    apply congrArg (· >>= _) hcomm
  | trans hperm _ ih ih' =>
    rw [ih hread happart]
    -- the pieces in the middle are those of the first list, in another order
    apply ih'
    · intro p hp
      apply hread p (hperm.mem_iff.mpr hp)
    · apply happart.perm hperm Apart.symm

/-! ### Two lists with a separator between them -/

/-- The two lists with a separator between them. -/
def joined (s : String) (c : Char) (t : String) : String :=
  s ++ String.singleton c ++ t

theorem pieces_joined {c : Char} (hc : isSeparator c = true) (s t : String) :
  pieces (joined s c t) = pieces s ++ pieces t
  := by
  have hchars : (joined s c t).toList = s.toList ++ c :: t.toList := by simp [joined]
  rw [pieces, hchars, List.splitOnP_append_cons _ _ hc]
  rfl

/-- The bindings of two lists with a separator between them are those of both, merged. -/
theorem ofAssignments_joined {c : Char} (hc : isSeparator c = true) (s t : String) :
  ofAssignments (joined s c t) =
    (ofAssignments s).bind fun env => (ofAssignments t).map env.merge
  := by
  rw [ofAssignments, pieces_joined hc, List.foldlM_append]
  change (ofAssignments s).bind (fun env => (pieces t).foldlM assignPiece env) = _
  congr
  funext env
  apply foldlM_assignPiece_merge (pieces t) env empty

/-- A name with an equals sign and nothing behind it binds the name to no value. -/
theorem ofAssignments_nothing {name : String} (h : isWord name.toList = true) :
  ofAssignments (name ++ "=") = .ok (empty.set name none)
  := by
  have hlistable : ∀ b ∈ [(name, (none : Option Number))], IsListable b := by
    rw [List.forall_mem_singleton]
    apply isListable_none h
  have hlist : Lists [(name, none)] (name ++ "=").toList := by
    rw [String.toList_append]
    apply Lists.piece (.binding .nothing (.refl _))
  apply hlist.foldlM_assignPiece hlistable

/-- Two lists of assignments with a separator between them make the environments of both, merged.
They fail as the first list if it fails, and otherwise as the second. Pieces that are accepted and
bind different names may stand in any order, whatever is in front of them and behind them. A name
that a later list binds to no value is absent, and so is one with nothing behind its equals sign. -/
theorem ofAssignments_merges {c : Char} (hc : c = ';' ∨ c = '\n') (s t : String) :
  (∀ env new, ofAssignments s = .ok env → ofAssignments t = .ok new →
      ofAssignments (joined s c t) = .ok (env.merge new))
    ∧ (∀ f, ofAssignments s = .error f → ofAssignments (joined s c t) = .error f)
    ∧ (∀ env f, ofAssignments s = .ok env → ofAssignments t = .error f →
        ofAssignments (joined s c t) = .error f)
    ∧ (∀ text text' before ps qs after, pieces text = before ++ ps ++ after →
        pieces text' = before ++ qs ++ after → ps.Perm qs →
        (∀ p ∈ ps, ∃ b, readPiece p = .ok b) → ps.Pairwise Apart →
          ofAssignments text = ofAssignments text')
    ∧ (∀ env new name, ofAssignments s = .ok env → ofAssignments t = .ok new →
        new.find? name = some none →
          ∃ env', ofAssignments (joined s c t) = .ok env' ∧ env'.contains name = false)
    ∧ ∀ env name, ofAssignments s = .ok env → isWord name.toList = true →
        ofAssignments (joined s c (name ++ "=")) = .ok (env.set name none)
          ∧ (env.set name none).contains name = false
  := by
  have hseparator : isSeparator c = true := isSeparator_iff.mpr hc
  refine ⟨?_, ?_, ?_, ?_, ?_, ?_⟩
  · intro env new hs ht
    rw [ofAssignments_joined hseparator, hs, ht]
    rfl
  · intro f hs
    rw [ofAssignments_joined hseparator, hs]
    rfl
  · intro env f hs ht
    rw [ofAssignments_joined hseparator, hs, ht]
    rfl
  · intro text text' before ps qs after htext htext' hperm hread happart
    rw [ofAssignments, ofAssignments, htext, htext']
    simp only [List.foldlM_append]
    congr
    funext env
    apply foldlM_assignPiece_perm hperm hread happart
  · intro env new name hs ht hnew
    use env.merge new
    constructor
    · rw [ofAssignments_joined hseparator, hs, ht]
      rfl
    · rw [contains, value?, find?_merge, hnew]
      rfl
  · intro env name hs hword
    constructor
    · rw [ofAssignments_joined hseparator, hs, ofAssignments_nothing hword]
      rfl
    · rw [contains, value?_set, if_pos rfl]
      rfl

theorem ofAssignments_merges_emptiedName :
  ('\n' = ';' ∨ '\n' = '\n')
    ∧ (∃ env new, ofAssignments "x=1; y=2" = .ok env ∧ ofAssignments "x=\nz=-3" = .ok new
      ∧ ofAssignments (joined "x=1; y=2" '\n' "x=\nz=-3") = .ok (env.merge new)
      ∧ new.find? "x" = some none
      ∧ (∃ env', ofAssignments (joined "x=1; y=2" '\n' "x=\nz=-3") = .ok env'
        ∧ env'.contains "x" = false)
      ∧ ofAssignments (joined "x=1; y=2" '\n' "y=") = .ok (env.set "y" none))
    ∧ (∃ f, ofAssignments "x=1;2" = .error f
      ∧ ofAssignments (joined "x=1;2" '\n' "y!") = .error f)
    ∧ (∃ env f, ofAssignments "x=1" = .ok env ∧ ofAssignments "y!" = .error f
      ∧ ofAssignments (joined "x=1" '\n' "y!") = .error f)
    ∧ [" y=2".toList, "x=1".toList].Pairwise Apart
    ∧ ofAssignments "x=0; y=2;x=1;x=" = ofAssignments "x=0;x=1; y=2;x="
  := by
  have hc : '\n' = ';' ∨ '\n' = '\n' := by decide
  obtain ⟨hmerge, -, -, horder, habsent, hnothing⟩ :=
    ofAssignments_merges hc "x=1; y=2" "x=\nz=-3"
  have hread : ∀ p ∈ [" y=2".toList, "x=1".toList], ∃ b, readPiece p = .ok b := by
    simp only [List.forall_mem_cons]
    exact ⟨⟨_, rfl⟩, ⟨_, rfl⟩, by simp⟩
  have happart : [" y=2".toList, "x=1".toList].Pairwise Apart := by
    rw [List.pairwise_pair]
    rintro name ⟨⟨v, hv⟩, w, hw⟩
    cases hv
    cases hw
  refine ⟨hc, ⟨_, _, rfl, rfl, hmerge _ _ rfl rfl, rfl, habsent _ _ "x" rfl rfl rfl,
    (hnothing _ "y" rfl rfl).1⟩, ⟨_, rfl, ?_⟩, ⟨_, _, rfl, rfl, ?_⟩, happart, ?_⟩
  · apply (ofAssignments_merges hc "x=1;2" "y!").2.1 _ rfl
  · apply (ofAssignments_merges hc "x=1" "y!").2.2.1 _ _ rfl rfl
  · apply horder _ _ ["x=0".toList] [" y=2".toList, "x=1".toList] ["x=1".toList, " y=2".toList]
      ["x=".toList] rfl rfl (List.Perm.swap _ _ []) hread happart

end Verdict.Environment
