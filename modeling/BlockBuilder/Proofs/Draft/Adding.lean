import Mathlib.Algebra.Ring.Nat
import Mathlib.Algebra.Order.BigOperators.Group.List
import BlockBuilder.Draft

namespace BlockBuilder

variable {T : Type} {lane : String} {share : Share} {draft extended : Draft}
  {txs : List (SealedTx T)}

def totalSize (txs : List (SealedTx T)) : Nat := (txs.map SealedTx.size).sum

@[simp] theorem totalSize_nil : totalSize ([] : List (SealedTx T)) = 0 := rfl

@[simp] theorem totalSize_cons (sealedTx : SealedTx T) (rest : List (SealedTx T)) :
    totalSize (sealedTx :: rest) = sealedTx.size + totalSize rest := by
  simp [totalSize]

@[simp] theorem totalSize_append (first second : List (SealedTx T)) :
    totalSize (first ++ second) = totalSize first + totalSize second := by
  simp [totalSize]

theorem totalSize_eq_sum_length (txs : List (SealedTx T)) :
    totalSize txs = ((txs.map SealedTx.bytes).map List.length).sum := by
  rw [totalSize, List.map_map]
  rfl

/-- The bytes that a share allows in a block of limited size, some of which is used: all that is
free without a share, and the rounded down part of the block otherwise. -/
def Share.allowed (share : Share) (limit used : Nat) : Nat :=
  if share.isZero then limit - used
  else limit * share.numerator.toNat / share.denominator.toNat

namespace Draft

theorem bytesOf_eq_min (txs : List (SealedTx T)) : bytesOf txs = min (totalSize txs) maxCount := by
  have capped (start : Nat) (small : start ≤ maxCount) :
      txs.foldl (fun size sealedTx => addCapped size sealedTx.size) start =
        min (start + totalSize txs) maxCount := by
    induction txs generalizing start with
    | nil => simp [small]
    | cons sealedTx rest ih =>
      rw [List.foldl_cons, ih _ (addCapped_le _ _), totalSize_cons, addCapped]
      omega
  simpa [bytesOf] using capped 0 (Nat.zero_le _)

theorem bytesOf_eq_totalSize (fits : totalSize txs ≤ maxCount) : bytesOf txs = totalSize txs := by
  rw [bytesOf_eq_min]
  exact Nat.min_eq_left fits

theorem le_allowance_iff {bytes : Nat} (fits : bytes ≤ maxCount) :
    bytes ≤ draft.allowance share ↔ bytes ≤ share.allowed draft.limit draft.total := by
  unfold allowance Share.allowed
  split
  · rfl
  · rw [Share.portion]
    split
    · rename_i undefined
      simp [undefined]
    · exact ⟨fun within => within.trans (Nat.min_le_left _ _), fun within => Nat.le_min.mpr ⟨within, fits⟩⟩

theorem firstRepeat?_eq_none_iff (seen : Std.HashSet Digest) (txs : List (SealedTx T)) :
    firstRepeat? seen txs = none ↔
      (txs.map SealedTx.digest).Nodup ∧ ∀ sealedTx ∈ txs, sealedTx.digest ∉ seen := by
  induction txs generalizing seen with
  | nil => simp [firstRepeat?]
  | cons sealedTx rest ih =>
    rw [firstRepeat?]
    by_cases repeated : sealedTx.digest ∈ seen
    · simp [repeated]
    · simp only [Std.HashSet.contains_iff_mem, repeated, if_false, ih, Std.HashSet.mem_insert,
        List.map_cons, List.nodup_cons, List.mem_cons, List.mem_map, beq_iff_eq]
      grind

@[simp] theorem contains_append {digest : Digest} :
    (draft.append lane txs).contains digest =
      (draft.contains digest || (txs.map SealedTx.digest).contains digest) := by
  simp [append, contains, Std.HashSet.contains_insertMany_list]

@[simp] theorem contains_empty {limit : Nat} {digest : Digest} :
    (Draft.empty limit).contains digest = false := by
  simp [empty, contains]

structure Admits (draft : Draft) (lane : String) (share : Share) (txs : List (SealedTx T)) :
    Prop where
  noOther : draft.contribution? lane = none
  distinct : (txs.map SealedTx.digest).Nodup
  fresh : ∀ sealedTx ∈ txs, draft.contains sealedTx.digest = false
  withinShare : bytesOf txs ≤ draft.allowance share
  withinBlock : addCapped draft.total (bytesOf txs) ≤ draft.limit

theorem add_nil : draft.add lane share ([] : List (SealedTx T)) = .ok draft := rfl

theorem add_eq_ok_iff_of_ne_nil (nonempty : txs ≠ []) :
    draft.add lane share txs = .ok extended ↔
      draft.Admits lane share txs ∧ extended = draft.append lane txs := by
  have repeats := firstRepeat?_eq_none_iff draft.digests txs
  have unseen (digest : Digest) : digest ∉ draft.digests ↔ draft.contains digest = false := by
    simp [contains]
  simp only [unseen] at repeats
  simp only [add, List.isEmpty_iff, nonempty, if_false]
  cases other : draft.contribution? lane with
  | some contribution => simp [mt Admits.noOther, other]
  | none =>
    cases found : firstRepeat? draft.digests txs with
    | some digest =>
      have repeated : ¬draft.Admits lane share txs := fun admits =>
        absurd (repeats.mpr ⟨admits.distinct, admits.fresh⟩) (by simp [found])
      simp [repeated]
    | none =>
      obtain ⟨distinct, fresh⟩ := repeats.mp found
      by_cases withinShare : bytesOf txs ≤ draft.allowance share
      · by_cases withinBlock : addCapped draft.total (bytesOf txs) ≤ draft.limit
        · have admits : draft.Admits lane share txs :=
            ⟨other, distinct, fresh, withinShare, withinBlock⟩
          simp [Nat.not_lt.mpr withinShare, Nat.not_lt.mpr withinBlock, admits, eq_comm]
        · simp [Nat.not_lt.mpr withinShare, Nat.not_le.mp withinBlock, mt Admits.withinBlock, withinBlock]
      · simp [Nat.not_le.mp withinShare, mt Admits.withinShare, withinShare]

theorem add_eq_ok_iff :
    draft.add lane share txs = .ok extended ↔
      txs = [] ∧ extended = draft ∨
        txs ≠ [] ∧ draft.Admits lane share txs ∧ extended = draft.append lane txs := by
  by_cases empty : txs = []
  · subst empty
    simp [add_nil, eq_comm]
  · simp [empty, add_eq_ok_iff_of_ne_nil]

theorem txs_of_add (added : draft.add lane share txs = .ok extended) :
    extended.txs = draft.txs ++ txs.map SealedTx.bytes := by
  obtain ⟨rfl, rfl⟩ | ⟨-, -, rfl⟩ := add_eq_ok_iff.mp added
  · simp
  · rfl

theorem limit_of_add (added : draft.add lane share txs = .ok extended) :
    extended.limit = draft.limit := by
  obtain ⟨rfl, rfl⟩ | ⟨-, -, rfl⟩ := add_eq_ok_iff.mp added <;> rfl

theorem contains_of_add (added : draft.add lane share txs = .ok extended) (digest : Digest) :
    extended.contains digest = (draft.contains digest || (txs.map SealedTx.digest).contains digest) := by
  obtain ⟨rfl, rfl⟩ | ⟨-, -, rfl⟩ := add_eq_ok_iff.mp added
  · simp
  · exact contains_append

theorem contains_eq_false_iff_of_add (added : draft.add lane share txs = .ok extended) (digest : Digest) :
    extended.contains digest = false ↔
      draft.contains digest = false ∧ digest ∉ txs.map SealedTx.digest := by
  simp [contains_of_add added digest]

theorem contribution?_of_add {other : String} (different : other ≠ lane)
    (added : draft.add lane share txs = .ok extended) :
    extended.contribution? other = draft.contribution? other := by
  obtain ⟨rfl, rfl⟩ | ⟨-, -, rfl⟩ := add_eq_ok_iff.mp added
  · rfl
  · have unlike : (other == lane) = false := by simpa using different
    simp [append, contribution?, List.lookup_append, List.lookup_cons, unlike]

theorem total_of_add_capped (capped : draft.total ≤ maxCount)
    (added : draft.add lane share txs = .ok extended) :
    extended.total = min (draft.total + totalSize txs) maxCount := by
  obtain ⟨rfl, rfl⟩ | ⟨-, -, rfl⟩ := add_eq_ok_iff.mp added
  · simp [capped]
  · simp only [append, bytesOf_eq_min, addCapped]
    omega

theorem total_le_limit_of_add (within : draft.total ≤ draft.limit)
    (added : draft.add lane share txs = .ok extended) : extended.total ≤ extended.limit := by
  obtain ⟨rfl, rfl⟩ | ⟨-, admits, rfl⟩ := add_eq_ok_iff.mp added
  · exact within
  · exact admits.withinBlock

theorem total_of_add (small : draft.total + totalSize txs ≤ maxCount)
    (added : draft.add lane share txs = .ok extended) :
    extended.total = draft.total + totalSize txs := by
  rw [total_of_add_capped (by omega) added]
  exact Nat.min_eq_left small

theorem exists_add_iff (first : draft.contribution? lane = none)
    (small : draft.total + totalSize txs ≤ maxCount) (within : draft.total ≤ draft.limit) :
    (∃ extended, draft.add lane share txs = .ok extended) ↔
      (txs.map SealedTx.digest).Nodup ∧ (∀ sealedTx ∈ txs, draft.contains sealedTx.digest = false) ∧
        totalSize txs ≤ share.allowed draft.limit draft.total ∧
        draft.total + totalSize txs ≤ draft.limit := by
  have bytes : bytesOf txs = totalSize txs := bytesOf_eq_totalSize (by omega)
  constructor
  · rintro ⟨extended, added⟩
    obtain ⟨rfl, -⟩ | ⟨-, admits, -⟩ := add_eq_ok_iff.mp added
    · simpa using within
    · refine ⟨admits.distinct, admits.fresh, ?_, ?_⟩
      · exact (le_allowance_iff (by omega)).mp (bytes ▸ admits.withinShare)
      · have withinBlock := admits.withinBlock
        rwa [bytes, addCapped_eq_add small] at withinBlock
  · rintro ⟨distinct, fresh, withinShare, withinBlock⟩
    by_cases empty : txs = []
    · subst empty
      exact ⟨draft, add_nil⟩
    · refine ⟨_, (add_eq_ok_iff_of_ne_nil empty).mpr ⟨⟨first, distinct, fresh, ?_, ?_⟩, rfl⟩⟩
      · rw [bytes]
        exact (le_allowance_iff (by omega)).mpr withinShare
      · rwa [bytes, addCapped_eq_add small]

end Draft

end BlockBuilder
