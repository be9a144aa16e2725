import BlockBuilder.Proofs.Draft.Adding

namespace BlockBuilder

structure Addition (T : Type) where
  lane : String
  share : Share
  txs : List (SealedTx T)

namespace Draft

variable {T : Type} {draft extended : Draft} {addition : Addition T} {limit : Nat} {log : List (Addition T)}

def perform (draft : Draft) (addition : Addition T) : Except LaneError Draft :=
  draft.add addition.lane addition.share addition.txs

def run (draft : Draft) (additions : List (Addition T)) : Draft :=
  additions.foldl (fun draft addition => (draft.perform addition).toOption.getD draft) draft

def taken : Draft → List (Addition T) → List (Addition T)
  | _, [] => []
  | draft, addition :: rest =>
    match draft.perform addition with
    | .error _ => draft.taken rest
    | .ok extended =>
      if addition.txs.isEmpty then extended.taken rest else addition :: extended.taken rest

theorem run_append (draft : Draft) (first second : List (Addition T)) :
    draft.run (first ++ second) = (draft.run first).run second :=
  List.foldl_append

theorem run_singleton_of_error {addition : Addition T} {cause : LaneError}
    (refused : draft.perform addition = .error cause) : draft.run [addition] = draft := by
  rw [run, List.foldl_cons, List.foldl_nil, refused]
  rfl

theorem run_singleton_of_ok {addition : Addition T} (taken : draft.perform addition = .ok extended) :
    draft.run [addition] = extended := by
  rw [run, List.foldl_cons, List.foldl_nil, taken]
  rfl

theorem perform_cases (draft : Draft) (addition : Addition T) :
    (draft.run [addition] = draft ∧ ∀ rest, draft.taken (addition :: rest) = draft.taken rest) ∨
      draft.Admits addition.lane addition.share addition.txs ∧
        draft.run [addition] = draft.append addition.lane addition.txs ∧
        ∀ rest, draft.taken (addition :: rest) =
          addition :: (draft.append addition.lane addition.txs).taken rest := by
  cases done : draft.perform addition with
  | error cause =>
    refine .inl ⟨run_singleton_of_error done, fun rest => ?_⟩
    rw [taken, done]
  | ok extended =>
    have after : draft.run [addition] = extended := run_singleton_of_ok done
    rcases add_eq_ok_iff.mp done with ⟨empty, rfl⟩ | ⟨nonempty, admits, rfl⟩
    · refine .inl ⟨after, fun rest => ?_⟩
      rw [taken, done]
      simp [empty]
    · refine .inr ⟨admits, after, fun rest => ?_⟩
      rw [taken, done]
      simp [nonempty]

theorem Admits.total_le {lane : String} {share : Share} {txs : List (SealedTx T)}
    (admits : draft.Admits lane share txs) (below : draft.limit < maxCount) :
    draft.total + totalSize txs ≤ draft.limit := by
  have within := admits.withinBlock
  rw [bytesOf_eq_min, addCapped] at within
  omega

structure Accounts (limit : Nat) (log : List (Addition T)) (draft : Draft) : Prop where
  limit_eq : draft.limit = limit
  txs_eq : draft.txs = log.flatMap fun addition => addition.txs.map SealedTx.bytes
  total_eq : draft.total = (draft.txs.map List.length).sum
  total_le : draft.total ≤ limit
  mem_digests_iff (digest : Digest) : digest ∈ draft.digests ↔ digest ∈ draft.txs.map sha256
  nodup_digests : (draft.txs.map sha256).Nodup
  contributions_eq : draft.contributions =
    log.map fun addition => (addition.lane, ⟨addition.txs.length, totalSize addition.txs⟩)
  nodup_lanes : (draft.contributions.map Prod.fst).Nodup
  sum_counts : (draft.contributions.map fun entry => entry.2.count).sum = draft.txs.length
  sum_bytes : (draft.contributions.map fun entry => entry.2.bytes).sum = draft.total

theorem accounts_empty (limit : Nat) : Accounts limit ([] : List (Addition T)) (empty limit) := by
  constructor <;> simp [empty]

theorem map_sha256_bytes (txs : List (SealedTx T)) :
    (txs.map SealedTx.bytes).map sha256 = txs.map SealedTx.digest := by
  rw [List.map_map]
  exact List.map_congr_left fun sealedTx _ => sealedTx.digest_eq.symm

theorem Accounts.append (accounts : Accounts limit log draft) (below : limit < maxCount)
    (admits : draft.Admits addition.lane addition.share addition.txs) :
    Accounts limit (log ++ [addition]) (draft.append addition.lane addition.txs) := by
  have fits := admits.total_le (accounts.limit_eq ▸ below)
  rw [accounts.limit_eq] at fits
  have size : bytesOf addition.txs = totalSize addition.txs := bytesOf_eq_totalSize (by omega)
  have total : (draft.append addition.lane addition.txs).total =
      draft.total + totalSize addition.txs := by
    rw [Draft.append, size]
    exact addCapped_eq_add (by omega)
  have txs : (draft.append addition.lane addition.txs).txs =
      draft.txs ++ addition.txs.map SealedTx.bytes := rfl
  have contributions : (draft.append addition.lane addition.txs).contributions =
      draft.contributions ++ [(addition.lane, ⟨addition.txs.length, totalSize addition.txs⟩)] := by
    rw [Draft.append, size]
  constructor
  case limit_eq => exact accounts.limit_eq
  case txs_eq => rw [txs, accounts.txs_eq, List.flatMap_append, List.flatMap_singleton]
  case total_eq =>
    rw [total, txs, List.map_append, List.sum_append, ← accounts.total_eq, totalSize_eq_sum_length]
  case total_le => rwa [total]
  case mem_digests_iff =>
    intro digest
    rw [← Std.HashSet.contains_iff_mem, txs, List.map_append, List.mem_append, map_sha256_bytes,
      ← accounts.mem_digests_iff, ← Std.HashSet.contains_iff_mem, ← List.contains_iff_mem,
      ← Bool.or_eq_true]
    exact Bool.eq_iff_iff.mp contains_append
  case nodup_digests =>
    rw [txs, List.map_append, List.nodup_append, map_sha256_bytes]
    refine ⟨accounts.nodup_digests, admits.distinct, ?_⟩
    rintro digest earlier _ later rfl
    obtain ⟨sealedTx, mem, rfl⟩ := List.mem_map.mp later
    have known := Std.HashSet.contains_iff_mem.mpr ((accounts.mem_digests_iff _).mpr earlier)
    exact Bool.false_ne_true ((admits.fresh sealedTx mem).symm.trans known)
  case contributions_eq =>
    rw [contributions, accounts.contributions_eq, List.map_append]
    rfl
  case nodup_lanes =>
    have others := List.lookup_eq_none_iff.mp admits.noOther
    rw [contributions, List.map_append, List.nodup_append]
    refine ⟨accounts.nodup_lanes, List.pairwise_singleton _ _, ?_⟩
    rintro lane earlier _ own rfl
    obtain ⟨entry, mem, rfl⟩ := List.mem_map.mp earlier
    exact bne_iff_ne.mp (others entry mem) (List.mem_singleton.mp own).symm
  case sum_counts =>
    rw [contributions, txs, List.map_append, List.sum_append, accounts.sum_counts]
    simp
  case sum_bytes =>
    rw [contributions, total, List.map_append, List.sum_append, accounts.sum_bytes]
    simp

theorem Accounts.run (accounts : Accounts limit log draft) (below : limit < maxCount)
    (additions : List (Addition T)) :
    Accounts limit (log ++ draft.taken additions) (draft.run additions) := by
  induction additions generalizing draft log with
  | nil => simpa [Draft.run, taken] using accounts
  | cons addition rest ih =>
    rw [← List.singleton_append, run_append]
    rcases draft.perform_cases addition with ⟨after, passed⟩ | ⟨admits, after, took⟩
    · rw [after, List.singleton_append, passed]
      exact ih accounts
    · rw [after, List.singleton_append, took, List.append_cons]
      exact ih (accounts.append below admits)

/-- After any sequence of additions, a draft whose limit is below the cap records what it took. Every
addition that is taken keeps the allowance of its share in the draft that it is added to; one that is
refused or empty leaves this draft as it is. -/
theorem accounts_run (below : limit < maxCount) (additions : List (Addition T)) :
    Accounts limit ((empty limit).taken additions) ((empty limit).run additions) ∧
      ∀ before addition later, additions = before ++ addition :: later →
        let draft := (empty limit).run before
        (∀ extended, draft.perform addition = .ok extended →
          totalSize addition.txs ≤ draft.allowance addition.share) ∧
        ((addition.txs = [] ∨ ∃ cause, draft.perform addition = .error cause) →
          (empty limit).run (before ++ [addition]) = draft) := by
  refine ⟨(accounts_empty limit).run below additions, ?_⟩
  rintro before addition later -
  have limit_eq := ((accounts_empty limit).run below before).limit_eq
  refine ⟨fun extended done => ?_, fun unchanged => ?_⟩
  · rcases add_eq_ok_iff.mp done with ⟨empty, -⟩ | ⟨-, admits, -⟩
    · rw [empty]
      exact Nat.zero_le _
    · have fits := admits.total_le (limit_eq.trans_lt below)
      rw [← bytesOf_eq_totalSize (by omega)]
      exact admits.withinShare
  · rw [run_append, run, List.foldl_cons, List.foldl_nil]
    rcases unchanged with empty | ⟨cause, refused⟩
    · rw [perform, empty, add_nil]
      rfl
    · rw [refused]
      rfl

/-- Of these additions the second and the last are taken; the others are too large for their share,
name a lane again or are empty. -/
theorem accounts_run_of_mixed :
    let small : SealedTx Unit := .ofParts () [1]
    let large : SealedTx Unit := .ofParts () [2, 2, 2]
    let additions : List (Addition Unit) := [⟨"bids", ⟨1, 4⟩, [large]⟩, ⟨"bids", .one, [small]⟩,
      ⟨"bids", .one, [large]⟩, ⟨"rest", .zero, []⟩, ⟨"rest", .zero, [large]⟩]
    (empty 8).taken additions = [⟨"bids", .one, [small]⟩, ⟨"rest", .zero, [large]⟩] ∧
      Accounts 8 ((empty 8).taken additions) ((empty 8).run additions) := by
  intro small large additions
  refine ⟨?_, (accounts_run (by decide) additions).1⟩
  have new : large.digest ≠ small.digest := by decide +kernel
  have sizes : bytesOf [small] = 1 ∧ bytesOf [large] = 3 := ⟨rfl, rfl⟩
  have cap : maxCount = 2 ^ 64 - 1 := rfl
  -- digests are kept in a hash set, which does not evaluate
  simp [additions, taken, perform, add, append, empty, contribution?, firstRepeat?, allowance, free,
    Share.portion, Share.isZero, Share.one, Share.zero, addCapped, cap, sizes, new.symm]

end Draft

end BlockBuilder
