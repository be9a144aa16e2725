import BlockBuilder.Proofs.Lane.Judging
import BlockBuilder.Proofs.Registry.Ownership

/-!
# Arranged blocks

General lanes that accept the same in every state cut a block into segments, one behind the other:
every transaction belongs to the first lane that accepts it. A block is `Arranged` if these lanes come
in order, every transaction is valid under its own lane's rules, none occurs twice, and the segments
and the block keep within their limits. Those are the blocks that the lanes accept
(`Chain.arranged_of_claimed`, `Chain.exists_claimed_of_arranged`).
-/
namespace BlockBuilder

variable {C T : Type}

/-! ## Places -/

namespace GeneralLane

variable {lane : GeneralLane C T} {lanes rest : List (GeneralLane C T)} {state middle : C}
  {sealedTx : SealedTx T} {txs own others : List (SealedTx T)}

def place (lanes : List (GeneralLane C T)) (state : C) (sealedTx : SealedTx T) : Nat :=
  lanes.findIdx fun lane => lane.accepts state sealedTx.tx

def rulesOf (lanes : List (GeneralLane C T)) (state : C) (sealedTx : SealedTx T) :
    Option (Verifier C T) :=
  lanes[place lanes state sealedTx]?.bind fun lane => lane.settings.verifier

theorem place_cons_of_accepts (accepted : lane.accepts state sealedTx.tx = true) :
    place (lane :: rest) state sealedTx = 0 := by
  simp [place, List.findIdx_cons, accepted]

theorem place_cons_of_refuses (refused : lane.accepts state sealedTx.tx = false) :
    place (lane :: rest) state sealedTx = place rest state sealedTx + 1 := by
  simp [place, List.findIdx_cons, refused]

theorem rulesOf_cons_of_accepts (accepted : lane.accepts state sealedTx.tx = true) :
    rulesOf (lane :: rest) state sealedTx = lane.settings.verifier := by
  simp [rulesOf, place_cons_of_accepts accepted]

theorem rulesOf_cons_of_refuses (refused : lane.accepts state sealedTx.tx = false) :
    rulesOf (lane :: rest) state sealedTx = rulesOf rest state sealedTx := by
  simp [rulesOf, place_cons_of_refuses refused]

theorem place_eq_of_ignores [Transaction T]
    (ignores : ∀ lane ∈ lanes, (StandardLane.general lane).IgnoresState) (state other : C) :
    place lanes state = place lanes other := by
  funext sealedTx
  induction lanes with
  | nil => rfl
  | cons lane rest ih =>
    obtain ⟨first, later⟩ := List.forall_mem_cons.mp ignores
    have same : lane.accepts state sealedTx.tx = lane.accepts other sealedTx.tx := first ..
    cases accepted : lane.accepts state sealedTx.tx with
    | true => rw [place_cons_of_accepts accepted, place_cons_of_accepts (same.symm.trans accepted)]
    | false =>
      rw [place_cons_of_refuses accepted, place_cons_of_refuses (same.symm.trans accepted), ih later]

theorem rulesOf_eq_of_ignores [Transaction T]
    (ignores : ∀ lane ∈ lanes, (StandardLane.general lane).IgnoresState) (state other : C) :
    rulesOf lanes state = rulesOf lanes other := by
  funext sealedTx
  rw [rulesOf, rulesOf, place_eq_of_ignores ignores state other]

/-! ## Segments -/

def segment (lanes : List (GeneralLane C T)) (state : C) (chosen : Nat → Bool)
    (txs : List (SealedTx T)) : List (SealedTx T) :=
  txs.filter fun sealedTx => chosen (place lanes state sealedTx)

theorem exists_split_of_ordered (ordered : txs.Pairwise fun earlier later =>
      place (lane :: rest) state earlier ≤ place (lane :: rest) state later) :
    ∃ own others, txs = own ++ others ∧ (∀ sealedTx ∈ own, lane.accepts state sealedTx.tx = true) ∧
      ∀ sealedTx ∈ others, lane.accepts state sealedTx.tx = false := by
  induction txs with
  | nil => exact ⟨[], [], rfl, by simp, by simp⟩
  | cons first txs ih =>
    obtain ⟨least, ordered⟩ := List.pairwise_cons.mp ordered
    cases accepted : lane.accepts state first.tx with
    | true =>
      obtain ⟨own, others, rfl, accepts, refused⟩ := ih ordered
      exact ⟨first :: own, others, rfl, List.forall_mem_cons.mpr ⟨accepted, accepts⟩, refused⟩
    | false =>
      refine ⟨[], first :: txs, rfl, by simp, List.forall_mem_cons.mpr ⟨accepted, ?_⟩⟩
      intro later mem
      have behind := least later mem
      rw [place_cons_of_refuses accepted] at behind
      cases accepts : lane.accepts state later.tx with
      | false => rfl
      | true =>
        rw [place_cons_of_accepts accepts] at behind
        omega

section Cut

variable (accepted : ∀ sealedTx ∈ own, lane.accepts state sealedTx.tx = true)
  (refused : ∀ sealedTx ∈ others, lane.accepts state sealedTx.tx = false)
include accepted refused

theorem segment_append (chosen : Nat → Bool) :
    segment (lane :: rest) state chosen (own ++ others) =
      (if chosen 0 then own else []) ++
        segment rest state (fun position => chosen (position + 1)) others := by
  have first : own.filter (fun sealedTx => chosen (place (lane :: rest) state sealedTx)) =
      own.filter fun _ => chosen 0 := by
    apply List.filter_congr
    intro sealedTx mem
    rw [place_cons_of_accepts (accepted sealedTx mem)]
  have later : others.filter (fun sealedTx => chosen (place (lane :: rest) state sealedTx)) =
      others.filter fun sealedTx => chosen (place rest state sealedTx + 1) := by
    apply List.filter_congr
    intro sealedTx mem
    rw [place_cons_of_refuses (refused sealedTx mem)]
  rw [segment, List.filter_append, first, later, segment]
  cases chosen 0 <;> simp

theorem segment_first : segment (lane :: rest) state (· = 0) (own ++ others) = own := by
  rw [segment_append accepted refused]
  simp [segment]

theorem segment_succ (position : Nat) :
    segment (lane :: rest) state (· = position + 1) (own ++ others) =
      segment rest state (· = position) others := by
  rw [segment_append accepted refused]
  simp

theorem segment_before_succ (position : Nat) :
    segment (lane :: rest) state (· < position + 1) (own ++ others) =
      own ++ segment rest state (· < position) others := by
  rw [segment_append accepted refused]
  simp

end Cut

/-! ## Execution under the rules of each transaction -/

def replayBy (rules : SealedTx T → Option (Verifier C T)) : C → List (SealedTx T) → Except String C
  | state, [] => .ok state
  | state, sealedTx :: rest => do
    let next ← execute (rules sealedTx) state sealedTx.tx
    replayBy rules next rest

theorem replayBy_append_eq_ok {rules : SealedTx T → Option (Verifier C T)} {after : C} :
    replayBy rules state (own ++ others) = .ok after ↔
      ∃ middle, replayBy rules state own = .ok middle ∧ replayBy rules middle others = .ok after := by
  induction own generalizing state with
  | nil => simp [replayBy]
  | cons sealedTx rest ih =>
    simp only [List.cons_append, replayBy, bind_eq_ok_iff, ih]
    constructor
    · rintro ⟨next, first, middle, ran, ran'⟩
      exact ⟨middle, ⟨next, first, ran⟩, ran'⟩
    · rintro ⟨middle, ⟨next, first, ran⟩, ran'⟩
      exact ⟨next, first, middle, ran, ran'⟩

theorem replayBy_congr {rules rules' : SealedTx T → Option (Verifier C T)}
    (same : ∀ sealedTx ∈ txs, rules sealedTx = rules' sealedTx) (state : C) :
    replayBy rules state txs = replayBy rules' state txs := by
  induction txs generalizing state with
  | nil => rfl
  | cons sealedTx rest ih =>
    obtain ⟨first, later⟩ := List.forall_mem_cons.mp same
    simp only [replayBy, first, ih later]

theorem replayBy_const (verifier : Option (Verifier C T)) (state : C) (txs : List (SealedTx T)) :
    replayBy (fun _ => verifier) state txs = replay verifier state (txs.map SealedTx.tx) := by
  induction txs generalizing state with
  | nil => rfl
  | cons sealedTx rest ih =>
    simp only [replayBy, ih]
    rfl

theorem replayBy_own (accepted : ∀ sealedTx ∈ own, lane.accepts state sealedTx.tx = true) (start : C) :
    replayBy (rulesOf (lane :: rest) state) start own =
      replay lane.settings.verifier start (own.map SealedTx.tx) := by
  rw [← replayBy_const]
  apply replayBy_congr
  intro sealedTx mem
  exact rulesOf_cons_of_accepts (accepted sealedTx mem)

theorem replayBy_others (refused : ∀ sealedTx ∈ others, lane.accepts state sealedTx.tx = false)
    (start : C) :
    replayBy (rulesOf (lane :: rest) state) start others = replayBy (rulesOf rest state) start others := by
  apply replayBy_congr
  intro sealedTx mem
  exact rulesOf_cons_of_refuses (refused sealedTx mem)

/-! ## Arrangements -/

/-- A list of transactions that lanes in order take as they are, behind a number of bytes. -/
structure Arranged (lanes : List (GeneralLane C T)) (limit used : Nat) (state : C)
    (txs : List (SealedTx T)) : Prop where
  matched : ∀ sealedTx ∈ txs, place lanes state sealedTx < lanes.length
  ordered : txs.Pairwise fun earlier later => place lanes state earlier ≤ place lanes state later
  valid : ∃ after, replayBy (rulesOf lanes state) state txs = .ok after
  distinct : (txs.map SealedTx.digest).Nodup
  laneLimits (position : Nat) (lane : GeneralLane C T) (found : lanes[position]? = some lane) :
    totalSize (segment lanes state (· = position) txs) ≤
      lane.settings.limits.share.allowed limit
        (used + totalSize (segment lanes state (· < position) txs))
  blockLimit : used + totalSize txs ≤ limit

variable {limit used : Nat}

theorem arranged_nil_iff : Arranged [] limit used state txs ↔ txs = [] ∧ used ≤ limit := by
  constructor
  · intro arranged
    have empty : txs = [] := by
      rw [List.eq_nil_iff_forall_not_mem]
      intro sealedTx mem
      exact absurd (arranged.matched sealedTx mem) (Nat.not_lt_zero _)
    have within := arranged.blockLimit
    rw [empty] at within
    exact ⟨empty, within⟩
  · rintro ⟨rfl, within⟩
    exact ⟨by simp, .nil, ⟨state, rfl⟩, .nil, by simp, within⟩

section Cons

variable (accepted : ∀ sealedTx ∈ own, lane.accepts state sealedTx.tx = true)
  (refused : ∀ sealedTx ∈ others, lane.accepts state sealedTx.tx = false)
include accepted refused

theorem Arranged.within_first (arranged : Arranged (lane :: rest) limit used state (own ++ others)) :
    totalSize own ≤ lane.settings.limits.share.allowed limit used := by
  have within := arranged.laneLimits 0 lane rfl
  have none : segment (lane :: rest) state (· < 0) (own ++ others) = [] := by simp [segment]
  rwa [segment_first accepted refused, none] at within

variable [Transaction T] (ignores : ∀ lane ∈ rest, (StandardLane.general lane).IgnoresState)
include ignores

theorem Arranged.behind (arranged : Arranged (lane :: rest) limit used state (own ++ others)) :
    ∃ middle, replay lane.settings.verifier state (own.map SealedTx.tx) = .ok middle ∧
      Arranged rest limit (used + totalSize own) middle others := by
  obtain ⟨after, ran⟩ := arranged.valid
  rw [replayBy_append_eq_ok, replayBy_own accepted] at ran
  obtain ⟨middle, ranOwn, ranOthers⟩ := ran
  have places := place_eq_of_ignores ignores state middle
  refine ⟨middle, ranOwn, ?_, ?_, ?_, ?_, ?_, ?_⟩
  · intro sealedTx mem
    have matched := arranged.matched sealedTx (List.mem_append_right own mem)
    rw [place_cons_of_refuses (refused sealedTx mem), places] at matched
    exact Nat.lt_of_succ_lt_succ matched
  · have ordered := (List.pairwise_append.mp arranged.ordered).2.1
    apply ordered.imp_of_mem
    intro earlier later mem mem' below
    rw [place_cons_of_refuses (refused _ mem), place_cons_of_refuses (refused _ mem'), places] at below
    exact Nat.le_of_succ_le_succ below
  · rw [replayBy_others refused, rulesOf_eq_of_ignores ignores state middle] at ranOthers
    exact ⟨after, ranOthers⟩
  · have distinct := arranged.distinct
    rw [List.map_append] at distinct
    exact (List.nodup_append.mp distinct).2.1
  · intro position other found
    have within := arranged.laneLimits (position + 1) other found
    rw [segment_succ accepted refused, segment_before_succ accepted refused, totalSize_append,
      ← Nat.add_assoc] at within
    unfold segment at within ⊢
    rwa [places] at within
  · have within := arranged.blockLimit
    rwa [totalSize_append, ← Nat.add_assoc] at within

theorem Arranged.before (distinct : ((own ++ others).map SealedTx.digest).Nodup)
    (within : totalSize own ≤ lane.settings.limits.share.allowed limit used)
    (ran : replay lane.settings.verifier state (own.map SealedTx.tx) = .ok middle)
    (arranged : Arranged rest limit (used + totalSize own) middle others) :
    Arranged (lane :: rest) limit used state (own ++ others) := by
  have places := place_eq_of_ignores ignores middle state
  refine ⟨?_, ?_, ?_, distinct, ?_, ?_⟩
  · intro sealedTx mem
    rcases List.mem_append.mp mem with mem | mem
    · rw [place_cons_of_accepts (accepted sealedTx mem)]
      exact Nat.succ_pos _
    · have matched := arranged.matched sealedTx mem
      rw [place_cons_of_refuses (refused sealedTx mem), ← places]
      exact Nat.succ_lt_succ matched
  · have least : ∀ earlier ∈ own, ∀ later : SealedTx T,
        place (lane :: rest) state earlier ≤ place (lane :: rest) state later := by
      intro earlier mem later
      rw [place_cons_of_accepts (accepted earlier mem)]
      exact Nat.zero_le _
    rw [List.pairwise_append]
    refine ⟨?_, ?_, fun earlier mem later _ => least earlier mem later⟩
    · exact List.pairwise_of_forall_mem_list fun earlier mem later _ => least earlier mem later
    · apply arranged.ordered.imp_of_mem
      intro earlier later mem mem' below
      rw [place_cons_of_refuses (refused _ mem), place_cons_of_refuses (refused _ mem'), ← places]
      exact Nat.succ_le_succ below
  · obtain ⟨after, ran'⟩ := arranged.valid
    refine ⟨after, replayBy_append_eq_ok.mpr ⟨middle, ?_, ?_⟩⟩
    · rw [replayBy_own accepted]
      exact ran
    · rw [replayBy_others refused, rulesOf_eq_of_ignores ignores state middle]
      exact ran'
  · intro position other found
    cases position with
    | zero =>
      cases found
      have none : segment (lane :: rest) state (· < 0) (own ++ others) = [] := by simp [segment]
      rw [segment_first accepted refused, none]
      exact within
    | succ position =>
      have within := arranged.laneLimits position other found
      rw [segment_succ accepted refused, segment_before_succ accepted refused, totalSize_append,
        ← Nat.add_assoc]
      unfold segment at within ⊢
      rwa [places] at within
  · rw [totalSize_append, ← Nat.add_assoc]
    exact arranged.blockLimit

end Cons

end GeneralLane

/-! ## Claims on a block -/

namespace Chain

open GeneralLane

variable [Transaction T] [BlockState C] {lane : GeneralLane C T} {lanes rest : List (GeneralLane C T)}
  {draft extended final : Draft} {state after : C} {txs own : List (SealedTx T)}

structure Ready (lanes : List (GeneralLane C T)) (draft : Draft) : Prop where
  names : (lanes.map GeneralLane.name).Nodup
  first : ∀ lane ∈ lanes, draft.contribution? lane.name = none
  within : draft.total ≤ draft.limit

omit [Transaction T] [BlockState C] in
theorem Ready.later (ready : Ready (lane :: rest) draft)
    (added : draft.add lane.name lane.settings.limits.share own = .ok extended) : Ready rest extended := by
  obtain ⟨unnamed, names⟩ := List.nodup_cons.mp ready.names
  refine ⟨names, ?_, Draft.total_le_limit_of_add ready.within added⟩
  intro other mem
  have unlike : other.name ≠ lane.name := by
    intro same
    exact unnamed (same ▸ List.mem_map_of_mem mem)
  rw [Draft.contribution?_of_add unlike added]
  exact ready.first other (List.mem_cons_of_mem lane mem)

theorem arranged_of_claimed (ignores : ∀ lane ∈ lanes, (StandardLane.general lane).IgnoresState)
    (ready : Ready lanes draft) (small : draft.total + totalSize txs ≤ maxCount)
    (claimed : Claimed (lanes.map .general) draft state txs final after) :
    Arranged lanes draft.limit draft.total state txs ∧
      ∀ sealedTx ∈ txs, draft.contains sealedTx.digest = false := by
  induction lanes generalizing draft state txs with
  | nil =>
    cases claimed
    exact ⟨arranged_nil_iff.mpr ⟨rfl, ready.within⟩, by simp⟩
  | cons lane rest ih =>
    obtain _ | ⟨takes, refused, added, later⟩ := claimed
    rename_i extended middle own others
    rw [totalSize_append, ← Nat.add_assoc] at small
    have total : extended.total = draft.total + totalSize own := Draft.total_of_add (by omega) added
    obtain ⟨distinct, fresh, share, -⟩ :=
      (Draft.exists_add_iff (ready.first lane List.mem_cons_self) (by omega) ready.within).mp
        ⟨extended, added⟩
    have ignoresRest := (List.forall_mem_cons.mp ignores).2
    obtain ⟨arranged, freshLater⟩ := ih ignoresRest (ready.later added) (total ▸ small) later
    rw [Draft.limit_of_add added, total] at arranged
    simp only [Draft.contains_eq_false_iff_of_add added] at freshLater
    have accepted : ∀ sealedTx ∈ own, lane.accepts state sealedTx.tx = true :=
      GeneralLane.Takes.accepted takes
    refine ⟨.before accepted refused ignoresRest ?_ share (GeneralLane.Takes.valid takes) arranged, ?_⟩
    · rw [List.map_append, List.nodup_append]
      refine ⟨distinct, arranged.distinct, ?_⟩
      rintro digest above _ below rfl
      obtain ⟨sealedTx, mem, rfl⟩ := List.mem_map.mp below
      exact (freshLater sealedTx mem).2 above
    · intro sealedTx mem
      rcases List.mem_append.mp mem with mem | mem
      · exact fresh sealedTx mem
      · exact (freshLater sealedTx mem).1

theorem exists_claimed_of_arranged (ignores : ∀ lane ∈ lanes, (StandardLane.general lane).IgnoresState)
    (ready : Ready lanes draft) (small : draft.total + totalSize txs ≤ maxCount)
    (arranged : Arranged lanes draft.limit draft.total state txs)
    (fresh : ∀ sealedTx ∈ txs, draft.contains sealedTx.digest = false) :
    ∃ final after, Claimed (lanes.map .general) draft state txs final after := by
  induction lanes generalizing draft state txs with
  | nil =>
    obtain ⟨rfl, -⟩ := arranged_nil_iff.mp arranged
    exact ⟨draft, state, .nil⟩
  | cons lane rest ih =>
    obtain ⟨own, others, rfl, accepted, refused⟩ := exists_split_of_ordered arranged.ordered
    have ignoresRest := (List.forall_mem_cons.mp ignores).2
    obtain ⟨middle, ran, arrangedLater⟩ := arranged.behind accepted refused ignoresRest
    have distinct := arranged.distinct
    have limited := arranged.blockLimit
    rw [List.map_append, List.nodup_append] at distinct
    rw [totalSize_append, ← Nat.add_assoc] at limited small
    obtain ⟨extended, added⟩ :=
      (Draft.exists_add_iff (ready.first lane List.mem_cons_self) (by omega) ready.within).mpr
        ⟨distinct.1, fun sealedTx mem => fresh sealedTx (List.mem_append_left _ mem),
          arranged.within_first accepted refused, by omega⟩
    have total : extended.total = draft.total + totalSize own := Draft.total_of_add (by omega) added
    rw [← Draft.limit_of_add added, ← total] at arrangedLater
    have freshLater : ∀ sealedTx ∈ others, extended.contains sealedTx.digest = false := by
      intro sealedTx mem
      rw [Draft.contains_eq_false_iff_of_add added]
      refine ⟨fresh sealedTx (List.mem_append_right _ mem), fun above => ?_⟩
      exact distinct.2.2 _ above _ (List.mem_map_of_mem mem) rfl
    obtain ⟨final, after, later⟩ :=
      ih ignoresRest (ready.later added) (total ▸ small) arrangedLater freshLater
    exact ⟨final, after, .cons ⟨accepted, ran⟩ refused added later⟩

/-! ## Blocks that were built -/

theorem Built.exists_claimed {relates : C → C → Prop} {other : C}
    (ignores : ∀ lane ∈ lanes, (StandardLane.general lane).IgnoresState)
    (respects : ∀ lane ∈ lanes, Respects lane.settings.verifier relates)
    (apart : lanes.Pairwise fun lane later => ∀ sealedTx, later.pool.Holds sealedTx →
      ∀ state, lane.accepts state sealedTx.tx = false)
    (related : relates state other)
    (built : Built (lanes.map .general) draft state txs final after) :
    ∃ otherAfter, Claimed (lanes.map .general) draft other txs final otherAfter ∧
      relates after otherAfter := by
  induction lanes generalizing draft state other txs with
  | nil =>
    cases built
    exact ⟨other, .nil, related⟩
  | cons lane rest ih =>
    obtain ⟨ignoresOwn, ignores⟩ := List.forall_mem_cons.mp ignores
    obtain ⟨respectsOwn, respects⟩ := List.forall_mem_cons.mp respects
    obtain ⟨apartOwn, apart⟩ := List.pairwise_cons.mp apart
    obtain _ | ⟨gives, added, later⟩ := built
    rename_i extended middle own others
    have gives : lane.Gives state own middle := gives
    obtain ⟨otherMiddle, valid, related⟩ := replay_respects respectsOwn related gives.valid
    obtain ⟨otherAfter, claimed, related⟩ := ih ignores respects apart related later
    refine ⟨otherAfter, .cons ⟨?_, valid⟩ ?_ added claimed, related⟩
    · intro sealedTx mem
      obtain ⟨accepting, accepted⟩ := gives.accepted sealedTx mem
      exact (ignoresOwn other accepting sealedTx.tx).trans accepted
    · intro sealedTx mem
      obtain ⟨standard, listed, offers⟩ := later.offers sealedTx mem
      obtain ⟨owner, among, rfl⟩ := List.mem_map.mp listed
      exact apartOwn owner among sealedTx offers other

end Chain

end BlockBuilder
