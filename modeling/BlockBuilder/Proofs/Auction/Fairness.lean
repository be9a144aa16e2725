import Mathlib.Data.List.Basic
import BlockBuilder.Auction.Acceptance

namespace BlockBuilder

def Signers.only (party : Address) : Signers := .ofList [party]

def Shared (signed : List Signers) : Prop :=
  ∃ account : Address, ∀ signers ∈ signed, account ∈ signers

def SharedBy (allowed : Signers) (signed : List Signers) : Prop :=
  ∃ account ∈ allowed, ∀ signers ∈ signed, account ∈ signers

variable {bidder party : Address} {allowed signers : Signers} {signed : List Signers}

theorem mem_only_iff {account : Address} : account ∈ Signers.only party ↔ account = party := by
  rw [Signers.only, Std.TreeSet.mem_ofList, List.contains_iff_mem, List.mem_singleton]

theorem shared_cons_iff : Shared (signers :: signed) ↔ SharedBy signers signed := by
  simp only [Shared, SharedBy, List.forall_mem_cons]

theorem sharedBy_nil_iff : SharedBy allowed [] ↔ allowed.isEmpty = false := by
  simp [SharedBy, Std.TreeSet.isEmpty_eq_false_iff_exists_mem]

theorem sharedBy_cons_iff :
    SharedBy allowed (signers :: signed) ↔ SharedBy (allowed ∩ signers) signed := by
  simp only [SharedBy, List.forall_mem_cons, Std.TreeSet.mem_inter_iff, and_assoc]

theorem sharedBy_only_iff : SharedBy (.only party) signed ↔ ∀ signers ∈ signed, party ∈ signers := by
  simp only [SharedBy, mem_only_iff, exists_eq_left]

theorem SharedBy.isEmpty_eq_false (shared : SharedBy allowed signed) : allowed.isEmpty = false := by
  obtain ⟨account, mem, -⟩ := shared
  exact Std.TreeSet.isEmpty_eq_false_iff_exists_mem.mpr ⟨account, mem⟩

theorem fairAfter_cons (bidder : Address) (sawBidder : Bool) (allowed signers : Signers)
    (rest : List Signers) :
    fairAfter bidder sawBidder allowed (signers :: rest) =
      if (allowed ∩ signers).isEmpty then
        !sawBidder && signers.contains bidder && fairAfter bidder true (.only bidder) rest
      else fairAfter bidder sawBidder (allowed ∩ signers) rest :=
  rfl

theorem fairAfter_iff {sawBidder : Bool} :
    fairAfter bidder sawBidder allowed signed = true ↔
      signed = [] ∨ SharedBy allowed signed ∨
        sawBidder = false ∧ ∃ before after, signed = before ++ after ∧
          (before = [] ∨ SharedBy allowed before) ∧ ∀ signers ∈ after, bidder ∈ signers := by
  induction signed generalizing sawBidder allowed with
  | nil => simp [fairAfter]
  | cons signers rest ih =>
    rw [fairAfter_cons]
    cases gone : (allowed ∩ signers).isEmpty with
    | true =>
      -- nobody can go on, so the bidder's part begins here
      have unshared {later : List Signers} : ¬SharedBy allowed (signers :: later) := by
        intro shared
        have left := (sharedBy_cons_iff.mp shared).isEmpty_eq_false
        rw [gone] at left
        cases left
      simp only [if_true, Bool.and_eq_true, Bool.not_eq_true', ih, sharedBy_only_iff]
      constructor
      · rintro ⟨⟨unseen, signs⟩, later⟩
        refine .inr (.inr ⟨unseen, [], signers :: rest, rfl, .inl rfl, ?_⟩)
        refine List.forall_mem_cons.mpr ⟨Std.TreeSet.contains_iff_mem.mp signs, ?_⟩
        rcases later with rfl | all | ⟨seen, -⟩
        · simp
        · exact all
        · cases seen
      · rintro (none | shared | ⟨unseen, before, after, split, front, signs⟩)
        · cases none
        · exact absurd shared unshared
        · cases before with
          | nil =>
            obtain rfl : signers :: rest = after := split
            obtain ⟨here, later⟩ := List.forall_mem_cons.mp signs
            exact ⟨⟨unseen, Std.TreeSet.contains_iff_mem.mpr here⟩, .inr (.inl later)⟩
          | cons first others =>
            obtain ⟨rfl, -⟩ := List.cons.inj split
            exact absurd (front.resolve_left (List.cons_ne_nil _ _)) unshared
    | false =>
      -- whoever goes on has signed this transaction, too
      simp only [Bool.false_eq_true, if_false, ih, sharedBy_cons_iff]
      constructor
      · rintro (rfl | shared | ⟨unseen, before, after, rfl, front, signs⟩)
        · exact .inr (.inl (sharedBy_nil_iff.mpr gone))
        · exact .inr (.inl shared)
        · refine .inr (.inr ⟨unseen, signers :: before, after, rfl, .inr ?_, signs⟩)
          rcases front with rfl | shared
          · exact sharedBy_cons_iff.mpr (sharedBy_nil_iff.mpr gone)
          · exact sharedBy_cons_iff.mpr shared
      · rintro (none | shared | ⟨unseen, before, after, split, front, signs⟩)
        · cases none
        · exact .inr (.inl shared)
        · cases before with
          | nil =>
            obtain rfl : signers :: rest = after := split
            exact .inr (.inr ⟨unseen, [], rest, rfl, .inl rfl, (List.forall_mem_cons.mp signs).2⟩)
          | cons first others =>
            obtain ⟨rfl, rfl⟩ := List.cons.inj split
            have shared := sharedBy_cons_iff.mp (front.resolve_left (List.cons_ne_nil _ _))
            exact .inr (.inr ⟨unseen, others, after, rfl, .inr shared, signs⟩)

theorem checkFair_cons_iff : checkFair bidder (signers :: signed) = .ok () ↔
    signed = [] ∨ Shared (signers :: signed) ∨
      bidder ∉ signers ∧ ∃ before after, signed = before ++ after ∧
        (before = [] ∨ Shared (signers :: before)) ∧ ∀ later ∈ after, bidder ∈ later := by
  have unseen : signers.contains bidder = false ↔ bidder ∉ signers := by
    rw [← Std.TreeSet.contains_iff_mem, Bool.not_eq_true]
  rw [checkFair, isFair, ite_eq_left_iff]
  simp only [shared_cons_iff, ← unseen, ← fairAfter_iff]
  simp

theorem checkFair_nil (bidder : Address) : checkFair bidder [] = .ok () := rfl

theorem checkFair_iff_exists_split : checkFair bidder signed = .ok () ↔
    signed.length ≤ 1 ∨ Shared signed ∨
      (∀ first ∈ signed.head?, bidder ∉ first) ∧ ∃ split, 1 ≤ split ∧ split < signed.length ∧
        (∀ signers ∈ signed.drop split, bidder ∈ signers) ∧
          (2 ≤ split → Shared (signed.take split)) := by
  cases signed with
  | nil => simp [checkFair_nil]
  | cons first rest =>
    rw [checkFair_cons_iff]
    simp only [List.head?_cons, Option.mem_some_iff, forall_eq', List.length_cons]
    constructor
    · rintro (rfl | shared | ⟨unseen, before, after, rfl, front, signs⟩)
      · exact .inl (Nat.le_refl 1)
      · exact .inr (.inl shared)
      · cases after with
        | nil =>
          rw [List.append_nil]
          rcases front with rfl | shared
          · exact .inl (Nat.le_refl 1)
          · exact .inr (.inl shared)
        | cons next others =>
          refine .inr (.inr ⟨unseen, before.length + 1, by omega, by simp, by simpa using signs, ?_⟩)
          intro long
          rw [List.take_succ_cons, List.take_left]
          rcases front with rfl | shared
          · simp at long
          · exact shared
    · rintro (short | shared | ⟨unseen, split, some, before, signs, front⟩)
      · exact .inl (List.eq_nil_of_length_eq_zero (by omega))
      · exact .inr (.inl shared)
      · obtain ⟨count, rfl⟩ := Nat.exists_eq_add_of_le' some
        refine .inr (.inr ⟨unseen, rest.take count, rest.drop count, by simp, ?_, signs⟩)
        cases count with
        | zero => exact .inl rfl
        | succ count => exact .inr (front (by omega))

theorem shared_only_iff {parties : List Address} :
    Shared (parties.map .only) ↔ ∃ party, ∀ other ∈ parties, other = party := by
  simp only [Shared, List.forall_mem_map, mem_only_iff, eq_comm]

theorem checkFair_only_iff {parties : List Address} :
    checkFair bidder (parties.map .only) = .ok () ↔
      (∃ party, ∀ other ∈ parties, other = party) ∨
        ∃ party before after, party ≠ bidder ∧
          parties = List.replicate before party ++ List.replicate after bidder := by
  cases parties with
  | nil => simp [checkFair_nil]
  | cons first rest =>
    rw [List.map_cons, checkFair_cons_iff, ← List.map_cons, shared_only_iff, mem_only_iff]
    constructor
    · rintro (none | shared | ⟨other, before, after, split, front, signs⟩)
      · exact .inl ⟨first, by simp [List.map_eq_nil_iff.mp none]⟩
      · exact .inl shared
      · obtain ⟨before, after, rfl, rfl, rfl⟩ := List.map_eq_append_iff.mp split
        have bidders : ∀ party ∈ after, party = bidder := by
          simpa only [List.forall_mem_map, mem_only_iff, eq_comm] using signs
        have firsts : ∀ party ∈ before, party = first := by
          rcases front with none | shared
          · simp [List.map_eq_nil_iff.mp none]
          · rw [← List.map_cons, shared_only_iff] at shared
            obtain ⟨party, all⟩ := shared
            obtain ⟨rfl, others⟩ := List.forall_mem_cons.mp all
            exact others
        refine .inr ⟨first, before.length + 1, after.length, Ne.symm other, ?_⟩
        rw [List.replicate_succ, ← List.eq_replicate_of_mem firsts, ← List.eq_replicate_of_mem bidders]
        rfl
    · rintro (shared | ⟨party, before, after, other, split⟩)
      · exact .inr (.inl shared)
      · cases before with
        | zero =>
          refine .inr (.inl ⟨bidder, fun party mem => ?_⟩)
          rw [split, List.replicate_zero, List.nil_append] at mem
          exact List.eq_of_mem_replicate mem
        | succ before =>
          rw [List.replicate_succ, List.cons_append] at split
          obtain ⟨rfl, rfl⟩ := List.cons.inj split
          refine .inr (.inr ⟨Ne.symm other, _, _, List.map_append, .inr ?_, ?_⟩)
          · rw [← List.map_cons, shared_only_iff]
            exact ⟨first, by simp⟩
          · simp [mem_only_iff]

/-- A bundle is fair if it has no two transactions, if one account signed all of it, or if it can be
split into a first part that one account signed and a rest that the bidder signed, where the bidder did
not sign the first transaction; a first part of a single transaction need not be signed by anybody.
So if every transaction has one signer, a fair bundle is one party's throughout, or one other party's
up to some point and the bidder's from there on. -/
theorem checkFair_eq_ok_iff (bidder : Address) :
    (∀ signed : List Signers, checkFair bidder signed = .ok () ↔
      signed.length ≤ 1 ∨ Shared signed ∨
        (∀ first ∈ signed.head?, bidder ∉ first) ∧ ∃ split, 1 ≤ split ∧ split < signed.length ∧
          (∀ signers ∈ signed.drop split, bidder ∈ signers) ∧
            (2 ≤ split → Shared (signed.take split))) ∧
      ∀ parties : List Address, checkFair bidder (parties.map .only) = .ok () ↔
        (∃ party, ∀ other ∈ parties, other = party) ∨
          ∃ party before after, party ≠ bidder ∧
            parties = List.replicate before party ++ List.replicate after bidder :=
  ⟨fun _ => checkFair_iff_exists_split, fun _ => checkFair_only_iff⟩

end BlockBuilder
