import Mathlib.Data.List.Pairwise
import BlockBuilder.Proofs.Pool.Likeness

namespace BlockBuilder

namespace Holding

variable {T V : Type} {policy : Policy T V} {held : Holding T V} {item : V × SealedTx T}

def resolve (policy : Policy T V) (item : V × SealedTx T) :
    Option (V × SealedTx T) → Option (V × SealedTx T)
  | none => some item
  | some holder =>
    if policy.mayReplace holder.1 item.1 holder.2.tx item.2.tx then some item else some holder

theorem isSome_resolve (policy : Policy T V) (item : V × SealedTx T)
    (occupant : Option (V × SealedTx T)) : (resolve policy item occupant).isSome = true := by
  cases occupant with
  | none => rfl
  | some holder =>
    rw [resolve]
    split <;> rfl

variable [Transaction T]

def put (policy : Policy T V) (held : Holding T V) (item : V × SealedTx T) : Holding T V :=
  match item.2.slot? with
  | none => held
  | some slot => held.alter slot (resolve policy item)

theorem put_of_slot {slot : Slot} (meant : item.2.slot? = some slot) :
    held.put policy item = held.alter slot (resolve policy item) := by
  rw [put, meant]

theorem put_of_unsigned (unsigned : item.2.slot? = none) : held.put policy item = held := by
  rw [put, unsigned]

theorem getElem?_put {slot : Slot} (meant : item.2.slot? = some slot) (other : Slot) :
    (held.put policy item)[other]? =
      if slot = other then resolve policy item held[slot]? else held[other]? := by
  rw [put_of_slot meant, Std.ExtHashMap.getElem?_alter]
  simp

theorem size_put {slot : Slot} (meant : item.2.slot? = some slot) :
    (held.put policy item).size = if slot ∈ held then held.size else held.size + 1 := by
  have filled := isSome_resolve policy item held[slot]?
  rw [put_of_slot meant, Std.ExtHashMap.size_alter, ← Option.not_isSome, filled]
  by_cases known : slot ∈ held <;> simp [known]

theorem size_le_foldl_put (items : List (V × SealedTx T)) :
    held.size ≤ (items.foldl (put policy) held).size := by
  induction items generalizing held with
  | nil => exact Nat.le_refl _
  | cons item rest ih =>
    rw [List.foldl_cons]
    refine Nat.le_trans ?_ ih
    cases meant : item.2.slot? with
    | none => rw [put_of_unsigned meant]
    | some slot =>
      rw [size_put meant]
      split <;> omega

def Commute (policy : Policy T V) (one another : V × SealedTx T) : Prop :=
  ∀ held : Holding T V,
    (held.put policy one).put policy another = (held.put policy another).put policy one

theorem Commute.refl (item : V × SealedTx T) : Commute policy item item := fun _ => rfl

instance : Std.Symm (Commute policy) := ⟨fun _ _ comm held => (comm held).symm⟩

theorem commute_of_slots {one another : V × SealedTx T}
    (differ : ∀ slot, one.2.slot? = some slot →
      ∀ slot', another.2.slot? = some slot' → slot ≠ slot') :
    Commute policy one another := by
  intro held
  cases meant : one.2.slot? with
  | none => rw [put_of_unsigned meant, put_of_unsigned meant]
  | some slot =>
    cases meant' : another.2.slot? with
    | none => rw [put_of_unsigned meant', put_of_unsigned meant']
    | some slot' =>
      have apart := differ slot meant slot' meant'
      ext other
      simp only [getElem?_put meant, getElem?_put meant', if_neg apart, if_neg apart.symm]
      by_cases here : slot = other
      · simp [here, here ▸ apart.symm]
      · simp [here]

theorem foldl_put_perm (policy : Policy T V) (held : Holding T V) {first second : List (V × SealedTx T)}
    (perm : first.Perm second) (distinct : (first.filterMap fun item => item.2.slot?).Nodup) :
    first.foldl (put policy) held = second.foldl (put policy) held := by
  have apart : first.Pairwise (Commute policy) :=
    (List.pairwise_filterMap.mp distinct).imp commute_of_slots
  have comm := apart.forall_of_forall fun item _ => .refl item
  exact perm.foldl_eq' (fun one mem another mem' => comm mem mem') held

theorem Performs.eq_put {result : Except PoolError (Holding T V)}
    (performed : held.Performs policy (.insert item.1 item.2) result) :
    (result = .error (.full policy.capacity) ∧ 0 < policy.capacity ∧ policy.capacity ≤ held.size ∧
        (held.put policy item).size = held.size + 1) ∨
      (∀ capacity, result ≠ .error (.full capacity)) ∧
        result.toOption.getD held = held.put policy item := by
  have put_eq {slot : Slot} (meant : item.2.slot? = some slot)
      (resolved : resolve policy item held[slot]? = some item) :
      held.insert slot item = held.put policy item := by
    ext other
    rw [getElem?_put meant, resolved, Std.ExtHashMap.getElem?_insert]
    simp
  cases performed with
  | unsigned unsigned => exact .inr ⟨by simp, (put_of_unsigned unsigned).symm⟩
  | vetoed meant occupied vetoed =>
    refine .inr ⟨by simp, ?_⟩
    change held = held.put policy item
    apply Std.ExtHashMap.ext_getElem?
    intro other
    rw [getElem?_put meant, occupied, resolve, if_neg (Bool.eq_false_iff.mp vetoed)]
    split
    · rename_i here
      exact here ▸ occupied
    · rfl
  | replaced meant occupied allowed =>
    exact .inr ⟨by simp, put_eq meant (by rw [occupied, resolve, if_pos allowed])⟩
  | full meant free bounded full =>
    refine .inl ⟨rfl, bounded, full, ?_⟩
    rw [size_put meant, if_neg]
    simp [Std.ExtHashMap.mem_iff_isSome_getElem?, free]
  | added meant free room => exact .inr ⟨by simp, put_eq meant (by rw [free, resolve])⟩

end Holding

namespace Pool

variable {T V : Type} [Ord V] [Transaction T] [DecidableEq V] {pool : Pool T V}
  {items first second : List (V × SealedTx T)}

def insertions (items : List (V × SealedTx T)) : List (Operation T V) :=
  items.map fun item => .insert item.1 item.2

def HasRoom : Pool T V → List (V × SealedTx T) → Prop
  | _, [] => True
  | pool, item :: rest =>
    (∀ capacity, pool.insert item.1 item.2 ≠ .error (.full capacity)) ∧
      (pool.run (insertions [item])).HasRoom rest

theorem run_insertions_cons (pool : Pool T V) (item : V × SealedTx T) (rest : List (V × SealedTx T)) :
    pool.run (insertions (item :: rest)) = (pool.run (insertions [item])).run (insertions rest) :=
  rfl

variable [Std.TransOrd V] [Std.LawfulEqOrd V]

theorem Aligned.insertion_cases (aligned : pool.Aligned) (item : V × SealedTx T) :
    (pool.insert item.1 item.2 = .error (.full pool.policy.capacity) ∧ 0 < pool.policy.capacity ∧
        pool.policy.capacity < (pool.holding.put pool.policy item).size) ∨
      (∀ capacity, pool.insert item.1 item.2 ≠ .error (.full capacity)) ∧
        (pool.run (insertions [item])).policy = pool.policy ∧
        (pool.run (insertions [item])).holding = pool.holding.put pool.policy item := by
  have performed := aligned.performs_insert item.1 item.2
  have after : pool.run (insertions [item]) = (pool.insert item.1 item.2).toOption.getD pool := rfl
  rw [after]
  cases done : pool.insert item.1 item.2 with
  | error cause =>
    rw [done] at performed
    rcases performed.eq_put with ⟨refused, bounded, full, size⟩ | ⟨room, same⟩
    · cases refused
      exact .inl ⟨rfl, bounded, by omega⟩
    · refine .inr ⟨fun capacity full => ?_, rfl, same⟩
      cases full
      exact room capacity rfl
  | ok after =>
    rw [done] at performed
    rcases performed.eq_put with ⟨refused, -⟩ | ⟨-, same⟩
    · cases refused
    · refine .inr ⟨fun capacity full => ?_, policy_insert done, same⟩
      cases full

theorem Aligned.holding_run_of_hasRoom (aligned : pool.Aligned) (room : pool.HasRoom items) :
    (pool.run (insertions items)).holding = items.foldl (Holding.put pool.policy) pool.holding := by
  induction items generalizing pool with
  | nil => rfl
  | cons item rest ih =>
    obtain ⟨here, later⟩ := room
    rcases aligned.insertion_cases item with ⟨refused, -⟩ | ⟨-, policy, holding⟩
    · exact absurd refused (here _)
    · rw [run_insertions_cons, ih (aligned.run _) later, policy, holding]
      rfl

theorem Aligned.hasRoom_of_size_le (aligned : pool.Aligned)
    (small : 0 < pool.policy.capacity →
      (items.foldl (Holding.put pool.policy) pool.holding).size ≤ pool.policy.capacity) :
    pool.HasRoom items := by
  induction items generalizing pool with
  | nil => trivial
  | cons item rest ih =>
    rw [List.foldl_cons] at small
    rcases aligned.insertion_cases item with ⟨-, bounded, exceeds⟩ | ⟨room, policy, holding⟩
    · have beyond : pool.policy.capacity < pool.policy.capacity := calc
        _ < (pool.holding.put pool.policy item).size := exceeds
        _ ≤ (rest.foldl (Holding.put pool.policy) (pool.holding.put pool.policy item)).size :=
          Holding.size_le_foldl_put rest
        _ ≤ pool.policy.capacity := small bounded
      exact absurd beyond (Nat.lt_irrefl _)
    · refine ⟨room, ih (aligned.run _) ?_⟩
      rwa [policy, holding]

theorem hasRoom_run_iff (policy : Policy T V) (operations : List (Operation T V)) :
    let pool := (empty policy).run operations
    pool.HasRoom items ↔
      (0 < policy.capacity → (items.foldl (Holding.put policy) pool.holding).size ≤ policy.capacity) := by
  intro pool
  have aligned : pool.Aligned := (aligned_empty policy).run operations
  have same : pool.policy = policy := (policy_run policy operations).1
  constructor
  · intro room bounded
    rw [← same, ← aligned.holding_run_of_hasRoom room, same, ← run_append]
    exact (policy_run policy _).2 bounded
  · intro small
    exact aligned.hasRoom_of_size_le (same ▸ small)

theorem holding_run_perm (policy : Policy T V) (operations : List (Operation T V))
    (perm : first.Perm second) (distinct : (first.filterMap fun item => item.2.slot?).Nodup)
    (room : ((empty policy).run operations).HasRoom first) :
    (((empty policy).run operations).run (insertions first)).holding =
      (((empty policy).run operations).run (insertions second)).holding := by
  have aligned := (aligned_empty policy).run operations
  have same := (policy_run policy operations).1
  have final := Holding.foldl_put_perm policy ((empty policy).run operations).holding perm distinct
  have room' := (hasRoom_run_iff policy operations).mpr
    (final ▸ (hasRoom_run_iff policy operations).mp room)
  rw [aligned.holding_run_of_hasRoom room, aligned.holding_run_of_hasRoom room', same, final]

/-- What a pool gives out depends on what it holds alone. So insertions into different slots can be
made in any order that there is room for, and a selection is repeated by another one and by a
traversal. -/
theorem select_run_eq (policy policy' : Policy T V) (operations operations' : List (Operation T V)) :
    let pool := (empty policy).run operations
    let other := (empty policy').run operations'
    (pool.holding = other.holding → pool.select.1 = other.select.1) ∧
      (∀ first second : List (V × SealedTx T), first.Perm second →
        (first.filterMap fun item => item.2.slot?).Nodup → pool.HasRoom first →
        (pool.run (insertions first)).select.1 = (pool.run (insertions second)).select.1) ∧
      pool.select.2.select.1 = pool.select.1 ∧ pool.select.2.traverse = pool.select.1 := by
  intro pool other
  have aligned : pool.Aligned := (aligned_empty policy).run operations
  have aligned' : other.Aligned := (aligned_empty policy').run operations'
  refine ⟨aligned.select_eq_of_holding_eq aligned', ?_, ?_, rfl⟩
  · intro first second perm distinct room
    exact (aligned.run _).select_eq_of_holding_eq (aligned.run _)
      (holding_run_perm policy operations perm distinct room)
  · exact aligned.settle.select_eq_of_holding_eq aligned aligned.holding_settle

theorem Aligned.holding_run_select (aligned : pool.Aligned) (operations : List (Operation T V)) :
    (pool.run (.select :: operations)).holding = (pool.run operations).holding :=
  (aligned.alike_settle.run operations).holding.symm

open Ledger in
/-- The first of two pools has weighed a transaction against another that was replaced since. -/
theorem select_run_eq_of_stale :
    let transaction (sender sequence : UInt64) (byte : UInt8) : SealedTx Tx :=
      .ofParts (.transfer (.ofIndex sender) sequence 0) [byte]
    let before : List (Operation Tx UInt64) :=
      [.insert 5 (transaction 1 0 1), .insert 5 (transaction 2 0 2)]
    let operations := before ++ [.select, .insert 7 (transaction 2 0 3)]
    let operations' := before ++ [.insert 7 (transaction 2 0 3)]
    let first : List (UInt64 × SealedTx Tx) := [(5, transaction 3 0 4), (9, transaction 1 1 5)]
    let second : List (UInt64 × SealedTx Tx) := [(9, transaction 1 1 5), (5, transaction 3 0 4)]
    let pool := (empty {}).run operations
    let other := (empty {}).run operations'
    pool.holding = other.holding ∧ pool.ranks.toList ≠ other.ranks.toList ∧
      pool.select.1 = other.select.1 ∧
      (pool.run (insertions first)).select.1 = (pool.run (insertions second)).select.1 := by
  intro transaction before operations operations' first second pool other
  obtain ⟨contents, order, -⟩ := select_run_eq ({} : Policy Tx UInt64) {} operations operations'
  have same : pool.holding = other.holding := by
    simp only [pool, other, operations, operations', run_append]
    exact ((aligned_empty _).run before).holding_run_select [.insert 7 (transaction 2 0 3)]
  have stale : pool.ranks.toList ≠ other.ranks.toList := by decide
  have room : pool.HasRoom first := (hasRoom_run_iff {} operations).mpr fun bounded => by cases bounded
  exact ⟨same, stale, contents same, order first second (.swap ..) (by decide) room⟩

end Pool

end BlockBuilder
