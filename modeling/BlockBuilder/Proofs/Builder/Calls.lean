import BlockBuilder.Proofs.Registry.Likeness

namespace BlockBuilder

variable {C T : Type} [Transaction T] [BlockState C]

namespace Builder

def submit (builder : Builder C T) (state : C) (bytes : Bytes) :
    Except AdmissionError Digest × C × Builder C T :=
  match builder.rules.submit builder.registry state bytes with
  | (.error cause, registry) => (.error cause, state, { builder with registry })
  | (.ok (digest, next), registry) => (.ok digest, next, { builder with registry })

inductive Call (C T : Type) where
  | submit (state : C) (bytes : Bytes)
  | remove (digest : Digest)
  | removeCommitted (txs : List (SealedTx T))
  | select
  | propose (state : C) (limit : Nat)

def perform (builder : Builder C T) : Call C T → Builder C T
  | .submit state bytes => (builder.submit state bytes).2.2
  | .remove digest =>
    { builder with registry := (builder.registry.remove digest).toOption.getD builder.registry }
  | .removeCommitted txs => { builder with registry := (builder.registry.removeCommitted txs).2 }
  | .select => { builder with registry := builder.registry.select.2 }
  | .propose state limit => { builder with registry := (builder.registry.propose state limit).2.1 }

def run (builder : Builder C T) (calls : List (Call C T)) : Builder C T := calls.foldl perform builder

def selections (builder : Builder C T) : List (List (SealedTx T)) :=
  builder.registry.lanes.map fun lane => (BlockLane.select lane).1

variable {builder other : Builder C T}

theorem submit_fst (builder : Builder C T) (state : C) (bytes : Bytes) :
    (builder.submit state bytes).1 =
      (builder.rules.submit builder.registry state bytes).1.map Prod.fst := by
  unfold submit
  split
  · rename_i refused
    rw [refused]
    rfl
  · rename_i admitted
    rw [admitted]
    rfl

theorem submit_snd_snd (builder : Builder C T) (state : C) (bytes : Bytes) :
    (builder.submit state bytes).2.2 =
      { builder with registry := (builder.rules.submit builder.registry state bytes).2 } := by
  unfold submit
  split
  · rename_i refused
    rw [refused]
  · rename_i admitted
    rw [admitted]

structure Alike (builder other : Builder C T) : Prop where
  rules : builder.rules = other.rules
  registry : builder.registry.Alike other.registry

theorem Alike.perform (alike : builder.Alike other) (call : Call C T) :
    (builder.perform call).Alike (other.perform call) := by
  refine ⟨?_, ?_⟩
  · cases call with
    | submit state bytes =>
      simp only [Builder.perform, submit_snd_snd]
      exact alike.rules
    | _ => exact alike.rules
  · cases call with
    | submit state bytes =>
      simp only [Builder.perform, submit_snd_snd, ← alike.rules]
      exact (Admission.alike_submit builder.rules alike.registry state bytes).2
    | remove digest => exact (alike.registry.remove digest).getD alike.registry
    | removeCommitted txs => exact (alike.registry.removeCommitted txs).2
    | select => exact alike.registry.select.2
    | propose state limit => exact (alike.registry.propose state limit).2

theorem Alike.run (alike : builder.Alike other) (calls : List (Call C T)) :
    (builder.run calls).Alike (other.run calls) := by
  induction calls generalizing builder other with
  | nil => exact alike
  | cons call rest ih => exact ih (alike.perform call)

theorem Alike.selections (alike : builder.Alike other) : builder.selections = other.selections :=
  alike.registry.select.1

end Builder

end BlockBuilder
