import BlockBuilder.Lane.Chain

namespace BlockBuilder

structure Registry (L : Type) where
  lanes : List L

namespace Registry

variable {L C T : Type} [BlockLane L C T]

open BlockLane

def checkLanes : List String → List L → Except LaneError Unit
  | _, [] => .ok ()
  | names, lane :: rest =>
    if names.contains (name lane) then .error (.setup (.repeatedName (name lane)))
    else if !(share lane).isProper then
      .error (.setup (.improperLaneShare (name lane) (share lane)))
    else checkLanes (name lane :: names) rest

def ofLanes (lanes : List L) : Except LaneError (Registry L) := do
  if lanes.isEmpty then throw (.setup .noLanes)
  checkLanes [] lanes
  unless Share.fitsBlock (lanes.map share) do throw (.setup .oversubscribed)
  return ⟨lanes⟩

def lane? (registry : Registry L) (lane : String) : Except LaneError L :=
  match registry.lanes.find? fun candidate => name candidate == lane with
  | some found => .ok found
  | none => .error (.unknownLane lane)

def replaceFirst (lane : String) (replacement : L) : List L → List L
  | [] => []
  | candidate :: rest =>
    if name candidate == lane then replacement :: rest
    else candidate :: replaceFirst lane replacement rest

def replace (registry : Registry L) (lane : String) (replacement : L) : Registry L :=
  ⟨replaceFirst lane replacement registry.lanes⟩

def insertFirst (state : C) (sealedTx : SealedTx T) : List L → Except LaneError (List L)
  | [] => .error (.unroutable sealedTx.digest)
  | lane :: rest =>
    if accepts lane state sealedTx.tx then
      (BlockLane.insert lane state sealedTx).map (· :: rest)
    else (insertFirst state sealedTx rest).map (lane :: ·)

def insert (registry : Registry L) (state : C) (sealedTx : SealedTx T) :
    Except LaneError (Registry L) :=
  (insertFirst state sealedTx registry.lanes).map Registry.mk

def removeFirst (digest : Digest) : List L → Except LaneError (List L)
  | [] => .error (.pool (.notFound digest))
  | lane :: rest =>
    if BlockLane.contains lane digest then (BlockLane.remove lane digest).map (· :: rest)
    else (removeFirst digest rest).map (lane :: ·)

def remove (registry : Registry L) (digest : Digest) : Except LaneError (Registry L) :=
  (removeFirst digest registry.lanes).map Registry.mk

def contains (registry : Registry L) (digest : Digest) : Bool :=
  registry.lanes.any fun lane => BlockLane.contains lane digest

def size (registry : Registry L) : Nat :=
  registry.lanes.foldr (fun lane count => BlockLane.size lane + count) 0

def distribution (registry : Registry L) : List (String × Nat) :=
  registry.lanes.map fun lane => (name lane, BlockLane.size lane)

def select (registry : Registry L) : List (SealedTx T) × Registry L :=
  let selected := registry.lanes.map fun lane => BlockLane.select lane
  (selected.flatMap Prod.fst, ⟨selected.map Prod.snd⟩)

def removeCommitted : Registry L → List (SealedTx T) → Nat × Registry L
  | registry, [] => (0, registry)
  | registry, sealedTx :: rest =>
    match registry.remove sealedTx.digest with
    | .ok registry =>
      let (count, registry) := registry.removeCommitted rest
      (count + 1, registry)
    | .error _ => registry.removeCommitted rest

def build (registry : Registry L) (state : C) (limit : Nat) : Attempt (Registry L) C :=
  let attempt := Chain.build registry.lanes (.empty limit) state
  ⟨attempt.result, ⟨attempt.lanes⟩, attempt.state⟩

def judge (registry : Registry L) (limit : Nat) (txs : List (SealedTx T)) : Run C Draft :=
  Chain.judge registry.lanes (.empty limit) txs

end Registry

end BlockBuilder
