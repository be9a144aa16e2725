import BlockBuilder.Config
import BlockBuilder.Text.Utf8
import BlockBuilder.Toml.Document

namespace BlockBuilder

open Toml (Value)

namespace Config

def setting {α : Type} (read : Value → Option α) (default : α) : Option Value → Option α
  | none => some default
  | some value => read value

def readCount : Value → Option Nat
  | .integer number => if 0 ≤ number then some number.toNat else none
  | _ => none

def readWord (value : Value) : Option UInt64 := do
  let number ← readCount value
  if number < UInt64.size then some (UInt64.ofNat number) else none

def readFlag : Value → Option Bool
  | .boolean value => some value
  | _ => none

def readName : Value → Option String
  | .text content => some content
  | _ => none

def readShare (value : Value) : Option Share := do
  let field ← value.field?
  let numerator ← (field "numerator" 0).bind readWord
  let denominator ← (field "denominator" 1).bind readWord
  return ⟨numerator, denominator⟩

def readCoin (value : Value) : Option Coin := do
  let field ← value.field?
  let denom ← (field "denom" 0).bind readName
  let amount ← (field "amount" 1).bind readWord
  return ⟨denom, amount⟩

def readLimits (value : Value) : Option LaneLimits := do
  let field ← value.field?
  let default : LaneLimits := {}
  let share ← setting readShare default.share (field "max_block_space" 0)
  let capacity ← setting readCount default.capacity (field "max_txs" 1)
  return { share, capacity }

def readTerms (value : Value) : Option Terms := do
  let field ← value.field?
  let default : Terms := {}
  let maxBundle ← setting readCount default.maxBundle (field "max_bundle_size" 0)
  let reserve ← setting readCoin default.reserve (field "reserve_fee" 1)
  let increment ← setting readCoin default.increment (field "min_bid_increment" 2)
  let entryFee ← setting readCoin default.entryFee (field "entry_fee" 3)
  let guarded ← setting readFlag default.guarded (field "front_running_protection" 4)
  return { maxBundle, reserve, increment, entryFee, guarded }

def ofValue? (value : Value) : Option Config := do
  let field ← value.field?
  let default : Config := {}
  let auctionLane ← setting readLimits default.auctionLane (field "auction_lane" 0)
  let defaultLane ← setting readLimits default.defaultLane (field "default_lane" 1)
  let terms ← setting readTerms default.terms (field "auction" 2)
  return { auctionLane, defaultLane, terms }

def parse (document : String) : Except ConfigError Config :=
  match (Toml.parse? document).bind ofValue? with
  | none => .error .unparsable
  | some config => config.check.map fun _ => config

/-- The configuration in the file at a path, where `read` says what reading a path gives. -/
def load (read : String → Except ReadFault Bytes) (path : String) : Except ConfigError Config :=
  match read path with
  | .error fault => .error (.unreadable path fault)
  | .ok bytes =>
    match Utf8.decode? bytes with
    | none => .error (.unreadable path .notText)
    | some document => parse document

end Config

end BlockBuilder
