import VirtualTopology.Json.Printer

/-!
# Trace ids

Launches are told apart in logs by ids of 128 bits, of which six say that the rest is random.

## Main definitions

- `traceId`: the text of the id made from sixteen bytes.
-/

namespace VirtualTopology

/-- Two hexadecimal digits. -/
def hexByte (b : UInt8) : List Char :=
  [Json.hexDigit (b.toNat / 16), Json.hexDigit (b.toNat % 16)]

/-- The bytes of an id with the bits that mark it as random: version 4 of the first variant. -/
def markRandom (bytes : List UInt8) : List UInt8 :=
  (bytes.modify 6 fun b => (b &&& 0x0F) ||| 0x40).modify 8 fun b => (b &&& 0x3F) ||| 0x80

/-- The text of an id: groups of 8, 4, 4, 4 and 12 digits. -/
def traceId (bytes : List UInt8) : String :=
  let group (first count : Nat) : String :=
    String.ofList ((((markRandom bytes).drop first).take count).flatMap hexByte)
  "-".intercalate [group 0 4, group 4 2, group 6 2, group 8 2, group 10 6]

end VirtualTopology
