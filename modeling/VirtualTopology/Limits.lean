/-!
# Limits

Bounds on hosts, spawn trees and communicators.

## Main definitions

- `maxImages`, `maxPesPerImage`: the largest host that may be described.
- `maxSpawnDepth`: how deep children of children may nest.
- `maxCommunicatorSize`: the number of ranks of the largest host.
- `wordBound`: every number that is read or written lies below it.
-/

namespace VirtualTopology.Limits

/-- The most shared-memory images a host may have. -/
def maxImages : Nat := 1024

/-- The most cores an image may have. -/
def maxPesPerImage : Nat := 4096

/-- The number of cores of a host whose cores cannot be counted. -/
def fallbackPes : Nat := 1

/-- The stack of a thread that runs a PET, in bytes. -/
def petStackBytes : Nat := 2 * 1024 * 1024

/-- The deepest level of the spawn tree; the Global VM is at level 0. -/
def maxSpawnDepth : Nat := 64

/-- The most ranks a communicator may have: one for each core of the largest host. -/
def maxCommunicatorSize : Nat := maxImages * maxPesPerImage

/-- The number of children the demonstration spawns when it is not told. -/
def defaultDemoSpawn : Nat := 2

/-- Numbers are words of 64 bits. -/
def wordBound : Nat := 1 <<< 64

/-- Spawn depths are words of 32 bits. -/
def depthBound : Nat := 1 <<< 32

end VirtualTopology.Limits
