import VirtualTopology.Pe

/-!
# Host topology

A host is a list of shared-memory images, each with a number of cores.

## Main definitions

- `Image`, `Topology`, and `Topology.uniform` for a host of equal images.
- `Topology.pes`: the processing elements of a host, image by image.
-/

namespace VirtualTopology

/-- A shared-memory image and the number of its cores. -/
structure Image where
  id : Nat
  cores : Nat
deriving DecidableEq, Repr, Inhabited

/-- The first `count` processing elements of an image, in core order. -/
def Image.takePes (image : Image) (count : Nat) : List Pe :=
  (List.range (min count image.cores)).map fun core => ⟨image.id, core⟩

/-- The processing elements of an image, in core order. -/
def Image.pes (image : Image) : List Pe := (List.range image.cores).map fun core => ⟨image.id, core⟩

/-- The layout of a host, fixed once per bring-up. -/
structure Topology where
  images : List Image
  /-- Whether the Global VM permits threads within a PET. -/
  threadCompat : Bool
deriving DecidableEq, Repr, Inhabited

namespace Topology

/-- A host of `images` images with `cores` cores each. -/
def uniform (images cores : Nat) (threadCompat : Bool := false) : Topology :=
  ⟨(List.range images).map fun id => ⟨id, cores⟩, threadCompat⟩

def imageCount (t : Topology) : Nat := t.images.length

/-- The number of processing elements of the host. -/
def peCount (t : Topology) : Nat := (t.images.map Image.cores).foldr (· + ·) 0

/-- The processing elements of the host, image by image. -/
def pes (t : Topology) : List Pe := t.images.flatMap Image.pes

end Topology

end VirtualTopology
