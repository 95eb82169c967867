import CilCapture.Image.Headers

/-!
# Snapshots of mapped images

A mapped image is turned back into a file: the headers, and each section from its virtual address
to its place in the file, in the order of the table. What no section covers is zero.
-/

namespace CilCapture.Image

open Memory

/-- Bytes of a section that are copied: its virtual size if that is given and smaller than the raw
size, else the raw size. -/
def Section.copyLength (entry : Section) : Nat :=
  if entry.virtualSize = 0 then entry.rawSize.toNat
  else min entry.virtualSize.toNat entry.rawSize.toNat

/-- A part of a file: where it goes and what it holds. -/
structure Piece where
  start : Nat
  bytes : Bytes
  deriving DecidableEq, Repr

/-- The pieces of the sections of the image at `base`. -/
def sectionPieces {W : Type} [AddressSpace W] (base : Address) (world : W) :
    List Section → Except Fault (List Piece)
  | [] => .ok []
  | entry :: rest => do
    let address ← base.advance entry.virtualAddress.toNat
    let bytes ← AddressSpace.read address entry.copyLength world
    let pieces ← sectionPieces base world rest
    return ⟨entry.rawPointer.toNat, bytes⟩ :: pieces

/-- The file of `size` bytes that holds the pieces; later ones cover earlier ones. -/
def layPieces (size : Nat) (pieces : List Piece) : Bytes :=
  pieces.foldl (fun file piece => file.overlay piece.start piece.bytes) (Bytes.zeros size)

/-- The file of the image mapped at `base`. -/
def reconstruct {W : Type} [AddressSpace W] (parser : HeaderParser) (base : Address) (world : W) :
    Except Fault Bytes := do
  let layout ← ImageLayout.read parser base world
  let headers ← AddressSpace.read base layout.sizeOfHeaders world
  let pieces ← sectionPieces base world layout.sections
  return layPieces layout.fileSize (⟨0, headers⟩ :: pieces)

end CilCapture.Image
