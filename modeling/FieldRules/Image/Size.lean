import FieldRules.Validator

/-!
# The size of an image from its bytes

The width and height of a picture stand near the start of its file. Three formats are known, each
by its first bytes: portable network graphics, the graphics interchange format and bitmaps.
-/

namespace FieldRules.Image

/-- The number that bytes write, the most significant first. -/
def bigEndian (bs : Bytes) : Nat := bs.foldl (fun n b => 256 * n + b.toNat) 0

/-- The number that bytes write, the least significant first. -/
def littleEndian (bs : Bytes) : Nat := bigEndian bs.reverse

/-- The bytes from a place on. -/
def slice (bs : Bytes) (start length : Nat) : Bytes := (bs.drop start).take length

/-- The bytes of an ASCII text. -/
def asciiBytes (s : String) : Bytes := s.toList.map fun c => UInt8.ofNat c.toNat

/-- The size in the header chunk of a network graphic. -/
def pngSize? (bs : Bytes) : Option (Nat × Nat) :=
  if slice bs 0 8 = 0x89 :: asciiBytes "PNG\r\n\x1a\n" ∧ slice bs 12 4 = asciiBytes "IHDR"
      ∧ 24 ≤ bs.length then
    some (bigEndian (slice bs 16 4), bigEndian (slice bs 20 4))
  else none

/-- The size of the screen of an interchange-format picture. -/
def gifSize? (bs : Bytes) : Option (Nat × Nat) :=
  let mark := slice bs 0 6
  if (mark = asciiBytes "GIF87a" ∨ mark = asciiBytes "GIF89a") ∧ 10 ≤ bs.length then
    some (littleEndian (slice bs 6 2), littleEndian (slice bs 8 2))
  else none

/-- The distance from zero of a 32-bit number in two's complement. -/
def magnitude32 (n : Nat) : Nat := if n < Nat.pow 2 31 then n else Nat.pow 2 32 - n

/-- The size in the header of a bitmap; rows from the top down are marked by a negative height. -/
def bmpSize? (bs : Bytes) : Option (Nat × Nat) :=
  let header := littleEndian (slice bs 14 4)
  if slice bs 0 2 = asciiBytes "BM" ∧ 26 ≤ bs.length then
    if header = 12 then some (littleEndian (slice bs 18 2), littleEndian (slice bs 20 2))
    else if 40 ≤ header then
      some (littleEndian (slice bs 18 4), magnitude32 (littleEndian (slice bs 22 4)))
    else none
  else none

/-- The size of a picture in one of the known formats. -/
def size? (bs : Bytes) : Option (Nat × Nat) :=
  (pngSize? bs).orElse fun _ => (gifSize? bs).orElse fun _ => bmpSize? bs

/-- The bytes of an upload: those that are stored, or else those in memory. -/
def bytesOf (f : Upload) : Except Fault Bytes :=
  match f.stored, f.content with
  | .holds bs, _ => .ok bs
  | .missing, _ => .error .noSuchFile
  | .nowhere, some bs => .ok bs
  | .nowhere, none => .error (.noImageData f.name)

/-- The width and height of an upload's picture. -/
def sizeOf (f : Upload) : Except Fault (Nat × Nat) := do
  (size? (← bytesOf f)).elim (.error .notAnImage) .ok

/-- The probe that looks at the bytes of uploads. -/
def probe : Probe := fun f =>
  ⟨(sizeOf f).map fun s => .tuple [.int s.1, .int s.2], []⟩

/-- A probe that knows sizes by the names of uploads and leaves a note of each question. An upload
that it does not know cannot be looked at. -/
def tableProbe (sizes : List (String × Value)) : Probe := fun f =>
  let size := (sizes.find? fun e => e.1 == f.name).map (·.2)
  ⟨size.elim (.error .storage) .ok, [.probe f.name]⟩

end FieldRules.Image
