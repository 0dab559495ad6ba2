import ObjectStore.Text.Search

/-!
# Message blocks

Hash functions read a message in blocks of 64 bytes.  The message is followed by a set bit, by
zeros, and by its length in bits as a 64 bit number that ends the last block; hash functions
differ in the order of the bytes of a number.
-/

namespace ObjectStore.Digest

open ObjectStore.Text (Bytes)

/-- The lowest `count` bytes of a number, the least significant first. -/
def littleEndian : Nat → Nat → Bytes
  | 0, _ => []
  | count + 1, n => UInt8.ofNat n :: littleEndian count (n / 256)

/-- The lowest `count` bytes of a number, the most significant first. -/
def bigEndian (count n : Nat) : Bytes :=
  (littleEndian count n).reverse

/-- The number written by bytes, the least significant first. -/
def ofLittleEndian (bytes : Bytes) : Nat :=
  bytes.foldr (fun b n => b.toNat + 256 * n) 0

/-- The number written by bytes, the most significant first. -/
def ofBigEndian (bytes : Bytes) : Nat :=
  ofLittleEndian bytes.reverse

/-- The message with its filling, where `encodeLength` writes the length in bits. -/
def padded (encodeLength : Nat → Bytes) (message : Bytes) : Bytes :=
  let zeros := (119 - message.length % 64) % 64
  message ++ 0x80 :: List.replicate zeros 0 ++ encodeLength (8 * message.length)

/-- The first `count` pieces of `size` bytes, one after the other. -/
def pieces (size : Nat) : Nat → Bytes → List Bytes
  | 0, _ => []
  | count + 1, bytes => bytes.take size :: pieces size count (bytes.drop size)

/-- What `block` makes of a state with the first `count` blocks of a message, in order. -/
def absorb {S : Type} (block : S → Bytes → S) : Nat → S → Bytes → S
  | 0, s, _ => s
  | count + 1, s, message => absorb block count (block s (message.take 64)) (message.drop 64)

/-- What `block` makes of a state with all blocks of a message and its filling. -/
def absorbAll {S : Type} (encodeLength : Nat → Bytes) (block : S → Bytes → S) (s : S)
    (message : Bytes) : S :=
  let filled := padded encodeLength message
  absorb block (filled.length / 64) s filled

end ObjectStore.Digest
