import ObjectStore.Digest.Sha256

/-!
# Keyed hashes

The keyed hash of a message hashes it twice, each time behind a different mask of the key.
-/

namespace ObjectStore.Digest.Hmac

open ObjectStore.Text (Bytes)

/-- The key as one block; a longer key is hashed first. -/
def blockOfKey (key : Bytes) : Bytes :=
  let short := if 64 < key.length then Sha256.hash key else key
  short ++ List.replicate (64 - short.length) 0

/-- The keyed SHA-256 hash of a message. -/
def sha256 (key message : Bytes) : Bytes :=
  let block := blockOfKey key
  let inner := Sha256.hash (block.map (· ^^^ 0x36) ++ message)
  Sha256.hash (block.map (· ^^^ 0x5c) ++ inner)

end ObjectStore.Digest.Hmac
