/-
  SecpKey.Hash.Hmac

  HMAC with SHA-256 (RFC 2104), the keyed hash behind deterministic nonces.
-/
import SecpKey.Hash.Sha256

namespace SecpKey.Hmac

/-- The key as one 64-byte block: hashed when longer, then filled up with zeros. -/
def keyBlock (key : Bytes) : Bytes :=
  let short := if 64 < key.length then Sha256.hash key else key
  short ++ List.replicate (64 - short.length) 0

/-- HMAC-SHA256 of `message` under `key`. -/
def sha256 (key message : Bytes) : Bytes :=
  let block := keyBlock key
  let inner := Sha256.hash (block.map (· ^^^ 0x36) ++ message)
  Sha256.hash (block.map (· ^^^ 0x5c) ++ inner)

@[simp] theorem sha256_length (key message : Bytes) : (sha256 key message).length = 32 := rfl

end SecpKey.Hmac
