import SignedConsole.Sha256

namespace SignedConsole.Hmac

/-- The key as one block: a key longer than a block is hashed first, and zeros fill the rest. -/
def keyBlock (key : Bytes) : Bytes :=
  let short := if 64 < key.length then Sha256.hash key else key
  short ++ List.replicate (64 - short.length) 0

/-- HMAC over SHA-256. -/
def mac (key message : Bytes) : Bytes :=
  let block := keyBlock key
  let inner := Sha256.hash (block.map (· ^^^ 0x36) ++ message)
  Sha256.hash (block.map (· ^^^ 0x5c) ++ inner)

theorem length_mac (key message : Bytes) : (mac key message).length = 32 :=
  Sha256.length_hash _

end SignedConsole.Hmac
