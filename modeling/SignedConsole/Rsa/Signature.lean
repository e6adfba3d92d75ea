import SignedConsole.Sha256
import SignedConsole.Rsa.Key

namespace SignedConsole.Rsa

/-- Square and multiply, once for each binary digit of the exponent. -/
def powModSteps (m : Nat) : Nat → Nat → Nat → Nat → Nat
  | 0, _, _, acc => acc
  | steps + 1, b, e, acc =>
    powModSteps m steps (b * b % m) (e / 2) (if e % 2 = 1 then acc * b % m else acc)

/-- `b ^ e` modulo `m`. -/
def powMod (m b e : Nat) : Nat := powModSteps m (bitLength e) (b % m) e (1 % m)

/-- The frame around a SHA-256 digest that names the hash function. -/
def digestFrame : Bytes :=
  [0x30, 0x31, 0x30, 0x0D, 0x06, 0x09, 0x60, 0x86, 0x48, 0x01, 0x65, 0x03, 0x04, 0x02, 0x01, 0x05,
   0x00, 0x04, 0x20]

/-- The padded digest of a message, `size` bytes long. -/
def paddedDigest (size : Nat) (message : Bytes) : Bytes :=
  let tail := 0x00 :: digestFrame ++ Sha256.hash message
  0x00 :: 0x01 :: List.replicate (size - 2 - tail.length) 0xFF ++ tail

/-- The root of a number, put together from its roots modulo the primes. The modulus may be a proper
divisor of their product, so the sum is reduced. -/
def PrivateKey.root (key : PrivateKey) (c : Nat) : Nat :=
  let m1 := powMod key.prime1 c key.exponent1
  let m2 := powMod key.prime2 c key.exponent2
  let h := key.coefficient * (m1 + (key.prime1 - m2 % key.prime1)) % key.prime1
  (m2 + h * key.prime2) % key.modulus

/-- The signature of a message, as long as the modulus, unless the private exponents do not belong
to the public one. -/
def PrivateKey.sign? (key : PrivateKey) (message : Bytes) : Option Bytes :=
  let size := byteLength key.modulus
  let c := (paddedDigest size message).toNat
  let s := key.root c
  if powMod key.modulus s key.publicExponent = c then some (Bytes.bigEndian size s) else none

/-- The signature of a text under the key of a PEM text. -/
def signature (pem body : String) : Except CredentialError String := do
  let key ← PrivateKey.ofPem pem
  match key.sign? (Text.utf8 body) with
  | some s => return Base64.encode s
  | none => throw (.signing "RSA signature computation failed")

def publicKey (pem : String) : Except CredentialError Bytes := do
  return (← PrivateKey.ofPem pem).publicDer

end SignedConsole.Rsa
