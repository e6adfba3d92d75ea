import SignedConsole.Der
import SignedConsole.Pem

namespace SignedConsole.Rsa

inductive Rejection where
  | invalidEncoding
  | versionNotSupported
  | unexpectedError
  | tooSmall
  | tooLarge
  | invalidComponent
  | inconsistentComponents
  | primeLength
deriving DecidableEq

def Rejection.message : Rejection → String
  | .invalidEncoding => "InvalidEncoding"
  | .versionNotSupported => "VersionNotSupported"
  | .unexpectedError => "UnexpectedError"
  | .tooSmall => "TooSmall"
  | .tooLarge => "TooLarge"
  | .invalidComponent => "InvalidComponent"
  | .inconsistentComponents => "InconsistentComponents"
  | .primeLength => "PrivateModulusLenNotMultipleOf512Bits"

/-- A key whose parts belong together, the private exponents apart: those are taken as given. -/
structure PrivateKey where
  modulus : Nat
  publicExponent : Nat
  prime1 : Nat
  prime2 : Nat
  exponent1 : Nat
  exponent2 : Nat
  coefficient : Nat
deriving DecidableEq

/-- The numbers of a written key, as digits to base 256. -/
structure Components where
  (n e d p q dP dQ qInv : Bytes)
deriving DecidableEq

def isEven (bs : Bytes) : Bool := bs.toNat % 2 == 0

/-- An odd number of a size that can be computed with. -/
def oddNumber (bs : Bytes) : Except Rejection Nat :=
  if bs.length ≤ 24 then .error .unexpectedError
  else if 1024 < bs.length then .error .tooLarge
  else if isEven bs then .error .invalidComponent
  else .ok bs.toNat

def checkModulus (bs : Bytes) : Except Rejection Nat := do
  let n ← oddNumber bs
  if 8 * byteLength n < 2048 then throw .tooSmall
  if 4096 < bitLength n then throw .tooLarge
  return n

def checkPublicExponent (bs : Bytes) : Except Rejection Nat := do
  if 5 < bs.length then throw .tooLarge
  let e := bs.toNat
  if e = 0 then throw .invalidEncoding
  if e < 65537 then throw .tooSmall
  if Nat.pow 2 33 ≤ e then throw .tooLarge
  if e % 2 = 0 then throw .invalidComponent
  return e

/-- Half the length of the modulus, rounded up. -/
def halfLength (n : Nat) : Nat := (bitLength n + 1) / 2

def checkPrime (n : Nat) (bs : Bytes) : Except Rejection Nat := do
  let p ← oddNumber bs
  if bitLength p ≠ halfLength n then throw .inconsistentComponents
  if bitLength p % 512 ≠ 0 then throw .primeLength
  return p

/-- The private exponent is checked and not used. -/
def checkPrivateExponent (n : Nat) (bs : Bytes) : Except Rejection Unit := do
  match oddNumber bs with
  | .error _ => throw .invalidComponent
  | .ok d => if bitLength d ≤ halfLength n || n ≤ d then throw .inconsistentComponents

def checkPrimeExponent (p : Nat) (bs : Bytes) : Except Rejection Nat :=
  if p ≤ bs.toNat || isEven bs then .error .inconsistentComponents else .ok bs.toNat

def PrivateKey.ofComponents (c : Components) : Except Rejection PrivateKey := do
  let n ← checkModulus c.n
  let e ← checkPublicExponent c.e
  let p ← checkPrime n c.p
  let q ← checkPrime n c.q
  if p * q % n ≠ 0 then throw .inconsistentComponents
  checkPrivateExponent n c.d
  let qInv := c.qInv.toNat
  if p ≤ qInv then throw .invalidComponent
  if qInv * q % p ≠ 1 then throw .inconsistentComponents
  let dP ← checkPrimeExponent p c.dP
  let dQ ← checkPrimeExponent q c.dQ
  return ⟨n, e, p, q, dP, dQ, qInv⟩

/-- Reads a version number of one byte. -/
def readVersion (bs : Bytes) : Except Rejection Bytes :=
  match Der.readNatural bs with
  | some ([v], rest) => if v == 0 then .ok rest else .error .versionNotSupported
  | _ => .error .invalidEncoding

def readComponents (bs : Bytes) : Option (Components × Bytes) := do
  let (n, bs) ← Der.readNatural bs
  let (e, bs) ← Der.readNatural bs
  let (d, bs) ← Der.readNatural bs
  let (p, bs) ← Der.readNatural bs
  let (q, bs) ← Der.readNatural bs
  let (dP, bs) ← Der.readNatural bs
  let (dQ, bs) ← Der.readNatural bs
  let (qInv, bs) ← Der.readNatural bs
  return (⟨n, e, d, p, q, dP, dQ, qInv⟩, bs)

/-- A key in the inner form, PKCS #1. What stands behind a structure is looked at last. -/
def PrivateKey.ofInner (der : Bytes) : Except Rejection PrivateKey := do
  let some (content, rest) := Der.readTagged Der.sequenceTag der | throw .invalidEncoding
  let content ← readVersion content
  let some (components, inside) := readComponents content | throw .invalidEncoding
  let key ← PrivateKey.ofComponents components
  if !inside.isEmpty || !rest.isEmpty then throw .invalidEncoding
  return key

/-- The name of RSA encryption, without parameters. -/
def algorithm : Bytes :=
  [0x06, 0x09, 0x2A, 0x86, 0x48, 0x86, 0xF7, 0x0D, 0x01, 0x01, 0x01, 0x05, 0x00]

/-- The inner form out of the outer one, PKCS #8. Attributes may follow it. -/
def unwrap (der : Bytes) : Option Bytes := do
  let (content, rest) ← Der.readTagged Der.sequenceTag der
  let (version, content) ← Der.readNatural content
  let (name, content) ← Der.readTagged Der.sequenceTag content
  let (inner, content) ← Der.readTagged Der.octetsTag content
  let content ← match Der.readTagged Der.attributesTag content with
    | some (_, behind) => some behind
    | none => some content
  if version == [0] && name == algorithm && content.isEmpty && rest.isEmpty then some inner
  else none

/-- A key in the outer form. -/
def PrivateKey.ofOuter? (der : Bytes) : Option PrivateKey := do
  (PrivateKey.ofInner (← unwrap der)).toOption

/-- A key in either form. The reason of a refusal is the one for the inner form. -/
def PrivateKey.ofDer (der : Bytes) : Except Rejection PrivateKey :=
  match PrivateKey.ofOuter? der with
  | some key => .ok key
  | none => PrivateKey.ofInner der

/-- The outer form of a key wraps the inner one. Whichever way a key is written, the same checks
decide whether it is taken. -/
def PrivateKey.ofPem (pem : String) : Except CredentialError PrivateKey := do
  let der ← Pem.decode pem
  (PrivateKey.ofDer der).mapError fun r => .invalidKey r.message

/-- The public half of a key: modulus and exponent. -/
def PrivateKey.publicDer (key : PrivateKey) : Bytes :=
  Der.element Der.sequenceTag (Der.natural key.modulus ++ Der.natural key.publicExponent)

end SignedConsole.Rsa
