import SignedConsole.Bytes

namespace SignedConsole.Der

def integerTag : UInt8 := 0x02
def octetsTag : UInt8 := 0x04
def sequenceTag : UInt8 := 0x30
def attributesTag : UInt8 := 0xA0

/-- Reads a length in its shortest form. -/
def readLength : Bytes → Option (Nat × Bytes)
  | [] => none
  | b :: bs =>
    if b < 0x80 then some (b.toNat, bs)
    else if b == 0x81 then
      match bs with
      | x :: bs => if 0x80 ≤ x then some (x.toNat, bs) else none
      | [] => none
    else if b == 0x82 then
      match bs with
      | x :: y :: bs => if x == 0 then none else some (x.toNat * 256 + y.toNat, bs)
      | _ => none
    else none

/-- Reads an element: its tag, its content and the bytes behind it. -/
def readElement : Bytes → Option (UInt8 × Bytes × Bytes)
  | [] => none
  | tag :: bs =>
    if tag &&& 0x1F == 0x1F then none
    else do
      let (n, bs) ← readLength bs
      if n ≤ bs.length then some (tag, bs.take n, bs.drop n) else none

/-- Reads an element of the given tag: its content and the bytes behind it. -/
def readTagged (tag : UInt8) (bs : Bytes) : Option (Bytes × Bytes) := do
  let (t, content, rest) ← readElement bs
  if t == tag then some (content, rest) else none

/-- The digits of a number that is not negative: a zero in front only where the next byte would
make it negative, and it does not count. -/
def magnitude : Bytes → Option Bytes
  | [] => none
  | [b] => if b < 0x80 then some [b] else none
  | a :: b :: bs =>
    if a == 0 then (if 0x80 ≤ b then some (b :: bs) else none)
    else if a < 0x80 then some (a :: b :: bs) else none

/-- Reads a whole number as its digits to base 256. -/
def readNatural (bs : Bytes) : Option (Bytes × Bytes) := do
  let (content, rest) ← readTagged integerTag bs
  return (← magnitude content, rest)

def lengthBytes (n : Nat) : Bytes :=
  if n < 0x80 then [UInt8.ofNat n]
  else if n < 0x100 then [0x81, UInt8.ofNat n]
  else [0x82, UInt8.ofNat (n / 256), UInt8.ofNat n]

/-- An element as it is written. Each length has one spelling, below 2¹⁶. -/
def element (tag : UInt8) (content : Bytes) : Bytes :=
  tag :: lengthBytes content.length ++ content

/-- A positive number as an element. -/
def natural (n : Nat) : Bytes :=
  let digits := Bytes.bigEndian (byteLength n) n
  element integerTag (if digits.headD 0 < 0x80 then digits else 0 :: digits)

end SignedConsole.Der
