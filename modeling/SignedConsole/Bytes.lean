namespace SignedConsole

abbrev Bytes := List UInt8

namespace Bytes

/-- The last `count` bytes of a number. -/
def bigEndian (count n : Nat) : Bytes :=
  (List.range count).reverse.map fun i => UInt8.ofNat (n / Nat.pow 256 i)

/-- The number that bytes spell, the most significant first. -/
def toNat (bs : Bytes) : Nat := bs.foldl (fun n b => 256 * n + b.toNat) 0

theorem length_bigEndian (count n : Nat) : (bigEndian count n).length = count := by
  simp [bigEndian]

end Bytes

/-- The number of binary digits; zero has none. -/
def bitLength (n : Nat) : Nat := if n = 0 then 0 else n.log2 + 1

def byteLength (n : Nat) : Nat := (bitLength n + 7) / 8

end SignedConsole
