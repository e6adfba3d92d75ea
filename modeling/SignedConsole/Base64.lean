import SignedConsole.Bytes
import SignedConsole.Text.Digits

namespace SignedConsole.Base64

inductive Alphabet where
  | standard
  | urlSafe
deriving DecidableEq

/-- The symbol of a six-bit number. -/
def Alphabet.symbol (α : Alphabet) (n : Nat) : Char :=
  if n < 26 then Char.ofNat (65 + n)
  else if n < 52 then Char.ofNat (71 + n)
  else if n < 62 then Char.ofNat (n - 4)
  else match α, n with
    | .standard, 62 => '+'
    | .standard, _ => '/'
    | .urlSafe, 62 => '-'
    | .urlSafe, _ => '_'

/-- The symbols of all bytes, three at a time. `pad` stands where a last group has fewer. -/
def symbols (α : Alphabet) (pad : List Char) : Bytes → List Char
  | [] => []
  | [a] =>
    let a := a.toNat
    [α.symbol (a / 4), α.symbol (a % 4 * 16)] ++ pad ++ pad
  | [a, b] =>
    let a := a.toNat
    let b := b.toNat
    [α.symbol (a / 4), α.symbol (a % 4 * 16 + b / 16), α.symbol (b % 16 * 4)] ++ pad
  | a :: b :: c :: rest =>
    let a := a.toNat
    let b := b.toNat
    let c := c.toNat
    α.symbol (a / 4) :: α.symbol (a % 4 * 16 + b / 16) :: α.symbol (b % 16 * 4 + c / 64) ::
      α.symbol (c % 64) :: symbols α pad rest

/-- Standard alphabet, padded to a multiple of four. -/
def encode (bs : Bytes) : String := String.ofList (symbols .standard ['='] bs)

/-- URL-safe alphabet, without padding. -/
def encodeUrl (bs : Bytes) : String := String.ofList (symbols .urlSafe [] bs)

/-- Why a text is no standard Base64. Offsets count bytes from the start. -/
inductive Error where
  | symbol (byte : UInt8) (offset : Nat)
  | length (read : Nat)
  | padding
  | lastSymbol (byte : UInt8) (offset : Nat)
deriving DecidableEq

def Error.message : Error → String
  | .symbol b i =>
    "Invalid symbol " ++ Text.decimal b.toNat ++ ", offset " ++ Text.decimal i ++ "."
  | .length n => "Invalid input length: " ++ Text.decimal n
  | .padding => "Invalid padding"
  | .lastSymbol b i =>
    "Invalid last symbol " ++ Text.decimal b.toNat ++ ", offset " ++ Text.decimal i ++ "."

/-- The six-bit number of a symbol of the standard alphabet. -/
def value? (b : UInt8) : Option Nat :=
  let n := b.toNat
  if 65 ≤ n && n ≤ 90 then some (n - 65)
  else if 97 ≤ n && n ≤ 122 then some (n - 71)
  else if 48 ≤ n && n ≤ 57 then some (n + 4)
  else if n == 43 then some 62
  else if n == 47 then some 63
  else none

def padByte : UInt8 := 61

/-- Reads one symbol where padding is out of place. -/
def sextet (b : UInt8) (offset : Nat) : Except Error Nat :=
  match value? b with
  | some v => .ok v
  | none => .error (.symbol b offset)

/-- Reads the symbols of the last part, which starts at `start`: padding follows them, at the
earliest as third. `pad` is where it began. -/
def lastSextets (start : Nat) (i : Nat) (pad : Option Nat) : Bytes → Except Error (List Nat)
  | [] => .ok []
  | b :: bs =>
    if b == padByte then
      if i < 2 then .error (.symbol b (start + i))
      else lastSextets start (i + 1) (pad.or (some i)) bs
    else match pad with
      | some p => .error (.symbol padByte (start + p))
      | none => do
        let v ← sextet b (start + i)
        let vs ← lastSextets start (i + 1) none bs
        return v :: vs

/-- Reads the last one to four bytes of a text. -/
def decodeLast (start : Nat) (part : Bytes) : Except Error Bytes := do
  match ← lastSextets start 0 none part with
  | [a, b] =>
    if part.length ≠ 4 then throw .padding
    if b % 16 ≠ 0 then throw (.lastSymbol (part.getD 1 0) (start + 1))
    return [UInt8.ofNat (a * 4 + b / 16)]
  | [a, b, c] =>
    if part.length ≠ 4 then throw .padding
    if c % 4 ≠ 0 then throw (.lastSymbol (part.getD 2 0) (start + 2))
    return [UInt8.ofNat (a * 4 + b / 16), UInt8.ofNat (b % 16 * 16 + c / 4)]
  | [a, b, c, d] =>
    return [UInt8.ofNat (a * 4 + b / 16), UInt8.ofNat (b % 16 * 16 + c / 4),
      UInt8.ofNat (c % 4 * 64 + d)]
  | vs => throw (.length (start + vs.length))

/-- Reads whole groups of four while more text follows them. -/
def decodeFrom (start : Nat) : Bytes → Except Error Bytes
  | s :: t :: u :: v :: w :: rest => do
    let a ← sextet s start
    let b ← sextet t (start + 1)
    let c ← sextet u (start + 2)
    let d ← sextet v (start + 3)
    let tail ← decodeFrom (start + 4) (w :: rest)
    return UInt8.ofNat (a * 4 + b / 16) :: UInt8.ofNat (b % 16 * 16 + c / 4) ::
      UInt8.ofNat (c % 4 * 64 + d) :: tail
  | part => decodeLast start part

/-- A stray byte alone behind the last whole group is reported before anything else. -/
def strayLast? (text : Bytes) : Option Error :=
  match text.getLast? with
  | some b =>
    if text.length % 4 == 1 && b != padByte && (value? b).isNone then
      some (.symbol b (text.length - 1))
    else none
  | none => none

/-- Reads padded standard text, and refuses every spelling that the writer does not produce. -/
def decode (text : Bytes) : Except Error Bytes :=
  match text with
  | [] => .ok []
  | text =>
    match strayLast? text with
    | some e => .error e
    | none => decodeFrom 0 text

end SignedConsole.Base64
