import SignedConsole.Bytes

namespace SignedConsole.Text

/-- The bytes of a text. -/
def utf8 (s : String) : Bytes := s.toList.flatMap String.utf8EncodeChar

/-- How many bytes a character has that starts with this byte, and the payload of the byte. -/
def leadByte? (b : UInt8) : Option (Nat × Nat) :=
  if b < 0x80 then some (1, b.toNat)
  else if 0xC2 ≤ b && b ≤ 0xDF then some (2, b.toNat - 0xC0)
  else if 0xE0 ≤ b && b ≤ 0xEF then some (3, b.toNat - 0xE0)
  else if 0xF0 ≤ b && b ≤ 0xF4 then some (4, b.toNat - 0xF0)
  else none

/-- Whether a byte may follow the given lead byte directly: later bytes need only be
continuations, but the first one must not make an overlong form, a surrogate or too large a
number. -/
def mayFollow (lead b : UInt8) : Bool :=
  if lead == 0xE0 then 0xA0 ≤ b && b ≤ 0xBF
  else if lead == 0xED then 0x80 ≤ b && b ≤ 0x9F
  else if lead == 0xF0 then 0x90 ≤ b && b ≤ 0xBF
  else if lead == 0xF4 then 0x80 ≤ b && b ≤ 0x8F
  else 0x80 ≤ b && b ≤ 0xBF

/-- Reads `count` continuation bytes onto the number read so far. On failure the bytes that fit
have been passed. -/
def continuation (ok : UInt8 → Bool) : Nat → Nat → Bytes → Option Nat × Bytes
  | 0, n, bs => (some n, bs)
  | _ + 1, _, [] => (none, [])
  | count + 1, n, b :: bs =>
    if ok b then
      continuation (fun x => 0x80 ≤ x && x ≤ 0xBF) count (n * 64 + (b.toNat - 0x80)) bs
    else (none, b :: bs)

/-- Reads the character that starts with `b`: the character, or nothing, and the bytes left. -/
def decodeChar? (b : UInt8) (bs : Bytes) : Option Char × Bytes :=
  match leadByte? b with
  | none => (none, bs)
  | some (length, payload) =>
    match continuation (mayFollow b) (length - 1) payload bs with
    | (some n, rest) => (some (Char.ofNat n), rest)
    | (none, rest) => (none, rest)

theorem continuation_length_le (ok : UInt8 → Bool) (count n : Nat) (bs : Bytes) :
    (continuation ok count n bs).2.length ≤ bs.length := by
  induction count generalizing ok n bs with
  | zero => simp [continuation]
  | succ count ih =>
    cases bs with
    | nil => simp [continuation]
    | cons b bs =>
      rw [continuation]
      split
      · exact Nat.le_succ_of_le (ih ..)
      · simp

theorem decodeChar?_length_le (b : UInt8) (bs : Bytes) :
    (decodeChar? b bs).2.length ≤ bs.length := by
  rw [decodeChar?]
  split
  · simp
  · rename_i length payload _
    have h := continuation_length_le (mayFollow b) (length - 1) payload bs
    split <;> simp_all

/-- Reads all bytes, one step a character or a piece that is none. -/
def decodeAll : Bytes → List (Option Char)
  | [] => []
  | b :: bs => (decodeChar? b bs).1 :: decodeAll (decodeChar? b bs).2
termination_by bs => bs.length
decreasing_by
  have := decodeChar?_length_le b bs
  simp only [List.length_cons]
  omega

/-- The text that the bytes spell, if they spell one. -/
def ofUtf8? (bs : Bytes) : Option String :=
  ((decodeAll bs).mapM id).map String.ofList

/-- The text of the bytes with U+FFFD where they spell none. -/
def ofUtf8Lossy (bs : Bytes) : String :=
  String.ofList ((decodeAll bs).map fun c => c.getD '\uFFFD')

end SignedConsole.Text
