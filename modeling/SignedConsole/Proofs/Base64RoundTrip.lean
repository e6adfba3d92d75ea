import SignedConsole.Base64
import SignedConsole.Text.Utf8

namespace SignedConsole.Base64

/-- The byte of the symbol of a six-bit number. -/
def code (n : Nat) : UInt8 := UInt8.ofNat (Alphabet.standard.symbol n).toNat

theorem symbol_bytes : ∀ n < 64,
    String.utf8EncodeChar (Alphabet.standard.symbol n) = [code n] := by decide

theorem pad_bytes : String.utf8EncodeChar '=' = [padByte] := by decide

theorem value_code : ∀ n < 64, value? (code n) = some n := by decide

theorem code_ne_pad : ∀ n < 64, (code n == padByte) = false := by decide

theorem sextet_code {n : Nat} (h : n < 64) (offset : Nat) : sextet (code n) offset = .ok n := by
  rw [sextet, value_code n h]

/-- Only the byte of a number's symbol stands for the number. -/
theorem code_of_value {b : UInt8} {n : Nat} (h : value? b = some n) : n < 64 ∧ b = code n := by
  have hall : ∀ k < 256, ∀ n ∈ value? (UInt8.ofNat k), n < 64 ∧ UInt8.ofNat k = code n := by
    decide +kernel
  have hb := hall b.toNat b.toNat_lt n
  rw [UInt8.ofNat_toNat] at hb
  exact hb h

theorem sextet_ok {b : UInt8} {offset n : Nat} (h : sextet b offset = .ok n) :
    n < 64 ∧ b = code n := by
  unfold sextet at h
  cases hv : value? b with
  | none =>
    rw [hv] at h
    cases h
  | some m =>
    rw [hv] at h
    cases h
    exact code_of_value hv

/-- The bytes of the text that is written for some bytes. -/
def spelling (bs : Bytes) : Bytes := Text.utf8 (encode bs)

theorem spelling_nil : spelling [] = [] := rfl

theorem spelling_one (a : UInt8) : spelling [a] =
    [code (a.toNat / 4), code (a.toNat % 4 * 16), padByte, padByte] := by
  have ha := a.toNat_lt
  simp [spelling, Text.utf8, encode, symbols, symbol_bytes (a.toNat / 4) (by omega),
    symbol_bytes (a.toNat % 4 * 16) (by omega), pad_bytes]

theorem spelling_two (a b : UInt8) : spelling [a, b] =
    [code (a.toNat / 4), code (a.toNat % 4 * 16 + b.toNat / 16), code (b.toNat % 16 * 4),
      padByte] := by
  have ha := a.toNat_lt
  have hb := b.toNat_lt
  simp [spelling, Text.utf8, encode, symbols, symbol_bytes (a.toNat / 4) (by omega),
    symbol_bytes (a.toNat % 4 * 16 + b.toNat / 16) (by omega),
    symbol_bytes (b.toNat % 16 * 4) (by omega), pad_bytes]

theorem spelling_group (a b c : UInt8) (rest : Bytes) : spelling (a :: b :: c :: rest) =
    code (a.toNat / 4) :: code (a.toNat % 4 * 16 + b.toNat / 16) ::
      code (b.toNat % 16 * 4 + c.toNat / 64) :: code (c.toNat % 64) :: spelling rest := by
  have ha := a.toNat_lt
  have hb := b.toNat_lt
  have hc := c.toNat_lt
  simp [spelling, Text.utf8, encode, symbols, symbol_bytes (a.toNat / 4) (by omega),
    symbol_bytes (a.toNat % 4 * 16 + b.toNat / 16) (by omega),
    symbol_bytes (b.toNat % 16 * 4 + c.toNat / 64) (by omega),
    symbol_bytes (c.toNat % 64) (by omega)]

theorem spelling_length : ∀ bs : Bytes, (spelling bs).length % 4 = 0
  | [] => rfl
  | [a] => by simp [spelling_one]
  | [a, b] => by simp [spelling_two]
  | a :: b :: c :: rest => by
    rw [spelling_group]
    have ih := spelling_length rest
    simp only [List.length_cons]
    omega

theorem spelling_eq_nil : ∀ {bs : Bytes}, spelling bs = [] → bs = []
  | [], _ => rfl
  | [a], h => by simp [spelling_one] at h
  | [a, b], h => by simp [spelling_two] at h
  | a :: b :: c :: rest, h => by simp [spelling_group] at h

theorem joined_first (a b : UInt8) :
    UInt8.ofNat (a.toNat / 4 * 4 + (a.toNat % 4 * 16 + b.toNat / 16) / 16) = a := by
  have ha := a.toNat_lt
  have hb := b.toNat_lt
  have h : a.toNat / 4 * 4 + (a.toNat % 4 * 16 + b.toNat / 16) / 16 = a.toNat := by omega
  rw [h, UInt8.ofNat_toNat]

theorem joined_second (a b c : UInt8) :
    UInt8.ofNat ((a.toNat % 4 * 16 + b.toNat / 16) % 16 * 16 +
      (b.toNat % 16 * 4 + c.toNat / 64) / 4) = b := by
  have hb := b.toNat_lt
  have hc := c.toNat_lt
  have h : (a.toNat % 4 * 16 + b.toNat / 16) % 16 * 16 +
      (b.toNat % 16 * 4 + c.toNat / 64) / 4 = b.toNat := by omega
  rw [h, UInt8.ofNat_toNat]

theorem joined_third (b c : UInt8) :
    UInt8.ofNat ((b.toNat % 16 * 4 + c.toNat / 64) % 4 * 64 + c.toNat % 64) = c := by
  have hc := c.toNat_lt
  have h : (b.toNat % 16 * 4 + c.toNat / 64) % 4 * 64 + c.toNat % 64 = c.toNat := by omega
  rw [h, UInt8.ofNat_toNat]

theorem first_value {s t : Nat} (hs : s < 64) (ht : t < 64) :
    (UInt8.ofNat (s * 4 + t / 16)).toNat = s * 4 + t / 16 := by
  rw [UInt8.toNat_ofNat']
  omega

theorem second_value {t u : Nat} (hu : u < 64) :
    (UInt8.ofNat (t % 16 * 16 + u / 4)).toNat = t % 16 * 16 + u / 4 := by
  rw [UInt8.toNat_ofNat']
  omega

theorem third_value {u v : Nat} (hv : v < 64) :
    (UInt8.ofNat (u % 4 * 64 + v)).toNat = u % 4 * 64 + v := by
  rw [UInt8.toNat_ofNat']
  omega

/-- Four symbols are how the three bytes are written that are put together of them. -/
theorem spelling_joined {s t u v : Nat} (hs : s < 64) (ht : t < 64) (hu : u < 64) (hv : v < 64)
    (rest : Bytes) :
    spelling (UInt8.ofNat (s * 4 + t / 16) :: UInt8.ofNat (t % 16 * 16 + u / 4) ::
      UInt8.ofNat (u % 4 * 64 + v) :: rest) = code s :: code t :: code u :: code v ::
        spelling rest := by
  rw [spelling_group, first_value hs ht, second_value hu, third_value hv]
  have h₁ : (s * 4 + t / 16) / 4 = s := by omega
  have h₂ : (s * 4 + t / 16) % 4 * 16 + (t % 16 * 16 + u / 4) / 16 = t := by omega
  have h₃ : (t % 16 * 16 + u / 4) % 16 * 4 + (u % 4 * 64 + v) / 64 = u := by omega
  have h₄ : (u % 4 * 64 + v) % 64 = v := by omega
  rw [h₁, h₂, h₃, h₄]

/-- Once padding has begun there is nothing else. -/
theorem lastSextets_padding (start : Nat) {i : Nat} (hi : 2 ≤ i) (p : Nat) (bs : Bytes)
    (vs : List Nat) : lastSextets start i (some p) bs = .ok vs ↔
      vs = [] ∧ bs = List.replicate bs.length padByte := by
  induction bs generalizing i with
  | nil => simp [lastSextets, eq_comm]
  | cons b bs ih =>
    rw [lastSextets]
    by_cases hb : b = padByte
    · have hlate : ¬ i < 2 := by omega
      simp [hb, hlate, ih (i := i + 1) (by omega), List.replicate_succ]
    · simp [hb, List.replicate_succ]

/-- Symbols, and padding that is not among the first two, are read to the numbers of the symbols. -/
theorem lastSextets_code (start : Nat) {i k : Nat} (vs : List Nat) (hvs : ∀ v ∈ vs, v < 64)
    (hk : k = 0 ∨ 2 ≤ i + vs.length) :
    lastSextets start i none (vs.map code ++ List.replicate k padByte) = .ok vs := by
  induction vs generalizing i with
  | nil =>
    cases k with
    | zero => rfl
    | succ k =>
      have hi : 2 ≤ i := by simpa using hk
      have hlate : ¬ i < 2 := by omega
      have hrest := (lastSextets_padding start (i := i + 1) (by omega) i
        (List.replicate k padByte) []).mpr ⟨rfl, by rw [List.length_replicate]⟩
      simpa [lastSextets, List.replicate_succ, hlate] using hrest
  | cons v vs ih =>
    have hv : v < 64 := hvs v List.mem_cons_self
    have hrest := ih (i := i + 1) (fun w hw => hvs w (List.mem_cons_of_mem _ hw))
      (by rw [List.length_cons] at hk; omega)
    rw [List.map_cons, List.cons_append, lastSextets, code_ne_pad v hv, sextet_code hv, hrest]
    rfl

/-- Nothing else is read. -/
theorem lastSextets_ok {start i : Nat} {bs : Bytes} {vs : List Nat}
    (h : lastSextets start i none bs = .ok vs) :
    (∀ v ∈ vs, v < 64) ∧ ∃ k, bs = vs.map code ++ List.replicate k padByte := by
  induction bs generalizing i vs with
  | nil =>
    cases h
    exact ⟨List.forall_mem_nil _, 0, rfl⟩
  | cons b bs ih =>
    rw [lastSextets] at h
    split at h
    · rename_i hb
      split at h
      · cases h
      · obtain ⟨rfl, hbs⟩ := (lastSextets_padding start (by omega) i bs vs).mp h
        refine ⟨List.forall_mem_nil _, bs.length + 1, ?_⟩
        rw [List.replicate_succ, ← hbs, eq_of_beq hb]
        rfl
    · cases hs : sextet b (start + i) with
      | error e =>
        rw [hs] at h
        cases h
      | ok v =>
        cases hr : lastSextets start (i + 1) none bs with
        | error e =>
          rw [hs, hr] at h
          cases h
        | ok rest =>
          rw [hs, hr] at h
          cases h
          obtain ⟨hrest, k, hbs⟩ := ih hr
          obtain ⟨hv, hb⟩ := sextet_ok hs
          exact ⟨List.forall_mem_cons.mpr ⟨hv, hrest⟩, k, by rw [hb, hbs]; rfl⟩

/-- What the numbers of a last part come to. -/
def joinLast (start : Nat) (part : Bytes) : List Nat → Except Error Bytes
  | [a, b] =>
    if part.length ≠ 4 then .error .padding
    else if b % 16 ≠ 0 then .error (.lastSymbol (part.getD 1 0) (start + 1))
    else .ok [UInt8.ofNat (a * 4 + b / 16)]
  | [a, b, c] =>
    if part.length ≠ 4 then .error .padding
    else if c % 4 ≠ 0 then .error (.lastSymbol (part.getD 2 0) (start + 2))
    else .ok [UInt8.ofNat (a * 4 + b / 16), UInt8.ofNat (b % 16 * 16 + c / 4)]
  | [a, b, c, d] =>
    .ok [UInt8.ofNat (a * 4 + b / 16), UInt8.ofNat (b % 16 * 16 + c / 4),
      UInt8.ofNat (c % 4 * 64 + d)]
  | vs => .error (.length (start + vs.length))

theorem decodeLast_eq (start : Nat) (part : Bytes) :
    decodeLast start part = lastSextets start 0 none part >>= joinLast start part := rfl

theorem decodeLast_of {start : Nat} {part : Bytes} {vs : List Nat}
    (h : lastSextets start 0 none part = .ok vs) : decodeLast start part = joinLast start part vs := by
  rw [decodeLast_eq, h]
  rfl

/-- A last part is how one to three bytes are written. -/
theorem decodeLast_spelling (start : Nat) : ∀ {bs : Bytes}, bs ≠ [] → bs.length ≤ 3 →
    decodeLast start (spelling bs) = .ok bs
  | [a], _, _ => by
    have ha := a.toNat_lt
    have hread : lastSextets start 0 none (spelling [a]) =
        .ok [a.toNat / 4, a.toNat % 4 * 16] := by
      rw [spelling_one]
      exact lastSextets_code (k := 2) start [_, _] (by simp; omega) (by simp)
    have hlow : a.toNat % 4 * 16 % 16 = 0 := by omega
    have hjoin : UInt8.ofNat (a.toNat / 4 * 4 + a.toNat % 4 * 16 / 16) = a := joined_first a 0
    rw [decodeLast_of hread, joinLast, hjoin, spelling_one, if_neg (by simp), if_neg (by simp [hlow])]
  | [a, b], _, _ => by
    have ha := a.toNat_lt
    have hb := b.toNat_lt
    have hread : lastSextets start 0 none (spelling [a, b]) =
        .ok [a.toNat / 4, a.toNat % 4 * 16 + b.toNat / 16, b.toNat % 16 * 4] := by
      rw [spelling_two]
      exact lastSextets_code (k := 1) start [_, _, _] (by simp; omega) (by simp)
    have hlow : b.toNat % 16 * 4 % 4 = 0 := by omega
    have hjoin : UInt8.ofNat ((a.toNat % 4 * 16 + b.toNat / 16) % 16 * 16 +
        b.toNat % 16 * 4 / 4) = b := joined_second a b 0
    rw [decodeLast_of hread, joinLast, joined_first, hjoin, spelling_two, if_neg (by simp),
      if_neg (by simp [hlow])]
  | [a, b, c], _, _ => by
    have ha := a.toNat_lt
    have hb := b.toNat_lt
    have hc := c.toNat_lt
    have hread : lastSextets start 0 none (spelling [a, b, c]) =
        .ok [a.toNat / 4, a.toNat % 4 * 16 + b.toNat / 16, b.toNat % 16 * 4 + c.toNat / 64,
          c.toNat % 64] := by
      rw [spelling_group, spelling_nil]
      exact lastSextets_code (k := 0) start [_, _, _, _] (by simp; omega) (by simp)
    rw [decodeLast_of hread, joinLast, joined_first, joined_second, joined_third]
  | [], h, _ => absurd rfl h
  | _ :: _ :: _ :: _ :: _, _, h => by
    simp only [List.length_cons] at h
    omega

theorem spelling_of_last {start : Nat} {part bs : Bytes} (hpart : part.length ≤ 4)
    (h : decodeLast start part = .ok bs) : part = spelling bs := by
  cases hs : lastSextets start 0 none part with
  | error e =>
    rw [decodeLast_eq, hs] at h
    cases h
  | ok vs =>
    obtain ⟨hvs, k, rfl⟩ := lastSextets_ok hs
    rw [decodeLast_of hs] at h
    rw [List.length_append, List.length_map, List.length_replicate] at hpart
    unfold joinLast at h
    split at h
    · rename_i a b
      split at h
      · cases h
      split at h
      · cases h
      rename_i hlength hlow
      cases h
      obtain rfl : k = 2 := by simpa using hlength
      have ha : a < 64 := hvs a (by simp)
      have hb : b < 64 := hvs b (by simp)
      rw [spelling_one, first_value ha hb]
      have h₁ : (a * 4 + b / 16) / 4 = a := by omega
      have h₂ : (a * 4 + b / 16) % 4 * 16 = b := by omega
      rw [h₁, h₂]
      rfl
    · rename_i a b c
      split at h
      · cases h
      split at h
      · cases h
      rename_i hlength hlow
      cases h
      obtain rfl : k = 1 := by simpa using hlength
      have ha : a < 64 := hvs a (by simp)
      have hb : b < 64 := hvs b (by simp)
      have hc : c < 64 := hvs c (by simp)
      rw [spelling_two, first_value ha hb, second_value hc]
      have h₁ : (a * 4 + b / 16) / 4 = a := by omega
      have h₂ : (a * 4 + b / 16) % 4 * 16 + (b % 16 * 16 + c / 4) / 16 = b := by omega
      have h₃ : (b % 16 * 16 + c / 4) % 16 * 4 = c := by omega
      rw [h₁, h₂, h₃]
      rfl
    · rename_i a b c d
      cases h
      obtain rfl : k = 0 := by
        simp only [List.length_cons, List.length_nil] at hpart
        omega
      rw [spelling_joined (hvs a (by simp)) (hvs b (by simp)) (hvs c (by simp)) (hvs d (by simp)),
        spelling_nil]
      rfl
    · cases h

theorem decodeFrom_group {s t u v : Nat} (hs : s < 64) (ht : t < 64) (hu : u < 64) (hv : v < 64)
    (start : Nat) {rest : Bytes} (hrest : rest ≠ []) :
    decodeFrom start (code s :: code t :: code u :: code v :: rest) =
      (decodeFrom (start + 4) rest).map fun tail => UInt8.ofNat (s * 4 + t / 16) ::
        UInt8.ofNat (t % 16 * 16 + u / 4) :: UInt8.ofNat (u % 4 * 64 + v) :: tail := by
  obtain ⟨w, rest, rfl⟩ := List.exists_cons_of_ne_nil hrest
  rw [decodeFrom, sextet_code hs, sextet_code ht, sextet_code hu, sextet_code hv]
  cases decodeFrom (start + 4) (w :: rest) <;> rfl

theorem decodeFrom_last {start : Nat} {part : Bytes} (h : part.length ≤ 4) :
    decodeFrom start part = decodeLast start part := by
  rw [decodeFrom]
  rintro s t u v w rest rfl
  simp only [List.length_cons] at h
  omega

/-- What is written is read, whatever offset its errors would be told by. -/
theorem decodeFrom_spelling (start : Nat) : ∀ {bs : Bytes}, bs ≠ [] →
    decodeFrom start (spelling bs) = .ok bs
  | [a], h => by
    rw [decodeFrom_last (by simp [spelling_one])]
    exact decodeLast_spelling start h (by simp)
  | [a, b], h => by
    rw [decodeFrom_last (by simp [spelling_two])]
    exact decodeLast_spelling start h (by simp)
  | [a, b, c], h => by
    rw [decodeFrom_last (by simp [spelling_group, spelling_nil])]
    exact decodeLast_spelling start h (by simp)
  | a :: b :: c :: d :: rest, _ => by
    have ha := a.toNat_lt
    have hb := b.toNat_lt
    have hc := c.toNat_lt
    have hrest : spelling (d :: rest) ≠ [] := fun h => List.cons_ne_nil _ _ (spelling_eq_nil h)
    rw [spelling_group, decodeFrom_group (by omega) (by omega) (by omega) (by omega) start hrest,
      decodeFrom_spelling (start + 4) (List.cons_ne_nil d rest)]
    rw [Except.map, joined_first, joined_second, joined_third]
  | [], h => absurd rfl h

/-- What is read was written. -/
theorem spelling_of_from {start : Nat} {text bs : Bytes} (h : decodeFrom start text = .ok bs) :
    text = spelling bs := by
  fun_induction decodeFrom start text generalizing bs with
  | case1 start b₁ b₂ b₃ b₄ w rest ih =>
    cases h₁ : sextet b₁ start with
    | error e => simp [h₁, bind, Except.bind] at h
    | ok s =>
    cases h₂ : sextet b₂ (start + 1) with
    | error e => simp [h₁, h₂, bind, Except.bind] at h
    | ok t =>
    cases h₃ : sextet b₃ (start + 2) with
    | error e => simp [h₁, h₂, h₃, bind, Except.bind] at h
    | ok u =>
    cases h₄ : sextet b₄ (start + 3) with
    | error e => simp [h₁, h₂, h₃, h₄, bind, Except.bind] at h
    | ok v =>
    cases hr : decodeFrom (start + 4) (w :: rest) with
    | error e => simp [h₁, h₂, h₃, h₄, hr, bind, Except.bind] at h
    | ok tail =>
      rw [h₁, h₂, h₃, h₄, hr] at h
      cases h
      obtain ⟨hs, rfl⟩ := sextet_ok h₁
      obtain ⟨ht, rfl⟩ := sextet_ok h₂
      obtain ⟨hu, rfl⟩ := sextet_ok h₃
      obtain ⟨hv, rfl⟩ := sextet_ok h₄
      rw [spelling_joined hs ht hu hv, ← ih hr]
  | case2 start part hpart =>
    refine spelling_of_last ?_ h
    match part with
    | [] | [_] | [_, _] | [_, _, _] | [_, _, _, _] => simp
    | s :: t :: u :: v :: w :: rest => exact absurd rfl (hpart s t u v w rest)

theorem strayLast_spelling (bs : Bytes) : strayLast? (spelling bs) = none := by
  have hlength := spelling_length bs
  unfold strayLast?
  split
  · rw [hlength]
    rfl
  · rfl

/-- The one text that is read to some bytes is the one that is written for them. -/
theorem decode_ok_iff {text bs : Bytes} : decode text = .ok bs ↔ text = Text.utf8 (encode bs) := by
  constructor
  · intro h
    unfold decode at h
    split at h
    · cases h
      rfl
    · split at h
      · cases h
      · exact spelling_of_from h
  · rintro rfl
    change decode (spelling bs) = .ok bs
    unfold decode
    split
    · rename_i hnil
      rw [spelling_eq_nil hnil]
    · rename_i hne
      rw [strayLast_spelling]
      exact decodeFrom_spelling 0 fun hnil => hne (by rw [hnil, spelling_nil])

end SignedConsole.Base64
