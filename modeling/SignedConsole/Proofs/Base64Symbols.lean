import SignedConsole.Base64
import SignedConsole.Http.Headers

namespace SignedConsole.Base64

/-- The six-bit number of a symbol, whichever of the two alphabets it is from. -/
def Alphabet.index (c : Char) : Nat :=
  let n := c.toNat
  if 65 ≤ n ∧ n ≤ 90 then n - 65
  else if 97 ≤ n ∧ n ≤ 122 then n - 71
  else if 48 ≤ n ∧ n ≤ 57 then n + 4
  else if c = '+' ∨ c = '-' then 62
  else 63

theorem Alphabet.index_symbol (α : Alphabet) : ∀ n < 64, index (α.symbol n) = n := by
  cases α <;> decide

theorem Alphabet.symbol_injective {α : Alphabet} {m n : Nat} (hm : m < 64) (hn : n < 64)
    (h : α.symbol m = α.symbol n) : m = n := by
  have hi := congrArg index h
  rwa [α.index_symbol m hm, α.index_symbol n hn] at hi

theorem one_byte {a b : UInt8} (hhigh : a.toNat / 4 = b.toNat / 4)
    (hlow : a.toNat % 4 * 16 = b.toNat % 4 * 16) : a = b := by
  apply UInt8.toNat_inj.mp
  omega

theorem two_bytes {a b c d : UInt8} (h₁ : a.toNat / 4 = c.toNat / 4)
    (h₂ : a.toNat % 4 * 16 + b.toNat / 16 = c.toNat % 4 * 16 + d.toNat / 16)
    (h₃ : b.toNat % 16 * 4 = d.toNat % 16 * 4) : a = c ∧ b = d := by
  have hb := b.toNat_lt
  have hd := d.toNat_lt
  constructor <;> apply UInt8.toNat_inj.mp <;> omega

theorem three_bytes {a b c d e f : UInt8} (h₁ : a.toNat / 4 = d.toNat / 4)
    (h₂ : a.toNat % 4 * 16 + b.toNat / 16 = d.toNat % 4 * 16 + e.toNat / 16)
    (h₃ : b.toNat % 16 * 4 + c.toNat / 64 = e.toNat % 16 * 4 + f.toNat / 64)
    (h₄ : c.toNat % 64 = f.toNat % 64) : a = d ∧ b = e ∧ c = f := by
  have hb := b.toNat_lt
  have hc := c.toNat_lt
  have he := e.toNat_lt
  have hf := f.toNat_lt
  refine ⟨?_, ?_, ?_⟩ <;> apply UInt8.toNat_inj.mp <;> omega

/-- The symbols of a last group are fewer than those of a whole one, so they line up with no
other. -/
theorem symbols_injective {α : Alphabet} : ∀ {xs ys : Bytes},
    symbols α [] xs = symbols α [] ys → xs = ys
  | [], [], _ => rfl
  | [a], [b], h => by
    have ha := a.toNat_lt
    have hb := b.toNat_lt
    simp only [symbols, List.append_nil, List.cons.injEq, and_true] at h
    obtain ⟨h₁, h₂⟩ := h
    have hhigh := Alphabet.symbol_injective (by omega) (by omega) h₁
    have hlow := Alphabet.symbol_injective (by omega) (by omega) h₂
    rw [one_byte hhigh hlow]
  | [a, b], [c, d], h => by
    have ha := a.toNat_lt
    have hb := b.toNat_lt
    have hc := c.toNat_lt
    have hd := d.toNat_lt
    simp only [symbols, List.append_nil, List.cons.injEq, and_true] at h
    obtain ⟨h₁, h₂, h₃⟩ := h
    have hfirst := Alphabet.symbol_injective (by omega) (by omega) h₁
    have hsecond := Alphabet.symbol_injective (by omega) (by omega) h₂
    have hthird := Alphabet.symbol_injective (by omega) (by omega) h₃
    obtain ⟨rfl, rfl⟩ := two_bytes hfirst hsecond hthird
    rfl
  | a :: b :: c :: xs, d :: e :: f :: ys, h => by
    have ha := a.toNat_lt
    have hb := b.toNat_lt
    have hc := c.toNat_lt
    have hd := d.toNat_lt
    have he := e.toNat_lt
    have hf := f.toNat_lt
    simp only [symbols, List.cons.injEq] at h
    obtain ⟨h₁, h₂, h₃, h₄, hrest⟩ := h
    have hfirst := Alphabet.symbol_injective (by omega) (by omega) h₁
    have hsecond := Alphabet.symbol_injective (by omega) (by omega) h₂
    have hthird := Alphabet.symbol_injective (by omega) (by omega) h₃
    have hfourth := Alphabet.symbol_injective (by omega) (by omega) h₄
    obtain ⟨rfl, rfl, rfl⟩ := three_bytes hfirst hsecond hthird hfourth
    rw [symbols_injective hrest]
  | [], [_], h | [], [_, _], h | [], _ :: _ :: _ :: _, h | [_], [], h | [_, _], [], h
  | _ :: _ :: _ :: _, [], h | [_], [_, _], h | [_, _], [_], h | [_], _ :: _ :: _ :: _, h
  | _ :: _ :: _ :: _, [_], h | [_, _], _ :: _ :: _ :: _, h | _ :: _ :: _ :: _, [_, _], h => by
    simp [symbols] at h

theorem encodeUrl_injective {xs ys : Bytes} (h : encodeUrl xs = encodeUrl ys) : xs = ys := by
  have hlist := congrArg String.toList h
  simp only [encodeUrl, String.toList_ofList] at hlist
  exact symbols_injective hlist

theorem length_symbols (α : Alphabet) : ∀ bs : Bytes,
    (symbols α [] bs).length = (4 * bs.length + 2) / 3
  | [] => rfl
  | [_] => by simp [symbols]
  | [_, _] => by simp [symbols]
  | _ :: _ :: _ :: rest => by
    simp only [symbols, List.length_cons, length_symbols α rest]
    omega

/-- What is written is padding or the symbol of some number. -/
theorem mem_symbols (α : Alphabet) (pad : List Char) {c : Char} : ∀ bs : Bytes,
    c ∈ symbols α pad bs → c ∈ pad ∨ ∃ n < 64, c = α.symbol n
  | [], h => by cases h
  | [a], h => by
    have ha := a.toNat_lt
    simp only [symbols, List.mem_append, List.mem_cons, List.not_mem_nil, or_false] at h
    rcases h with ((rfl | rfl) | hp) | hp
    · exact Or.inr ⟨_, by omega, rfl⟩
    · exact Or.inr ⟨_, by omega, rfl⟩
    · exact Or.inl hp
    · exact Or.inl hp
  | [a, b], h => by
    have ha := a.toNat_lt
    have hb := b.toNat_lt
    simp only [symbols, List.mem_append, List.mem_cons, List.not_mem_nil, or_false] at h
    rcases h with (rfl | rfl | rfl) | hp
    · exact Or.inr ⟨_, by omega, rfl⟩
    · exact Or.inr ⟨_, by omega, rfl⟩
    · exact Or.inr ⟨_, by omega, rfl⟩
    · exact Or.inl hp
  | a :: b :: d :: rest, h => by
    have ha := a.toNat_lt
    have hb := b.toNat_lt
    have hd := d.toNat_lt
    simp only [symbols, List.mem_cons] at h
    rcases h with rfl | rfl | rfl | rfl | h
    · exact Or.inr ⟨_, by omega, rfl⟩
    · exact Or.inr ⟨_, by omega, rfl⟩
    · exact Or.inr ⟨_, by omega, rfl⟩
    · exact Or.inr ⟨_, by omega, rfl⟩
    · exact mem_symbols α pad rest h

theorem length_encodeUrl (bs : Bytes) : (encodeUrl bs).length = (4 * bs.length + 2) / 3 := by
  rw [encodeUrl, String.length_ofList, length_symbols]

/-- What is written with the alphabet for URLs can be sent in a header. -/
theorem encodeUrl_value (bs : Bytes) : Headers.isValue (encodeUrl bs) = true := by
  have hsymbol : ∀ n < 64, let c := Alphabet.urlSafe.symbol n
      ((0x20 ≤ c.toNat || c == '\t') && c.toNat != 0x7F) = true := by decide
  rw [Headers.isValue, encodeUrl, String.toList_ofList, List.all_eq_true]
  intro c hc
  obtain ⟨n, hn, rfl⟩ := (mem_symbols _ [] bs hc).resolve_left List.not_mem_nil
  exact hsymbol n hn

end SignedConsole.Base64
