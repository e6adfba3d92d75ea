import SignedConsole.Credential.Signing
import SignedConsole.Proofs.Base64RoundTrip
import SignedConsole.Proofs.Base64Symbols

namespace SignedConsole

namespace Base64

/-- The symbol of the alphabet for URLs in the place of a standard one. -/
def urlSymbol (c : Char) : Char := if c = '+' then '-' else if c = '/' then '_' else c

/-- The standard symbol in the place of one of the alphabet for URLs. -/
def standardSymbol (c : Char) : Char := if c = '-' then '+' else if c = '_' then '/' else c

/-- Letters, digits, the minus and the underscore. -/
def isUrlSafe (c : Char) : Bool :=
  ('A' ≤ c && c ≤ 'Z') || ('a' ≤ c && c ≤ 'z') || Text.isDigit c || c == '-' || c == '_'

theorem urlSymbol_symbol : ∀ n < 64,
    urlSymbol (Alphabet.standard.symbol n) = Alphabet.urlSafe.symbol n := by decide

theorem standardSymbol_symbol : ∀ n < 64,
    standardSymbol (Alphabet.urlSafe.symbol n) = Alphabet.standard.symbol n := by decide

theorem symbol_isUrlSafe : ∀ n < 64, isUrlSafe (Alphabet.urlSafe.symbol n) = true := by decide

variable {α β : Alphabet}

/-- Symbols that are changed one by one spell the same bytes in the other alphabet. -/
theorem map_symbols {f : Char → Char} (hf : ∀ n < 64, f (α.symbol n) = β.symbol n) :
    ∀ bs : Bytes, (symbols α [] bs).map f = symbols β [] bs
  | [] => rfl
  | [a] => by
    have ha := a.toNat_lt
    simp [symbols, hf (a.toNat / 4) (by omega), hf (a.toNat % 4 * 16) (by omega)]
  | [a, b] => by
    have ha := a.toNat_lt
    have hb := b.toNat_lt
    simp [symbols, hf (a.toNat / 4) (by omega), hf (a.toNat % 4 * 16 + b.toNat / 16) (by omega),
      hf (b.toNat % 16 * 4) (by omega)]
  | a :: b :: c :: rest => by
    have ha := a.toNat_lt
    have hb := b.toNat_lt
    have hc := c.toNat_lt
    simp [symbols, hf (a.toNat / 4) (by omega), hf (a.toNat % 4 * 16 + b.toNat / 16) (by omega),
      hf (b.toNat % 16 * 4 + c.toNat / 64) (by omega), hf (c.toNat % 64) (by omega),
      map_symbols hf rest]

/-- Padding fills the last group up to four characters. -/
theorem symbols_padded (α : Alphabet) : ∀ bs : Bytes, symbols α ['='] bs =
    symbols α [] bs ++ List.replicate ((4 - (symbols α [] bs).length % 4) % 4) '='
  | [] => by simp [symbols]
  | [_] => rfl
  | [_, _] => rfl
  | a :: b :: c :: rest => by
    simp only [symbols, symbols_padded α rest, List.length_cons, List.cons_append,
      Nat.add_mod_right, Nat.add_assoc, Nat.reduceAdd]

theorem symbols_isUrlSafe (bs : Bytes) : ∀ c ∈ symbols .urlSafe [] bs, isUrlSafe c = true := by
  intro c hc
  obtain ⟨n, hn, rfl⟩ := (mem_symbols _ [] bs hc).resolve_left List.not_mem_nil
  exact symbol_isUrlSafe n hn

theorem encodeUrl_isUrlSafe (bs : Bytes) : ∀ c ∈ (encodeUrl bs).toList, isUrlSafe c = true := by
  rw [encodeUrl, String.toList_ofList]
  exact symbols_isUrlSafe bs

theorem encodeUrl_eq (bs : Bytes) :
    encodeUrl bs = String.ofList (((encode bs).toList.map urlSymbol).filter (· != '=')) := by
  have hsafe : ∀ c ∈ symbols .urlSafe [] bs, (c != '=') = true := by
    have hpadding : isUrlSafe '=' = false := by decide
    intro c hc
    refine bne_iff_ne.mpr fun heq => ?_
    rw [heq] at hc
    exact Bool.false_ne_true (hpadding.symm.trans (symbols_isUrlSafe bs _ hc))
  rw [encode, String.toList_ofList, symbols_padded, List.map_append, map_symbols urlSymbol_symbol,
    List.map_replicate, List.filter_append, List.filter_eq_self.mpr hsafe,
    List.filter_replicate_of_neg (by decide), List.append_nil, encodeUrl]

theorem encode_injective : Function.Injective encode := by
  intro xs ys h
  refine encodeUrl_injective ?_
  rw [encodeUrl_eq, encodeUrl_eq, h]

/-- The standard text for a text in the alphabet for URLs. -/
def standardText (s : String) : String :=
  String.ofList (s.toList.map standardSymbol ++ List.replicate ((4 - s.length % 4) % 4) '=')

theorem standardText_encodeUrl (bs : Bytes) : standardText (encodeUrl bs) = encode bs := by
  have hmap := map_symbols standardSymbol_symbol bs
  have hlength : (symbols .urlSafe [] bs).length = (symbols .standard [] bs).length := by
    rw [← hmap, List.length_map]
  rw [standardText, encode, symbols_padded, encodeUrl, String.toList_ofList, String.length_ofList,
    hmap, hlength]

/-- The bytes of a text in the alphabet for URLs. -/
def decodeUrl (s : String) : Except Error Bytes := decode (Text.utf8 (standardText s))

theorem decodeUrl_encodeUrl (bs : Bytes) : decodeUrl (encodeUrl bs) = .ok bs := by
  rw [decodeUrl, standardText_encodeUrl, decode_ok_iff]

end Base64

namespace Signing

open Base64 (encode encodeUrl urlSymbol isUrlSafe decodeUrl)

/-- The digest has 32 bytes for every key and every message. -/
theorem length_hmacSignature (secret body time : String) :
    (hmacSignature secret body time).length = 43 := by
  rw [hmacSignature, Base64.length_encodeUrl, Hmac.length_mac]

/-- The alphabet for URLs changes two symbols and has no padding, and either text tells its bytes.
Every secret, whatever its length, signs every body at every time, with 43 characters that are safe
in a URL and give the 32 bytes of the code back, and signing with a secret does not fail. -/
theorem signatures_are_url_safe :
    (∀ d : Bytes, encodeUrl d =
      String.ofList (((encode d).toList.map urlSymbol).filter (· != '='))) ∧
    Function.Injective encode ∧ Function.Injective encodeUrl ∧
    ∀ secret body : String,
      (∀ time, let mac := Hmac.mac (Text.utf8 secret) (Text.utf8 (body ++ time))
        let signature := hmacSignature secret body time
        signature.length = 43 ∧ (∀ c ∈ signature.toList, isUrlSafe c = true) ∧
          decodeUrl signature = .ok mac ∧ mac.length = 32) ∧
      ∀ now userId token, ∃ others,
        headers .hmac now body ⟨some userId, token, some ⟨secret⟩⟩ =
          .ok (some ((signatureHeader, hmacSignature secret body (timestamp now)) :: others)) := by
  refine ⟨Base64.encodeUrl_eq, Base64.encode_injective, fun _ _ => Base64.encodeUrl_injective,
    fun secret body => ⟨fun time => ?_, fun now userId token => ⟨_, rfl⟩⟩⟩
  exact ⟨length_hmacSignature secret body time, Base64.encodeUrl_isUrlSafe _,
    Base64.decodeUrl_encodeUrl _, Hmac.length_mac _ _⟩

end Signing
end SignedConsole
