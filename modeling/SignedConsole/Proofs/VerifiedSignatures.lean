import Mathlib.Data.Nat.ChineseRemainder
import Mathlib.FieldTheory.Finite.Basic
import SignedConsole.Proofs.KeyForms
import SignedConsole.Proofs.SignatureHeaders

namespace SignedConsole.Rsa

/-- What the checks of a key leave to rely on. The modulus may be a proper divisor of the product. -/
structure PrivateKey.Accepted (key : PrivateKey) : Prop where
  modulus_least : 256 ≤ byteLength key.modulus
  modulus_most : bitLength key.modulus ≤ 4096
  exponent_least : 65537 ≤ key.publicExponent
  exponent_most : key.publicExponent < 2 ^ 33
  product : key.modulus ∣ key.prime1 * key.prime2
  coefficient_most : key.coefficient < key.prime1
  inverse : key.coefficient * key.prime2 % key.prime1 = 1

theorem modulus_checked {bs : Bytes} {n : Nat} (h : checkModulus bs = .ok n) :
    256 ≤ byteLength n ∧ bitLength n ≤ 4096 := by
  obtain ⟨m, _, h⟩ := bind_read h
  obtain ⟨hleast, h⟩ := unless_read h
  obtain ⟨hmost, h⟩ := unless_read h
  cases h
  omega

theorem exponent_checked {bs : Bytes} {e : Nat} (h : checkPublicExponent bs = .ok e) :
    65537 ≤ e ∧ e < 2 ^ 33 := by
  unfold checkPublicExponent at h
  obtain ⟨_, h⟩ := unless_read h
  obtain ⟨_, h⟩ := unless_read h
  obtain ⟨hleast, h⟩ := unless_read h
  obtain ⟨hmost, h⟩ := unless_read h
  obtain ⟨_, h⟩ := unless_read h
  cases h
  exact ⟨Nat.le_of_not_lt hleast, Nat.lt_of_not_le hmost⟩

theorem PrivateKey.ofComponents_accepted {c : Components} {key : PrivateKey}
    (h : ofComponents c = .ok key) : key.Accepted := by
  obtain ⟨n, hn, h⟩ := bind_read h
  obtain ⟨e, he, h⟩ := bind_read h
  obtain ⟨p, _, h⟩ := bind_read h
  obtain ⟨q, _, h⟩ := bind_read h
  obtain ⟨hproduct, h⟩ := unless_read h
  obtain ⟨_, _, h⟩ := bind_read h
  obtain ⟨hcoefficient, h⟩ := unless_read h
  obtain ⟨hinverse, h⟩ := unless_read h
  obtain ⟨dP, _, h⟩ := bind_read h
  obtain ⟨dQ, _, h⟩ := bind_read h
  cases h
  obtain ⟨hleast, hmost⟩ := modulus_checked hn
  obtain ⟨heleast, hemost⟩ := exponent_checked he
  exact ⟨hleast, hmost, heleast, hemost, Nat.dvd_of_mod_eq_zero (not_not.mp hproduct),
    Nat.lt_of_not_le hcoefficient, not_not.mp hinverse⟩

theorem PrivateKey.ofPem_accepted {pem : String} {key : PrivateKey} (h : ofPem pem = .ok key) :
    key.Accepted := by
  obtain ⟨der, hder, _⟩ := bind_read h
  have hkey := (ofPem_ok_iff hder key).mp h
  have hinner : ∃ inner, ofInner inner = .ok key := by
    rcases ofDer_ok_iff.mp hkey with houter | hinner
    · obtain ⟨inner, _, hinner⟩ := ofOuter_unwrap.mp houter
      exact ⟨inner, hinner⟩
    · exact ⟨der, hinner⟩
  obtain ⟨inner, hinner⟩ := hinner
  obtain ⟨_, _, _, _, _, _, hcomponents⟩ := ofInner_read hinner
  exact ofComponents_accepted hcomponents

theorem PrivateKey.Accepted.modulus_pos {key : PrivateKey} (h : key.Accepted) : 0 < key.modulus := by
  refine Nat.pos_of_ne_zero fun hzero => ?_
  have hleast := h.modulus_least
  rw [hzero] at hleast
  exact absurd hleast (by decide)

/-- The modulus and the exponent of a public key in DER, with nothing behind them. -/
def readPublic (der : Bytes) : Option (Nat × Nat) := do
  let (content, rest) ← Der.readTagged Der.sequenceTag der
  let (n, content) ← Der.readNatural content
  let (e, content) ← Der.readNatural content
  if content.isEmpty && rest.isEmpty then some (n.toNat, e.toNat) else none

theorem toNat_digits (n : Nat) : (Bytes.bigEndian (byteLength n) n).toNat = n := by
  rw [Bytes.toNat_bigEndian, Nat.mod_eq_of_lt (lt_pow_byteLength n)]

theorem PrivateKey.Accepted.readPublic_publicDer {key : PrivateKey} (h : key.Accepted) :
    readPublic key.publicDer = some (key.modulus, key.publicExponent) := by
  have hn : key.modulus ≠ 0 := h.modulus_pos.ne'
  have he : key.publicExponent ≠ 0 := by
    have hleast := h.exponent_least
    omega
  have hnsize : byteLength key.modulus ≤ 512 := by
    have hmost := h.modulus_most
    unfold byteLength
    omega
  have hesize : byteLength key.publicExponent ≤ 5 := by
    have hlog := (Nat.log2_lt he).mpr h.exponent_most
    rw [byteLength_eq he]
    omega
  have hlength : (Der.natural key.modulus ++ Der.natural key.publicExponent).length < 65536 := by
    have hnlength := Der.length_natural_le key.modulus
    have helength := Der.length_natural_le key.publicExponent
    rw [List.length_append]
    omega
  have hcontent : Der.readTagged Der.sequenceTag key.publicDer =
      some (Der.natural key.modulus ++ Der.natural key.publicExponent, []) :=
    Der.readTagged_alone (by decide) hlength
  have hmodulus := Der.readNatural_append hn (by omega) (Der.natural key.publicExponent)
  have hexponent := Der.readNatural_append he (by omega) []
  rw [List.append_nil] at hexponent
  simp [readPublic, hcontent, hmodulus, hexponent, toNat_digits]

/-- Each step keeps the product of what is collected and what is still to be raised. -/
theorem powModSteps_eq {m steps b e acc : Nat} (he : e < 2 ^ steps) (hacc : acc % m = acc) :
    powModSteps m steps b e acc = acc * b ^ e % m := by
  induction steps generalizing b e acc with
  | zero =>
    rw [show e = 0 by simpa using he]
    simpa [powModSteps] using hacc.symm
  | succ steps ih =>
    have hfirst : (if e % 2 = 1 then acc * b % m else acc) ≡ acc * b ^ (e % 2) [MOD m] := by
      split
      · rename_i hodd
        rw [hodd, pow_one]
        exact Nat.mod_modEq _ _
      · rename_i heven
        rw [Nat.mod_two_ne_one.mp heven, pow_zero, mul_one]
    have hothers : (b * b % m) ^ (e / 2) ≡ b ^ (2 * (e / 2)) [MOD m] := by
      rw [pow_mul, sq]
      exact (Nat.mod_modEq _ _).pow _
    have hreduced : (if e % 2 = 1 then acc * b % m else acc) % m =
        if e % 2 = 1 then acc * b % m else acc := by
      split
      · exact Nat.mod_mod _ _
      · exact hacc
    have hhalf : e / 2 < 2 ^ steps := by
      rw [Nat.pow_succ] at he
      omega
    have hall := hfirst.mul hothers
    rw [mul_assoc, ← pow_add, Nat.mod_add_div] at hall
    rw [powModSteps, ih hhalf hreduced]
    exact hall

theorem powMod_eq (m b e : Nat) : powMod m b e = b ^ e % m := by
  rw [powMod, powModSteps_eq (lt_pow_bitLength e) (Nat.mod_mod _ _)]
  have hpower := (Nat.mod_modEq 1 m).mul ((Nat.mod_modEq b m).pow e)
  rwa [one_mul] at hpower

/-- The private exponents undo the public one, at least on one number. -/
structure PrivateKey.Undoes (key : PrivateKey) (c : Nat) : Prop where
  modulo1 : (c ^ key.exponent1) ^ key.publicExponent ≡ c [MOD key.prime1]
  modulo2 : (c ^ key.exponent2) ^ key.publicExponent ≡ c [MOD key.prime2]

/-- A number with one residue modulo each prime, out of the two residues. -/
def PrivateKey.combined (key : PrivateKey) (m1 m2 : Nat) : Nat :=
  m2 + key.coefficient * (m1 + (key.prime1 - m2 % key.prime1)) % key.prime1 * key.prime2

theorem PrivateKey.root_eq (key : PrivateKey) (c : Nat) : key.root c =
    key.combined (c ^ key.exponent1 % key.prime1) (c ^ key.exponent2 % key.prime2) %
      key.modulus := by
  rw [root, powMod_eq, powMod_eq]
  rfl

theorem PrivateKey.combined_prime2 (key : PrivateKey) (m1 m2 : Nat) :
    key.combined m1 m2 ≡ m2 [MOD key.prime2] := by
  simp [combined, Nat.ModEq]

theorem PrivateKey.Accepted.inverse_modulo {key : PrivateKey} (h : key.Accepted) :
    key.prime2 * key.coefficient ≡ 1 [MOD key.prime1] := by
  rw [Nat.ModEq, ← h.inverse, Nat.mod_mod, mul_comm]

theorem PrivateKey.Accepted.combined_prime1 {key : PrivateKey} (h : key.Accepted) (m1 m2 : Nat) :
    key.combined m1 m2 ≡ m1 [MOD key.prime1] := by
  have hm2 : m2 % key.prime1 ≤ key.prime1 :=
    (Nat.mod_lt _ (Nat.zero_lt_of_lt h.coefficient_most)).le
  let gap := m1 + (key.prime1 - m2 % key.prime1)
  calc key.combined m1 m2
      ≡ m2 + key.coefficient * gap * key.prime2 [MOD key.prime1] :=
        (((Nat.mod_modEq _ _).mul_right _).add_left _)
    _ = m2 + key.prime2 * key.coefficient * gap := by ring
    _ ≡ m2 + 1 * gap [MOD key.prime1] := (h.inverse_modulo.mul_right _).add_left _
    _ ≡ m2 % key.prime1 + 1 * gap [MOD key.prime1] := (Nat.mod_modEq _ _).symm.add_right _
    _ = m1 + key.prime1 := by simp only [gap]; omega
    _ ≡ m1 [MOD key.prime1] := by simp [Nat.ModEq]

/-- If the exponents are undone modulo both primes, they are modulo the modulus. -/
theorem PrivateKey.Accepted.root_pow {key : PrivateKey} (h : key.Accepted) {c : Nat}
    (hc : key.Undoes c) : key.root c ^ key.publicExponent ≡ c [MOD key.modulus] := by
  have hfirst := ((h.combined_prime1 (c ^ key.exponent1 % key.prime1)
    (c ^ key.exponent2 % key.prime2)).trans (Nat.mod_modEq _ _)).pow key.publicExponent
  have hsecond := ((key.combined_prime2 (c ^ key.exponent1 % key.prime1)
    (c ^ key.exponent2 % key.prime2)).trans (Nat.mod_modEq _ _)).pow key.publicExponent
  have hcoprime : key.prime1.Coprime key.prime2 :=
    (Nat.coprime_of_mul_modEq_one _ h.inverse_modulo).symm
  -- What holds modulo the product holds modulo the modulus, which need only divide it.
  have hboth := (Nat.modEq_and_modEq_iff_modEq_mul hcoprime).mp
    ⟨hfirst.trans hc.modulo1, hsecond.trans hc.modulo2⟩
  rw [root_eq]
  exact ((Nat.mod_modEq _ _).pow _).trans (hboth.of_dvd h.product)

/-- The encoding of a message that PKCS #1 v1.5 prescribes. -/
structure IsEncoding (size : Nat) (message encoded : Bytes) : Prop where
  length : encoded.length = size
  layout : ∃ fill, 8 ≤ fill ∧ encoded = [0x00, 0x01] ++ List.replicate fill 0xFF ++ [0x00] ++
    digestFrame ++ Sha256.hash message

theorem paddedDigest_encodes {size : Nat} (h : 62 ≤ size) (message : Bytes) :
    IsEncoding size message (paddedDigest size message) := by
  have hdigest := Sha256.length_hash message
  have hframe : digestFrame.length = 19 := rfl
  have hlayout : paddedDigest size message = [0x00, 0x01] ++ List.replicate (size - 54) 0xFF ++
      [0x00] ++ digestFrame ++ Sha256.hash message := by
    have htail : size - 2 - (digestFrame.length + (Sha256.hash message).length + 1) = size - 54 := by
      omega
    simp [paddedDigest, htail]
  refine ⟨?_, size - 54, by omega, hlayout⟩
  rw [hlayout]
  simp only [List.length_append, List.length_replicate, List.length_cons, List.length_nil]
  omega

/-- A padded digest starts with a zero and a one, so it is below the modulus. -/
theorem IsEncoding.below {n : Nat} (hn : n ≠ 0) {message encoded : Bytes}
    (h : IsEncoding (byteLength n) message encoded) : encoded.toNat < n := by
  obtain ⟨fill, _, hlayout⟩ := h.layout
  let rest : Bytes := List.replicate fill 0xFF ++ [0x00] ++ digestFrame ++ Sha256.hash message
  have hencoded : encoded = 0x00 :: 0x01 :: rest := by
    rw [hlayout]
    simp [rest]
  have hlength : byteLength n - 1 = rest.length + 1 := by
    rw [← h.length, hencoded]
    rfl
  calc encoded.toNat = 256 ^ rest.length + rest.toNat := by
        rw [hencoded, Bytes.toNat_cons, Bytes.toNat_cons]
        simp
    _ < 256 ^ rest.length + 256 ^ rest.length := Nat.add_lt_add_left (Bytes.toNat_lt rest) _
    _ ≤ 256 ^ (rest.length + 1) := by rw [Nat.pow_succ]; omega
    _ = 256 ^ (byteLength n - 1) := by rw [hlength]
    _ ≤ n := pow_byteLength_le hn

/-- The padded digest of a message as a number. -/
def PrivateKey.digest (key : PrivateKey) (message : Bytes) : Nat :=
  (paddedDigest (byteLength key.modulus) message).toNat

theorem PrivateKey.sign_eq (key : PrivateKey) (message : Bytes) : key.sign? message =
    if key.root (key.digest message) ^ key.publicExponent % key.modulus = key.digest message then
      some (Bytes.bigEndian (byteLength key.modulus) (key.root (key.digest message)))
    else none := by
  rw [← powMod_eq]
  rfl

/-- A signature that verifies under a public key. -/
structure Verifies (n e : Nat) (message signed : Bytes) : Prop where
  length : signed.length = byteLength n
  below : signed.toNat < n
  power : ∃ encoded, IsEncoding (byteLength n) message encoded ∧
    signed.toNat ^ e % n = encoded.toNat

theorem PrivateKey.Accepted.encodes {key : PrivateKey} (h : key.Accepted) (message : Bytes) :
    IsEncoding (byteLength key.modulus) message
      (paddedDigest (byteLength key.modulus) message) :=
  paddedDigest_encodes ((by decide : 62 ≤ 256).trans h.modulus_least) message

theorem PrivateKey.Accepted.sign_verifies {key : PrivateKey} (h : key.Accepted)
    {message signed : Bytes} (hs : key.sign? message = some signed) :
    Verifies key.modulus key.publicExponent message signed := by
  rw [sign_eq] at hs
  split at hs
  · rename_i hpower
    have hroot : key.root (key.digest message) < key.modulus := Nat.mod_lt _ h.modulus_pos
    have hvalue : signed.toNat = key.root (key.digest message) := by
      rw [← Option.some.inj hs, Bytes.toNat_bigEndian,
        Nat.mod_eq_of_lt (hroot.trans (lt_pow_byteLength _))]
    refine ⟨?_, hvalue.trans_lt hroot, _, h.encodes message, ?_⟩
    · rw [← Option.some.inj hs, Bytes.length_bigEndian]
    · rw [hvalue]
      exact hpower
  · cases hs

/-- A signature is refused only where the exponents do not undo one another. -/
theorem PrivateKey.Accepted.sign_of_undoes {key : PrivateKey} (h : key.Accepted) {message : Bytes}
    (hc : key.Undoes (key.digest message)) : ∃ signed, key.sign? message = some signed := by
  have hbelow : key.digest message < key.modulus := (h.encodes message).below h.modulus_pos.ne'
  have hpower : key.root (key.digest message) ^ key.publicExponent % key.modulus =
      key.digest message := by
    rw [h.root_pow hc, Nat.mod_eq_of_lt hbelow]
  exact ⟨_, by rw [sign_eq, if_pos hpower]⟩

theorem signature_of_key {pem : String} {key : PrivateKey} (h : PrivateKey.ofPem pem = .ok key)
    (body : String) : signature pem body = match key.sign? (Text.utf8 body) with
      | some signed => .ok (Base64.encode signed)
      | none => .error (.signing "RSA signature computation failed") := by
  rw [signature, h]
  rfl

/-- A text is signed under a key or refused. What is handed out is the Base64 of a number below the
modulus and as long as it, whose power modulo the modulus is the padded digest, modulus and exponent
being those of the exported public key: no matter whether the private exponents belong to that key.
Where they undo the public one, a signature is handed out. -/
theorem signatures_verify (pem body : String) :
    ((∃ signed der n e, signature pem body = .ok (Base64.encode signed) ∧ publicKey pem = .ok der ∧
        readPublic der = some (n, e) ∧ Verifies n e (Text.utf8 body) signed) ∨
      ∃ err, signature pem body = .error err ∧ err.isSigningFailure = true) ∧
    ∀ key, PrivateKey.ofPem pem = .ok key → key.Undoes (key.digest (Text.utf8 body)) →
      ∃ signed, signature pem body = .ok signed := by
  constructor
  · cases hkey : PrivateKey.ofPem pem with
    | error err =>
      have hrefused : signature pem body = .error err := by rw [signature, hkey]; rfl
      exact Or.inr ⟨err, hrefused, signature_failure hrefused⟩
    | ok key =>
      have haccepted := PrivateKey.ofPem_accepted hkey
      have hpublic : publicKey pem = .ok key.publicDer := by rw [publicKey, hkey]; rfl
      have hmade := signature_of_key hkey body
      cases hs : key.sign? (Text.utf8 body) with
      | some signed =>
        rw [hs] at hmade
        exact Or.inl ⟨signed, _, _, _, hmade, hpublic, haccepted.readPublic_publicDer,
          haccepted.sign_verifies hs⟩
      | none =>
        rw [hs] at hmade
        exact Or.inr ⟨_, hmade, rfl⟩
  · intro key hkey hc
    obtain ⟨signed, hs⟩ := (PrivateKey.ofPem_accepted hkey).sign_of_undoes hc
    have hmade := signature_of_key hkey body
    rw [hs] at hmade
    exact ⟨_, hmade⟩

/-- An exponent that inverts another one modulo the totient of a prime power undoes it, but for
multiples of the prime. -/
theorem undone_of_not_dvd {r n c d e k : Nat} (hr : r.Prime) (hn : 0 < n) (hc : ¬ r ∣ c)
    (hd : d * e = r ^ (n - 1) * (r - 1) * k + 1) : (c ^ d) ^ e ≡ c [MOD r ^ n] := by
  have hcoprime : c.Coprime (r ^ n) := ((hr.coprime_iff_not_dvd.mpr hc).symm).pow_right n
  have hpower := ((Nat.ModEq.pow_totient hcoprime).pow k).mul_right c
  rwa [one_pow, one_mul, ← pow_mul, ← pow_succ, Nat.totient_prime_pow hr hn, ← hd,
    pow_mul] at hpower

theorem powerKey_undoes : powerKey.Undoes (powerKey.digest (Text.utf8 "\x7b\x7d")) := by
  have hrest : powerKey.digest (Text.utf8 "\x7b\x7d") % 15 = 1 := by decide +kernel
  have hprime1 : powerKey.prime1 = 5 ^ 441 := by decide +kernel
  have hprime2 : powerKey.prime2 = 3 ^ 646 := by decide +kernel
  have hexponent1 : powerKey.exponent1 * powerKey.publicExponent =
      5 ^ (441 - 1) * (5 - 1) * 25018 + 1 := by decide +kernel
  have hexponent2 : powerKey.exponent2 * powerKey.publicExponent =
      3 ^ (646 - 1) * (3 - 1) * 8195 + 1 := by decide +kernel
  generalize powerKey.digest (Text.utf8 "\x7b\x7d") = c at hrest
  constructor
  · rw [hprime1]
    exact undone_of_not_dvd Nat.prime_five (by decide) (by omega) hexponent1
  · rw [hprime2]
    exact undone_of_not_dvd Nat.prime_three (by decide) (by omega) hexponent2

/-- Text signed under the key of powers. -/
theorem powerKey_signs :
    PrivateKey.ofPem (Base64.encode (powerKey.innerDer (powerKey.modulus - 2))) = .ok powerKey ∧
    powerKey.Undoes (powerKey.digest (Text.utf8 "\x7b\x7d")) ∧
    ∃ signed, signature (Base64.encode (powerKey.innerDer (powerKey.modulus - 2))) "\x7b\x7d" =
        .ok (Base64.encode signed) ∧
      Verifies powerKey.modulus powerKey.publicExponent (Text.utf8 "\x7b\x7d") signed := by
  have hpem := Pem.decode_encode (d := powerKey.innerDer (powerKey.modulus - 2))
    (List.cons_ne_nil _ _)
  have hkey : PrivateKey.ofPem (Base64.encode (powerKey.innerDer (powerKey.modulus - 2))) =
      .ok powerKey :=
    (PrivateKey.ofPem_ok_iff hpem powerKey).mpr (ofDer_ok_iff.mpr (Or.inr powerKey_read))
  obtain ⟨hsigned | ⟨err, hrefused, -⟩, hsigns⟩ :=
    signatures_verify (Base64.encode (powerKey.innerDer (powerKey.modulus - 2))) "\x7b\x7d"
  · obtain ⟨signed, der, n, e, hsigned, hpublic, hread, hverifies⟩ := hsigned
    have hder : der = powerKey.publicDer := by
      rw [publicKey, hkey] at hpublic
      exact (Except.ok.inj hpublic).symm
    rw [hder, (PrivateKey.ofPem_accepted hkey).readPublic_publicDer] at hread
    obtain ⟨rfl, rfl⟩ := Prod.mk.inj (Option.some.inj hread)
    exact ⟨hkey, powerKey_undoes, signed, hsigned, hverifies⟩
  · obtain ⟨text, htext⟩ := hsigns powerKey hkey powerKey_undoes
    rw [hrefused] at htext
    cases htext

end SignedConsole.Rsa
