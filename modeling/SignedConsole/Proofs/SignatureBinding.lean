import SignedConsole.Proofs.Base64Symbols
import SignedConsole.Proofs.SignedBodies
import SignedConsole.Proofs.TextPieces
import SignedConsole.Proofs.Utf8RoundTrip

namespace SignedConsole

/-- Whether two different byte strings, one of each list, have one digest. -/
def Sha256.Collide (xs ys : List Bytes) : Prop :=
  ∃ x ∈ xs, ∃ y ∈ ys, x ≠ y ∧ hash x = hash y

namespace Hmac

/-- What the key and a message are hashed as first. -/
def innerInput (key message : Bytes) : Bytes := (keyBlock key).map (· ^^^ 0x36) ++ message

/-- What the key and that digest are hashed as then. -/
def outerInput (key message : Bytes) : Bytes :=
  (keyBlock key).map (· ^^^ 0x5c) ++ Sha256.hash (innerInput key message)

/-- All that is hashed for a code. A key is hashed on its own where it is longer than a block. -/
def hashed (key message : Bytes) : List Bytes :=
  (if 64 < key.length then [key] else []) ++ [innerInput key message, outerInput key message]

theorem mac_eq (key message : Bytes) : mac key message = Sha256.hash (outerInput key message) := rfl

theorem inner_mem_hashed (key message : Bytes) : innerInput key message ∈ hashed key message := by
  simp [hashed]

theorem outer_mem_hashed (key message : Bytes) : outerInput key message ∈ hashed key message := by
  simp [hashed]

theorem length_keyBlock (key : Bytes) : (keyBlock key).length = 64 := by
  unfold keyBlock
  split
  · simp [Sha256.length_hash]
  · simp
    omega

theorem mask_injective {mask a b : UInt8} (h : a ^^^ mask = b ^^^ mask) : a = b := by
  have hback := congrArg (· ^^^ mask) h
  simpa [UInt8.xor_assoc] using hback

/-- A masked block and what follows it are known from the two together. -/
theorem masked_block_append {key key' rest rest' : Bytes} {mask : UInt8}
    (h : (keyBlock key).map (· ^^^ mask) ++ rest = (keyBlock key').map (· ^^^ mask) ++ rest') :
    keyBlock key = keyBlock key' ∧ rest = rest' := by
  have hlength : ((keyBlock key).map (· ^^^ mask)).length =
      ((keyBlock key').map (· ^^^ mask)).length := by
    simp [length_keyBlock]
  obtain ⟨hblock, hrest⟩ := List.append_inj h hlength
  exact ⟨(List.map_inj_right fun _ _ => mask_injective).mp hblock, hrest⟩

/-- Codes that are the same are of one key block and one message, or show a collision. -/
theorem mac_binds {key key' message message' : Bytes} (h : mac key message = mac key' message') :
    keyBlock key = keyBlock key' ∧ message = message' ∨
      Sha256.Collide (hashed key message) (hashed key' message') := by
  rw [mac_eq, mac_eq] at h
  by_cases houter : outerInput key message = outerInput key' message'
  · obtain ⟨hblock, hdigest⟩ := masked_block_append houter
    by_cases hinner : innerInput key message = innerInput key' message'
    · exact Or.inl (masked_block_append hinner)
    · exact Or.inr ⟨_, inner_mem_hashed key message, _, inner_mem_hashed key' message', hinner,
        hdigest⟩
  · exact Or.inr ⟨_, outer_mem_hashed key message, _, outer_mem_hashed key' message', houter, h⟩

end Hmac

/-- So many characters U+0000. -/
def Text.nulls (n : Nat) : String := String.ofList (List.replicate n '\x00')

theorem Text.utf8_append (s t : String) : utf8 (s ++ t) = utf8 s ++ utf8 t := by
  simp [utf8]

theorem Text.utf8_nulls (n : Nat) : utf8 (nulls n) = List.replicate n 0 := by
  have hnull : String.utf8EncodeChar '\x00' = [0] := by decide
  induction n with
  | zero => rfl
  | succ n ih =>
    simp only [utf8, nulls, String.toList_ofList, List.replicate_succ, List.flatMap_cons, hnull,
      List.singleton_append] at ih ⊢
    rw [ih]

/-- Zeros fill a short key, and U+0000 is one zero, so keys of one block differ in those alone. -/
theorem Hmac.keyBlock_short {s t : String} (hs : (Text.utf8 s).length ≤ 64)
    (ht : (Text.utf8 t).length ≤ 64) (h : keyBlock (Text.utf8 s) = keyBlock (Text.utf8 t)) :
    ∃ i j, s ++ Text.nulls i = t ++ Text.nulls j := by
  refine ⟨64 - (Text.utf8 s).length, 64 - (Text.utf8 t).length, Text.utf8_injective ?_⟩
  have hlong {key : Bytes} (hk : key.length ≤ 64) :
      keyBlock key = key ++ List.replicate (64 - key.length) 0 := by
    simp [keyBlock, Nat.not_lt.mpr hk]
  rw [hlong hs, hlong ht] at h
  rw [Text.utf8_append, Text.utf8_append, Text.utf8_nulls, Text.utf8_nulls]
  exact h

namespace Signing

/-- What a client can be asked to sign: the text that goes along with a call that changes a
resource. -/
def Signable (body : String) : Prop :=
  ∃ (α : Type) (call : Call α), call.isSensitive = true ∧ call.payload = body

/-- A signable text is an object, and so ends in a bracket. -/
theorem Signable.ends {body : String} (h : Signable body) :
    ∃ front, body.toList = front ++ ['\x7d'] := by
  obtain ⟨α, call, hc, rfl⟩ := h
  cases ha : call.signedArguments? with
  | none =>
    rw [Call.not_sensitive_of_none ha] at hc
    cases hc
  | some arguments =>
    obtain ⟨_, hbody, _⟩ := Call.sensitive_of_some ha
    simp only [Call.payload, hbody, Option.map_some, Option.getD_some, Json.print,
      String.toList_ofList, Json.ofMembers, Json.chars]
    exact ⟨_, rfl⟩

/-- The time is the last digits, since the body before it ends in none. -/
theorem time_of_timestamped {body : String} (hb : Signable body) (n : Nat) :
    (timestamped body (timestamp n)).toList.reverse.takeWhile Text.isDigit =
      (timestamp n).toList.reverse := by
  obtain ⟨front, hfront⟩ := hb.ends
  have hdigits : ∀ c ∈ (timestamp n).toList.reverse, Text.isDigit c = true := by
    intro c hc
    exact Text.decimal_digit (List.mem_reverse.mp hc)
  have hbracket : Text.isDigit '\x7d' = false := by decide
  rw [timestamped, String.toList_append, hfront, List.reverse_append,
    List.takeWhile_append_of_pos hdigits]
  simp [hbracket]

/-- Nothing separates a body from its time, and still the two are known from the text. -/
theorem timestamped_injective {b b' : String} (hb : Signable b) (hb' : Signable b') {n n' : Nat}
    (h : timestamped b (timestamp n) = timestamped b' (timestamp n')) : b = b' ∧ n = n' := by
  have htime := time_of_timestamped hb n
  rw [h, time_of_timestamped hb' n'] at htime
  have hn : n' = n := Text.decimal_injective (String.toList_inj.mp (List.reverse_inj.mp htime))
  subst hn
  have hlist := congrArg String.toList h
  simp only [timestamped, String.toList_append] at hlist
  exact ⟨String.toList_inj.mp (List.append_cancel_right hlist), rfl⟩

/-- A signature is of one body, one time and one key block, unless two byte strings that were hashed
for it have one digest. -/
theorem signatures_bind {b b' : String} (hb : Signable b) (hb' : Signable b') (s s' : String)
    (n n' : Nat) :
    (timestamped b (timestamp n) = timestamped b' (timestamp n') → b = b' ∧ n = n') ∧
    (hmacSignature s b (timestamp n) = hmacSignature s' b' (timestamp n') →
      (b = b' ∧ n = n' ∧ Hmac.keyBlock (Text.utf8 s) = Hmac.keyBlock (Text.utf8 s') ∧
        ((Text.utf8 s).length ≤ 64 → (Text.utf8 s').length ≤ 64 →
          ∃ i j, s ++ Text.nulls i = s' ++ Text.nulls j)) ∨
      Sha256.Collide (Hmac.hashed (Text.utf8 s) (Text.utf8 (timestamped b (timestamp n))))
        (Hmac.hashed (Text.utf8 s') (Text.utf8 (timestamped b' (timestamp n'))))) := by
  refine ⟨timestamped_injective hb hb', ?_⟩
  intro h
  rcases Hmac.mac_binds (Base64.encodeUrl_injective h) with ⟨hblock, hmessage⟩ | hcollide
  · obtain ⟨hbody, htime⟩ := timestamped_injective hb hb' (Text.utf8_injective hmessage)
    refine Or.inl ⟨hbody, htime, hblock, ?_⟩
    intro hs hs'
    exact Hmac.keyBlock_short hs hs' hblock
  · exact Or.inr hcollide

/-- A null at the end of a secret does not change what it signs. -/
theorem trailing_null_signs_alike :
    let body := "\x7b\"name\":\"mydb\"\x7d"
    let time := timestamp 1700000000000
    Signable body ∧
      hmacSignature "sk_test123" body time = hmacSignature "sk_test123\x00" body time ∧
      ((body = body ∧ 1700000000000 = 1700000000000 ∧
        Hmac.keyBlock (Text.utf8 "sk_test123") = Hmac.keyBlock (Text.utf8 "sk_test123\x00") ∧
        ((Text.utf8 "sk_test123").length ≤ 64 → (Text.utf8 "sk_test123\x00").length ≤ 64 →
          ∃ i j, "sk_test123" ++ Text.nulls i = "sk_test123\x00" ++ Text.nulls j)) ∨
      Sha256.Collide (Hmac.hashed (Text.utf8 "sk_test123") (Text.utf8 (timestamped body time)))
        (Hmac.hashed (Text.utf8 "sk_test123\x00") (Text.utf8 (timestamped body time)))) := by
  intro body time
  have hbody : Signable body := ⟨Created, .createDatabase "mydb", rfl, by decide +kernel⟩
  have hsame : hmacSignature "sk_test123" body time = hmacSignature "sk_test123\x00" body time := by
    decide +kernel
  exact ⟨hbody, hsame, (signatures_bind hbody hbody _ _ _ _).2 hsame⟩

end Signing
end SignedConsole
