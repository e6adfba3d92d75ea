import SignedConsole.Proofs.DerElements
import SignedConsole.Proofs.PemLayout
import SignedConsole.Rsa.Signature

namespace SignedConsole.Rsa

/-- The outer form around an inner one. -/
def wrap (inner : Bytes) : Bytes :=
  Der.element Der.sequenceTag (Der.element Der.integerTag [0] ++
    (Der.element Der.sequenceTag algorithm ++ Der.element Der.octetsTag inner))

/-- A key in either form, the inner one tried first. The reason of a refusal is the one for the inner
form here too. -/
def PrivateKey.ofDerInnerFirst (der : Bytes) : Except Rejection PrivateKey :=
  match PrivateKey.ofInner der with
  | .ok key => .ok key
  | .error reason => (PrivateKey.ofOuter? der).elim (.error reason) .ok

theorem unwrap_wrap {inner : Bytes} (h : inner.length ≤ 60000) : unwrap (wrap inner) = some inner := by
  have houter : Der.readTagged Der.sequenceTag (wrap inner) =
      some (Der.element Der.integerTag [0] ++ (Der.element Der.sequenceTag algorithm ++
        Der.element Der.octetsTag inner), []) := by
    refine Der.readTagged_alone (by decide) ?_
    have hinner := Der.length_element_le Der.octetsTag inner
    have hname : (Der.element Der.sequenceTag algorithm).length = 15 := rfl
    have hnumber : (Der.element Der.integerTag [0]).length = 3 := rfl
    simp only [List.length_append]
    omega
  have hversion (behind : Bytes) :
      Der.readNatural (Der.element Der.integerTag [0] ++ behind) = some ([0], behind) := rfl
  have hname (behind : Bytes) : Der.readTagged Der.sequenceTag
      (Der.element Der.sequenceTag algorithm ++ behind) = some (algorithm, behind) :=
    Der.readTagged_append (by decide) (by decide) behind
  have hinner : Der.readTagged Der.octetsTag (Der.element Der.octetsTag inner) = some (inner, []) :=
    Der.readTagged_alone (by decide) (by omega)
  have hnothing : Der.readTagged Der.attributesTag [] = none := rfl
  simp [unwrap, houter, hversion, hname, hinner, hnothing]

theorem version_read {bs rest : Bytes} (h : readVersion bs = .ok rest) :
    ∃ v, Der.readNatural bs = some ([v], rest) := by
  unfold readVersion at h
  split at h
  · rename_i v behind hread
    split at h
    · cases h
      exact ⟨v, hread⟩
    · cases h
  · cases h

theorem bind_read {x : Except ε α} {f : α → Except ε β} {b : β} (h : x >>= f = .ok b) :
    ∃ a, x = .ok a ∧ f a = .ok b := by
  cases x with
  | error e => cases h
  | ok a => exact ⟨a, rfl, h⟩

/-- A check that is passed. -/
theorem unless_read {p : Prop} [Decidable p] {e : ε} {f : PUnit → Except ε β} {b : β}
    (h : (if p then throw e >>= f else f ⟨⟩) = .ok b) : ¬ p ∧ f ⟨⟩ = .ok b := by
  split at h
  · cases h
  · exact ⟨‹_›, h⟩

/-- A key in the inner form: a version, and numbers that belong together and behind which nothing
stands. -/
theorem ofInner_read {der : Bytes} {key : PrivateKey} (h : PrivateKey.ofInner der = .ok key) :
    ∃ content numbers components, Der.readTagged Der.sequenceTag der = some (content, []) ∧
      readVersion content = .ok numbers ∧ readComponents numbers = some (components, []) ∧
      PrivateKey.ofComponents components = .ok key := by
  unfold PrivateKey.ofInner at h
  split at h
  · rename_i content rest houter
    obtain ⟨numbers, hversion, h⟩ := bind_read h
    split at h
    · rename_i components inside hread
      obtain ⟨found, hfound, h⟩ := bind_read h
      obtain ⟨hnothing, h⟩ := unless_read h
      cases h
      simp only [Bool.or_eq_true, Bool.not_eq_true', not_or, Bool.not_eq_false,
        List.isEmpty_iff] at hnothing
      obtain ⟨rfl, rfl⟩ := hnothing
      exact ⟨content, numbers, components, houter, hversion, hread, hfound⟩
    · cases h
  · cases h

theorem components_open {bs : Bytes} {found : Components × Bytes}
    (h : readComponents bs = some found) : bs.head? = some Der.integerTag := by
  obtain ⟨_, hread, _⟩ := Option.bind_eq_some_iff.mp h
  obtain ⟨_, htagged, _⟩ := Option.bind_eq_some_iff.mp hread
  exact Der.tag_of_readTagged htagged

theorem unwrap_opens {der inner : Bytes} (h : unwrap der = some inner) :
    ∃ content rest version named, Der.readTagged Der.sequenceTag der = some (content, rest) ∧
      Der.readNatural content = some (version, named) ∧ named.head? = some Der.sequenceTag := by
  obtain ⟨⟨content, rest⟩, houter, h⟩ := Option.bind_eq_some_iff.mp h
  obtain ⟨⟨version, named⟩, hversion, h⟩ := Option.bind_eq_some_iff.mp h
  obtain ⟨_, hname, _⟩ := Option.bind_eq_some_iff.mp h
  exact ⟨content, rest, version, named, houter, hversion, Der.tag_of_readTagged hname⟩

/-- Behind the version, one form has a number and the other a name. -/
theorem outer_is_not_inner {der inner : Bytes} (h : unwrap der = some inner) (key : PrivateKey) :
    PrivateKey.ofInner der ≠ .ok key := by
  intro hkey
  obtain ⟨content, rest, version, named, houter, hversion, hname⟩ := unwrap_opens h
  obtain ⟨content', numbers, components, houter', hversion', hread, _⟩ := ofInner_read hkey
  rw [houter] at houter'
  cases houter'
  -- Both readers have read the same version, so they go on with the same bytes.
  obtain ⟨v, hv⟩ := version_read hversion'
  rw [hversion] at hv
  cases hv
  rw [components_open hread] at hname
  exact absurd hname (by decide)

theorem ofOuter_unwrap {der : Bytes} {key : PrivateKey} :
    PrivateKey.ofOuter? der = some key ↔
      ∃ inner, unwrap der = some inner ∧ PrivateKey.ofInner inner = .ok key := by
  unfold PrivateKey.ofOuter?
  simp only [Option.bind_eq_bind, Option.bind_eq_some_iff]
  refine exists_congr fun inner => and_congr_right fun _ => ?_
  cases PrivateKey.ofInner inner <;> simp [Except.toOption]

theorem ofOuter_of_ofInner {der : Bytes} {key : PrivateKey} (h : PrivateKey.ofInner der = .ok key) :
    PrivateKey.ofOuter? der = none := by
  rw [Option.eq_none_iff_forall_not_mem]
  intro found hfound
  obtain ⟨inner, hunwrap, _⟩ := ofOuter_unwrap.mp hfound
  exact outer_is_not_inner hunwrap key h

theorem ofDer_ok_iff {der : Bytes} {key : PrivateKey} : PrivateKey.ofDer der = .ok key ↔
    PrivateKey.ofOuter? der = some key ∨ PrivateKey.ofInner der = .ok key := by
  unfold PrivateKey.ofDer
  cases houter : PrivateKey.ofOuter? der with
  | none => simp
  | some found =>
    have hinner : PrivateKey.ofInner der ≠ .ok key := fun h => by
      rw [ofOuter_of_ofInner h] at houter
      cases houter
    simp [hinner]

theorem ofDerInnerFirst_eq (der : Bytes) : PrivateKey.ofDerInnerFirst der = PrivateKey.ofDer der := by
  unfold PrivateKey.ofDerInnerFirst PrivateKey.ofDer
  cases hinner : PrivateKey.ofInner der with
  | ok key => rw [ofOuter_of_ofInner hinner]
  | error reason => cases PrivateKey.ofOuter? der <;> rfl

theorem ofDer_wrap {inner : Bytes} (h : inner.length ≤ 60000) (key : PrivateKey) :
    PrivateKey.ofDer (wrap inner) = .ok key ↔ PrivateKey.ofInner inner = .ok key := by
  have hwrapped : PrivateKey.ofInner (wrap inner) ≠ .ok key := outer_is_not_inner (unwrap_wrap h) key
  rw [ofDer_ok_iff, ofOuter_unwrap, unwrap_wrap h]
  simp [hwrapped]

theorem PrivateKey.ofPem_ok_iff {pem : String} {der : Bytes} (h : Pem.decode pem = .ok der)
    (key : PrivateKey) : ofPem pem = .ok key ↔ ofDer der = .ok key := by
  simp only [ofPem, h, bind, Except.bind]
  cases ofDer der <;> simp [Except.mapError]

/-- What a key is used for depends on nothing else of its text. -/
theorem uses_congr {pem other : String} (h : PrivateKey.ofPem pem = PrivateKey.ofPem other) :
    publicKey pem = publicKey other ∧ ∀ body, signature pem body = signature other body := by
  refine ⟨?_, fun body => ?_⟩
  · rw [publicKey, publicKey, h]
  · rw [signature, signature, h]

/-- A key in its outer form is read as what the inner form is read as, and serves alike. No bytes are
read in both forms, so the outcome is the same when the other form is tried first. -/
theorem forms_are_interchangeable :
    (∀ (inner : Bytes) (outerPem : String), inner.length ≤ 60000 →
      Pem.decode outerPem = .ok (wrap inner) →
      (∀ key, PrivateKey.ofPem outerPem = .ok key ↔ PrivateKey.ofInner inner = .ok key) ∧
      ∀ innerPem, Pem.decode innerPem = .ok inner → ∀ key, PrivateKey.ofInner inner = .ok key →
        PrivateKey.ofPem outerPem = .ok key ∧ PrivateKey.ofPem innerPem = .ok key ∧
        publicKey outerPem = publicKey innerPem ∧
        ∀ body, signature outerPem body = signature innerPem body) ∧
    (∀ (der : Bytes) (key other : PrivateKey),
      ¬ (PrivateKey.ofOuter? der = some key ∧ PrivateKey.ofInner der = .ok other)) ∧
    ∀ der : Bytes, PrivateKey.ofDerInnerFirst der = PrivateKey.ofDer der := by
  refine ⟨fun inner outerPem hsize houter => ?_, ?_, ofDerInnerFirst_eq⟩
  · have hwrapped : ∀ key, PrivateKey.ofPem outerPem = .ok key ↔ PrivateKey.ofInner inner = .ok key :=
      fun key => (PrivateKey.ofPem_ok_iff houter key).trans (ofDer_wrap hsize key)
    refine ⟨hwrapped, fun innerPem hinner key hkey => ?_⟩
    have houterKey : PrivateKey.ofPem outerPem = .ok key := (hwrapped key).mpr hkey
    have hinnerKey : PrivateKey.ofPem innerPem = .ok key :=
      (PrivateKey.ofPem_ok_iff hinner key).mpr (ofDer_ok_iff.mpr (Or.inr hkey))
    exact ⟨houterKey, hinnerKey, uses_congr (houterKey.trans hinnerKey.symm)⟩
  · rintro der key other ⟨houter, hinner⟩
    rw [ofOuter_of_ofInner hinner] at houter
    cases houter

/-- The inner form of a key. The private exponent is not a part of the key. -/
def PrivateKey.innerDer (key : PrivateKey) (d : Nat) : Bytes :=
  Der.element Der.sequenceTag (Der.element Der.integerTag [0] ++
    [key.modulus, key.publicExponent, d, key.prime1, key.prime2, key.exponent1, key.exponent2,
      key.coefficient].flatMap Der.natural)

/-- A key of powers in the place of primes: nobody checks that they are. -/
def powerKey : PrivateKey where
  modulus := 5 ^ 441 * 3 ^ 646
  publicExponent := 65537
  prime1 := 5 ^ 441
  prime2 := 3 ^ 646
  exponent1 := (25018 * (4 * 5 ^ 440) + 1) / 65537
  exponent2 := (8195 * (2 * 3 ^ 645) + 1) / 65537
  coefficient := ((5 ^ 441 + 1) / 3) ^ 646 % 5 ^ 441

theorem powerKey_read :
    PrivateKey.ofInner (powerKey.innerDer (powerKey.modulus - 2)) = .ok powerKey := by
  have hread : (PrivateKey.ofInner (powerKey.innerDer (powerKey.modulus - 2))).toOption =
      some powerKey := by decide +kernel
  cases h : PrivateKey.ofInner (powerKey.innerDer (powerKey.modulus - 2)) with
  | error reason =>
    rw [h] at hread
    cases hread
  | ok key =>
    rw [h] at hread
    rw [Option.some.inj hread]

/-- A key of 1191 bytes, wrapped, signs as it does bare. -/
theorem wrapped_key_signs_alike :
    let inner := powerKey.innerDer (powerKey.modulus - 2)
    inner.length ≤ 60000 ∧
    Pem.decode (Base64.encode (wrap inner)) = .ok (wrap inner) ∧
    Pem.decode (Base64.encode inner) = .ok inner ∧
    PrivateKey.ofInner inner = .ok powerKey ∧
    PrivateKey.ofPem (Base64.encode (wrap inner)) = .ok powerKey ∧
    publicKey (Base64.encode (wrap inner)) = publicKey (Base64.encode inner) ∧
    signature (Base64.encode (wrap inner)) "\x7b\x7d" = signature (Base64.encode inner) "\x7b\x7d" := by
  intro inner
  have hsize : inner.length ≤ 60000 := by decide +kernel
  have houter := Pem.decode_encode (d := wrap inner) (List.cons_ne_nil _ _)
  have hinner := Pem.decode_encode (d := inner) (List.cons_ne_nil _ _)
  have hkey : PrivateKey.ofInner inner = .ok powerKey := powerKey_read
  obtain ⟨hread, -, hpublic, hsigns⟩ :=
    (forms_are_interchangeable.1 inner _ hsize houter).2 _ hinner powerKey hkey
  exact ⟨hsize, houter, hinner, hkey, hread, hpublic, hsigns "\x7b\x7d"⟩

end SignedConsole.Rsa
