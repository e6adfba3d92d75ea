import Mathlib.Data.Option.Basic
import SignedConsole.Credential.Record
import SignedConsole.Credential.Session
import SignedConsole.Proofs.Utf8RoundTrip

namespace SignedConsole

namespace Secret

/-- A bit once set in the collected byte stays set, so the byte is zero only if no pair has added to
what was there before. -/
theorem collected_eq_zero_iff (pairs : List (UInt8 × UInt8)) (acc : UInt8) :
    pairs.foldl (fun acc p => acc ||| (p.1 ^^^ p.2)) acc = 0 ↔
      acc = 0 ∧ ∀ p ∈ pairs, p.1 = p.2 := by
  induction pairs generalizing acc with
  | nil => simp
  | cons p pairs ih =>
    rw [List.foldl_cons, ih, UInt8.or_eq_zero_iff, UInt8.xor_eq_zero_iff, List.forall_mem_cons,
      and_assoc]

theorem zip_same_iff {a b : Bytes} (h : a.length = b.length) :
    (∀ p ∈ a.zip b, p.1 = p.2) ↔ a = b := by
  induction a generalizing b with
  | nil =>
    cases b with
    | nil => simp
    | cons y ys => cases h
  | cons x xs ih =>
    cases b with
    | nil => cases h
    | cons y ys =>
      rw [List.zip_cons_cons, List.forall_mem_cons, ih (Nat.succ.inj h), List.cons.injEq]

theorem sameBytes_iff {a b : Bytes} : sameBytes a b = true ↔ a = b := by
  rw [sameBytes, Bool.and_eq_true, beq_iff_eq, beq_iff_eq, collected_eq_zero_iff]
  constructor
  · rintro ⟨hlength, -, hsame⟩
    exact (zip_same_iff hlength).mp hsame
  · rintro rfl
    exact ⟨rfl, rfl, (zip_same_iff rfl).mpr rfl⟩

/-- The bytes of the text. -/
def bytes (s : Secret) : Bytes := Text.utf8 s.text

theorem bytes_injective : Function.Injective bytes := by
  rintro ⟨s⟩ ⟨t⟩ h
  exact congrArg mk (Text.utf8_injective h)

theorem beq_eq (s t : Secret) : (s == t) = sameBytes (Text.utf8 s.text) (Text.utf8 t.text) := rfl

instance : LawfulBEq Secret where
  rfl {s} := by rw [beq_eq, sameBytes_iff]
  eq_of_beq {s t} h := by
    rw [beq_eq, sameBytes_iff] at h
    exact bytes_injective h

end Secret

namespace Session

theorem beq_eq (s t : Session) :
    (s == t) = (s.userId == t.userId && (s.token == t.token && s.secret == t.secret)) := by
  cases s
  cases t
  rfl

instance : LawfulBEq Session where
  rfl {s} := by simp [beq_eq]
  eq_of_beq {s t} h := by
    obtain ⟨userId, token, secret⟩ := s
    simp only [beq_eq, Bool.and_eq_true, beq_iff_eq] at h
    obtain ⟨rfl, rfl, rfl⟩ := h
    rfl

/-- The bytes of the parts of a session. -/
def bytes (s : Session) : List (Option Bytes) :=
  [s.userId.map Text.utf8, s.token.map Text.utf8, s.secret.map Secret.bytes]

theorem bytes_injective : Function.Injective bytes := by
  rintro ⟨userId, token, secret⟩ ⟨userId', token', secret'⟩ h
  obtain ⟨hid, htoken, hsecret⟩ : userId.map Text.utf8 = userId'.map Text.utf8 ∧
      token.map Text.utf8 = token'.map Text.utf8 ∧
      secret.map Secret.bytes = secret'.map Secret.bytes := by
    simpa [bytes] using h
  have htext : Function.Injective Text.utf8 := fun _ _ => Text.utf8_injective
  rw [Option.map_injective htext hid, Option.map_injective htext htoken,
    Option.map_injective Secret.bytes_injective hsecret]

end Session

namespace Record

theorem beq_eq (r r' : Record) :
    (r == r') = (r.userId == r'.userId && (r.token == r'.token && r.secret == r'.secret)) := by
  cases r
  cases r'
  rfl

instance : LawfulBEq Record where
  rfl {r} := by simp [beq_eq]
  eq_of_beq {r r'} h := by
    obtain ⟨userId, token, secret⟩ := r
    simp only [beq_eq, Bool.and_eq_true, beq_iff_eq] at h
    obtain ⟨rfl, rfl, rfl⟩ := h
    rfl

/-- The bytes of the parts of a record. -/
def bytes (r : Record) : List (Option Bytes) :=
  [Text.utf8 r.userId, Text.utf8 r.token, r.secret.map Secret.bytes]

theorem bytes_injective : Function.Injective bytes := by
  rintro ⟨userId, token, secret⟩ ⟨userId', token', secret'⟩ h
  obtain ⟨hid, htoken, hsecret⟩ : Text.utf8 userId = Text.utf8 userId' ∧
      Text.utf8 token = Text.utf8 token' ∧
      secret.map Secret.bytes = secret'.map Secret.bytes := by
    simpa [bytes] using h
  rw [Text.utf8_injective hid, Text.utf8_injective htoken,
    Option.map_injective Secret.bytes_injective hsecret]

end Record

/-- Comparing two values is comparing their bytes, and it sorts all values into classes. -/
def ComparesBytes [BEq α] (bytes : α → β) : Prop :=
  (∀ a b : α, (a == b) = true ↔ bytes a = bytes b) ∧ Equivalence fun a b : α => (a == b) = true

theorem comparesBytes_of_injective [BEq α] [LawfulBEq α] {bytes : α → β}
    (h : Function.Injective bytes) : ComparesBytes bytes := by
  refine ⟨fun a b => beq_iff_eq.trans h.eq_iff.symm, fun a => beq_self_eq_true a, ?_, ?_⟩
  · intro a b hab
    rwa [beq_iff_eq, eq_comm, ← beq_iff_eq]
  · intro a b c hab hbc
    rwa [eq_of_beq hab]

/-- The comparison that collects the differences of all bytes in one is equality of byte strings.
So two secrets, two sessions and two records are the same exactly if their texts are. -/
theorem comparisons_are_equality : (∀ a b : Bytes, Secret.sameBytes a b = true ↔ a = b) ∧
    ComparesBytes Secret.bytes ∧ ComparesBytes Session.bytes ∧ ComparesBytes Record.bytes :=
  ⟨fun _ _ => Secret.sameBytes_iff, comparesBytes_of_injective Secret.bytes_injective,
    comparesBytes_of_injective Session.bytes_injective,
    comparesBytes_of_injective Record.bytes_injective⟩

end SignedConsole
