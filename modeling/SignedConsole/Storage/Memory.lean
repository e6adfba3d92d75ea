import SignedConsole.Storage.Basic

namespace SignedConsole

/-- Texts under keys, of which each stands at most once. -/
structure Memory where
  entries : List (String × String)
  distinct : (entries.map Prod.fst).Nodup

namespace Memory

def empty : Memory := ⟨[], .nil⟩

def get? (m : Memory) (key : String) : Option String := m.entries.lookup key

def erase (m : Memory) (key : String) : Memory where
  entries := m.entries.filter fun e => e.1 != key
  distinct := m.distinct.sublist (List.filter_sublist.map Prod.fst)

def insert (m : Memory) (key value : String) : Memory where
  entries := (key, value) :: (m.erase key).entries
  distinct := List.nodup_cons.mpr ⟨by simp [erase], (m.erase key).distinct⟩

end Memory

instance : Storage Memory where
  get key m := (.ok (m.get? key), m)
  set key value m := (.ok (), m.insert key value)
  remove key m := (.ok (), m.erase key)

/-- Storage with a switch for each operation that makes it fail and change nothing. -/
structure Refusing (σ : Type) where
  inner : σ
  get : Bool
  set : Bool
  remove : Bool

namespace Refusing

def full : CredentialError := .storage "quota exceeded"

/-- Runs an operation unless it is switched off. -/
def guarded (off : Bool) (act : σ → Except CredentialError α × σ) (s : Refusing σ) :
    Except CredentialError α × Refusing σ :=
  if off then (.error full, s)
  else
    let (r, inner) := act s.inner
    (r, { s with inner })

end Refusing

instance [Storage σ] : Storage (Refusing σ) where
  get key s := Refusing.guarded s.get (Storage.get key) s
  set key value s := Refusing.guarded s.set (Storage.set key value) s
  remove key s := Refusing.guarded s.remove (Storage.remove key) s

end SignedConsole
