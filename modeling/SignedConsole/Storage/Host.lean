import SignedConsole.Storage.Files
import SignedConsole.Storage.Memory

namespace SignedConsole

/-- Storage on a machine that has files as well. -/
class Host (σ : Type) extends Storage σ where
  readText : String → σ → Except FileError String

instance : Host FileStorage where
  readText path s := s.disk.readText path

/-- Storage that does not touch the disk that it stands beside. -/
structure Beside (σ : Type) where
  storage : σ
  disk : Disk

namespace Beside

def lift (act : σ → Except CredentialError α × σ) (b : Beside σ) :
    Except CredentialError α × Beside σ :=
  let (r, storage) := act b.storage
  (r, { b with storage })

end Beside

instance [Storage σ] : Host (Beside σ) where
  get key := Beside.lift (Storage.get key)
  set key value := Beside.lift (Storage.set key value)
  remove key := Beside.lift (Storage.remove key)
  readText path b := b.disk.readText path

end SignedConsole
