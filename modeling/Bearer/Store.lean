import Bearer.Credential

/-!
The slot that holds the latest outcome of a fetch. Every outcome that is stored becomes a snapshot of
its own; two snapshots with equal outcomes stay distinct.
-/
namespace Bearer

structure Snapshot where
  serial : Nat
  outcome : Except Error Credential

/-- What a caller gets from a snapshot: the credential, or the stored failure once wrapped. -/
def Snapshot.answer (snapshot : Snapshot) : Except Error Credential :=
  snapshot.outcome.mapError .unavailable

/-- `minted` is the number of snapshots made so far. -/
structure Store where
  current : Snapshot
  minted : Nat

namespace Store

def create (outcome : Except Error Credential) : Store :=
  ⟨⟨0, outcome⟩, 1⟩

def write (store : Store) (outcome : Except Error Credential) : Store :=
  ⟨⟨store.minted, outcome⟩, store.minted + 1⟩

def replace (store : Store) (snapshot : Snapshot) : Store :=
  { store with current := snapshot }

def answer (store : Store) : Except Error Credential :=
  store.current.answer

@[simp] theorem outcome_write (store : Store) (outcome : Except Error Credential) :
    (store.write outcome).current.outcome = outcome := rfl

@[simp] theorem serial_write (store : Store) (outcome : Except Error Credential) :
    (store.write outcome).current.serial = store.minted := rfl

end Store

end Bearer
