import Bearer.Store

/-!
A store under observation: several handles of one store, and snapshots that are recognised when they
are seen again.
-/
namespace Bearer.Scenario

inductive SlotStep where
  | read
  | write (outcome : Except Error Credential)
  | current
  | replace (seen : Nat)
  | clone

/-- What a step on a store answers: a state with the number of its snapshot, in the order in which
snapshots were first seen; or the number of a handle. -/
inductive SlotReport where
  | state (state : Except Error Credential) (sameAs : Nat)
  | replaced
  | handle (number : Nat)

structure Slot where
  store : Store
  seen : List Snapshot
  handles : Nat

namespace Slot

def create (outcome : Except Error Credential) : Slot :=
  ⟨.create outcome, [], 1⟩

/-- Looks at the snapshot in the store, which is shown as `state`. -/
def observe (slot : Slot) (state : Except Error Credential) : SlotReport × Slot :=
  let now := slot.store.current
  match slot.seen.findIdx? (·.serial = now.serial) with
  | some number => (.state state number, slot)
  | none => (.state state slot.seen.length, { slot with seen := slot.seen ++ [now] })

def step (slot : Slot) : SlotStep → SlotReport × Slot
  | .read => slot.observe slot.store.current.outcome
  | .write outcome =>
    { slot with store := slot.store.write outcome }.observe outcome
  | .current => slot.observe slot.store.answer
  | .replace number =>
    match slot.seen[number]? with
    | some snapshot => (.replaced, { slot with store := slot.store.replace snapshot })
    | none => (.replaced, slot)
  | .clone => (.handle slot.handles, { slot with handles := slot.handles + 1 })

def run : List SlotStep → Slot → List SlotReport
  | [], _ => []
  | step :: rest, slot =>
    let (report, slot) := slot.step step
    report :: run rest slot

end Slot

end Bearer.Scenario
