import Labyrinth.Position.Snapshot

/-!
# The position board

A board has one slot for each role it tracks. A slot keeps the latest snapshot and counts the
snapshots published in it. A subscription remembers how many of them have been seen.
-/

namespace Labyrinth

/-- The latest snapshot of a role and how many were published. -/
structure Slot where
  version : Nat
  latest : Option Snapshot

def Slot.empty : Slot := ⟨0, none⟩

/-- A publication counts also if nothing in the snapshot is new. -/
def Slot.publish (slot : Slot) (s : Snapshot) : Slot := ⟨slot.version + 1, some s⟩

/-- The slots of the tracked roles, in role order. -/
structure Board where
  slots : List Slot

/-- A reader of one slot, with the version that was seen last. -/
structure Subscription where
  role : Role
  seen : Nat
deriving DecidableEq

namespace Board

def ofRoles (roles : Nat) : Board := ⟨List.replicate roles .empty⟩

def roles (b : Board) : Nat := b.slots.length

def slot? (b : Board) (r : Role) : Option Slot := b.slots[r.number]?

def tracks (b : Board) (r : Role) : Bool := decide (r.number < b.slots.length)

/-- Replaces the snapshot of a role. A role that is not tracked changes nothing. -/
def publish (b : Board) (s : Snapshot) : Board :=
  ⟨b.slots.modify s.role.number (·.publish s)⟩

def latest (b : Board) (r : Role) : Option Snapshot := b.slot? r >>= Slot.latest

/-- The latest snapshots of all roles that have one, in role order. -/
def snapshot (b : Board) : List Snapshot := b.slots.filterMap Slot.latest

@[simp] theorem roles_publish (b : Board) (s : Snapshot) : (b.publish s).roles = b.roles :=
  List.length_modify _ _ _

/-! ## Subscriptions -/

/-- A subscription that counts what is there as seen. -/
def subscribe (b : Board) (r : Role) : Option Subscription :=
  (b.slot? r).map fun s => ⟨r, s.version⟩

def subscribeAll (b : Board) : List Subscription :=
  (List.range b.roles).filterMap fun i => b.subscribe ⟨i⟩

/-- Something was published since the subscription looked last. -/
def changed (b : Board) (s : Subscription) : Bool :=
  match b.slot? s.role with
  | none => false
  | some slot => decide (slot.version ≠ s.seen)

/-- Looks at the slot and marks what is there as seen. -/
def read (b : Board) (s : Subscription) : Option Snapshot × Subscription :=
  match b.slot? s.role with
  | none => (none, s)
  | some slot => (slot.latest, { s with seen := slot.version })

end Board

end Labyrinth
