import Labyrinth.Json.Outline

/-!
# Decoding outlines

A decoder says what is wanted at a place of a text. The first objection from the left decides, be it
a fault of the text or one of the decoder.
-/

namespace Labyrinth.Json

/-- What is made of an outline, or the objection to it. -/
abbrev Decoder (α : Type) := Outline → Except Fault α

/-! ## Numbers -/

namespace Numeral

/-- The power of ten above the number, if it is not zero. -/
def magnitude (n : Numeral) : Int := (toString n.mantissa).length + n.exponent

def toFloat (n : Numeral) : Float :=
  let x :=
    if n.mantissa = 0 ∨ n.magnitude < -400 then 0.0
    else if 400 < n.magnitude then 1.0 / 0.0
    else Float.ofScientific n.mantissa (decide (n.exponent < 0)) n.exponent.natAbs
  if n.negative then -x else x

/-- The number is too large for a double. -/
def overflows (n : Numeral) : Bool := n.toFloat.isInf

def toNat? (n : Numeral) : Option Nat := if n.whole && !n.negative then some n.mantissa else none

end Numeral

/-! ## Single values -/

/-- The objection to a value of the wrong kind. The value itself is read first. -/
def objection : Outline → Fault
  | .fault f => f
  | .scrap f => f
  | .number n => if n.overflows then .malformed else .mismatched
  | _ => .mismatched

namespace Decoder

/-- A number in range is small enough for a double, so only the others are checked for that. -/
def nat (bound : Nat) : Decoder Nat
  | .number n =>
    match n.toNat?.filter (decide <| · < bound) with
    | some k => .ok k
    | none => .error (objection (.number n))
  | v => .error (objection v)

def double : Decoder Float
  | .number n => if n.overflows then .error .malformed else .ok n.toFloat
  | v => .error (objection v)

/-- A double that is then rounded to a single. -/
def single : Decoder Float32 := fun v => Float.toFloat32 <$> double v

def bool : Decoder Bool
  | .bool b => .ok b
  | v => .error (objection v)

def text : Decoder String
  | .text s => .ok s
  | v => .error (objection v)

def option {α : Type} (d : Decoder α) : Decoder (Option α)
  | .null => .ok none
  | v => some <$> d v

def list {α : Type} (d : Decoder α) : Decoder (List α)
  | .list items cut => do
    let values ← items.mapM d
    match cut with
    | some f => .error f
    | none => return values
  | v => .error (objection v)

def named {α : Type} (byName : String → Option α) (name : String) : Except Fault α :=
  match byName name with
  | some a => .ok a
  | none => .error .mismatched

/-- One of some names, as a string or as the only member of an object, whose value is `null`. -/
def oneOf {α : Type} (byName : String → Option α) : Decoder α
  | .text s => named byName s
  | .object [] cut => .error (cut.getD .malformed)
  | .object ((key, value) :: more) cut => do
    let name ← text key
    let a ← named byName name
    match value with
    | .null => pure ()
    | v => throw (objection v)
    if !more.isEmpty then throw .malformed
    match cut with
    | some f => throw f
    | none => return a
  | .fault f => .error f
  | _ => .error .malformed

end Decoder

/-! ## Records -/

/-- A member of a record: its name, whether it has to be there, and how it is put in. -/
structure Field (α : Type) where
  name : String
  required : Bool
  put : Outline → α → Except Fault α

def Field.of {α β : Type} (name : String) (required : Bool) (d : Decoder β) (put : β → α → α) :
    Field α :=
  ⟨name, required, fun v a => (put · a) <$> d v⟩

namespace Record

/-- Puts members into a record. A member of an unknown name is passed over, and none may come
twice. -/
def putMembers {α : Type} (fields : List (Field α)) :
    List String → α → List (Outline × Outline) → Except Fault (List String × α)
  | seen, a, [] => .ok (seen, a)
  | seen, a, (key, value) :: more =>
    match key with
    | .text name =>
      match fields.find? (·.name == name) with
      | none => putMembers fields seen a more
      | some field =>
        if seen.contains name then .error .mismatched
        else do
          let a ← field.put value a
          putMembers fields (name :: seen) a more
    | .fault f => .error f
    | _ => .error .malformed

/-- Puts items into the fields in their order. Fields without an item keep what they have, unless
they are required. -/
def putItems {α : Type} (cut : Option Fault) :
    List (Field α) → α → List Outline → Except Fault α
  | [], a, [] => match cut with
    | some f => .error f
    | none => .ok a
  | [], _, _ :: _ => .error .malformed
  | field :: fields, a, [] => match cut with
    | some f => .error f
    | none => if field.required then .error .mismatched else putItems cut fields a []
  | field :: fields, a, item :: items => do putItems cut fields (← field.put item a) items

/-- A record from an object, or from a list of its fields in order. Fields that are not there keep
their value in `blank`. -/
def decode {α : Type} (fields : List (Field α)) (blank : α) : Decoder α
  | .object members cut => do
    let (seen, a) ← putMembers fields [] blank members
    if let some f := cut then throw f
    if fields.any fun f => f.required && !seen.contains f.name then throw .mismatched
    return a
  | .list items cut => putItems cut fields blank items
  | v => .error (objection v)

end Record

def decode {α : Type} (d : Decoder α) (text : String) : Except Fault α := do
  let (v, after) := outline text
  let a ← d v
  match after with
  | some f => throw f
  | none => return a

end Labyrinth.Json
