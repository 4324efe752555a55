import Labyrinth.Text.Unsigned

/-!
# Outlines of JSON texts

A text is read once, from left to right, whatever is wanted from it. The outline keeps what was
found: where reading stops because the text breaks off or breaks the grammar, the outline ends with
a fault, and so does everything around it. Who decodes an outline meets its own objections and the
faults of the text in the order of the text.

Strings and numbers that are passed over are read less strictly than those that are wanted: a string
may then hold half a surrogate pair. So a wanted string can fail where the text around it goes on.
-/

namespace Labyrinth.Json

inductive Fault where
  | ended
  | malformed
  /-- The text is well formed, but it is not what is wanted. -/
  | mismatched
deriving DecidableEq

/-- The number `mantissa * 10 ^ exponent` with its sign. It is whole if it is written without a
fraction and without an exponent. -/
structure Numeral where
  negative : Bool
  mantissa : Nat
  exponent : Int
  whole : Bool
deriving DecidableEq

/-- What was found in a text. -/
inductive Outline where
  | null
  | bool (b : Bool)
  | number (n : Numeral)
  | text (s : String)
  /-- A list as far as it could be read. -/
  | list (items : List Outline) (cut : Option Fault)
  /-- An object as far as it could be read. -/
  | object (members : List (Outline × Outline)) (cut : Option Fault)
  /-- Nothing starts here, or a string that is none. -/
  | fault (f : Fault)
  /-- A word or a number starts here, but it is none. -/
  | scrap (f : Fault)
deriving Inhabited

/-- What was found and the rest of the text, if reading can go on. -/
structure Found where
  outline : Outline
  rest : Except Fault (List Char)

def isBlank (c : Char) : Bool := c == ' ' || c == '\t' || c == '\n' || c == '\r'

def skipBlanks (cs : List Char) : List Char := cs.dropWhile isBlank

/-! ## Strings -/

/-- A piece of a string: a character, or a number of 16 bits that was written in hexadecimal. -/
inductive Piece where
  | char (c : Char)
  | unit (n : Nat)

def hexValue? (c : Char) : Option Nat :=
  if '0' ≤ c ∧ c ≤ '9' then some (c.toNat - 48)
  else if 'a' ≤ c ∧ c ≤ 'f' then some (c.toNat - 87)
  else if 'A' ≤ c ∧ c ≤ 'F' then some (c.toNat - 55)
  else none

/-- The number of four hexadecimal digits. -/
def unit? (a b c d : Char) : Option Nat := do
  return ((((← hexValue? a) * 16 + (← hexValue? b)) * 16 + (← hexValue? c)) * 16 + (← hexValue? d))

def shortEscape? : Char → Option Char
  | '"' => some '"'
  | '\\' => some '\\'
  | '/' => some '/'
  | 'b' => some '\x08'
  | 'f' => some '\x0c'
  | 'n' => some '\n'
  | 'r' => some '\r'
  | 't' => some '\t'
  | _ => none

/-- Four bytes have to follow for the text not to end too early. -/
def shortUnit (cs : List Char) : Fault :=
  if (String.ofList cs).utf8ByteSize < 4 then .ended else .malformed

/-- The pieces of a string up to its closing quote, and the text behind it. -/
def pieces : List Char → List Piece × Except Fault (List Char)
  | [] => ([], .error .ended)
  | '"' :: rest => ([], .ok rest)
  | '\\' :: 'u' :: a :: b :: c :: d :: rest =>
    match unit? a b c d with
    | some n => let (ps, r) := pieces rest; (.unit n :: ps, r)
    | none => ([], .error .malformed)
  | '\\' :: 'u' :: rest => ([], .error (shortUnit rest))
  | '\\' :: c :: rest =>
    match shortEscape? c with
    | some e => let (ps, r) := pieces rest; (.char e :: ps, r)
    | none => ([], .error .malformed)
  | '\\' :: [] => ([], .error .ended)
  | c :: rest =>
    if c.toNat < 32 then ([], .error .malformed)
    else let (ps, r) := pieces rest; (.char c :: ps, r)

def isLeading (n : Nat) : Bool := decide (0xD800 ≤ n) && decide (n ≤ 0xDBFF)

def isTrailing (n : Nat) : Bool := decide (0xDC00 ≤ n) && decide (n ≤ 0xDFFF)

/-- The characters of the pieces. Surrogates have to come in pairs. The string ends with `stop`, or
with its closing quote if there is none. -/
def textOf (stop : Option Fault) : List Piece → Except Fault (List Char)
  | [] => match stop with
    | none => .ok []
    | some f => .error f
  | .char c :: ps => (c :: ·) <$> textOf stop ps
  | .unit n :: ps =>
    if isTrailing n then .error .malformed
    else if isLeading n then
      match ps with
      | [] => .error (stop.getD .malformed)
      | .char _ :: _ => .error .malformed
      | .unit m :: ps =>
        if isTrailing m then
          (Char.ofNat (0x10000 + (n - 0xD800) * 0x400 + (m - 0xDC00)) :: ·) <$> textOf stop ps
        else .error .malformed
    else (Char.ofNat n :: ·) <$> textOf stop ps

def readText (cs : List Char) : Found :=
  let (ps, rest) := pieces cs
  let stop := match rest with
    | .ok _ => none
    | .error f => some f
  match textOf stop ps with
  | .ok s => ⟨.text (String.ofList s), rest⟩
  | .error f => ⟨.fault f, rest⟩

/-! ## Words and numbers -/

def readWord (value : Outline) : List Char → List Char → Found
  | [], cs => ⟨value, .ok cs⟩
  | _ :: _, [] => ⟨.scrap .ended, .error .ended⟩
  | w :: ws, c :: cs =>
    if w = c then readWord value ws cs else ⟨.scrap .malformed, .error .malformed⟩

/-- A number that breaks off before `cs`, where a digit has to stand. -/
def noDigit (cs : List Char) : Found :=
  ⟨.scrap (if cs.isEmpty then .ended else .malformed), .error .malformed⟩

def readExponent (negative : Bool) (mantissa : Nat) (places : Nat) (cs : List Char) : Found :=
  let (minus, cs) := match cs with
    | '-' :: r => (true, r)
    | '+' :: r => (false, r)
    | _ => (false, cs)
  let ds := cs.takeWhile Char.isDigit
  if ds.isEmpty then noDigit cs
  else
    let e : Int := Text.digitsValue ds
    ⟨.number ⟨negative, mantissa, (if minus then -e else e) - places, false⟩,
      .ok (cs.dropWhile Char.isDigit)⟩

/-- Reads what follows the digits of a number, of which `places` stand behind the point. -/
def readTail (negative : Bool) (mantissa places : Nat) (whole : Bool) : List Char → Found
  | 'e' :: cs => readExponent negative mantissa places cs
  | 'E' :: cs => readExponent negative mantissa places cs
  | cs => ⟨.number ⟨negative, mantissa, -(places : Int), whole⟩, .ok cs⟩

def readNumber (negative : Bool) (cs : List Char) : Found :=
  let ds := cs.takeWhile Char.isDigit
  let rest := cs.dropWhile Char.isDigit
  if ds.isEmpty then noDigit cs
  else if ds.head? = some '0' ∧ 1 < ds.length then ⟨.scrap .malformed, .error .malformed⟩
  else match rest with
    | '.' :: r =>
      let fs := r.takeWhile Char.isDigit
      if fs.isEmpty then noDigit r
      else
        readTail negative (Text.digitsValue (ds ++ fs)) fs.length false (r.dropWhile Char.isDigit)
    | _ => readTail negative (Text.digitsValue ds) 0 true rest

/-! ## Values -/

/-- The fault that ends a list or an object. -/
def cutOf : Except Fault (List Char) → Option Fault
  | .ok _ => none
  | .error f => some f

mutual

/-- Reads a value. A bracket costs two units of fuel and any other character at most one. -/
def readValue : Nat → List Char → Found
  | 0, _ => ⟨.fault .ended, .error .ended⟩
  | fuel + 1, cs =>
    match skipBlanks cs with
    | [] => ⟨.fault .ended, .error .ended⟩
    | '"' :: r => readText r
    | '[' :: r =>
      match skipBlanks r with
      | [] => ⟨.list [] (some .ended), .error .ended⟩
      | ']' :: r => ⟨.list [] none, .ok r⟩
      | r =>
        let (items, rest) := readItems fuel r
        ⟨.list items (cutOf rest), rest⟩
    | '\x7b' :: r =>
      match skipBlanks r with
      | [] => ⟨.object [] (some .ended), .error .ended⟩
      | '\x7d' :: r => ⟨.object [] none, .ok r⟩
      | r =>
        let (members, rest) := readMembers fuel r
        ⟨.object members (cutOf rest), rest⟩
    | 'n' :: r => readWord .null ['u', 'l', 'l'] r
    | 't' :: r => readWord (.bool true) ['r', 'u', 'e'] r
    | 'f' :: r => readWord (.bool false) ['a', 'l', 's', 'e'] r
    | '-' :: r => readNumber true r
    | c :: r =>
      if c.isDigit then readNumber false (c :: r) else ⟨.fault .malformed, .error .malformed⟩

/-- Reads items up to the end of their list. An item is due at once. -/
def readItems : Nat → List Char → List Outline × Except Fault (List Char)
  | 0, _ => ([], .error .ended)
  | fuel + 1, cs =>
    let v := readValue fuel cs
    match v.rest with
    | .error f => ([v.outline], .error f)
    | .ok r =>
      match skipBlanks r with
      | [] => ([v.outline], .error .ended)
      | ',' :: r =>
        let (items, rest) := readItems fuel r
        (v.outline :: items, rest)
      | ']' :: r => ([v.outline], .ok r)
      | _ => ([v.outline], .error .malformed)

/-- Reads members up to the end of their object. A member is due at once. -/
def readMembers : Nat → List Char → List (Outline × Outline) × Except Fault (List Char)
  | 0, _ => ([], .error .ended)
  | fuel + 1, cs =>
    match skipBlanks cs with
    | [] => ([(.fault .ended, .fault .ended)], .error .ended)
    | '"' :: r =>
      let key := readText r
      match key.rest with
      | .error f => ([(key.outline, .fault f)], .error f)
      | .ok r =>
        match skipBlanks r with
        | [] => ([(key.outline, .fault .ended)], .error .ended)
        | ':' :: r =>
          let v := readValue fuel r
          match v.rest with
          | .error f => ([(key.outline, v.outline)], .error f)
          | .ok r =>
            match skipBlanks r with
            | [] => ([(key.outline, v.outline)], .error .ended)
            | ',' :: r =>
              let (members, rest) := readMembers fuel r
              ((key.outline, v.outline) :: members, rest)
            | '\x7d' :: r => ([(key.outline, v.outline)], .ok r)
            | _ => ([(key.outline, v.outline)], .error .malformed)
        | _ => ([(key.outline, .fault .malformed)], .error .malformed)
    | r => ([((readValue fuel r).outline, .fault .malformed)], .error .malformed)

end

/-- The outline of a text and the fault that follows it, if any. Only blanks may follow. -/
def outline (text : String) : Outline × Option Fault :=
  let cs := text.toList
  let v := readValue (2 * cs.length + 2) cs
  match v.rest with
  | .error f => (v.outline, some f)
  | .ok r => (v.outline, if (skipBlanks r).isEmpty then none else some .malformed)

end Labyrinth.Json
