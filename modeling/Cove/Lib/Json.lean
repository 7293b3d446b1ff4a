import Cove.Lib.Bytes

/-- A JSON value. A number is the decimal it spells, `mantissa × 10 ^ exponent`; an object keeps
its members in order. -/
inductive Json
  | null
  | bool (b : Bool)
  | num (mantissa exponent : Int)
  | str (s : Bytes)
  | arr (items : List Json)
  | obj (members : List (Bytes × Json))

namespace Json

/-- The last member of that name, which is the one a parsed object keeps. -/
def field (name : Bytes) : Json → Option Json
  | .obj members => (members.reverse.find? fun m => m.1 = name).map Prod.snd
  | _ => none

/-! `JSON.parse`, on bytes: each parser returns what it read and what is left. -/

def isWhite (c : UInt8) : Bool := c = 0x20 || c = 0x09 || c = 0x0a || c = 0x0d

def skipWhite (b : Bytes) : Bytes := b.dropWhile isWhite

def isDecimal (c : UInt8) : Bool := 48 ≤ c && c ≤ 57

def hexValue (c : UInt8) : Option Nat :=
  if 48 ≤ c && c ≤ 57 then some (c.toNat - 48)
  else if 65 ≤ c && c ≤ 70 then some (c.toNat - 55)
  else if 97 ≤ c && c ≤ 102 then some (c.toNat - 87)
  else none

/-- The code unit of `\uXXXX`. -/
def codeUnit (a b c d : UInt8) : Option Nat := do
  let a ← hexValue a
  let b ← hexValue b
  let c ← hexValue c
  let d ← hexValue d
  return ((a * 16 + b) * 16 + c) * 16 + d

def encodeUnit (n : Nat) : Bytes :=
  if n < 0x80 then [UInt8.ofNat n]
  else if n < 0x800 then [UInt8.ofNat (0xc0 + n / 64), UInt8.ofNat (0x80 + n % 64)]
  else [UInt8.ofNat (0xe0 + n / 4096), UInt8.ofNat (0x80 + n / 64 % 64), UInt8.ofNat (0x80 + n % 64)]

def simpleEscape (c : UInt8) : Option UInt8 :=
  if c = 0x22 || c = 0x5c || c = 0x2f then some c
  else if c = 0x62 then some 0x08
  else if c = 0x66 then some 0x0c
  else if c = 0x6e then some 0x0a
  else if c = 0x72 then some 0x0d
  else if c = 0x74 then some 0x09
  else none

/-- The rest of a string after its opening quote. -/
def stringBody : Bytes → Option (Bytes × Bytes)
  | [] => none
  | c :: rest =>
    if c = 0x22 then some ([], rest)
    else if c = 0x5c then
      match rest with
      | 0x75 :: a :: b :: c :: d :: rest => do
        let n ← codeUnit a b c d
        let (s, rest) ← stringBody rest
        return (encodeUnit n ++ s, rest)
      | e :: rest => do
        let c ← simpleEscape e
        let (s, rest) ← stringBody rest
        return (c :: s, rest)
      | [] => none
    else if c < 0x20 then none
    else (stringBody rest).map fun (s, rest) => (c :: s, rest)

def digitsValue (ds : Bytes) : Int := ds.foldl (fun a d => a * 10 + (d.toNat - 48 : Nat)) 0

/-- A minus sign taken off the front. -/
def signed : Bytes → Int × Bytes
  | [] => (1, [])
  | c :: rest => if c = 0x2d then (-1, rest) else (1, c :: rest)

/-- The fraction digits after a point, none when there is no point. -/
def fraction : Bytes → Option (Bytes × Bytes)
  | [] => some ([], [])
  | c :: rest =>
    if c = 0x2e then
      let ds := rest.takeWhile isDecimal
      if ds = [] then none else some (ds, rest.dropWhile isDecimal)
    else some ([], c :: rest)

def exponentPart : Bytes → Option (Int × Bytes)
  | [] => some (0, [])
  | c :: rest =>
    if c = 0x65 || c = 0x45 then
      let (sign, rest) := match rest with
        | 0x2b :: rest => (1, rest)
        | rest => signed rest
      let ds := rest.takeWhile isDecimal
      if ds = [] then none else some (sign * digitsValue ds, rest.dropWhile isDecimal)
    else some (0, c :: rest)

def number (b : Bytes) : Option (Json × Bytes) := do
  let (sign, b) := signed b
  let whole := b.takeWhile isDecimal
  -- A leading zero stands alone.
  guard (whole ≠ [] ∧ (whole.length = 1 ∨ whole.head? ≠ some 48))
  let (frac, rest) ← fraction (b.dropWhile isDecimal)
  let (e, rest) ← exponentPart rest
  return (.num (sign * digitsValue (whole ++ frac)) (e - frac.length), rest)

def literal (word : String) (v : Json) (b : Bytes) : Option (Json × Bytes) :=
  let w := Bytes.ascii word
  if b.take w.length = w then some (v, b.drop w.length) else none

/-- What follows the white space, when its first byte is the wanted one. -/
def token (c : UInt8) (b : Bytes) : Option Bytes :=
  match skipWhite b with
  | c' :: rest => if c' = c then some rest else none
  | [] => none

mutual

def value : Nat → Bytes → Option (Json × Bytes)
  | 0, _ => none
  | fuel + 1, b =>
    match skipWhite b with
    | [] => none
    | c :: rest =>
      if c = 0x7b then
        match token 0x7d rest with
        | some rest => some (.obj [], rest)
        | none => (members fuel rest).map fun (ms, rest) => (.obj ms, rest)
      else if c = 0x5b then
        match token 0x5d rest with
        | some rest => some (.arr [], rest)
        | none => (elements fuel rest).map fun (vs, rest) => (.arr vs, rest)
      else if c = 0x22 then (stringBody rest).map fun (s, rest) => (.str s, rest)
      else if c = 0x74 then literal "true" (.bool true) (c :: rest)
      else if c = 0x66 then literal "false" (.bool false) (c :: rest)
      else if c = 0x6e then literal "null" .null (c :: rest)
      else number (c :: rest)

/-- The elements of an array, through its closing bracket. -/
def elements : Nat → Bytes → Option (List Json × Bytes)
  | 0, _ => none
  | fuel + 1, b => do
    let (v, rest) ← value fuel b
    match token 0x2c rest with
    | some rest => (elements fuel rest).map fun (vs, rest) => (v :: vs, rest)
    | none => (token 0x5d rest).map fun rest => ([v], rest)

/-- The members of an object, through its closing brace. -/
def members : Nat → Bytes → Option (List (Bytes × Json) × Bytes)
  | 0, _ => none
  | fuel + 1, b => do
    let rest ← token 0x22 b
    let (name, rest) ← stringBody rest
    let rest ← token 0x3a rest
    let (v, rest) ← value fuel rest
    match token 0x2c rest with
    | some rest => (members fuel rest).map fun (ms, rest) => ((name, v) :: ms, rest)
    | none => (token 0x7d rest).map fun rest => ([(name, v)], rest)

end

/-- The value a whole text spells. Each value takes at least one byte, so the length is
fuel enough. -/
def parse (b : Bytes) : Option Json :=
  match value (2 * b.length + 1) b with
  | some (v, rest) => if skipWhite rest = [] then some v else none
  | none => none

/-- The text of a string that needs no escapes. -/
def quote (s : Bytes) : Bytes := 0x22 :: s ++ [0x22]

/-! `JSON.stringify`, for values whose strings need no escapes. -/

mutual

def stringify : Json → Bytes
  | .null => Bytes.ascii "null"
  | .bool b => Bytes.ascii (if b then "true" else "false")
  | .num mantissa exponent =>
    if exponent = 0 then Bytes.decimalText mantissa
    else Bytes.decimalText mantissa ++ 0x65 :: Bytes.decimalText exponent
  | .str s => quote s
  | .arr items => 0x5b :: (stringifyItems items ++ [0x5d])
  | .obj members => 0x7b :: (stringifyMembers members ++ [0x7d])

def stringifyItems : List Json → Bytes
  | [] => []
  | v :: vs => stringify v ++ (if vs.isEmpty then [] else 0x2c :: stringifyItems vs)

def stringifyMembers : List (Bytes × Json) → Bytes
  | [] => []
  | (name, v) :: ms =>
    quote name ++ 0x3a :: (stringify v ++ (if ms.isEmpty then [] else 0x2c :: stringifyMembers ms))

end

end Json
