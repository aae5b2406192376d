import MessageFormat.Value

/-!
# Equality of values

Truth values, integers and floating point numbers are equal if they are the same number, with 0
for false and 1 for true. Dictionaries are equal if they hold the same entries, in whatever order.
Values of different kinds are different, and so is "not a number" from everything.
-/

namespace MessageFormat

/-- The number `mantissa * 2 ^ exponent`. -/
structure Dyadic where
  mantissa : Int
  exponent : Int
deriving DecidableEq, Repr

namespace Dyadic

/-- Whether two such numbers are the same number. -/
def same (a b : Dyadic) : Bool :=
  let low := min a.exponent b.exponent
  a.mantissa * Nat.pow 2 (a.exponent - low).toNat ==
    b.mantissa * Nat.pow 2 (b.exponent - low).toNat

/-- Whether a number is smaller than another. -/
def less (a b : Dyadic) : Bool :=
  let low := min a.exponent b.exponent
  a.mantissa * Nat.pow 2 (a.exponent - low).toNat <
    b.mantissa * Nat.pow 2 (b.exponent - low).toNat

/-- The number that a finite binary floating point number stands for. -/
def ofFloat (x : Float) : Dyadic :=
  let bits := x.toBits.toNat
  let fraction : Nat := bits % Nat.pow 2 52
  let scale : Nat := bits / Nat.pow 2 52 % Nat.pow 2 11
  let size : Nat := if scale = 0 then fraction else fraction + Nat.pow 2 52
  ⟨if bits < Nat.pow 2 63 then (size : Int) else -(size : Int), (max scale 1 : Int) - 1075⟩

/-- The number that the decimal text of a finite floating point number stands for. -/
def ofText? (text : String) : Option Dyadic := do
  let chars := text.toList
  let negative := chars.head? == some '-'
  let unsigned := if negative then chars.tail else chars
  let mantissa := unsigned.takeWhile (· ≠ 'e')
  let digits := mantissa.filter (· ≠ '.')
  if digits.isEmpty || !digits.all Char.isDigit then
    none
  else
    let places := ((mantissa.dropWhile (· ≠ '.')).drop 1).length
    let power : Int :=
      match (unsigned.dropWhile (· ≠ 'e')).drop 1 with
      | '-' :: rest => -(Nat.ofDigitChars 10 rest 0 : Int)
      | '+' :: rest => Nat.ofDigitChars 10 rest 0
      | rest => Nat.ofDigitChars 10 rest 0
    let scale := power - places
    let size := ofFloat (Float.ofScientific (Nat.ofDigitChars 10 digits 0) (scale < 0) scale.natAbs)
    some (if negative then { size with mantissa := -size.mantissa } else size)

end Dyadic

/-- A number as values hold it: floating point has infinities and "not a number". -/
inductive Quantity where
  | finite (number : Dyadic)
  | infinite (positive : Bool)
  | undefined
deriving DecidableEq, Repr

namespace Quantity

/-- Whether two quantities are equal. -/
def same : Quantity → Quantity → Bool
  | finite a, finite b => a.same b
  | infinite p, infinite q => p == q
  | _, _ => false

/-- Whether a quantity is smaller than another. -/
def less : Quantity → Quantity → Bool
  | finite a, finite b => a.less b
  | infinite false, finite _ => true
  | infinite false, infinite true => true
  | finite _, infinite true => true
  | _, _ => false

/-- The quantity that the text of a floating point number stands for. -/
def ofText (text : String) : Quantity :=
  if text = "inf" then
    infinite true
  else if text = "-inf" then
    infinite false
  else
    ((Dyadic.ofText? text).map finite).getD undefined

end Quantity

namespace Value

/-- The number that a value is. -/
def number? : Value → Option Quantity
  | .bool b => some (.finite ⟨if b then 1 else 0, 0⟩)
  | .int n => some (.finite ⟨n, 0⟩)
  | .float text => some (.ofText text)
  | _ => none

/-- Whether two values without parts are equal. -/
def sameAtom (v w : Value) : Bool :=
  match v, w with
  | .null, .null => true
  | .str s, .str t => s == t
  | .bytes b, .bytes c => b == c
  | _, _ =>
      match v.number?, w.number? with
      | some a, some b => a.same b
      | _, _ => false

mutual

/-- Whether two values are equal. -/
def same : Value → Value → Bool
  | .list xs, w =>
      match w with
      | .list ys => sameItems xs ys
      | _ => false
  | .tuple xs, w =>
      match w with
      | .tuple ys => sameItems xs ys
      | _ => false
  | .dict xs, w =>
      match w with
      | .dict ys => xs.length == ys.length && entriesIn xs ys
      | _ => false
  | .placeholder id type format none, w =>
      match w with
      | .placeholder id' type' format' none => same id id' && same type type' && same format format'
      | _ => false
  | .placeholder id type format (some xs), w =>
      match w with
      | .placeholder id' type' format' (some ys) =>
          same id id' && same type type' && same format format' &&
            (xs.length == ys.length && entriesIn xs ys)
      | _ => false
  | .reference id, w =>
      match w with
      | .reference id' => same id id'
      | _ => false
  | .tag name children, w =>
      match w with
      | .tag name' children' => same name name' && same children children'
      | _ => false
  | v, w => sameAtom v w

/-- Whether two lists have equal items in the same order. -/
def sameItems : List Value → List Value → Bool
  | [], ys => ys.isEmpty
  | x :: xs, ys =>
      match ys with
      | [] => false
      | y :: ys' => same x y && sameItems xs ys'

/-- Whether every entry of a dictionary is an entry of another. -/
def entriesIn : List (Value × Value) → List (Value × Value) → Bool
  | [], _ => true
  | (key, v) :: rest, ys =>
      ys.any (fun (key', v') => same key key' && same v v') && entriesIn rest ys

end

/-- The value of a key in a dictionary. -/
def lookup (entries : List (Value × Value)) (key : Value) : Option Value :=
  (entries.find? fun (key', _) => key'.same key).map (·.2)

/-- The value of a name in a dictionary. -/
def field (entries : List (Value × Value)) (name : String) : Option Value :=
  lookup entries (.str name)

/-- A dictionary with one more entry: a key that is there already keeps its place. -/
def insert (entries : List (Value × Value)) (key v : Value) : List (Value × Value) :=
  if entries.any fun (key', _) => key'.same key then
    entries.map fun (key', v') => if key'.same key then (key', v) else (key', v')
  else
    entries ++ [(key, v)]

/-- The dictionary that entries written one after the other make. -/
def dictOf (entries : List (Value × Value)) : List (Value × Value) :=
  entries.foldl (fun dict (key, v) => insert dict key v) []

end Value

end MessageFormat
