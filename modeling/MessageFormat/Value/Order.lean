import MessageFormat.Value.Equality

/-!
# Order of values

Strings, byte strings and numbers are ordered among themselves, lists and tuples by their first
different items. Other values have no order, and comparing them is a misuse.
-/

namespace MessageFormat.Value

/-- Whether a list of numbers comes before another in the order of a dictionary. -/
def bytesBefore : List UInt8 → List UInt8 → Bool
  | [], ys => !ys.isEmpty
  | _ :: _, [] => false
  | x :: xs, y :: ys => x < y || (x == y && bytesBefore xs ys)

mutual

/-- Whether a value comes before another. -/
def before? : Value → Value → Except Misuse Bool
  | .str s, w =>
      match w with
      | .str t => .ok (s < t)
      | _ => .error (.notOrdered "str" w.typeName)
  | .bytes b, w =>
      match w with
      | .bytes c => .ok (bytesBefore b c)
      | _ => .error (.notOrdered "bytes" w.typeName)
  | .list xs, w =>
      match w with
      | .list ys => itemsBefore? xs ys
      | _ => .error (.notOrdered "list" w.typeName)
  | .tuple xs, w =>
      match w with
      | .tuple ys => itemsBefore? xs ys
      | _ => .error (.notOrdered "tuple" w.typeName)
  | v, w =>
      match v.number?, w.number? with
      | some a, some b => .ok (a.less b)
      | _, _ => .error (.notOrdered v.typeName w.typeName)

/-- Whether a list comes before another: at the first different items, or because it ends. -/
def itemsBefore? : List Value → List Value → Except Misuse Bool
  | [], ys => .ok (!ys.isEmpty)
  | x :: xs, ys =>
      match ys with
      | [] => .ok false
      | y :: ys' => if x.same y then itemsBefore? xs ys' else before? x y

end

/-- Splits off the items that come in descending order, each before the one in front of it, and
gives them in ascending order. -/
def takeDescending {α : Type} (key : α → Value) (last : α) (taken : List α) :
    List α → Except Misuse (List α × List α)
  | [] => .ok (taken, [])
  | x :: rest => do
      if ← before? (key x) (key last) then
        takeDescending key x (x :: taken) rest
      else
        return (taken, x :: rest)

/-- Splits off the items that come in ascending order. -/
def takeAscending {α : Type} (key : α → Value) (last : α) :
    List α → Except Misuse (List α × List α)
  | [] => .ok ([], [])
  | x :: rest => do
      if ← before? (key x) (key last) then
        return ([], x :: rest)
      else
        let (taken, others) ← takeAscending key x rest
        return (x :: taken, others)

/-- The items at the start that are in order already, in ascending order, and the other items. -/
def takeOrdered {α : Type} (key : α → Value) : List α → Except Misuse (List α × List α)
  | [] => .ok ([], [])
  | [x] => .ok ([x], [])
  | x :: y :: rest => do
      if ← before? (key y) (key x) then
        takeDescending key y [y, x] rest
      else
        let (taken, others) ← takeAscending key y rest
        return (x :: y :: taken, others)

/-- Puts an item into a list in ascending order, behind the items that are not greater. Its place
is found by halving. -/
def insertOrdered {α : Type} (key : α → Value) (x : α) (items : List α) :
    Except Misuse (List α) :=
  match _h : items.drop (items.length / 2) with
  | [] => .ok [x]
  | middle :: after => do
      if ← before? (key x) (key middle) then
        let front ← insertOrdered key x (items.take (items.length / 2))
        return front ++ middle :: after
      else
        let back ← insertOrdered key x after
        return items.take (items.length / 2) ++ middle :: back
termination_by items.length
decreasing_by
  · have hlength := congrArg List.length _h
    simp only [List.length_drop, List.length_cons, List.length_take] at hlength ⊢
    omega
  · have hlength := congrArg List.length _h
    simp only [List.length_drop, List.length_cons] at hlength
    omega

/-- The items in ascending order of their keys; items with equal keys keep their places. Items
that are in order already are only compared with their neighbours. -/
def sortedBy {α : Type} (key : α → Value) (items : List α) : Except Misuse (List α) := do
  let (ordered, others) ← takeOrdered key items
  others.foldlM (fun sorted x => insertOrdered key x sorted) ordered

/-- The values in ascending order; equal values keep their places. -/
def sorted (values : List Value) : Except Misuse (List Value) :=
  sortedBy id values

/-- Joins values, which have to be strings, with a text between each two. -/
def joined (between : String) (values : List Value) : Except Misuse String := do
  let texts ← values.zipIdx.mapM fun (v, i) =>
    match v with
    | .str s => .ok s
    | _ => .error (Misuse.notJoinable i v.typeName)
  return String.intercalate between texts

end MessageFormat.Value
