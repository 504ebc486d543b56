import Interlude.Value.Coerce
import Interlude.Text.Quoted
/-!
# Data from outside

Data as documents and callers hand it over, and the rules by which it becomes values. Named fields
become a record, other keyed data a map; each list, map and record gets an identity of its own.
-/

namespace Interlude

/-- Data before it is a value. Keyed members are listed in the order in which they are gone through
when they are handed over, which may be any. A `foreign` datum is of a type that no value can
hold. -/
inductive Datum where
  | null
  | bool (b : Bool)
  | int (i : Int64)
  | unsigned (n : Nat)
  | float (f : Float)
  | str (s : String)
  | list (items : List Datum)
  | named (members : List (String × Datum))
  | keyed (members : List (Datum × Datum))
  | foreign (typeName : String)
  | boxed (v : Value)
deriving Inhabited

/-- Computations that give out fresh identities and may fail. -/
abbrev Boxing := StateT Identity (Except Failure)

/-- An origin not given out before. -/
def Boxing.fresh : Boxing Origin := fun n => .ok (⟨n, []⟩, n + 1)

namespace Datum

mutual

/-- The value of a datum. -/
def box : Datum → Boxing Value
  | .null => pure .null
  | .bool b => pure (.bool b)
  | .int i => pure (.int i)
  | .unsigned n => liftM (Value.ofUnsigned n)
  | .float f => pure (.float f)
  | .str s => pure (.str s)
  | .list items => do
    let values ← boxItems 0 items
    return .list (← Boxing.fresh) values
  | .named members => do
    let values ← boxFields members
    return Value.recordOf (← Boxing.fresh) values
  | .keyed members => do
    let values ← boxEntries [] members
    return .map (← Boxing.fresh) values
  | .foreign typeName =>
    throw (.fault (Failure.data .invalidArgument ("cannot box value of type " ++ typeName)))
  | .boxed v => pure v

def boxItems (index : Nat) : List Datum → Boxing (List Value)
  | [] => pure []
  | d :: rest => do
    let v ← tryCatchThe Failure d.box fun e => throw (e.under ("list item " ++ toString index))
    return v :: (← boxItems (index + 1) rest)

def boxFields : List (String × Datum) → Boxing (List (String × Value))
  | [] => pure []
  | (name, d) :: rest => do
    let v ← tryCatchThe Failure d.box fun e => throw (e.under ("field " ++ Text.quote name))
    return (name, v) :: (← boxFields rest)

/-- Sets the members one after the other, so that members of one key end as sets of one key do. -/
def boxEntries (entries : List (Value × Value)) : List (Datum × Datum) →
    Boxing (List (Value × Value))
  | [] => pure entries
  | (k, d) :: rest => do
    let key ← k.box
    let v ← d.box
    match Value.setEntry? entries key v with
    | none => throw (Failure.cast "primitive map key" key.kind.name)
    | some entries => boxEntries entries rest

end

/-- Boxes the params of a render. -/
def boxParams : List (String × Datum) → Boxing (List (String × Value))
  | [] => pure []
  | (name, d) :: rest => do
    let v ← tryCatchThe Failure d.box fun e =>
      throw (.fault ((Failure.argument .invalidArgument ("param " ++ name ++ ": " ++ e.text)).detail
        "param" name))
    return (name, v) :: (← boxParams rest)

end Datum

end Interlude
