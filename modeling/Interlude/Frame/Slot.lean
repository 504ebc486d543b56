import Interlude.Failure
/-!
# Slots and layouts

The numbered places a template keeps its locals in. Scopes nest: closing one frees the slots taken
inside it, so blocks side by side use the same numbers. Names are looked up from the innermost
scope outwards.

The shape of a saved frame is the list of its slots' kinds. A cache holds each shape once, and may
give a shape a name; a name stays with its first shape.
-/

namespace Interlude

/-- What a slot holds. -/
inductive SlotKind where
  | value
  | int
  | float
  | bool
  | string
  | memo
  | renderer
  | buffer
  | thunk
  | sink
  | other (letter : Char)
deriving DecidableEq, Repr, Inhabited

namespace SlotKind

/-- The letter of a kind in the signature of a layout. -/
def letter : SlotKind → Char
  | value => 'V'
  | int => 'I'
  | float => 'F'
  | bool => 'Z'
  | string => 'S'
  | memo => 'M'
  | renderer => 'R'
  | buffer => 'B'
  | thunk => 'T'
  | sink => 'W'
  | other c => c

def known : List SlotKind :=
  [value, int, float, bool, string, memo, renderer, buffer, thunk, sink]

def ofLetter (c : Char) : SlotKind :=
  (known.find? (·.letter == c)).getD (.other c)

def isKnown (k : SlotKind) : Bool := known.any (·.letter == k.letter)

/-- Whether a slot of the kind is written only once its value is known. -/
def isSettled : SlotKind → Bool
  | int | float | bool | string => true
  | _ => false

end SlotKind

/-- A taken slot; only the first slot of a named block has the name. -/
structure Slot where
  index : Nat
  kind : SlotKind
  name : String
deriving DecidableEq, Repr, Inhabited

/-- An open scope: the slots taken before it, the names claimed in it, and the slots of the
compiler's own variables. -/
structure SlotScope where
  start : Nat
  names : List (String × Nat) := []
  keyed : List (String × Nat) := []
deriving Repr, Inhabited

/-- The slots in use, the open scopes from the innermost outwards, and the greatest number of
slots that were ever in use. -/
structure Slots where
  taken : List Slot := []
  scopes : List SlotScope := []
  size : Nat := 0
deriving Inhabited

namespace Slots

/-- Opens a scope. -/
def enter (s : Slots) : Slots :=
  { s with scopes := { start := s.taken.length } :: s.scopes }

/-- No slots and one open scope. -/
def new : Slots := enter {}

/-- Closes the innermost scope and frees its slots. -/
def exit (s : Slots) : Slots :=
  match s.scopes with
  | [] => s
  | scope :: outer => { s with taken := s.taken.take scope.start, scopes := outer }

def depth (s : Slots) : Nat := s.scopes.length

/-- The index the next slot will get. -/
def mark (s : Slots) : Nat := s.taken.length

/-- The same slots with at least one open scope. -/
def opened (s : Slots) : Slots :=
  if s.scopes.isEmpty then s.enter else s

/-- Changes the innermost scope. -/
def mapScope (s : Slots) (f : SlotScope → SlotScope) : Slots :=
  match s.scopes with
  | [] => s
  | scope :: outer => { s with scopes := f scope :: outer }

/-- Takes `width` slots in a row, without a name. -/
def extend (s : Slots) (name : String) (kind : SlotKind) (width : Nat) : Slots :=
  let fresh := (List.range width).map fun i =>
    ({ index := s.mark + i, kind := kind, name := if i = 0 then name else "" } : Slot)
  { s with taken := s.taken ++ fresh, size := max s.size (s.mark + width) }

/-- Takes a block of `width` slots, at least one. A name may be claimed once in a scope; no name
makes the block anonymous. -/
def block (s : Slots) (name : String) (kind : SlotKind) (width : Nat) :
    Except Failure (Nat × Slots) :=
  let s := s.opened
  let claimed := match s.scopes with
    | [] => false
    | scope :: _ => (scope.names.lookup name).isSome
  if !name.isEmpty && claimed then .error (Failure.duplicateSlot name)
  else
    let index := s.mark
    let s := s.extend name kind (max width 1)
    .ok (index, if name.isEmpty then s
      else s.mapScope fun scope => { scope with names := (name, index) :: scope.names })

/-- Takes one slot. -/
def alloc (s : Slots) (name : String) (kind : SlotKind) : Except Failure (Nat × Slots) :=
  s.block name kind 1

/-- Takes an anonymous block. -/
def anonymous (s : Slots) (kind : SlotKind) (width : Nat) : Nat × Slots :=
  let s := s.opened
  (s.mark, s.extend "" kind (max width 1))

/-- The slot of a variable of the compiler's own, taken at its first use in the innermost scope. -/
def synthetic (s : Slots) (key : String) (kind : SlotKind) : Nat × Slots :=
  let s := s.opened
  let found := match s.scopes with
    | [] => none
    | scope :: _ => scope.keyed.lookup key
  match found with
  | some index => (index, s)
  | none =>
    let (index, s) := s.anonymous kind 1
    (index, s.mapScope fun scope => { scope with keyed := (key, index) :: scope.keyed })

/-- The slot that the innermost scope knowing the name gives it. -/
def lookup (s : Slots) (name : String) : Option Slot :=
  match s.scopes.findSome? fun scope => scope.names.lookup name with
  | some index => s.taken[index]?
  | none => none

end Slots

/-- The distinct names a deferred expression reads, in the order of their first occurrence. -/
structure Captures where
  names : List String := []
deriving Inhabited

namespace Captures

/-- Adds a name and tells its position; one that is there already keeps its own. -/
def add (c : Captures) (name : String) : Nat × Captures :=
  match c.names.idxOf? name with
  | some i => (i, c)
  | none => (c.names.length, ⟨c.names ++ [name]⟩)

end Captures

/-! ## Layouts -/

/-- The shape of a frame. -/
structure Layout where
  kinds : List SlotKind
deriving DecidableEq, Repr, Inhabited

namespace Layout

/-- The letters of the kinds in order. -/
def signature (l : Layout) : String := String.ofList (l.kinds.map SlotKind.letter)

def width (l : Layout) : Nat := l.kinds.length

end Layout

/-- The distinct shapes in use, and the names given to some. -/
structure Layouts where
  shapes : List Layout := []
  named : List (String × Layout) := []
deriving Inhabited

namespace Layouts

/-- Adds a shape unless it is there. -/
def insert (c : Layouts) (l : Layout) : Layouts :=
  if c.shapes.contains l then c else { c with shapes := c.shapes ++ [l] }

def size (c : Layouts) : Nat := c.shapes.length

/-- Names a shape. The shape is added even when the name belongs to another one. -/
def define (c : Layouts) (name : String) (l : Layout) : Except Failure Unit × Layouts :=
  let c := c.insert l
  match c.named.lookup name with
  | none => (.ok (), { c with named := (name, l) :: c.named })
  | some previous =>
    if previous = l then (.ok (), c)
    else
      (.error (.fault ((((Failure.compile .layoutRedefined "frame layout redefined").detail
        "name" name).detail "previous" previous.signature).detail "signature" l.signature)), c)

end Layouts

end Interlude
