import Interlude.Term.Lower
import Interlude.Template.Plan
import Interlude.Frame.Slot
import Interlude.Frame.Cell
/-!
# Programs

A template as a list of instructions. An instruction that can stop knows which slots are in use
there; its number and those slots are all that is kept while the render waits, and going on means to
run it again.
-/

namespace Interlude

/-- Where an instruction writes: to the sink of its render, or to the buffer or wrapped sink in a
cell. -/
inductive Out where
  | sink
  | cell (slot : Nat)
deriving DecidableEq, Repr, Inhabited

/-- A filter with the code of its arguments. -/
structure FilterCall where
  filter : Filter
  args : List Compiled

/-- Whom a call instruction calls. -/
inductive Callee where
  | template
  | delegate (variant : Option Compiled) (allowEmpty : Bool)

/-- What a call instruction hands over besides its arguments. -/
inductive Passed where
  | none
  | all
  | record (e : Compiled)

/-- An argument of a call: content rendered into a cell before, a param of the caller passed on as
it is, or a value. -/
inductive Argument where
  | content (name : String) (slot : Nat)
  | forward (name param : String)
  | value (name : String) (e : Compiled)

structure CallSite where
  name : String
  callee : Callee
  passed : Passed
  args : List Argument

/-- What an instruction does. -/
inductive Op where
  | text (out : Out) (s : String)
  | print (out : Out) (e : Compiled) (filters : List FilterCall)
  | checkLimit
  | jump (target : Nat)
  | jumpIfFalse (e : Compiled) (target : Nat)
  | caseMatch (slot : Nat) (values : List Compiled) (target : Nat)
  | store (slot : Nat) (kind : SlotKind) (e : Compiled)
  | storeThunk (slot : Nat) (code : ThunkCode)
  | rangeInit (base : Nat) (start stop step : Option Compiled)
  | rangeNext (base target : Nat)
  | rangeStep (base target : Nat)
  | eachInit (base : Nat) (list : Compiled) (target : Nat)
  | eachNext (base target : Nat)
  | eachStep (base target : Nat)
  | beginBuffer (slot : Nat)
  | endBuffer (slot dst : Nat) (kind : ContentKind)
  | call (out : Out) (slot : Nat) (site : CallSite) (filters : List FilterCall)
  | log (slot : Nat)
  | beginWrap (out : Out) (slot : Nat) (kind : ContentKind) (filters : List FilterCall)
  | endWrap (slot : Nat)

/-- The name of an operation in traces. -/
def Op.name : Op → String
  | text .. => "text"
  | print .. => "print"
  | checkLimit => "checklimit"
  | jump _ => "jump"
  | jumpIfFalse .. => "jumpiffalse"
  | caseMatch .. => "casematch"
  | store .. => "store"
  | storeThunk .. => "storethunk"
  | rangeInit .. => "rangeinit"
  | rangeNext .. => "rangenext"
  | rangeStep .. => "rangestep"
  | eachInit .. => "eachinit"
  | eachNext .. => "eachnext"
  | eachStep .. => "eachstep"
  | beginBuffer _ => "beginbuffer"
  | endBuffer .. => "endbuffer"
  | call .. => "call"
  | log _ => "log"
  | beginWrap .. => "beginwrap"
  | endWrap _ => "endwrap"

/-- Whether an operation evaluates expressions. -/
def Op.evaluates : Op → Bool
  | print .. => true
  | jumpIfFalse .. => true
  | caseMatch .. => true
  | store .. => true
  | rangeInit .. => true
  | eachInit .. => true
  | call .. => true
  | beginWrap .. => true
  | _ => false

/-- The slots in use at an instruction that can stop, and their kinds. -/
structure SaveSite where
  slots : List Nat
  layout : Layout

/-- The cells an instruction works in: its own from `low` to `high`, of which those from `memo` on
hold results of its expressions; and what is kept when it stops. -/
structure Extent where
  low : Nat := 0
  memo : Nat := 0
  high : Nat := 0
  site : SaveSite

structure Instr where
  op : Op
  extent : Option Extent := none

namespace Instr

/-- Clears all cells of the instruction. Blocks side by side use the same cells, so an instruction
that starts must not see what another left there. -/
def clearScratch (i : Instr) (cells : Cells) : Cells :=
  match i.extent with
  | some x => cells.clear x.low x.high
  | none => cells

/-- Clears the results of the instruction's expressions. -/
def clearMemo (i : Instr) (cells : Cells) : Cells :=
  match i.extent with
  | some x => cells.clear x.memo x.high
  | none => cells

end Instr

/-- A declared param with the code of its default and the number of cells that needs. -/
structure ParamDecl where
  name : String
  type : StaticType
  required : Bool
  injected : Bool
  default : Option (Compiled × Nat)

/-- A compiled template. -/
structure Program where
  name : String
  kind : ContentKind
  source : String
  delegate : Option Delegate
  params : List ParamDecl
  code : Array Instr
  size : Nat

namespace Program

/-- The distinct layouts of a program's save sites, in order. -/
def layouts (p : Program) : List Layout :=
  (p.code.toList.filterMap fun i => i.extent.map (·.site.layout)).eraseDups

end Program

end Interlude
