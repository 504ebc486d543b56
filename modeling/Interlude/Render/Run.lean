import Interlude.Render.Exec
/-!
# Running renders

A call of a render runs its instructions until the template is through, a value is pending, or the
sink asks for a pause. A render that stops keeps its number and the cells in use there; the next
call runs the same instruction again. What was written before is never written again.
-/

namespace Interlude

/-- The machine set up for an instruction: its cells are cleared, and its evaluations, if there are
any, get a number of their own. -/
def Machine.setUp (m : Machine) (i : Instr) : Machine :=
  let fresh := m.store.heap.fresh
  { cells := i.clearScratch m.cells
    store := { m.store with
      heap := { m.store.heap with fresh := if i.op.evaluates then fresh + 1 else fresh } }
    maker := fresh }

namespace Store

/-- Fails a render for good. -/
def failRender (s : Store) (id : RenderId) (r : Render) (cause : Failure) : Outcome × Store :=
  let cause := cause.within r.program.name
  (.failed cause, s.setStatus id (.failed cause))

/-- Suspends a render at an instruction and flushes its sink. -/
def suspend (context : Context) (id : RenderId) (r : Render) (pc : Nat) (m : Machine)
    (outcome : Outcome) :
    Outcome × Store :=
  match r.program.code[pc]? with
  | none => (.broken, m.store)
  | some i =>
    match i.extent with
    | none =>
      m.store.failRender id r
        (.fault (.new .internal .internal ("instruction " ++ i.op.name ++ " cannot suspend")))
    | some x =>
      let frame := SavedFrame.save pc m.cells x.site.slots m.maker
      match (m.store.setStatus id (.suspended frame)).flush r.sink with
      | (.error e, s) => s.failRender id r (Failure.sink e)
      | (.ok _, s) =>
        if context.debug then
          (outcome, s.logged { level := .debug, message := "render suspended", fields := [
            ("template", .str r.program.name), ("state", .int (Int64.ofNat pc)),
            ("op", .str i.op.name),
            ("result", .str (outcome.text s.heap.futures)),
              ("layout", .str x.site.layout.signature)] })
        else (outcome, s)

/-- What an interrupted instruction means for its render. -/
def interrupt (context : Context) (id : RenderId) (r : Render) (pc : Nat) (m : Machine) :
    Interrupt → Outcome × Store
  | .failed e => m.store.failRender id r e
  | .waiting f => suspend context id r pc m (.waiting f)
  | .limited => suspend context id r pc m .limited
  | .exhausted => (.exhausted, m.store)
  | .broken => (.broken, m.store)

/-- Where a render goes on: at its first instruction with cleared cells, or at the one it stopped at
with the cells saved there. -/
def enter (context : Context) (r : Render) (s : Store) : Nat × Machine :=
  let cells := Cells.cleared r.program.size
  match r.status with
  | .suspended frame =>
    match r.program.code[frame.state]? with
    | some i =>
      let slots := (i.extent.map (·.site.slots)).getD []
      let s := if context.debug then
          s.logged { level := .debug, message := "render resumed", fields := [
            ("template", .str r.program.name), ("state", .int (Int64.ofNat frame.state)),
            ("op", .str i.op.name)] }
        else s
      (frame.state, { cells := frame.restore cells slots, store := s, maker := frame.maker })
    | none => (frame.state, { cells, store := s })
  | _ => (0, { cells, store := s })

mutual

/-- Calls a render, for at most `fuel` steps. -/
def invoke (registry : Registry) (context : Context) : Nat → RenderId → Store → Outcome × Store
  | 0, _, s => (.exhausted, s)
  | fuel + 1, id, s =>
    match s.renders[id]? with
    | none => (.broken, s)
    | some r =>
      match r.status with
      | .done => (.done, s)
      | .failed e => (.failed e, s)
      | .abandoned => (.failed (Failure.abandoned r.program.name), s)
      | .ready =>
        let (pc, m) := enter context r s
        steps registry context fuel id r pc false m
      | .suspended _ =>
        let (pc, m) := enter context r (s.setStatus id .ready)
        steps registry context fuel id { r with status := .ready } pc true m

/-- Runs instructions from `pc` on. One that goes on after a stop finds its cells as it left them;
any other is set up first. -/
def steps (registry : Registry) (context : Context) :
    Nat → RenderId → Render → Nat → Bool → Machine → Outcome × Store
  | 0, _, _, _, _, m => (.exhausted, m.store)
  | fuel + 1, id, r, pc, resumed, m =>
    match r.program.code[pc]? with
    | none => (.done, m.store.setStatus id .done)
    | some i =>
      let m := if resumed then m else m.setUp i
      match Exec.instr (invoke registry context fuel) pc i { render := r, registry, context } m with
      | .ok next m => steps registry context fuel id r next false m
      | .error e m => interrupt context id r pc m e

end

/-- The renders called from a suspended frame. -/
def callees (frame : SavedFrame) : List RenderId :=
  frame.cells.filterMap fun c =>
    match c with
    | .call st => some st.callee
    | _ => none

/-- Gives up a render and all it has called, at most `fuel` calls deep. One that is finished stays
so. Nothing is written and no stage is closed. -/
def abandonFrom : Nat → Store → RenderId → Store
  | 0, s, _ => s
  | fuel + 1, s, id =>
    match s.renders[id]? with
    | none => s
    | some r =>
      if r.status.isFinal then s
      else
        let below := (r.status.frame?.map callees).getD []
        (below.foldl (abandonFrom fuel) s).setStatus id .abandoned

/-- Gives up a render. A render is younger than the one that called it, so calls are never deeper
than the number of renders. -/
def abandon (s : Store) (id : RenderId) : Store := abandonFrom s.renders.size s id

end Store

end Interlude
