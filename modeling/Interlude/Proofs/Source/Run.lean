import Interlude.Proofs.Direct.Render
import Interlude.Proofs.Eval.Renumber
import Interlude.Proofs.Read.Guarded
/-!
# Templates run as they are written

A template can be run without a plan and without sinks: statements are read off the tree one after
another, every block comes to the text that it puts out, and locals are kept by name. Content is the
text that its body comes to, and filters are applied to whole values. What an evaluation makes is
told apart by the number the evaluation goes by; that is all a run changes.

Runs that go by other numbers come to the same texts (`Source.block_turns`).
-/

namespace Interlude

open Direct (Setup Scene Handover)

namespace Source

/-- A run: it takes numbers for what it evaluates, and may stop. -/
abbrev Run := StateT Identity (Except Stop)

namespace Run

def fail (cause : Failure) : Run α := fun _ => .error (.failed cause)

def ofExcept : Except Failure α → Run α
  | .ok a => pure a
  | .error e => fail e

/-- Evaluates under the next number. -/
def eval (futures : Futures) (env : Env) (x : Eval α) : Run α := fun n =>
  match x { env with maker := n } { cells := #[], heap := { futures } } with
  | .ok a _ => .ok (a, n + 1)
  | .error e _ => .error e

/-- Takes the numbers for data from outside. -/
def box (x : Boxing α) : Run α := fun n =>
  match x n with
  | .ok r => .ok r
  | .error e => .error (.failed e)

/-- Runs for one after another, and joins their texts. -/
def joined (f : α → Run String) : List α → Run String
  | [] => pure ""
  | a :: rest => do
    let s ← f a
    let later ← joined f rest
    return s ++ later

end Run

/-! ## Params -/

/-- The value of a param that was not given: its default, else undefined. -/
def absent (futures : Futures) (template : String) (p : Param) (env : Env) : Run Value :=
  if p.required then Run.fail (Failure.missingParam template p.name)
  else
    match p.default with
    | none => pure .undefined
    | some e => Run.eval futures env (e.eval .none [])

/-- Completes params and injected data with the values of declared params that were not given. -/
def bindParams (su : Setup) (template : String) (params injected : List (String × Value)) :
    List Param → Run (List (String × Value) × List (String × Value))
  | [] => pure (params, injected)
  | p :: rest =>
    match (if p.injected then injected else params).lookup p.name with
    | some _ => bindParams su template params injected rest
    | none => do
      let v ← absent su.futures template p { params, injected, context := su.context }
      if p.injected then bindParams su template params ((p.name, v) :: injected) rest
      else bindParams su template ((p.name, v) :: params) injected rest

/-! ## Statements -/

/-- What a call comes to: the text of a template on params and injected data. -/
abbrev Caller := Template → List (String × Value) → List (String × Value) → Run String

/-- Runs the callee of a call and applies the filters to all it puts out, unless the call goes
nowhere. -/
def carryOut (su : Setup) (call : Caller) (injected : List (String × Value)) :
    Option Handover → Run String
  | none => pure ""
  | some h => do
    let s ← call h.template h.params injected
    let v ← Run.ofExcept (Filter.applyAll su.futures h.chain (Value.ofContent h.template.kind s))
    return v.text su.futures

section

variable (su : Setup) (call : Caller) (scene : Scene)

/-- Evaluates in the environment of a scene. -/
def eval (x : Eval α) : Run α := Run.eval su.futures (scene.env su) x

/-- A deferred value: it is evaluated at every use, in the environment and under the number it was
made with, which always comes to what its first use comes to. -/
def defer (x : Eval Value) : Run (Eval Value) := fun n =>
  .ok (Eval.onCells #[] { scene.env su with maker := n } x fun _ heap => heap, n + 1)

mutual

/-- Runs a statement before the rest of its block. Tells what it puts out, and the locals after
it. -/
def stmt (r : Reading) (rest : List Stmt) : Stmt → Run (String × Reading)
  | .text s => return (s, r)
  | .print e ds => do
    let s ← eval su scene (Direct.printed r e ds)
    return (s, r)
  | .cond branches otherwise => do
    let s ← firstBranch r (block r otherwise) branches
    return (s, r)
  | .switch subject cases default => do
    let v ← eval su scene (subject.eval r [])
    let s ← firstCase r v (optional r default) cases
    return (s, r)
  | .forRange var start stop step body => do
    let (start, stop, step) ← eval su scene (Direct.range r start stop step)
    let s ← Run.joined (fun i => block (r.bind var (pure (.int i))) body)
      (Direct.numbers start stop step)
    return (s, r)
  | .forEach var list body ifEmpty => do
    let xs ← eval su scene (Direct.items r list)
    if xs.isEmpty then
      let s ← block r ifEmpty
      return (s, r)
    else
      let s ← Run.joined (fun i => block (r.bindItem var xs i) body) (Direct.indices xs.length)
      return (s, r)
  | .letValue name e =>
    match classifyLet name rest with
    | .skip => return ("", r)
    | .eager => do
      let v ← eval su scene (Direct.converted (Program.slotKindOf e.type) (e.eval r []))
      return ("", r.bind name (pure v))
    | .deferred => do
      let x ← defer su scene (e.eval r [])
      return ("", r.bind name x)
  | .letContent name kind body =>
    if Stmt.references rest name then do
      let s ← block r body
      return ("", r.bind name (pure (Value.ofContent kind s)))
    else return ("", r)
  | .call callee target data params ds => do
    let contents ← contents r params
    let found ← eval su scene
      (Direct.dispatch su.templates r scene.data callee target data params contents ds)
    let s ← carryOut su call scene.injected found
    return (s, r)
  | .log body => do
    let _ ← block r body
    return ("", r)

/-- Runs a block; its locals end with it. -/
def block (r : Reading) : List Stmt → Run String
  | [] => pure ""
  | s :: rest => do
    let (out, r) ← stmt r rest s
    let later ← block r rest
    return out ++ later

def firstBranch (r : Reading) (otherwise : Run String) : List (Expr × List Stmt) → Run String
  | [] => otherwise
  | (c, body) :: rest => do
    if ← eval su scene (Direct.bool (c.eval r [])) then block r body
    else firstBranch r otherwise rest

def firstCase (r : Reading) (subject : Value) (otherwise : Run String) :
    List (List Expr × List Stmt) → Run String
  | [] => otherwise
  | (values, body) :: rest => do
    if ← eval su scene (Direct.anyEqual r subject [] values) then block r body
    else firstCase r subject otherwise rest

def optional (r : Reading) : Option (List Stmt) → Run String
  | none => pure ""
  | some body => block r body

/-- Renders the content params of a call; values have no content. -/
def contents (r : Reading) : List (CallParam (List Stmt)) → Run (List (Option Value))
  | [] => pure []
  | .value .. :: rest => do
    let later ← contents r rest
    return none :: later
  | .content _ kind body :: rest => do
    let s ← block r body
    let later ← contents r rest
    return some (Value.ofContent kind s) :: later

end

end

/-- Starts a template: its params are bound, then it is run. -/
def start (su : Setup) (run : Template → Scene → Run String) : Caller := fun t params injected => do
  let (bound, inj) ← bindParams su t.name params injected t.params
  run t { template := t.name, params := bound, injected := inj, data := params }

/-- Runs the body of a template, with calls less than `depth` deep. -/
def run (su : Setup) : Nat → Template → Scene → Run String
  | 0, _, _ => fun _ => .error .exhausted
  | depth + 1, t, scene => block su (start su (run su depth)) scene .none t.body

/-- Renders a basic template with data from outside. -/
def render (su : Setup) (depth : Nat) (name : String) (params injected : List (String × Datum)) :
    Run String := do
  let t ← Run.ofExcept (su.templates.template name)
  let (params, injected) ← Run.box (Direct.boxed params injected)
  start su (run su depth) t params injected

end Source

/-! ## Statements of blocks -/

namespace Stmt

/-- Every statement of a block is such, at any depth. -/
def Every (P : Stmt → Prop) (body : List Stmt) : Prop := ∀ s ∈ flattenAll body, P s

instance {P : Stmt → Prop} [DecidablePred P] (body : List Stmt) : Decidable (Every P body) :=
  inferInstanceAs (Decidable (∀ s ∈ flattenAll body, P s))

variable {P : Stmt → Prop} {s : Stmt} {rest : List Stmt}

theorem flattenBranches_eq (branches : List (Expr × List Stmt)) :
    flattenBranches branches = (branches.map (·.2)).flatMap flattenAll := by
  induction branches with
  | nil => rfl
  | cons b rest ih => rw [flattenBranches, ih, List.map_cons, List.flatMap_cons]

theorem flattenCases_eq (cases : List (List Expr × List Stmt)) :
    flattenCases cases = (cases.map (·.2)).flatMap flattenAll := by
  induction cases with
  | nil => rfl
  | cons c rest ih => rw [flattenCases, ih, List.map_cons, List.flatMap_cons]

theorem flattenOption_eq (default : Option (List Stmt)) :
    flattenOption default = flattenAll (default.getD []) := by
  cases default <;> rfl

/-- The statements nested in a statement are those of its bodies. -/
theorem flatten_eq (s : Stmt) : s.flatten = s :: s.bodies.flatMap flattenAll := by
  cases s with
  | text | print | letValue => rfl
  | cond | switch => simp [flatten, bodies, flattenBranches_eq, flattenCases_eq, flattenOption_eq]
  | forRange | forEach | letContent | log => simp [flatten, bodies]
  | call _ _ _ params _ =>
    rw [flatten, bodies]
    congr 1
    induction params with
    | nil => rfl
    | cons p rest ih =>
      cases p with
      | value => simpa [flattenParams] using ih
      | content => simpa [flattenParams] using ih

theorem self_mem_flatten (s : Stmt) : s ∈ s.flatten := by
  rw [flatten_eq]
  exact List.mem_cons_self

namespace Every

theorem head (h : Every P (s :: rest)) : P s := h s (List.mem_append_left _ (self_mem_flatten s))

theorem tail (h : Every P (s :: rest)) : Every P rest := fun t ht =>
    h t (List.mem_append_right _ ht)

theorem imp {Q : Stmt → Prop} (h : Every P rest) (hPQ : ∀ s, P s → Q s) : Every Q rest :=
    fun s hs => hPQ s (h s hs)

end Every

/-- What no statement references no expression reads. -/
theorem not_mem_reads {name : String} (h : references rest name = false)
    (hs : s ∈ flattenAll rest) {e : Expr} (he : e ∈ s.exprs) : name ∉ e.reads := by
  intro hread
  have hreferences : references rest name = true :=
    List.any_eq_true.2 ⟨s, hs, List.any_eq_true.2 ⟨e, he, by simpa using hread⟩⟩
  exact Bool.false_ne_true (h.symm.trans hreferences)

end Stmt

/-! ## What was made before a run -/

/-- All numbers in a value are below `n`. -/
def Value.MadeBefore (n : Identity) (v : Value) : Prop := ∀ k ∈ v.numbers, k < n

namespace Expr

/-- A value is a literal in an expression. -/
inductive HasLiteral (v : Value) : Expr → Prop where
  | here {t : StaticType} {plain : v.holdsFuture = false} : HasLiteral v (lit t v plain)
  | part {e c : Expr} (hc : c ∈ e.children) (h : HasLiteral v c) : HasLiteral v e

/-- All literals in an expression were made before `n`. -/
def MadeBefore (n : Identity) (e : Expr) : Prop := ∀ v, e.HasLiteral v → v.MadeBefore n

theorem MadeBefore.part {n : Identity} {e c : Expr} (h : e.MadeBefore n) (hc : c ∈ e.parts) :
    c.MadeBefore n :=
  fun v hv => h v (.part (parts_subset_children hc) hv)

end Expr

/-- All literals in a template were made before `n`. -/
structure Template.MadeBefore (n : Identity) (t : Template) : Prop where
  defaults : ∀ p ∈ t.params, ∀ e ∈ p.default, e.MadeBefore n
  body : Stmt.Every (fun s => ∀ e ∈ s.exprs, e.MadeBefore n) t.body

/-- The values of futures were made before `n`. -/
def Futures.MadeBefore (n : Identity) (fs : Futures) : Prop := ∀ v, .complete v ∈ fs.states →
    v.MadeBefore n

theorem Futures.MadeBefore.mono {n m : Identity} {fs : Futures} (h : fs.MadeBefore n)
    (hle : n ≤ m) : fs.MadeBefore m :=
  fun v hv k hk => Nat.lt_of_lt_of_le (h v hv k hk) hle

/-! ## Runs under other numbers -/

namespace Renumbering

variable {N : Renumbering}

theorem Meets.eq_of_ok {α β : Type} {f : α → β} {a : α} {b : β} {m m' : Memory}
    (h : N.Meets f (.ok a m) (.ok b m')) :
    b = f a := by
  cases h
  rfl

/-- The futures are those of a run, and numbers below `n` stay the same. -/
structure Keeps (N : Renumbering) (fs : Futures) (n : Identity) : Prop where
  states : fs.states = N.states
  number : ∀ k < n, N.number k = k

section Keeps

variable {fs : Futures} {n m : Identity}

theorem Keeps.mono (h : N.Keeps fs m) (hle : n ≤ m) : N.Keeps fs n :=
  ⟨h.states, fun k hk => h.number k (Nat.lt_of_lt_of_le hk hle)⟩

theorem Keeps.value (h : N.Keeps fs n) {v : Value} (hv : v.MadeBefore n) : N.value v = v :=
  v.renumber_eq_self fun k hk => h.number k (hv k hk)

/-- All numbers stay the same. -/
def same (fs : Futures) : Renumbering where
  number := id
  injective := Function.injective_id
  states := fs.states
  settled v _ := v.renumber_eq_self fun _ _ => rfl

theorem same_keeps (fs : Futures) (n : Identity) : (same fs).Keeps fs n := ⟨rfl, fun _ _ => rfl⟩

theorem shift_injective (n d : Nat) : Function.Injective fun k : Nat =>
    if k < n then k else k + d := by
  intro a b hab
  dsimp only at hab
  split at hab <;> split at hab <;> omega

/-- Numbers from `n` on grow by `d`. -/
def shift (fs : Futures) (n d : Identity) (h : fs.MadeBefore n) : Renumbering where
  number k := if k < n then k else k + d
  injective := shift_injective n d
  states := fs.states
  settled v hv := v.renumber_eq_self fun k hk => if_pos (h v hv k hk)

theorem shift_keeps {d : Identity} (h : fs.MadeBefore n) : (shift fs n d h).Keeps fs n :=
  ⟨rfl, fun _ hk => if_pos hk⟩

theorem number_shift {d : Identity} (h : fs.MadeBefore n) (k : Identity) :
    (shift fs n d h).number (n + k) = n + d + k := by
  have hk : ¬n + k < n := Nat.not_lt.2 (Nat.le_add_right n k)
  exact (if_neg hk).trans (Nat.add_right_comm n k d)

/-- No local is known. -/
theorem Names.none (h : N.Keeps fs n) : N.Names .none .none (Expr.MadeBefore n) where
  parts hx _ hc := hx.part hc
  lit hx := h.value (hx _ .here)
  var _ _ := .pure N.value .undefined
  loop _ _ := .pure id (0, 0)
  check := rfl
  check' := rfl

end Keeps

/-- The scene under other numbers. -/
def scene (N : Renumbering) (s : Scene) : Scene :=
  { template := s.template, params := N.data s.params, injected := N.data s.injected,
    data := N.data s.data }

section Bind

variable {r r' : Reading} {ok : Expr → Prop}

theorem Names.bindLoop (h : N.Names r r' ok) (name : String) {x x' : Eval Value}
    (hx : ∀ e, N.Turns e N.value x x') (index length : Int64) :
    N.Names (r.bindLoop name x index length) (r'.bindLoop name x' index length) ok where
  parts := h.parts
  lit := h.lit
  var {t n} hn e := by
    simp only [Reading.bindLoop]
    split
    · exact hx e
    · exact h.var hn e
  loop {t u n v} hv e := by
    simp only [Reading.bindLoop]
    split
    · exact .pure id _
    · exact h.loop hv e
  check := h.check
  check' := h.check'

theorem Names.bind (h : N.Names r r' ok) (name : String) {x x' : Eval Value}
    (hx : ∀ e, N.Turns e N.value x x') :
    N.Names (r.bind name x) (r'.bind name x') ok := h.bindLoop name hx 0 0

theorem Names.bindItem (h : N.Names r r' ok) (name : String) (items : List Value) (index : Int64) :
    N.Names (r.bindItem name items index) (r'.bindItem name (N.values items) index) ok := by
  unfold Reading.bindItem
  rw [List.length_map, Value.itemAt_renumber]
  exact h.bindLoop name (fun e => resolve_turns _) _ _

/-- A name that is not read may be bound. -/
theorem Names.unread (h : N.Names r r' ok) (name : String) (x : Eval Value) (index length : Int64) :
    N.Names r (r'.bindLoop name x index length) (fun e => ok e ∧ name ∉ e.reads) where
  parts hx c hc := ⟨h.parts hx.1 c hc, fun hr =>
    hx.2 (Expr.reads_subset (Expr.parts_subset_children hc) hr)⟩
  lit hx := h.lit hx.1
  var {t n} hn e := by
    have hne : (n == name) = false := beq_eq_false_iff_ne.2 fun heq =>
      hn.2 (by simp [Expr.reads, heq])
    simp only [Reading.bindLoop, hne]
    exact h.var hn.1 e
  loop {t u f v} hv e := by
    have hne : (v == name) = false := beq_eq_false_iff_ne.2 fun heq =>
      hv.2 (by simp [Expr.reads, Expr.readsAll, heq])
    simp only [Reading.bindLoop, hne]
    exact h.loop hv.1 e
  check := h.check
  check' := h.check'

/-- What a call evaluates. -/
theorem Names.called (h : N.Names r r' ok) (ts : Directory Template) (given : List (String × Value))
    {name : String} {target : CallTarget} {data : CallData} {params : List (CallParam (List Stmt))}
    (contents : List (Option Value)) {ds : List Directive}
    (hok : ∀ x ∈ (Stmt.call name target data params ds).exprs, ok x) {e : Env} :
    N.Turns e (Option.map N.handover)
      (Direct.dispatch ts r given name target data params contents ds)
      (Direct.dispatch ts r' (N.data given) name target data params
      (contents.map (Option.map N.value)) ds) := by
  simp only [Stmt.exprs, List.forall_mem_append] at hok
  obtain ⟨⟨⟨htarget, hdata⟩, hparams⟩, hds⟩ := hok
  refine h.dispatch ts given name target data params contents ds ?_ ?_ (fun name x hx => ?_) hds
  · rintro x allowEmpty rfl
    exact htarget x List.mem_cons_self
  · rintro x rfl
    exact hdata x List.mem_cons_self
  · exact hparams x (List.mem_filterMap.2 ⟨_, hx, rfl⟩)

end Bind

end Renumbering

namespace Source

variable (N : Renumbering)

/-- Two runs that began at `n` and `n'` have ended alike: both stopped, or both took as many numbers
and came to related results. -/
inductive Meets {α β : Type} (R : α → β → Prop) (n n' : Identity) :
    Except Stop (α × Identity) → Except Stop (β × Identity) → Prop where
  | ok {a : α} {b : β} (h : R a b) (k : Nat) : Meets R n n' (.ok (a, n + k)) (.ok (b, n' + k))
  | error (e e' : Stop) : Meets R n n' (.error e) (.error e')

/-- The second run is the first under other numbers. -/
def Turns {α β : Type} (R : α → β → Prop) (x : Run α) (y : Run β) : Prop :=
  ∀ n n', (∀ k, N.number (n + k) = n' + k) → Meets R n n' (x n) (y n')

namespace Turns

variable {N} {α β γ δ : Type} {R : α → β → Prop} {S : γ → δ → Prop}

theorem pure {a : α} {b : β} (h : R a b) : Turns N R (Pure.pure a) (Pure.pure b) :=
    fun _ _ _ => .ok h 0

theorem weaken {T : α → β → Prop} {x : Run α} {y : Run β} (h : Turns N R x y)
    (hRT : ∀ a b, R a b → T a b) :
    Turns N T x y := by
  intro n n' hn
  have h := h n n' hn
  generalize x n = p at h
  generalize y n' = q at h
  cases h with
  | ok hab k => exact .ok (hRT _ _ hab) k
  | error e e' => exact .error e e'

theorem stop (e e' : Stop) : Turns N R (fun _ => .error e) (fun _ => .error e') :=
    fun _ _ _ => .error e e'

theorem ofExcept (x : Except Failure α) {f : α → β} (h : ∀ a, R a (f a)) :
    Turns N R (Run.ofExcept x) (Run.ofExcept (x.map f)) := by
  cases x with
  | ok a => exact pure (h a)
  | error e => exact stop _ _

theorem bind {x : Run α} {y : Run β} {f : α → Run γ} {g : β → Run δ} (hx : Turns N R x y)
    (hf : ∀ a b, R a b → Turns N S (f a) (g b)) : Turns N S (x >>= f) (y >>= g) := by
  intro n n' hn
  have h := hx n n' hn
  change Meets S n n' (x n >>= fun r => f r.1 r.2) (y n' >>= fun r => g r.1 r.2)
  generalize x n = p at h
  generalize y n' = q at h
  cases h with
  | error e e' => exact .error e e'
  | @ok a b hab k =>
    have hk (j : Nat) : N.number (n + k + j) =
      n' + k + j := by rw [Nat.add_assoc, hn, Nat.add_assoc]
    have h := hf a b hab (n + k) (n' + k) hk
    change Meets S n n' (f a (n + k)) (g b (n' + k))
    generalize f a (n + k) = p at h
    generalize g b (n' + k) = q at h
    cases h with
    | error e e' => exact .error e e'
    | ok hcd j =>
      rw [Nat.add_assoc, Nat.add_assoc]
      exact .ok hcd (k + j)

/-- An evaluation goes by the next number. What it comes to may be known to be such as `Q` tells. -/
theorem eval_of {futures : Futures} (hf : futures.states = N.states) {env env' : Env}
    (henv : ∀ n, N.env { env with maker := n } = { env' with maker := N.number n }) {f : α → β}
    {x : Eval α} {y : Eval β} (h : ∀ e, N.Turns e f x y) {Q : α → Prop}
    (hQ : ∀ e m a m', x e m = .ok a m' → Q a) :
    Turns N (fun a b => b = f a ∧ Q a) (Run.eval futures env x) (Run.eval futures env' y) := by
  intro n n' hn
  have h := h { env with maker := n } { cells := #[], heap := { futures } }
    { cells := #[], heap := { futures } } hf hf
  have hQ := hQ { env with maker := n } { cells := #[], heap := { futures } }
  rw [henv, show N.number n = n' from hn 0] at h
  unfold Run.eval
  generalize x _ _ = p at h hQ
  generalize y _ _ = q at h
  cases h with
  | ok a => exact Meets.ok (R := fun a b => b = f a ∧ Q a) ⟨rfl, hQ a _ rfl⟩ 1
  | error => exact .error _ _

theorem eval {futures : Futures} (hf : futures.states = N.states) {env env' : Env}
    (henv : ∀ n, N.env { env with maker := n } = { env' with maker := N.number n }) {f : α → β}
    {x : Eval α} {y : Eval β} (h : ∀ e, N.Turns e f x y) :
    Turns N (fun a b => b = f a) (Run.eval futures env x) (Run.eval futures env' y) :=
  (eval_of hf henv h (Q := fun _ => True) fun _ _ _ _ _ => trivial).weaken fun _ _ h => h.1

theorem joined {f g : α → Run String} (h : ∀ a, Turns N Eq (f a) (g a)) (as : List α) :
    Turns N Eq (Run.joined f as) (Run.joined g as) := by
  induction as with
  | nil => exact pure rfl
  | cons a rest ih =>
    refine (h a).bind ?_
    rintro s _ rfl
    refine ih.bind ?_
    rintro later _ rfl
    exact pure rfl

end Turns

section

variable {su : Setup} {call : Caller}

/-- The futures are those of a renumbering, and calls of templates run alike under other numbers. -/
structure CallsTurn (su : Setup) (call : Caller) : Prop where
  states : su.futures.states = N.states
  call : ∀ t ∈ su.templates.all, ∀ params injected,
    Turns N Eq (call t params injected) (call t (N.data params) (N.data injected))

variable {N} {ok : Expr → Prop} {r r' : Reading}

/-- Readings that read alike after the statement. -/
def After (N : Renumbering) (ok : Expr → Prop) (a b : String × Reading) : Prop := b.1 = a.1 ∧
    N.Names a.2 b.2 ok

theorem Turns.after {x y : Run String} (h : Turns N Eq x y) (hr : N.Names r r' ok) :
    Turns N (After N ok) (do let s ← x; return (s, r)) (do let s ← y; return (s, r')) := by
  refine h.bind ?_
  rintro s _ rfl
  exact .pure ⟨rfl, hr⟩

namespace CallsTurn

/-- What a statement evaluates. -/
theorem eval (hc : CallsTurn N su call) {α β : Type} (scene : Scene) {f : α → β}
    {x : Eval α} {y : Eval β} (hx : ∀ e, N.Turns e f x y) :
    Turns N (fun a b => b = f a) (Source.eval su scene x) (Source.eval su (N.scene scene) y) :=
  .eval hc.states (fun _ => rfl) hx

theorem carryOut (hc : CallsTurn N su call) (injected : List (String × Value))
    {found : Option Handover} (hfound : ∀ d, found = some d → d.template ∈ su.templates.all) :
    Turns N Eq (Source.carryOut su call injected found)
      (Source.carryOut su call (N.data injected) (found.map N.handover)) := by
  cases found with
  | none => exact .pure rfl
  | some d =>
    refine (hc.call d.template (hfound d rfl) d.params injected).bind ?_
    rintro s _ rfl
    have happly := Filter.applyAll_renumber (ρ := N.number) su.futures d.chain
      (Value.ofContent d.template.kind s)
    rw [Value.renumber_ofContent] at happly
    simp only [Renumbering.handover, happly]
    refine Turns.bind (R := fun a b => b = N.value a) (.ofExcept _ fun _ => rfl) ?_
    rintro v _ rfl
    exact .pure (Value.text_renumber ..).symm

mutual

/-- A statement whose names are read alike. -/
theorem stmt (hc : CallsTurn N su call) (scene : Scene) {r r' : Reading} (hr : N.Names r r' ok)
    (rest : List Stmt) :
    (s : Stmt) → (∀ t ∈ s.flatten, ∀ e ∈ t.exprs, ok e) →
    Turns N (After N ok) (Source.stmt su call scene r rest s)
      (Source.stmt su call (N.scene scene) r' rest s)
  | .text s, _ => .pure ⟨rfl, hr⟩
  | .print e ds, h => by
    have hown := h _ (Stmt.self_mem_flatten _)
    unfold Source.stmt
    refine (hc.eval scene fun _ => hr.printed e ds hown).bind ?_
    rintro s _ rfl
    exact .pure ⟨rfl, hr⟩
  | .cond branches otherwise, h => by
    have hown := h _ (Stmt.self_mem_flatten _)
    unfold Source.stmt
    refine Turns.after (hc.firstBranch scene hr ?_ branches hown fun t ht => h t ?_) hr
    · exact hc.block scene hr otherwise fun t ht =>
        h t (List.mem_cons_of_mem _ (List.mem_append_right _ ht))
    · exact List.mem_cons_of_mem _ (List.mem_append_left _ ht)
  | .switch subject cases default, h => by
    obtain ⟨hsubject, hvalues⟩ := List.forall_mem_cons.1 (h _ (Stmt.self_mem_flatten _))
    unfold Source.stmt
    refine (hc.eval scene fun _ => hr.eval subject hsubject []).bind ?_
    rintro v _ rfl
    refine Turns.after (hc.firstCase scene hr v ?_ cases hvalues fun t ht => h t ?_) hr
    · exact hc.optional scene hr default fun t ht =>
        h t (List.mem_cons_of_mem _ (List.mem_append_right _ ht))
    · exact List.mem_cons_of_mem _ (List.mem_append_left _ ht)
  | .forRange var start stop step body, h => by
    unfold Source.stmt
    refine (hc.eval scene fun _ => hr.range start stop step (h _ (Stmt.self_mem_flatten _))).bind ?_
    rintro ⟨a, b, c⟩ _ rfl
    refine Turns.after (Turns.joined (fun i => ?_) _) hr
    exact hc.block scene (hr.bind var fun _ => .pure N.value (.int i)) body fun t ht =>
      h t (List.mem_cons_of_mem _ ht)
  | .forEach var list body ifEmpty, h => by
    unfold Source.stmt
    refine (hc.eval scene fun _ =>
      hr.items list (h _ (Stmt.self_mem_flatten _) list List.mem_cons_self)).bind ?_
    rintro xs _ rfl
    simp only [Renumbering.values, List.isEmpty_map, List.length_map]
    split
    · refine Turns.after (hc.block scene hr ifEmpty fun t ht => h t ?_) hr
      exact List.mem_cons_of_mem _ (List.mem_append_right _ ht)
    · refine Turns.after (Turns.joined (fun i => ?_) _) hr
      exact hc.block scene (hr.bindItem var xs i) body fun t ht =>
        h t (List.mem_cons_of_mem _ (List.mem_append_left _ ht))
  | .letValue name e, h => by
    have he := h _ (Stmt.self_mem_flatten _) e List.mem_cons_self
    unfold Source.stmt
    split
    · exact .pure ⟨rfl, hr⟩
    · refine (hc.eval scene fun _ => Renumbering.converted_turns (hr.eval e he []) _).bind ?_
      rintro v _ rfl
      exact .pure ⟨rfl, hr.bind name fun _ => .pure N.value v⟩
    · refine Turns.bind (R := fun x y => ∀ e, N.Turns e N.value x y) ?_ fun x y hxy =>
        .pure ⟨rfl, hr.bind name hxy⟩
      intro n n' hn
      refine .ok (fun own => ?_) 1
      have hcells := (hr.eval (e := { scene.env su with maker := n }) e he []).onCells
        (e := own) #[]
      have henv : N.env { scene.env su with maker := n } =
          { (N.scene scene).env su with maker := n' } := by
        rw [show n' = N.number n from (hn 0).symm]
        rfl
      rwa [henv] at hcells
  | .letContent name kind body, h => by
    unfold Source.stmt
    split
    · refine (hc.block scene hr body fun t ht => h t (List.mem_cons_of_mem _ ht)).bind ?_
      rintro s _ rfl
      refine .pure ⟨rfl, hr.bind name fun e => ?_⟩
      have hs := Renumbering.Turns.pure (N := N) (e := e) N.value (Value.ofContent kind s)
      rwa [Renumbering.value, Value.renumber_ofContent] at hs
    · exact .pure ⟨rfl, hr⟩
  | .call callee target data params ds, h => by
    unfold Source.stmt
    refine (hc.contents scene hr params fun t ht => h t (List.mem_cons_of_mem _ ht)).bind ?_
    rintro contents _ rfl
    refine (Turns.eval_of hc.states (fun _ => rfl) (Q := fun found => ∀ h, found = some h →
      h.template ∈ su.templates.all) (fun _ =>
      hr.called su.templates scene.data contents (h _ (Stmt.self_mem_flatten _))) ?_).bind ?_
    · rintro e m found m' hd h rfl
      exact Direct.dispatch_mem hd
    · rintro found _ ⟨rfl, hfound⟩
      exact Turns.after (hc.carryOut scene.injected hfound) hr
  | .log body, h => by
    unfold Source.stmt
    refine (hc.block scene hr body fun t ht => h t (List.mem_cons_of_mem _ ht)).bind ?_
    rintro _ _ _
    exact .pure ⟨rfl, hr⟩

theorem block (hc : CallsTurn N su call) (scene : Scene) {r r' : Reading} (hr : N.Names r r' ok) :
    (body : List Stmt) → Stmt.Every (fun s => ∀ e ∈ s.exprs, ok e) body →
    Turns N Eq (Source.block su call scene r body) (Source.block su call (N.scene scene) r' body)
  | [], _ => .pure rfl
  | s :: rest, h => by
    unfold Source.block
    refine (hc.stmt scene hr rest s fun t ht => h t (List.mem_append_left _ ht)).bind ?_
    rintro ⟨out, r₁⟩ ⟨_, r₂⟩ ⟨rfl, hr⟩
    refine (hc.block scene hr rest h.tail).bind ?_
    rintro later _ rfl
    exact .pure rfl

theorem firstBranch (hc : CallsTurn N su call) (scene : Scene) {r r' : Reading}
    (hr : N.Names r r' ok) {otherwise otherwise' : Run String}
    (ho : Turns N Eq otherwise otherwise') :
    (branches : List (Expr × List Stmt)) → (∀ e ∈ branches.map (·.1), ok e) →
    (∀ t ∈ Stmt.flattenBranches branches, ∀ e ∈ t.exprs, ok e) →
    Turns N Eq (Source.firstBranch su call scene r otherwise branches)
      (Source.firstBranch su call (N.scene scene) r' otherwise' branches)
  | [], _, _ => ho
  | (c, body) :: rest, he, h => by
    obtain ⟨hcond, he⟩ := List.forall_mem_cons.1 he
    unfold Source.firstBranch
    refine (hc.eval scene fun _ => Renumbering.bool_turns (hr.eval c hcond [])).bind ?_
    rintro _ b rfl
    cases b with
    | true => exact hc.block scene hr body fun t ht => h t (List.mem_append_left _ ht)
    | false => exact hc.firstBranch scene hr ho rest he fun t ht => h t (List.mem_append_right _ ht)

theorem firstCase (hc : CallsTurn N su call) (scene : Scene) {r r' : Reading} (hr : N.Names r r' ok)
    (subject : Value) {otherwise otherwise' : Run String} (ho : Turns N Eq otherwise otherwise') :
    (cases : List (List Expr × List Stmt)) → (∀ e ∈ cases.flatMap (·.1), ok e) →
    (∀ t ∈ Stmt.flattenCases cases, ∀ e ∈ t.exprs, ok e) →
    Turns N Eq (Source.firstCase su call scene r subject otherwise cases)
      (Source.firstCase su call (N.scene scene) r' (N.value subject) otherwise' cases)
  | [], _, _ => ho
  | (values, body) :: rest, he, h => by
    rw [List.flatMap_cons, List.forall_mem_append] at he
    unfold Source.firstCase
    refine (hc.eval scene fun _ => hr.anyEqual subject values he.1 []).bind ?_
    rintro _ b rfl
    cases b with
    | true => exact hc.block scene hr body fun t ht => h t (List.mem_append_left _ ht)
    | false =>
      exact hc.firstCase scene hr subject ho rest he.2 fun t ht => h t (List.mem_append_right _ ht)

theorem optional (hc : CallsTurn N su call) (scene : Scene) {r r' : Reading}
    (hr : N.Names r r' ok) :
    (default : Option (List Stmt)) → (∀ t ∈ Stmt.flattenOption default, ∀ e ∈ t.exprs, ok e) →
    Turns N Eq (Source.optional su call scene r default)
      (Source.optional su call (N.scene scene) r' default)
  | none, _ => .pure rfl
  | some body, h => hc.block scene hr body h

theorem contents (hc : CallsTurn N su call) (scene : Scene) {r r' : Reading}
    (hr : N.Names r r' ok) :
    (params : List (CallParam (List Stmt))) →
    (∀ t ∈ Stmt.flattenParams params, ∀ e ∈ t.exprs, ok e) →
    Turns N (fun a b => b = a.map (Option.map N.value)) (Source.contents su call scene r params)
      (Source.contents su call (N.scene scene) r' params)
  | [], _ => .pure rfl
  | .value .. :: rest, h => by
    unfold Source.contents
    refine (hc.contents scene hr rest h).bind ?_
    rintro later _ rfl
    exact .pure rfl
  | .content _ kind body :: rest, h => by
    unfold Source.contents
    refine (hc.block scene hr body fun t ht => h t (List.mem_append_left _ ht)).bind ?_
    rintro s _ rfl
    refine (hc.contents scene hr rest fun t ht => h t (List.mem_append_right _ ht)).bind ?_
    rintro later _ rfl
    refine .pure ?_
    rw [List.map_cons, Option.map_some, Renumbering.value, Value.renumber_ofContent]

end

end CallsTurn

end

/-! ## Templates under other numbers -/

section

variable {su : Setup} {base : Identity}

theorem bindParams_turns {N : Renumbering} (hN : N.Keeps su.futures base) (template : String)
    (ps : List Param) (hps : ∀ p ∈ ps, ∀ e ∈ p.default, e.MadeBefore base)
    (params injected : List (String × Value)) :
    Turns N (fun a b => b = (N.data a.1, N.data a.2)) (bindParams su template params injected ps)
      (bindParams su template (N.data params) (N.data injected) ps) := by
  induction ps generalizing params injected with
  | nil => exact .pure rfl
  | cons p rest ih =>
    obtain ⟨hp, hrest⟩ := List.forall_mem_cons.1 hps
    have habsent : Turns N (fun a b => b = N.value a)
        (absent su.futures template p { params, injected, context := su.context })
        (absent su.futures template p { params := N.data params, injected := N.data injected,
                                        context := su.context }) := by
      unfold absent
      split
      · exact .stop _ _
      · split
        · exact .pure rfl
        · next e he =>
            exact .eval hN.states (fun _ => rfl) fun _ =>
              (Renumbering.Names.none hN).eval e (hp e he) []
    unfold bindParams
    have hgiven : (if p.injected then N.data injected else N.data params).lookup p.name =
        ((if p.injected then injected else params).lookup p.name).map N.value := by
      split <;> exact Value.lookup_renumber ..
    rw [hgiven]
    cases (if p.injected then injected else params).lookup p.name with
    | some v => exact ih hrest params injected
    | none =>
      refine habsent.bind ?_
      rintro v _ rfl
      cases p.injected with
      | true => exact ih hrest params ((p.name, v) :: injected)
      | false => exact ih hrest ((p.name, v) :: params) injected

theorem start_turns {N : Renumbering} (hN : N.Keeps su.futures base)
    {run : Template → Scene → Run String} {t : Template} (ht : t.MadeBefore base)
    (hrun : ∀ scene, Turns N Eq (run t scene) (run t (N.scene scene)))
    (params injected : List (String × Value)) :
    Turns N Eq (start su run t params injected)
      (start su run t (N.data params) (N.data injected)) := by
  refine (bindParams_turns hN t.name t.params ht.defaults params injected).bind ?_
  rintro ⟨bound, inj⟩ _ rfl
  exact hrun _

/-- Calls of templates run alike under other numbers that keep those below `base`. -/
def Uniform (su : Setup) (base : Identity) (call : Caller) : Prop :=
  ∀ N : Renumbering, N.Keeps su.futures base → CallsTurn N su call

/-- Templates run alike, however deep their calls are. -/
theorem run_uniform (hts : ∀ t ∈ su.templates.all, t.MadeBefore base) (depth : Nat) :
    Uniform su base (start su (run su depth)) := by
  induction depth with
  | zero => exact fun N hN => ⟨hN.states, fun t ht => start_turns hN (hts t ht) fun _ => .stop _ _⟩
  | succ depth ih =>
    refine fun N hN => ⟨hN.states, fun t ht => start_turns hN (hts t ht) fun scene => ?_⟩
    exact (ih N hN).block scene (Renumbering.Names.none hN) t.body (hts t ht).body

end

/-! ## Scenes that were made before -/

/-- A scene and a reading in which nothing depends on numbers from `n` on. -/
structure Settled (su : Setup) (base n : Identity) (scene : Scene) (r : Reading) : Prop where
  base_le : base ≤ n
  scene : ∀ N : Renumbering, N.Keeps su.futures n → N.scene scene = scene
  names : ∀ N : Renumbering, N.Keeps su.futures n → N.Names r r (Expr.MadeBefore base)

namespace Settled

variable {su : Setup} {base n m : Identity} {scene : Scene} {r : Reading} {call : Caller}

theorem mono (h : Settled su base n scene r) (hle : n ≤ m) : Settled su base m scene r :=
  ⟨Nat.le_trans h.base_le hle, fun N hN => h.scene N (hN.mono hle), fun N hN =>
    h.names N (hN.mono hle)⟩

theorem bindLoop (h : Settled su base n scene r) (name : String) {x : Eval Value}
    (hx : ∀ N : Renumbering, N.Keeps su.futures n → ∀ e, N.Turns e N.value x x)
    (index length : Int64) :
    Settled su base n scene (r.bindLoop name x index length) :=
  { h with names := fun N hN => (h.names N hN).bindLoop name (hx N hN) index length }

theorem env (h : Settled su base n scene r) {N : Renumbering} (hN : N.Keeps su.futures (n + 1)) :
    N.env { scene.env su with maker := n } = { scene.env su with maker := n } := by
  have hscene : (N.scene scene).env su = scene.env su := by rw [h.scene N (hN.mono (Nat.le_succ n))]
  calc N.env { scene.env su with maker := n }
    _ = { (N.scene scene).env su with maker := N.number n } := rfl
    _ = { scene.env su with maker := n } := by rw [hscene, hN.number n (Nat.lt_succ_self n)]

/-- What is evaluated under the next number is settled after it. -/
theorem eval_ok (h : Settled su base n scene r) {α : Type} {f : Renumbering → α → α} {x : Eval α}
    (hx : ∀ N : Renumbering, N.Keeps su.futures n → ∀ e, N.Turns e (f N) x x) {a : α}
    (ha : Source.eval su scene x n = .ok (a, m)) :
    m = n + 1 ∧ ∀ N : Renumbering, N.Keeps su.futures m → f N a = a := by
  have hkept (N : Renumbering) (hN : N.Keeps su.futures (n + 1)) :
      N.Meets (f N) (x { scene.env su with maker := n }
        { cells := #[], heap := { futures := su.futures } })
            (x { scene.env su with maker := n }
                { cells := #[], heap := { futures := su.futures } }) := by
    have hmeets := hx N (hN.mono (Nat.le_succ n)) { scene.env su with maker := n }
      { cells := #[], heap := { futures := su.futures } }
      { cells := #[], heap := { futures := su.futures } } hN.states hN.states
    rwa [h.env hN] at hmeets
  unfold Source.eval Run.eval at ha
  generalize x { scene.env su with maker := n }
    { cells := #[], heap := { futures := su.futures } } = p at ha hkept
  cases p with
  | error e _ => cases ha
  | ok b _ =>
    cases ha
    refine ⟨rfl, fun N hN => ?_⟩
    exact (hkept N hN).eq_of_ok.symm

/-! ### Locals -/

theorem bind_value (h : Settled su base n scene r) (name : String) {v : Value}
    (hv : ∀ N : Renumbering, N.Keeps su.futures n → N.value v = v) :
    Settled su base n scene (r.bind name (pure v)) := by
  refine h.bindLoop name (fun N hN e => ?_) 0 0
  have hpure := Renumbering.Turns.pure (N := N) (e := e) N.value v
  rwa [hv N hN] at hpure

theorem bind_content (h : Settled su base n scene r) (name : String) (kind : ContentKind)
    (s : String) :
    Settled su base n scene (r.bind name (pure (Value.ofContent kind s))) :=
  h.bind_value name fun _ _ => Value.renumber_ofContent ..

theorem bind_int (h : Settled su base n scene r) (name : String) (i : Int64) :
    Settled su base n scene (r.bind name (pure (.int i))) :=
  h.bind_value name fun _ _ => rfl

theorem bindItem (h : Settled su base n scene r) (name : String) {items : List Value}
    (hitems : ∀ N : Renumbering, N.Keeps su.futures n → N.values items = items) (index : Int64) :
    Settled su base n scene (r.bindItem name items index) := by
  refine h.bindLoop name (fun N hN e => ?_) _ _
  have hsame : items.map (Value.renumber N.number) = items := hitems N hN
  have hitem := Renumbering.resolve_turns (N := N) (e := e) (Value.itemAt items index)
  rwa [Renumbering.value, ← Value.itemAt_renumber, hsame] at hitem

theorem defer (h : Settled su base n scene r) (name : String) (x : Eval Value) {y : Eval Value}
    (hx : ∀ N : Renumbering, N.Keeps su.futures n → ∀ e, N.Turns e N.value x x)
    (hy : Source.defer su scene x n = .ok (y, m)) : m = n + 1 ∧
    Settled su base m scene (r.bind name y) := by
  cases hy
  refine ⟨rfl, (h.mono (Nat.le_succ n)).bindLoop name (fun N hN e => ?_) 0 0⟩
  have hturns := (hx N (hN.mono (Nat.le_succ n)) { scene.env su with maker := n }).onCells (e := e)
    #[]
  rwa [h.env hN] at hturns

/-! ### The same text from other numbers -/

theorem block_shift (h : Settled su base n scene r) (hf : su.futures.MadeBefore base)
    (hc : Uniform su base call) {body : List Stmt}
    (hbody : Stmt.Every (fun s => ∀ e ∈ s.exprs, e.MadeBefore base) body) (d : Nat) :
    Meets Eq n (n + d) (block su call scene r body n) (block su call scene r body (n + d)) := by
  have hf := hf.mono h.base_le
  have hN := Renumbering.shift_keeps (d := d) hf
  have hturns := (hc _ (hN.mono h.base_le)).block scene (h.names _ hN) body hbody n (n + d)
    (Renumbering.number_shift hf)
  rwa [h.scene _ hN] at hturns

theorem stmt_shift (h : Settled su base n scene r) (hf : su.futures.MadeBefore base)
    (hc : Uniform su base call) (rest : List Stmt) {s : Stmt}
    (hs : ∀ t ∈ s.flatten, ∀ e ∈ t.exprs, e.MadeBefore base) (d : Nat) :
    Meets (fun a b => b.1 = a.1) n (n + d) (stmt su call scene r rest s n)
      (stmt su call scene r rest s (n + d)) := by
  have hf := hf.mono h.base_le
  have hN := Renumbering.shift_keeps (d := d) hf
  have hturns := ((hc _ (hN.mono h.base_le)).stmt scene (h.names _ hN) rest s hs).weaken
    (fun _ _ h => h.1) n (n + d) (Renumbering.number_shift hf)
  rwa [h.scene _ hN] at hturns

theorem block_unread (h : Settled su base n scene r) (hc : Uniform su base call) {body : List Stmt}
    (hbody : Stmt.Every (fun s => ∀ e ∈ s.exprs, e.MadeBefore base) body) {name : String}
    (hname : Stmt.references body name = false) (x : Eval Value) (index length : Int64) :
    Meets Eq n n (block su call scene r body n)
      (block su call scene (r.bindLoop name x index length) body n) := by
  have hN := Renumbering.same_keeps su.futures n
  have hturns := (hc _ (hN.mono h.base_le)).block scene ((h.names _ hN).unread name x index length)
    body (fun s hs e he => ⟨hbody s hs e he, Stmt.not_mem_reads hname hs he⟩) n n fun _ => rfl
  rwa [h.scene _ hN] at hturns

theorem stmt_unread (h : Settled su base n scene r) (hc : Uniform su base call)
    (rest : List Stmt) {s : Stmt} (hs : ∀ t ∈ s.flatten, ∀ e ∈ t.exprs, e.MadeBefore base)
    {name : String} (hname : Stmt.references [s] name = false) (x : Eval Value)
    (index length : Int64) :
    Meets (fun a b => b.1 = a.1) n n (stmt su call scene r rest s n)
      (stmt su call scene (r.bindLoop name x index length) rest s n) := by
  have hN := Renumbering.same_keeps su.futures n
  have hturns := ((hc _ (hN.mono h.base_le)).stmt scene ((h.names _ hN).unread name x index length)
    rest s
    fun t ht e he => ⟨hs t ht e he, Stmt.not_mem_reads hname (List.mem_append_left _ ht) he⟩).weaken
      (fun _ _ h => h.1)
    n n fun _ => rfl
  rwa [h.scene _ hN] at hturns

end Settled

end Source

end Interlude
