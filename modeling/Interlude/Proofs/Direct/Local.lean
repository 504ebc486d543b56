import Interlude.Proofs.Direct.Run
/-!
# Locals and content

A local is put into a new cell and stands for the same as its name in the direct run: a value in the
form of the cell's kind, or a deferred value with the cells it captures. A body whose output is kept
or passes stages writes to the buffer or the wrapped sink in a new cell (`content_performs`,
`stream_performs`).
-/

namespace Interlude

open Direct (World Act Setup Scene Caller)

/-- A cell that is no deferred value. -/
def Cell.Ready : Cell → Prop
  | thunk _ => False
  | _ => True

/-- Reading a local that is not deferred gives the value in its cell. -/
theorem Binding.eval_held {P : Pairing} {force : ThunkId → Eval Value} {slot : Nat}
    {kind : SlotKind} (hk : kind ≠ .thunk) {c : Cell} (hc : P.left.read slot = c) :
    P.Alike Value (Binding.eval force { slot, kind }) (pure (c.held kind)) := by
  unfold Binding.eval
  refine Pairing.cell_left hc ?_
  cases kind with
  | thunk => exact (hk rfl).elim
  | _ => exact P.compatible.pure _

theorem Exec.buffer_apply {slot : Nat} {buf : BufferId} {m : Machine}
    (h : m.cells.read slot = .buffer buf) (sur : Surroundings) :
    Exec.buffer slot sur m = .ok buf m :=
  Exec.cell_bind h _ sur

namespace Situated

variable {su : Setup} {made : Array Thunk} {b b' : Program.Builder} {m m' : Machine} {r : Reading}
  {w w' : World}
  (h : Situated su made b m r w)

include h

/-- A local that a loop may be told by is added; its cells lie below the mark. -/
theorem bindLoop (name : String) {c : Binding} {x : Eval Value} {index length : Int64}
    (hseen : c.Seen (m.Sees made b.slots.mark))
    (hx : ∀ env, Pairing.Alike ⟨su.futures.states, env, m.cells, #[]⟩ Value
      (c.eval (Thunk.meaning made)) x)
    (hl : ∀ i l, c.loop = some (i, l) → (m.cells.read i).int = index ∧
      (m.cells.read l).int = length) (hn : c.loop = none → index = 0 ∧ length = 0) :
    Situated su made { b with locals := b.locals.bind name c } m
      (r.bindLoop name x index length) w where
  store := h.store
  slots := h.slots
  seen := h.seen.bind hseen name
  reads env := (h.reads env).bindLoop (hx env) hl hn

/-- A local that is no local of a loop is added. -/
theorem bind (name : String) (slot : Nat) (kind : SlotKind) {x : Eval Value}
    (hslot : slot < b.slots.mark) (hthunk : ∀ id, m.cells.read slot = .thunk id → id < made.size)
    (hx : ∀ env, Pairing.Alike ⟨su.futures.states, env, m.cells, #[]⟩ Value
      (Binding.eval (Thunk.meaning made) { slot, kind }) x) :
    Situated su made { b with locals := b.locals.bind name { slot, kind } } m
      (r.bind name x) w := by
  refine h.bindLoop name ⟨⟨hslot, hthunk⟩, ?_⟩ hx ?_ fun _ => ⟨rfl, rfl⟩
  · rintro i l ⟨⟩
  · rintro i l ⟨⟩

/-- A local with the value in its cell is added. -/
theorem bindHeld (name : String) (slot : Nat) (kind : SlotKind) (hk : kind ≠ .thunk)
    (hslot : slot < b.slots.mark) (hready : (m.cells.read slot).Ready) :
    Situated su made { b with locals := b.locals.bind name { slot, kind } } m
      (r.bind name (pure ((m.cells.read slot).held kind))) w := by
  refine h.bind name slot kind hslot (fun id hid => ?_) fun env => Binding.eval_held hk rfl
  rw [hid] at hready
  exact hready.elim

end Situated

namespace Program

variable {su : Setup} {reg : Registry} {depth : Nat} {a : Analyzer} {call : Caller}

theorem slotKindOf_ne_thunk (t : StaticType) : slotKindOf t ≠ .thunk := by
  unfold slotKindOf
  split
  · simp
  · split <;> simp

/-! ## Values -/

theorem eager_performs {name : String} {e : Expr} :
    Performs su reg depth a (fun out pc => compilePlan out pc (.eager name e))
      fun scene r sink => Direct.plan su call scene r sink (.eager name e) := by
  intro out pc b b' is id rd made m r sink w hcode hhas hsize h ho
  unfold compilePlan at hcode
  obtain ⟨slot, b₁, halloc, hcode⟩ := Build.bind_ok hcode
  obtain ⟨⟨c, state, x⟩, b₂, hstep, hcode⟩ := Build.bind_ok hcode
  obtain ⟨u, b₃, hbind, hcode⟩ := Build.bind_ok hcode
  obtain ⟨rfl, rfl⟩ := Build.pure_ok hcode
  cases hbind
  obtain ⟨hslot, hmark, hg, hl⟩ := Build.alloc_ok h.slots halloc
  have h₁ := h.grown hg hl
  obtain ⟨hx, ht, hcome⟩ := h₁.exprParts hstep
  obtain ⟨table, ht⟩ := ht []
  have hmemo := hx.mark_le_memo
  have hlt : slot < m.cells.size := by
    have := h₁.slots.size
    have := hx.resized.size
    have hsize : b₂.slots.size ≤ m.cells.size := hsize
    omega
  have hop : Operand (· < b₁.slots.mark) _ (fun _ => False) (Eval.cellOf · (slotKindOf e.type) c) :=
    Operand.cellOf ht
  unfold Direct.plan
  refine .instr hhas.head (fun _ _ _ _ => Op.noConfusion) fun invoke => ?_
  refine Exec.Follows.bind
    ((h₁.evaluates (f := Cell.held (slotKindOf e.type)) (g := fun v => v) hx rfl rfl hop
      (fun _ hj => hj.elim) (fun env cells hc => ?_) rd reg).also (p := fun c _ => c.Ready)
      fun _ _ _ _ hc _ => ?_) ?_
  · rw [id_map']
    exact Direct.cellOf_alike (hcome env cells hc) _
  · obtain ⟨_, rfl⟩ | ⟨_, rfl⟩ | ⟨_, rfl⟩ := Exec.eval_cellOf hc <;> trivial
  · rintro cell m' v w' ⟨⟨hheld, hs⟩, hready⟩
    have hheld : cell.held (slotKindOf e.type) = v := hheld
    subst hheld
    let i : Instr := { op := .store slot (slotKindOf e.type) c, extent := some x }
    let m'' : Machine := { m' with cells := i.clearMemo (m'.cells.write slot cell) }
    have hs' : m.Still b.slots.mark made su.futures.states m'' w' :=
      ((hs.mono (by omega)).write (Nat.le_of_eq hslot.symm) cell).clearMemo rfl (by omega)
    have hcell : m''.cells.read slot = cell :=
      (Instr.read_clearMemo rfl (by omega) _).trans
        (Cells.read_write_self (by rw [hs.cells.size]; exact hlt) cell)
    have h₂ := ((h.still (.refl made) hs').grown hg hl).resized hx.resized
    have h₃ := h₂.bindHeld name slot _ (slotKindOf_ne_thunk e.type) (by rw [hx.resized.mark]; omega)
      (by rw [hcell]; exact hready)
    rw [hcell] at h₃
    exact ⟨rfl, made, .refl made, hs', h₃⟩

/-- A deferred value is made: it means what the direct run defers. -/
theorem deferred_performs {name : String} {e : Expr} :
    Performs su reg depth a (fun out pc => compilePlan out pc (.deferred name e))
      fun scene r sink => Direct.plan su call scene r sink (.deferred name e) := by
  intro out pc b b' is id rd made m r sink w hcode hhas hsize h ho
  unfold compilePlan at hcode
  obtain ⟨slot, b₁, halloc, hcode⟩ := Build.bind_ok hcode
  obtain ⟨a', b₂, hread, hcode⟩ := Build.bind_ok hcode
  cases hread
  obtain ⟨b₃, b₄, hget, hcode⟩ := Build.bind_ok hcode
  cases hget
  obtain ⟨code, b₅, hlift, hcode⟩ := Build.bind_ok hcode
  obtain ⟨u, b₆, hbind, hcode⟩ := Build.bind_ok hcode
  obtain ⟨rfl, rfl⟩ := Build.pure_ok hcode
  cases hbind
  cases hthunk : ThunkCode.compile { analyzer := a, locals := b₁.locals } e with
  | error err => rw [hthunk] at hlift; cases hlift
  | ok code' =>
  rw [hthunk] at hlift
  cases hlift
  obtain ⟨hslot, hmark, hg, hl⟩ := Build.alloc_ok h.slots halloc
  have h₁ := h.grown hg hl
  have hfits := ThunkCode.compile_fits h₁.below hthunk
  have hlt : slot < m.cells.size := by
    have := h₁.slots.size
    have hsize : b₁.slots.size ≤ m.cells.size := hsize
    omega
  -- what is made
  let env : Env := { rd.scene.env su with maker := w.fresh }
  let t : Thunk := { code := code.code, cells := code.own m.cells, env }
  let w' : World := { w with fresh := w.fresh + 1 }
  let m' : Machine :=
    { cells := m.cells.write slot (.thunk made.size)
      store := { m.store with heap := { m.store.heap with
        thunks := m.store.heap.thunks.push t, fresh := m.store.heap.fresh + 1 } }
      maker := m.store.heap.fresh }
  have hclean (j : Nat) (v : Value) (hj : t.code.table j ≠ none) : t.cells.read j ≠ .value v := by
    have hempty : t.cells.read j = Cell.empty :=
      code.read_own m.cells fun c hc hcj => hj (by rw [← hcj]; exact hfits.apart c hc)
    rw [hempty]
    exact fun hv => by cases hv
  have hs : m.Still b.slots.mark (made.push t) su.futures.states m' w' := by
    refine ⟨(Cells.SameBelow.refl ..).write (Nat.le_of_eq hslot.symm) _, ?_⟩
    exact { h.store with
      tidy := fun j g hj => by
        rw [Array.getElem?_push] at hj
        split at hj
        · cases hj
          exact hfits.tidy
        · exact h.store.tidy j g hj
      sound := h.store.sound.push rfl hclean _
      fresh := congrArg (· + 1) h.store.fresh }
  have hrun (invoke : RenderId → Store → Outcome × Store) :
      Exec.instr invoke pc { op := .storeThunk slot code } ⟨rd, reg, su.context⟩
        (m.setUp { op := .storeThunk slot code }) = .ok (pc + 1) m' := by
    rw [m.setUp_plain rfl]
    simp only [m', ← h.store.sound.size, t, env, ← h.store.fresh]
    rfl
  have h₂ := (h.still (.push made t) hs).grown hg hl
  have hcell : m'.cells.read slot = .thunk made.size := Cells.read_write_self hlt _
  have h₃ := h₂.bind name slot .thunk (by omega) (fun id hid => ?_) fun env' =>
    show Pairing.Alike _ Value _ (Eval.onCells #[] env (e.eval r []) fun _ heap => heap) from ?_
  · unfold Direct.plan
    refine .instr hhas.head (fun _ _ _ _ => Op.noConfusion) fun invoke => ?_
    rw [hrun invoke]
    exact ⟨rfl, made.push t, .push made t, hs, h₃⟩
  · rw [hcell] at hid
    cases hid
    rw [Array.size_push]
    exact Nat.lt_succ_self _
  · unfold Binding.eval
    refine Pairing.cell_left hcell ?_
    change Pairing.Alike _ Value (Thunk.meaning (made.push t) made.size) _
    rw [Thunk.meaning_push]
    refine Pairing.Alike.onCells ?_
    exact ThunkCode.compile_alike h₁.below hthunk (h₁.reads env)

/-! ## Content -/

/-- A body that writes into a buffer in a new cell. -/
theorem gather_plays {body : Out → Nat → Build (List Instr)}
    {run : Scene → Reading → Sink → Act Unit} (hbody : Compiles a body)
    (hrun : Carries su reg depth a body run) {b b₁ b₂ : Builder} {slot pc : Nat} {code : List Instr}
    {id : RenderId} {rd : Render} {made : Array Thunk} {m : Machine} {r : Reading} {w : World}
    (halloc : Build.alloc "" .buffer a b = .ok (slot, b₁))
    (hcode : body (.cell slot) (pc + 1) a b₁ = .ok (code, b₂))
    (hhas : rd.program.Has pc ({ op := .beginBuffer slot } :: code))
    (hsize : b₂.slots.size ≤ m.cells.size) (h : Situated su made b m r w) :
    rd.Plays reg su.context id depth (rd.course reg su.context id pc m) (fun _ =>
      pc + 1 + code.length) (fun buf m' w' => m.Went su made b.slots.mark m' w' ∧
      m'.cells.read slot = .buffer buf) (Act.gather (run rd.scene r) w) := by
  obtain ⟨hslot, hmark, hg, hl⟩ := Build.alloc_ok h.slots halloc
  have h₁ := h.grown hg hl
  have hfits : Out.Fits (Shapes.below b₁.slots.mark) (.cell slot) := .inl (if_pos (by omega))
  obtain ⟨g', hp⟩ := hbody h₁.holds hfits hcode
  have hlt : slot < m.cells.size := by
    have := h₁.slots.size
    have := hp.grows.size
    omega
  have hbegin : rd.Plays reg su.context id depth (rd.course reg su.context id pc m)
      (fun _ => pc + 1) (fun buf m' w' => m.Still b.slots.mark made su.futures.states m' w' ∧
        m'.cells.read slot = .buffer buf)
      (Act.newBuffer w) := by
    refine .instr hhas.head (fun _ _ _ _ => Op.noConfusion) fun invoke => ?_
    rw [m.setUp_plain rfl]
    have hs : m.store.streams = w.streams := h.store.streams
    refine ⟨rfl, ⟨(Cells.SameBelow.refl ..).write (Nat.le_of_eq hslot.symm) _, ?_⟩, ?_⟩
    · change Store.Shows made su.futures.states
        { m.store with streams := m.store.streams.newBuffer.2 } _
      rw [hs]
      exact h.store.withStreams h.store.unlimited
    · change (m.cells.write slot (.buffer m.store.streams.newBuffer.1)).read slot = _
      rw [hs]
      exact Cells.read_write_self hlt _
  refine hbegin.bind ?_
  rintro buf m₁ w₁ ⟨hs₁, hbuf⟩
  have hreach : Out.Reaches rd b₁.slots.mark m₁.cells (.buffer buf) (.cell slot) :=
    ⟨by omega, .inl ⟨buf, hbuf, rfl⟩⟩
  refine (hrun id hcode hhas.tail (by rw [hs₁.cells.size]; exact hsize)
    ((h.still (.refl made) hs₁).grown hg hl) hreach).bind fun _ m₂ w₂ hw => ?_
  have hwent := hw
  obtain ⟨made', he, hs₂⟩ := hw
  exact .done rfl ⟨.after (.refl made) hs₁ hwent hg.mark,
    (hs₂.cells.read slot (by omega)).trans hbuf⟩

/-- What a body renders to is put into a cell. -/
theorem buffered_plays {body : Out → Nat → Build (List Instr)}
    {run : Scene → Reading → Sink → Act Unit} (hbody : Compiles a body)
    (hrun : Carries su reg depth a body run) {b b' : Builder} {dst pc : Nat} {kind : ContentKind}
    {code : List Instr} (id : RenderId) {rd : Render} {made : Array Thunk} {m : Machine}
    {r : Reading} {w : World} (hcode : Build.buffered pc dst kind body a b = .ok (code, b'))
    (hhas : rd.program.Has pc code) (hsize : b'.slots.size ≤ m.cells.size)
    (h : Situated su made b m r w) (hdst : dst < b.slots.mark) :
    Resized b b' ∧
      rd.Plays reg su.context id depth (rd.course reg su.context id pc m) (fun _ =>
      pc + code.length) (fun s m' w' => m.Went su made dst m' w' ∧
      m'.cells.read dst = .value (Value.ofContent kind s)) (Act.collect (run rd.scene r) w) := by
  obtain ⟨b₁, hcode, hexit⟩ := Build.inScope_ok hcode
  obtain ⟨slot, b₂, halloc, hcode⟩ := Build.bind_ok hcode
  obtain ⟨inner, b₃, hinner, hcode⟩ := Build.bind_ok hcode
  obtain ⟨rfl, rfl⟩ := Build.pure_ok hcode
  obtain ⟨g', hin⟩ := enclosed_ok hbody (s := .buffer) h.inner.holds (.inl rfl) halloc
    (.refl b₂) hinner
  obtain ⟨hr, hsame⟩ := hexit hin.grows
  rw [hsame] at hsize
  have hslot : slot = b.slots.mark := hin.fresh
  have hcells : dst < m.cells.size := by
    have := h.slots.size
    have hgrown : b.slots.size ≤ b₁.slots.size := hin.grows.size
    omega
  refine ⟨hr, ?_⟩
  have hend := hhas.right.head
  rw [List.length_cons, Nat.add_comm inner.length 1, ← Nat.add_assoc] at hend
  refine (gather_plays hbody hrun halloc hinner hhas.left hsize h.inner).bind ?_
  rintro buf m₁ w₁ ⟨⟨made', he, hs₁⟩, hbuf⟩
  refine .instr hend (fun _ _ _ _ => Op.noConfusion) fun invoke => ?_
  rw [m₁.setUp_plain rfl]
  -- the buffer is read, and its cell given up
  let content : Cell := .value (Value.ofContent kind (w₁.streams.bufferText buf))
  let m₂ : Machine :=
    { cells := (m₁.cells.write dst content).write slot .empty, store := m₁.store,
      maker := m₁.store.heap.fresh }
  have hrun : Exec.instr invoke (pc + 1 + inner.length) { op := .endBuffer slot dst kind }
      ⟨rd, reg, su.context⟩ { m₁ with maker := m₁.store.heap.fresh } =
          .ok (pc + 1 + inner.length + 1) m₂ := by
    change (Exec.buffer slot >>= _ : Exec Nat) _ _ = _
    rw [Exec.bind_apply, Exec.buffer_apply (m := { m₁ with maker := m₁.store.heap.fresh }) hbuf]
    change EStateM.Result.ok _ _ = _
    rw [hs₁.store.streams]
  rw [hrun]
  refine ⟨by simp only [List.length_append, List.length_cons, List.length_nil]; omega, ?_, ?_⟩
  · have hlow : m.Still dst made' su.futures.states m₁ w₁ := hs₁.mono (Nat.le_of_lt hdst)
    exact ⟨made', he, (hlow.cells.write (Nat.le_refl dst) _).write (by omega) _, hs₁.store⟩
  · rw [show m₂.cells.read dst = (m₁.cells.write dst content).read dst from
      Cells.read_write_of_ne _ (by omega) _]
    exact Cells.read_write_self (by rw [hs₁.cells.size]; exact hcells) _

theorem content_performs {name : String} {kind : ContentKind} {body : List Plan}
    (hbody : Carries su reg depth a (fun out pc => compileBlock out pc body)
      fun scene r sink => Direct.block su call scene r sink body) :
    Performs su reg depth a (fun out pc => compilePlan out pc (.content name kind body))
      fun scene r sink => Direct.plan su call scene r sink (.content name kind body) := by
  intro out pc b b' is id rd made m r sink w hcode hhas hsize h ho
  unfold compilePlan at hcode
  obtain ⟨slot, b₁, halloc, hcode⟩ := Build.bind_ok hcode
  obtain ⟨code, b₂, hbuffered, hcode⟩ := Build.bind_ok hcode
  obtain ⟨u, b₃, hbind, hcode⟩ := Build.bind_ok hcode
  obtain ⟨rfl, rfl⟩ := Build.pure_ok hcode
  cases hbind
  obtain ⟨hslot, hmark, hg, hl⟩ := Build.alloc_ok h.slots halloc
  obtain ⟨hr, hplays⟩ :=
    buffered_plays (compileBlock_ok body) hbody id hbuffered hhas hsize (h.grown hg hl) (by omega)
  unfold Direct.plan
  refine hplays.bind ?_
  rintro s m' w' ⟨⟨made', he, hs⟩, hcell⟩
  rw [hslot] at hs
  have h₁ := ((h.still he hs).grown hg hl).resized hr
  have h₂ := h₁.bindHeld name slot .value (by simp) (by rw [hr.mark]; omega)
    (by rw [hcell]; trivial)
  rw [hcell] at h₂
  exact .done rfl ⟨made', he, hs, h₂⟩

theorem log_performs {body : List Plan}
    (hbody : Carries su reg depth a (fun out pc => compileBlock out pc body)
      fun scene r sink => Direct.block su call scene r sink body) :
    Performs su reg depth a (fun out pc => compilePlan out pc (.log body))
      fun scene r sink => Direct.plan su call scene r sink (.log body) := by
  intro out pc b b' is id rd made m r sink w hcode hhas hsize h ho
  unfold compilePlan at hcode
  obtain ⟨b₁, hcode, hexit⟩ := Build.inScope_ok hcode
  obtain ⟨slot, b₂, halloc, hcode⟩ := Build.bind_ok hcode
  obtain ⟨inner, b₃, hinner, hcode⟩ := Build.bind_ok hcode
  obtain ⟨rfl, rfl⟩ := Build.pure_ok hcode
  obtain ⟨g', hin⟩ := enclosed_ok (compileBlock_ok body) (s := .buffer) h.inner.holds (.inl rfl)
    halloc (.refl b₂) hinner
  obtain ⟨hr, hsame⟩ := hexit hin.grows
  rw [hsame] at hsize
  have hslot : slot = b.slots.mark := hin.fresh
  have hend := hhas.right.head
  rw [List.length_cons, Nat.add_comm inner.length 1, ← Nat.add_assoc] at hend
  unfold Direct.plan
  simp only [Act.collect, bind_assoc]
  refine (gather_plays (compileBlock_ok body) hbody halloc hinner hhas.left hsize h.inner).bind ?_
  rintro buf m₁ w₁ ⟨⟨made', he, hs₁⟩, hbuf⟩
  refine .instr hend (fun _ _ _ _ => Op.noConfusion) fun invoke => ?_
  rw [m₁.setUp_plain rfl]
  let entry : Log.Entry :=
    { level := .info, message := w₁.streams.bufferText buf,
      fields := [("template", .str rd.program.name)] }
  let m₂ : Machine :=
    { cells := m₁.cells.write slot .empty, store := m₁.store.logged entry,
      maker := m₁.store.heap.fresh }
  have hrun : Exec.instr invoke (pc + 1 + inner.length) { op := .log slot } ⟨rd, reg, su.context⟩
      { m₁ with maker := m₁.store.heap.fresh } = .ok (pc + 1 + inner.length + 1) m₂ := by
    change (Exec.buffer slot >>= _ : Exec Nat) _ _ = _
    rw [Exec.bind_apply, Exec.buffer_apply (m := { m₁ with maker := m₁.store.heap.fresh }) hbuf]
    change EStateM.Result.ok _ _ = _
    rw [hs₁.store.streams]
  rw [hrun]
  have hs₂ : m.Still b.slots.mark made' su.futures.states m₂ { w₁ with log := w₁.log ++ [entry] } :=
    ⟨hs₁.cells.write (Nat.le_of_eq hslot.symm) _, hs₁.store.logged rfl⟩
  exact ⟨by simp only [List.length_append, List.length_cons, List.length_nil]; omega,
    h.went ⟨made', he, hs₂⟩ hr⟩

/-- Stages are put before a sink, and the way to them into a cell. -/
theorem beginWrap_plays {b b' : Builder} {slot state : Nat} {x : Extent} {kind : ContentKind}
    {ds : List Directive} {fs : List FilterCall} {out : Out} {pc low : Nat} {id : RenderId}
    {rd : Render} {made : Array Thunk} {m : Machine} {r : Reading} {sink : Sink} {w : World}
    (hstep : Build.step none (fun _ => Build.filters ds) a b = .ok ((fs, state, x), b'))
    (hi : rd.program.code[pc]? = some { op := .beginWrap out slot kind fs, extent := some x })
    (h : Situated su made b m r w) (ho : out.Reaches rd b.slots.mark m.cells sink)
      (hlow : low ≤ slot)
    (hslot : slot < b.slots.mark) (hlt : slot < m.cells.size) :
    rd.Plays reg su.context id depth (rd.course reg su.context id pc m) (fun _ => pc + 1)
      (fun opened m' w' => m.Still low made su.futures.states m' w' ∧
        m'.cells.read slot = .wrap opened.1 opened.2)
      (Direct.opened su rd.scene r sink kind ds w) := by
  obtain ⟨hx, ht, hcome⟩ := h.parts hstep fun _ _ hw hs hc =>
    ⟨Build.filters_ok hw hs hc, fun _ _ hr => (Build.filters_come hr hc).1⟩
  obtain ⟨table, ht⟩ := ht []
  have hmemo := hx.mark_le_memo
  refine .instr hi (fun _ _ _ _ => Op.noConfusion) fun invoke => ?_
  have hop : Operand (· < b.slots.mark) _ (fun _ => False) (Eval.filterArgs · [] fs) :=
    Operand.filterArgs ht
  refine Exec.Follows.bind ((h.evaluates (f := Eval.applied fs) (g := fun c => c) hx rfl rfl hop
    (fun _ hj => hj.elim) (fun env cells hc => ?_) rd reg).also (p := fun args _ =>
    args.length = fs.length)
    fun _ _ _ _ hargs _ => ?_) ?_
  · rw [id_map']
    exact Direct.chain_alike (hcome env cells hc) []
  · obtain ⟨mem, hmem, -⟩ := Exec.eval_ok hargs
    exact Direct.filterArgs_length hmem
  · rintro args m₁ chain w₁ ⟨⟨rfl, hs₁⟩, hlen⟩
    refine .skip ((ho.keep hs₁.cells).target rfl) ?_
    refine Exec.Follows.bind (Exec.wrap_follows hs₁.store fs args su.futures kind sink) ?_
    rintro entry m₂ _ w₂ ⟨rfl, hcells, hshow⟩
    have hs₂ : m.Still b.slots.mark made su.futures.states m₂ w₂ :=
      ⟨by rw [hcells]; exact hs₁.cells, hshow⟩
    refine ⟨rfl, ((hs₂.mono (Nat.le_of_lt (Nat.lt_of_le_of_lt hlow hslot))).write hlow _).clearMemo
      rfl (by omega), ?_⟩
    rw [Direct.applied_length hlen]
    exact (Instr.read_clearMemo rfl (by omega) _).trans
      (Cells.read_write_self (by rw [hs₂.cells.size]; exact hlt) _)

theorem stream_performs {kind : ContentKind} {body : List Plan} {ds : List Directive}
    (hbody : Carries su reg depth a (fun out pc => compileBlock out pc body)
      fun scene r sink => Direct.block su call scene r sink body) :
    Performs su reg depth a (fun out pc => compilePlan out pc (.stream kind body ds))
      fun scene r sink => Direct.plan su call scene r sink (.stream kind body ds) := by
  intro out pc b b' is id rd made m r sink w hcode hhas hsize h ho
  unfold compilePlan at hcode
  obtain ⟨b₄, hcode, hexit⟩ := Build.inScope_ok hcode
  obtain ⟨slot, b₁, halloc, hcode⟩ := Build.bind_ok hcode
  obtain ⟨⟨fs, state, x⟩, b₂, hstep, hcode⟩ := Build.bind_ok hcode
  obtain ⟨inner, b₃, hinner, hcode⟩ := Build.bind_ok hcode
  obtain ⟨rfl, rfl⟩ := Build.pure_ok hcode
  obtain ⟨hslot, hmark, hg, hl⟩ := Build.alloc_ok h.slots.enter halloc
  have hslot : slot = b.slots.mark := hslot
  have hmark : b₁.slots.mark = b.slots.mark + 1 := hmark
  have h₁ := h.inner.grown hg hl
  have ho₁ := ho.mono (by omega : b.slots.mark ≤ b₁.slots.mark)
  obtain ⟨hx, _⟩ := h₁.parts hstep fun _ _ hw hs hc =>
    ⟨Build.filters_ok hw hs hc, fun _ _ hr => (Build.filters_come hr hc).1⟩
  obtain ⟨g', hin⟩ := enclosed_ok (compileBlock_ok body) (s := .wrap) h.inner.holds (.inr rfl)
    halloc hx.resized hinner
  obtain ⟨hr, hsame⟩ := hexit hin.grows
  rw [hsame] at hsize
  have hlt : slot < m.cells.size := by
    have := h₁.slots.size
    have := hx.resized.size
    have := hin.size
    omega
  have hend := hhas.right.head
  rw [List.length_cons, Nat.add_comm inner.length 1, ← Nat.add_assoc] at hend
  unfold Direct.plan
  refine (beginWrap_plays hstep hhas.head h₁ ho₁ (Nat.le_of_eq hslot.symm) (by omega) hlt).bind ?_
  rintro ⟨entry, stages⟩ m₁ w₁ ⟨hs₁, hwrap⟩
  have h₂ := ((h.still (.refl made) hs₁).inner.grown hg hl).resized hx.resized
  have hreach : Out.Reaches rd b₂.slots.mark m₁.cells entry (.cell slot) :=
    ⟨by rw [hx.resized.mark]; omega, .inr ⟨stages, hwrap⟩⟩
  refine (hbody id hinner hhas.left.tail (by rw [hs₁.cells.size]; exact hsize) h₂ hreach).bind ?_
  rintro _ m₂ w₂ ⟨made', he, hs₂⟩
  rw [hx.resized.mark] at hs₂
  refine .instr hend (fun _ _ _ _ => Op.noConfusion) fun invoke => ?_
  rw [m₂.setUp_plain rfl]
  -- the cell is given up, then the stages are closed
  let m₃ : Machine := { cells := m₂.cells.write slot .empty, store := m₂.store,
                        maker := m₂.store.heap.fresh }
  have hrun : Exec.instr invoke (pc + 1 + inner.length) { op := .endWrap slot }
      ⟨rd, reg, su.context⟩ { m₂ with maker := m₂.store.heap.fresh } =
        (Exec.close entry stages >>= fun _ => pure (pc + 1 + inner.length + 1))
            ⟨rd, reg, su.context⟩ m₃ :=
    Exec.cell_bind (m := { m₂ with maker := m₂.store.heap.fresh })
      ((hs₂.cells.read slot (by omega)).trans hwrap) _ _
  rw [hrun]
  have hstore : m₃.store.Shows made' su.futures.states w₂ := hs₂.store
  refine Exec.Follows.bind (Exec.close_follows hstore entry stages) ?_
  rintro _ m₄ _ w₄ ⟨hcells, hshow⟩
  have hs₄ : m.Still b.slots.mark made' su.futures.states m₄ w₄ := by
    refine ⟨?_, hshow⟩
    rw [hcells]
    exact (hs₁.cells.trans (hs₂.cells.mono (by omega))).write (Nat.le_of_eq hslot.symm) _
  exact ⟨by simp only [List.length_append, List.length_cons, List.length_nil]; omega,
    h.went ⟨made', he, hs₄⟩ hr⟩

end Program

end Interlude
