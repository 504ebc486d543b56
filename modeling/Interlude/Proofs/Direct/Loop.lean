import Interlude.Proofs.Direct.Local
/-!
# Loops

A loop keeps in three cells where it stands. By induction on the items that are left: the code of a
loop plays its body once for every item (`forRange_performs`, `forEach_performs`). A range counts in
sixty-four bits and stops before it would overflow, so it runs over the same numbers as if there
were no bound.
-/

namespace Interlude

open Direct (World Act Setup Scene Caller)

namespace Direct

/-! ## The items of a loop -/

variable {current stop step : Int64}

/-- How many numbers are left, the current one included. -/
theorem count_succ (c s : Int) {d : Int} (hd : 0 < d) :
    (s - c + d - 1) / d = (s - c - 1) / d + 1 := by
  rw [show s - c + d - 1 = s - c - 1 + 1 * d by omega, Int.add_mul_ediv_right _ _ (Int.ne_of_gt hd)]

theorem numbers_of_le (hstep : 0 < step) (h : stop ≤ current) : numbers current stop step = [] := by
  rw [Int64.lt_iff_toInt_lt, Int64.toInt_zero] at hstep
  rw [Int64.le_iff_toInt_le] at h
  have hcount : (stop.toInt - current.toInt + step.toInt - 1) / step.toInt ≤ 0 := by
    rw [count_succ _ _ hstep]
    have : (stop.toInt - current.toInt - 1) / step.toInt < 0 :=
      Int.ediv_neg_of_neg_of_pos (by omega) hstep
    omega
  simp [numbers, Int.toNat_of_nonpos hcount]

/-- The range goes on with the next number; past the largest number there is none. -/
theorem numbers_of_lt (hstep : 0 < step) (h : current < stop) :
    numbers current stop step = current :: numbers (Exec.rangeNumber current stop step)
      stop step := by
  have hpos := hstep
  rw [Int64.lt_iff_toInt_lt, Int64.toInt_zero] at hpos
  have hlt := h
  rw [Int64.lt_iff_toInt_lt] at hlt
  have hfew : 0 ≤ (stop.toInt - current.toInt - 1) / step.toInt :=
    Int.ediv_nonneg (by omega) (by omega)
  have hfirst : numbers current stop step = current ::
      (List.range ((stop.toInt - current.toInt - 1) / step.toInt).toNat).map fun k : Nat =>
        Int64.ofInt (current.toInt + (k + 1 : Nat) * step.toInt) := by
    unfold numbers
    simp only [count_succ _ _ hpos]
    rw [Int.toNat_add hfew (by omega), show (1 : Int).toNat = 1 from rfl, List.range_succ_eq_map,
      List.map_cons, List.map_map]
    simp [Function.comp_def]
  rw [hfirst]
  congr 1
  have hmax : (Int64.maxValue - step).toInt = 2 ^ 63 - 1 - step.toInt := by
    rw [Int64.toInt_sub, Int64.toInt_maxValue]
    have := step.toInt_lt
    exact Int.bmod_eq_of_le (by omega) (by omega)
  unfold Exec.rangeNumber
  split
  · next hover =>
    rw [Int64.lt_iff_toInt_lt, hmax] at hover
    have := stop.toInt_lt
    have hnone : (stop.toInt - current.toInt - 1) / step.toInt = 0 :=
      Int.ediv_eq_zero_of_lt (by omega) (by omega)
    rw [numbers_of_le hstep (Int64.le_refl stop), hnone]
    rfl
  · next hfits =>
    rw [Int64.lt_iff_toInt_lt, hmax] at hfits
    have hnext : (current + step).toInt = current.toInt + step.toInt := by
      rw [Int64.toInt_add]
      have := current.le_toInt
      exact Int.bmod_eq_of_le (by omega) (by omega)
    unfold numbers
    simp only [hnext]
    rw [show stop.toInt - (current.toInt + step.toInt) + step.toInt - 1 =
      stop.toInt - current.toInt - 1 by omega]
    refine List.map_congr_left fun k _ => congrArg Int64.ofInt ?_
    rw [Int.natCast_add, Int.add_mul]
    omega

/-- The step of a range is positive. -/
theorem range_positive {s : Strategy} {start stop step : Option Compiled} {env : Env}
    {m m' : Memory} {bounds : Int64 × Int64 × Int64}
    (h : Eval.range s start stop step env m = .ok bounds m') : 0 < bounds.2.2 := by
  rw [Eval.range, Eval.bind_apply] at h
  split at h
  · rw [Eval.bind_apply] at h
    split at h
    · rw [Eval.bind_apply] at h
      split at h
      · next d _ _ =>
        split at h
        · cases h
        · next hpos =>
          split at h
          · cases h
          · cases h
            exact Int64.not_le.1 hpos
      · cases h
    · cases h
  · cases h

/-- The indices from one on. -/
def indicesFrom (k length : Nat) : List Int64 :=
  (List.range' k ((Int64.ofNat length).toInt.toNat - k)).map Int64.ofNat

theorem indices_eq (length : Nat) : indices length = indicesFrom 0 length := by
  rw [indices, indicesFrom, List.range_eq_range', Nat.sub_zero]

/-- An index that is not past the end. -/
structure Index (k length : Nat) : Prop where
  le : k ≤ (Int64.ofNat length).toInt.toNat
  toInt : (Int64.ofNat k).toInt = k

theorem Index.of_le {k length : Nat} (h : k ≤ (Int64.ofNat length).toInt.toNat) :
    Index k length := by
  refine ⟨h, Int64.toInt_ofNat_of_lt ?_⟩
  have := (Int64.ofNat length).toInt_lt
  omega

theorem Index.zero (length : Nat) : Index 0 length := .of_le (Nat.zero_le _)

theorem indicesFrom_of_le {k length : Nat} (hk : Index k length)
    (h : Int64.ofNat length ≤ Int64.ofNat k) :
    indicesFrom k length = [] := by
  rw [Int64.le_iff_toInt_le, hk.toInt] at h
  rw [indicesFrom, show (Int64.ofNat length).toInt.toNat - k = 0 by omega]
  rfl

theorem indicesFrom_of_lt {k length : Nat} (hk : Index k length)
    (h : ¬Int64.ofNat length ≤ Int64.ofNat k) :
    indicesFrom k length = Int64.ofNat k :: indicesFrom (k + 1) length ∧ Index (k + 1) length ∧
      Int64.ofNat k + 1 = Int64.ofNat (k + 1) := by
  rw [Int64.le_iff_toInt_le, hk.toInt] at h
  have hnext : Index (k + 1) length := .of_le (by omega)
  refine ⟨?_, hnext, ?_⟩
  · rw [indicesFrom, show (Int64.ofNat length).toInt.toNat - k =
      (Int64.ofNat length).toInt.toNat - (k + 1) + 1 by omega, List.range'_succ]
    rfl
  · rw [Int64.ofNat_add]
    rfl

end Direct

namespace Program

variable {su : Setup} {reg : Registry} {depth : Nat} {a : Analyzer} {call : Caller}

/-! ## Rounds -/

/-- One round of a loop: a pause if the body may wait, and the body. -/
theorem round_plays {source : List Stmt} {body : List Plan}
    (hbody : Carries su reg depth a (fun out pc => compileBlock out pc body)
      fun scene r sink => Direct.block su call scene r sink body)
    {out : Out} {pc : Nat} {b b₁ b₂ : Builder} {pause code : List Instr} (id : RenderId)
    {rd : Render} {made : Array Thunk} {m : Machine} {r : Reading} {sink : Sink} {w : World}
    (hpause : Build.loopCheck source a b = .ok (pause, b₁))
    (hcode : Build.inScope (compileBlock out (pc + pause.length) body) a b₁ = .ok (code, b₂))
    (hhas : rd.program.Has pc (pause ++ code)) (hsize : b₂.slots.size ≤ m.cells.size)
    (h : Situated su made b m r w) (ho : out.Reaches rd b.slots.mark m.cells sink) :
    rd.Plays reg su.context id depth (rd.course reg su.context id pc m) (fun _ =>
      pc + (pause ++ code).length) (fun _ m' w' => m.Went su made b.slots.mark m' w')
      (Direct.block su call rd.scene r sink body w) := by
  have hscope := hbody.scope (compileBlock_ok body)
  obtain ⟨b₃, b₄, hget, hpause⟩ := Build.bind_ok hpause
  cases hget
  obtain ⟨a', b₅, hread, hpause⟩ := Build.bind_ok hpause
  cases hread
  rw [List.length_append, ← Nat.add_assoc]
  split at hpause
  · obtain ⟨check, hpause, hcheck⟩ := check_plays h.slots hpause
    obtain ⟨rfl, rfl⟩ := Build.pure_ok hpause
    obtain ⟨m₁, hlead, hs₁⟩ := hcheck hhas.left.head h.store b₁.slots.mark
    have hplays := hscope id hcode hhas.right (by rw [hs₁.cells.size]; exact hsize)
      (h.still (.refl made) hs₁) (ho.keep hs₁.cells)
    exact .lead hlead (hplays.imp fun _ _ _ hw => ⟨rfl, .after (.refl made) hs₁ hw (Nat.le_refl _)⟩)
  · obtain ⟨rfl, rfl⟩ := Build.pure_ok hpause
    exact hscope id hcode hhas.right hsize h ho

/-- The code of a loop plays a run once for every item that is left. What is left is told by the
cells below `high`, of which those from the mark on are the loop's own. -/
theorem loop_plays {ι : Type} (left : List ι → Cells → Prop) (high last stop : Nat) {b : Builder}
    (hle : b.slots.mark ≤ high)
    (hleft : ∀ {xs cells cells'}, left xs cells → Cells.SameBelow high cells cells' →
      left xs cells') {id : RenderId} {rd : Render} {pc : Nat} {cells : Cells} {r : Reading}
    {run : ι → Act Unit} (hnext : ∀ {xs made m w}, Situated su made b m r w →
      left xs m.cells → ∃ m',
      (rd.course reg su.context id pc m).Leads
      (rd.course reg su.context id (if xs.isEmpty then stop else pc + 1) m') ∧
      m.Still high made su.futures.states m' w) (hround : ∀ {x xs made m w},
      cells.SameBelow b.slots.mark m.cells → Situated su made b m r w → left (x :: xs) m.cells →
      rd.Plays reg su.context id depth (rd.course reg su.context id (pc + 1) m) (fun _ => last)
      (fun _ m' w' => m.Went su made high m' w') (run x w)) (hback : ∀ {x xs made m w},
      cells.SameBelow b.slots.mark m.cells → Situated su made b m r w → left (x :: xs) m.cells →
      ∃ m', (rd.course reg su.context id last m).Leads (rd.course reg su.context id pc m') ∧
      m.Still b.slots.mark made su.futures.states m' w ∧ left xs m'.cells) {xs : List ι}
      {made : Array Thunk} {m : Machine} {w : World} (hc : cells.SameBelow b.slots.mark m.cells)
      (h : Situated su made b m r w) (hxs : left xs m.cells) :
    rd.Plays reg su.context id depth (rd.course reg su.context id pc m) (fun _ => stop)
      (fun _ m' w' => m.Went su made b.slots.mark m' w') (xs.forM run w) := by
  induction xs generalizing made m w with
  | nil =>
    obtain ⟨m₁, hlead, hs₁⟩ := hnext h hxs
    exact .lead hlead (.done rfl (hs₁.mono hle).went)
  | cons x xs ih =>
    obtain ⟨m₁, hlead, hs₁⟩ := hnext h hxs
    have h₁ := h.still (.refl made) (hs₁.mono hle)
    have hc₁ := hc.trans (hs₁.mono hle).cells
    refine .lead hlead (.bind (hround hc₁ h₁ (hleft hxs hs₁.cells)) ?_)
    rintro _ m₂ w₂ ⟨made', he, hs₂⟩
    have hc₂ := hc₁.trans (hs₂.mono hle).cells
    obtain ⟨m₃, hlead', hs₃, hxs'⟩ :=
      hback hc₂ (h₁.still he (hs₂.mono hle)) (hleft (hleft hxs hs₁.cells) hs₂.cells)
    have hs : m.Still b.slots.mark made' su.futures.states m₃ w₂ :=
      ((hs₁.trans hs₂).mono hle).trans hs₃
    have hrest := ih (hc₂.trans hs₃.cells) (h.still he hs) hxs'
    exact .lead hlead' (hrest.imp fun _ _ _ hw => ⟨rfl, .after he hs hw (Nat.le_refl _)⟩)

/-- The slots of a loop: its variable, and two cells more. -/
theorem loopSlots {b b₁ b₂ : Builder} {var : String} {kind : SlotKind} {base i : Nat}
    (hw : b.slots.Wf) (hvar : Build.alloc var kind a b = .ok (base, b₁))
    (hblock : Build.onSlots (·.block "" .int 2) a b₁ = .ok (i, b₂)) :
    base = b.slots.mark ∧ b₂.slots.mark = base + 3 ∧ b.slots.Grows b₂.slots ∧
    b₂.locals = b.locals := by
  obtain ⟨hbase, hm₁, hg₁, hl₁⟩ := Build.alloc_ok hw hvar
  obtain ⟨hs, hl₂⟩ := Build.onSlots_ok hblock
  obtain ⟨_, hm₂, hg₂⟩ := hg₁.wf.block hs
  exact ⟨hbase, by omega, hg₁.trans hg₂, hl₂.trans hl₁⟩

/-- Three cells of a loop that stand behind all others. -/
structure LoopCells (base : Nat) (first second third : Cell) (cells : Cells) : Prop where
  first : cells.read base = first
  second : cells.read (base + 1) = second
  third : cells.read (base + 2) = third

theorem LoopCells.keep {base : Nat} {first second third : Cell} {cells cells' : Cells}
    (h : LoopCells base first second third cells) (hc : Cells.SameBelow (base + 3) cells cells') :
    LoopCells base first second third cells' :=
  ⟨(hc.read _ (by omega)).trans h.first, (hc.read _ (by omega)).trans h.second,
    (hc.read _ (by omega)).trans h.third⟩

/-- The cells of a loop are written. -/
theorem LoopCells.set {base : Nat} (first second third : Cell) {cells : Cells}
    (hsize : base + 2 < cells.size) :
    LoopCells base first second third
      (((cells.write base first).write (base + 1) second).write (base + 2) third) where
  first := by
    rw [Cells.read_write_of_ne _ (by omega), Cells.read_write_of_ne _ (by omega),
      Cells.read_write_self (by omega)]
  second := by
    rw [Cells.read_write_of_ne _ (by omega),
      Cells.read_write_self (by rw [Cells.size_write]; omega)]
  third := Cells.read_write_self (by rw [Cells.size_write, Cells.size_write]; omega) _

/-! ## Ranges -/

/-- The numbers that a range has left. -/
def RangeLeft (base : Nat) (stop step : Int64) (xs : List Int64) (cells : Cells) : Prop :=
  ∃ current, xs = Direct.numbers current stop step ∧
    LoopCells base (.ofInt current) (.ofInt stop) (.ofInt step) cells

theorem RangeLeft.keep {base : Nat} {stop step : Int64} {xs : List Int64} {cells cells' : Cells}
    (h : RangeLeft base stop step xs cells) (hc : Cells.SameBelow (base + 3) cells cells') :
    RangeLeft base stop step xs cells' := by
  obtain ⟨current, hxs, hcells⟩ := h
  exact ⟨current, hxs, hcells.keep hc⟩

/-- What the cells hold while numbers are left. -/
theorem RangeLeft.current {base : Nat} {stop step x : Int64} (hstep : 0 < step) {xs : List Int64}
    {cells : Cells} (h : RangeLeft base stop step (x :: xs) cells) :
    xs = Direct.numbers (Exec.rangeNumber x stop step) stop step ∧
      LoopCells base (.ofInt x) (.ofInt stop) (.ofInt step) cells := by
  obtain ⟨current, hxs, hcells⟩ := h
  have hlt : current < stop := by
    refine Int64.not_le.1 fun hle => ?_
    rw [Direct.numbers_of_le hstep hle] at hxs
    cases hxs
  rw [Direct.numbers_of_lt hstep hlt, List.cons.injEq] at hxs
  obtain ⟨rfl, hxs⟩ := hxs
  exact ⟨hxs, hcells⟩

theorem rangeNext_leads {pc base target : Nat} {stop step : Int64} (hstep : 0 < step)
    {id : RenderId} {rd : Render} {made : Array Thunk} {m : Machine} {w : World} {xs : List Int64}
    (hi : rd.program.code[pc]? = some { op := .rangeNext base target })
    (hm : m.store.Shows made su.futures.states w) (h : RangeLeft base stop step xs m.cells)
    (mark : Nat) : ∃ m',
    (rd.course reg su.context id pc m).Leads
      (rd.course reg su.context id (if xs.isEmpty then target else pc + 1) m') ∧
    m.Still mark made su.futures.states m' w := by
  obtain ⟨current, rfl, hcells⟩ := h
  refine ⟨{ m with maker := m.store.heap.fresh }, Render.course_step hi fun invoke =>
    ?_, .refl .., hm⟩
  rw [m.setUp_plain rfl]
  change EStateM.Result.ok (if (m.cells.read (base + 1)).int ≤ (m.cells.read base).int then target
    else pc + 1) _ = _
  rw [hcells.first, hcells.second, Cell.int_ofInt, Cell.int_ofInt]
  split
  · next hle => rw [Direct.numbers_of_le hstep hle]; rfl
  · next hlt => rw [Direct.numbers_of_lt hstep (Int64.not_le.1 hlt)]; rfl

theorem rangeStep_leads {pc base target : Nat} {stop step x : Int64} (hstep : 0 < step)
    {id : RenderId} {rd : Render} {made : Array Thunk} {m : Machine} {w : World} {xs : List Int64}
    (hi : rd.program.code[pc]? = some { op := .rangeStep base target })
    (hm : m.store.Shows made su.futures.states w) (hsize : base < m.cells.size)
    (h : RangeLeft base stop step (x :: xs) m.cells) :
    ∃ m', (rd.course reg su.context id pc m).Leads (rd.course reg su.context id target m') ∧
    m.Still base made su.futures.states m' w ∧ RangeLeft base stop step xs m'.cells := by
  obtain ⟨hxs, hcells⟩ := h.current hstep
  let next : Cell := .ofInt (Exec.rangeNumber x stop step)
  refine ⟨{ cells := m.cells.write base next, store := m.store, maker := m.store.heap.fresh },
    Render.course_step hi fun invoke =>
    ?_, ⟨(Cells.SameBelow.refl ..).write (Nat.le_refl base) _, hm⟩, ?_⟩
  · rw [m.setUp_plain rfl]
    change EStateM.Result.ok target { m with
      cells := m.cells.write base
        (.ofInt (Exec.rangeNumber (m.cells.read base).int (m.cells.read (base + 1)).int
          (m.cells.read (base + 2)).int))
      maker := m.store.heap.fresh } = _
    rw [hcells.first, hcells.second, hcells.third, Cell.int_ofInt, Cell.int_ofInt, Cell.int_ofInt]
  · refine ⟨_, hxs, Cells.read_write_self hsize _, ?_, ?_⟩
    · exact (Cells.read_write_of_ne _ (by omega) _).trans hcells.second
    · exact (Cells.read_write_of_ne _ (by omega) _).trans hcells.third

/-- The parts of a range. -/
theorem rangeParts {b b' : Builder} {start : Option Expr} {stop : Expr} {stride : Option Expr}
    {cs : Option Compiled × Compiled × Option Compiled} {state : Nat} {x : Extent}
    {made : Array Thunk} {m : Machine} {r : Reading} {w : World}
    (hstep : Build.step none (fun _ => do
      let start ← Build.optional start
      let stop ← Build.expr stop
      let stride ← Build.optional stride
      return (start, stop, stride)) a b = .ok ((cs, state, x), b')) (h : Situated su made b m r w) :
    Build.Stepped b b' none state x ∧
      (∃ table, Operand (· < b.slots.mark) (keepIn x.memo x.high table) (fun _ => False)
        (Eval.range · cs.1 (some cs.2.1) cs.2.2)) ∧
      ∀ env cells, m.cells.SameBelow b.slots.mark cells →
        Pairing.Alike ⟨su.futures.states, env, cells, #[]⟩ (Int64 × Int64 × Int64)
          (Eval.range (.meaning made) cs.1 (some cs.2.1) cs.2.2)
              (Direct.range r start stop stride) := by
  obtain ⟨cstart, cstop, cstride⟩ := cs
  obtain ⟨hx, ht, hcome⟩ :=
      h.parts hstep (T := fun keep _ => touchOption (· < b.slots.mark) keep [0] cstart ∧
        cstop.Touches (· < b.slots.mark) keep [1] ∧ touchOption (· < b.slots.mark) keep [2] cstride)
      (C := fun P force => Compiled.OptionComes P force r cstart start ∧
        cstop.Comes P force (stop.eval r) ∧ Compiled.OptionComes P force r cstride stride) <| by
    intro b₁ b₂ hw hs hparts
    obtain ⟨c₁, b₃, hc₁, hparts⟩ := Build.bind_ok hparts
    obtain ⟨c₂, b₄, hc₂, hparts⟩ := Build.bind_ok hparts
    obtain ⟨c₃, b₅, hc₃, hparts⟩ := Build.bind_ok hparts
    obtain ⟨hpair, rfl⟩ := Build.pure_ok hparts
    cases hpair
    have p₁ := Build.optional_ok hw hs hc₁
    have p₂ := Build.expr_ok p₁.grows.wf (by rw [p₁.locals]; exact hs) hc₂
    have p₃ := Build.optional_ok p₂.grows.wf (by rw [p₂.locals, p₁.locals]; exact hs) hc₃
    refine ⟨p₁.and (p₂.and p₃ (fun _ => [1]) fun _ => [2]) (fun _ => [0]) fun _ =>
      [], fun P force hr => ?_⟩
    exact ⟨(Build.optional_comes hr hc₁).1, (Build.expr_comes (by rw [p₁.locals]; exact hr) hc₂).1,
      (Build.optional_comes (by rw [p₂.locals, p₁.locals]; exact hr) hc₃).1⟩
  obtain ⟨table, ht⟩ := ht []
  refine ⟨hx, ⟨table, Operand.range ht⟩, fun env cells hc => ?_⟩
  obtain ⟨hstart, hstop, hstride⟩ := hcome env cells hc
  exact Direct.range_alike hstart hstop hstride

theorem forRange_performs {var : String} {start : Option Expr} {stop : Expr} {stride : Option Expr}
    {source : List Stmt} {body : List Plan}
    (hbody : Carries su reg depth a (fun out pc => compileBlock out pc body) fun scene r sink =>
      Direct.block su call scene r sink body) :
    Performs su reg depth a (fun out pc =>
      compilePlan out pc (.forRange var start stop stride source body)) fun scene r sink =>
    Direct.plan su call scene r sink (.forRange var start stop stride source body) := by
  intro out pc b b' is id rd made m r sink w hcode hhas hsize h ho
  unfold compilePlan at hcode
  obtain ⟨check, hcode, hcheck⟩ := check_plays h.slots hcode
  obtain ⟨b₆, hcode, hexit⟩ := Build.inScope_ok hcode
  obtain ⟨base, b₁, hbase, hcode⟩ := Build.bind_ok hcode
  obtain ⟨i, b₂, hblock, hcode⟩ := Build.bind_ok hcode
  obtain ⟨⟨⟨cstart, cstop, cstride⟩, state, x⟩, b₃, hstep, hcode⟩ := Build.bind_ok hcode
  obtain ⟨u, b₄, hbind, hcode⟩ := Build.bind_ok hcode
  obtain ⟨pause, b₅, hpause, hcode⟩ := Build.bind_ok hcode
  obtain ⟨inner, b₇, hinner, hcode⟩ := Build.bind_ok hcode
  obtain ⟨rfl, rfl⟩ := Build.pure_ok hcode
  cases hbind
  obtain ⟨hfirst, hmark, hg, hl⟩ := loopSlots h.slots.enter hbase hblock
  have hfirst : base = b.slots.mark := hfirst
  obtain ⟨m₁, hlead, hs₁⟩ := hcheck hhas.head h.store b.slots.mark
  have hin₁ := h.still (.refl made) hs₁
  have h₁ := hin₁.inner.grown hg hl
  have ho₁ := (ho.keep hs₁.cells).mono (by omega : b.slots.mark ≤ b₂.slots.mark)
  obtain ⟨hx, ⟨table, hop⟩, halike⟩ := rangeParts hstep h₁
  have hmemo := hx.mark_le_memo
  -- how many cells there are
  have hheld := (hx.resized.holds h₁.holds).bind var (x := { slot := base, kind := .int })
    (Binding.seen_of_slot _ (Shapes.below_used.2 (by omega)))
  obtain ⟨hr, _⟩ := round_ok (compileBlock_ok body) (pc + 2 + 1) hheld ho₁.fits hpause hinner
  obtain ⟨hresized, hsame⟩ :=
    hexit (hg.trans ((hx.resized.grows h₁.slots).trans (hr.grows hheld.slots)))
  rw [hsame] at hsize
  have hlt : base + 2 < m.cells.size := by
    have := h₁.slots.size
    have := hx.resized.size
    have hgrown : b₃.slots.size ≤ b₆.slots.size := hr.size
    omega
  have hinit : rd.Plays reg su.context id depth (rd.course reg su.context id (pc + 1) m₁)
      (fun _ => pc + 2) (fun bounds m' w' => m₁.Still base made su.futures.states m' w' ∧
        0 < bounds.2.2 ∧ LoopCells base (.ofInt bounds.1) (.ofInt bounds.2.1)
        (.ofInt bounds.2.2) m'.cells)
      (rd.scene.eval su (Direct.range r start stop stride) w) := by
    refine .instr hhas.tail.head (fun _ _ _ _ => Op.noConfusion) fun invoke => ?_
    refine Exec.Follows.finish ((h₁.eval_same hx rfl rfl hop halike rd reg).also
      (p := fun bounds _ => 0 < bounds.2.2) fun _ _ _ _ hb _ => ?_) ?_
    · obtain ⟨mem, hmem, -⟩ := Exec.eval_ok hb
      exact Direct.range_positive hmem
    · rintro ⟨s, e, d⟩ m' _ w' ⟨⟨rfl, hs⟩, hpos⟩
      have hlow := hs.mono (by omega : base ≤ b₂.slots.mark)
      refine ⟨_, _, rfl, rfl, ?_, hpos, ?_⟩
      · exact (((hlow.write (Nat.le_refl base) _).write (by omega) _).write (by omega) _).clearMemo
          rfl (by omega)
      · have hset := LoopCells.set (.ofInt s) (.ofInt e) (.ofInt d)
          (by rw [hs.cells.size, hs₁.cells.size]; exact hlt)
        exact hset.keep ((Cells.SameBelow.refl ..).clear (by omega) _)
  unfold Direct.plan
  refine .lead hlead (hinit.bind ?_)
  rintro ⟨s, e, d⟩ m₂ w₂ ⟨hs₂, hpos, hcells⟩
  rw [hfirst] at hs₂
  have hin₂ := hin₁.still (.refl made) hs₂
  have ho₂ := (ho.keep hs₁.cells).keep hs₂.cells
  have hhead : rd.program.Has (pc + 2)
      ({ op := .rangeNext base (pc + 2 + 1 + pause.length + inner.length + 1) } ::
        ((pause ++ inner) ++ [{ op := .rangeStep base (pc + 2) }])) := hhas.tail.tail
  have hs := hs₁.trans hs₂
  refine .bind (loop_plays (RangeLeft base e d) (base + 3) (pc + 2 + 1 + (pause ++ inner).length)
    (pc + 2 + 1 + pause.length + inner.length + 1) (by omega) .keep ?_ ?_ ?_ hs.cells hin₂
    ⟨s, rfl, hcells⟩) ?_
  · intro xs made m w h hxs
    exact rangeNext_leads hpos hhead.head h.store hxs _
  · intro i xs made' m' w' hsame' h' hxs
    obtain ⟨_, hc⟩ := hxs.current hpos
    have hbound := ((h'.inner.grown hg hl).resized hx.resized).bindHeld var base .int (by simp)
      (by rw [hx.resized.mark]; omega) (by rw [hc.first]; trivial)
    have hplays := round_plays hbody id hpause hinner hhead.tail.left
      (by rw [hsame'.size]; exact hsize) hbound
      ((ho.keep hsame').mono (by rw [hx.resized.mark]; omega))
    rw [hc.first] at hplays
    refine hplays.imp fun _ m'' w'' hw => ⟨rfl, ?_⟩
    rw [hx.resized.mark, hmark] at hw
    exact hw
  · intro i xs made' m' w' hsame' h' hxs
    rw [← hfirst]
    exact rangeStep_leads hpos hhead.tail.right.head h'.store (by rw [hsame'.size]; omega) hxs
  · intro _ m' w' hw
    refine .done ?_ (h.went (.after (.refl made) hs hw (Nat.le_refl _)) hresized)
    simp only [List.length_append, List.length_cons, List.length_nil]
    omega

/-! ## Lists -/

/-- The variable of a loop is the item at its index. -/
theorem eval_item {P : Pairing} {force : ThunkId → Eval Value} {base i l : Nat} {v : Value}
    {index : Int64} (hv : P.left.read base = .value v) (hi : P.left.read i = .ofInt index) :
    P.Alike Value (Binding.eval force { slot := base, kind := .value, loop := some (i, l) })
      (Eval.resolve (Value.itemAt (Direct.listItems v) index)) := by
  unfold Binding.eval
  refine Pairing.cell_left hv ?_
  cases v with
  | list self items => exact Pairing.cell_left hi (P.compatible.resolve _)
  | _ =>
    have hnone : Value.itemAt [] index = .undefined := by
      unfold Value.itemAt
      split <;> rfl
    simp only [Direct.listItems, hnone]
    exact P.compatible.pure _

/-- The variable of a loop is bound to the item at its index. -/
theorem bindItem_situated {b : Builder} {made : Array Thunk} {m : Machine} {r : Reading} {w : World}
    (h : Situated su made b m r w) (var : String) {base : Nat} {v : Value} {index : Int64}
    (hmark : base + 2 < b.slots.mark)
    (hc : LoopCells base (.value v) (.ofInt index)
      (.ofInt (Int64.ofNat (Direct.listItems v).length)) m.cells) :
    Situated su made
      { b with locals := b.locals.bind var { slot := base, kind := .value,
                                             loop := some (base + 1, base + 2) } } m
      (r.bindItem var (Direct.listItems v) index) w := by
  have hsees (i : Nat) (hi : i < b.slots.mark) (hcell : (m.cells.read i).Ready) :
      m.Sees made b.slots.mark i := by
    refine ⟨hi, fun id hid => ?_⟩
    rw [hid] at hcell
    exact hcell.elim
  refine h.bindLoop var ⟨hsees base (by omega) (by rw [hc.first]; trivial), ?_⟩ (fun env =>
    eval_item hc.first hc.second) ?_ ?_
  · rintro i l ⟨⟩
    exact ⟨hsees _ (by omega) (by rw [hc.second]; trivial),
      hsees _ hmark (by rw [hc.third]; trivial)⟩
  · rintro i l ⟨⟩
    rw [hc.second, hc.third]
    exact ⟨rfl, rfl⟩
  · rintro ⟨⟩

/-- The indices that a loop over a list has left. -/
def EachLeft (base : Nat) (v : Value) (xs : List Int64) (cells : Cells) : Prop :=
  ∃ k, Direct.Index k (Direct.listItems v).length ∧
    xs = Direct.indicesFrom k (Direct.listItems v).length ∧
    LoopCells base (.value v) (.ofInt (Int64.ofNat k))
      (.ofInt (Int64.ofNat (Direct.listItems v).length)) cells

theorem EachLeft.keep {base : Nat} {v : Value} {xs : List Int64} {cells cells' : Cells}
    (h : EachLeft base v xs cells) (hc : Cells.SameBelow (base + 3) cells cells') :
    EachLeft base v xs cells' := by
  obtain ⟨k, hk, hxs, hcells⟩ := h
  exact ⟨k, hk, hxs, hcells.keep hc⟩

/-- What the cells hold while indices are left. -/
theorem EachLeft.current {base : Nat} {v : Value} {x : Int64} {xs : List Int64} {cells : Cells}
    (h : EachLeft base v (x :: xs) cells) : ∃ k, x = Int64.ofNat k ∧ x + 1 = Int64.ofNat (k + 1) ∧
      Direct.Index (k + 1) (Direct.listItems v).length ∧
      xs = Direct.indicesFrom (k + 1) (Direct.listItems v).length ∧
      LoopCells base (.value v) (.ofInt x) (.ofInt (Int64.ofNat (Direct.listItems v).length))
      cells := by
  obtain ⟨k, hk, hxs, hcells⟩ := h
  have hlt : ¬Int64.ofNat (Direct.listItems v).length ≤ Int64.ofNat k := fun hle => by
    rw [Direct.indicesFrom_of_le hk hle] at hxs
    cases hxs
  obtain ⟨hsplit, hnext, hadd⟩ := Direct.indicesFrom_of_lt hk hlt
  rw [hsplit, List.cons.injEq] at hxs
  obtain ⟨rfl, hxs⟩ := hxs
  exact ⟨k, rfl, hadd, hnext, hxs, hcells⟩

theorem eachNext_leads {pc base target : Nat} {v : Value} {id : RenderId} {rd : Render}
    {made : Array Thunk} {m : Machine} {w : World} {xs : List Int64}
    (hi : rd.program.code[pc]? = some { op := .eachNext base target })
    (hm : m.store.Shows made su.futures.states w) (h : EachLeft base v xs m.cells) (mark : Nat) :
    ∃ m', (rd.course reg su.context id pc m).Leads
      (rd.course reg su.context id (if xs.isEmpty then target else pc + 1) m') ∧
    m.Still mark made su.futures.states m' w := by
  obtain ⟨k, hk, rfl, hcells⟩ := h
  refine ⟨{ m with maker := m.store.heap.fresh }, Render.course_step hi fun invoke =>
    ?_, .refl .., hm⟩
  rw [m.setUp_plain rfl]
  change EStateM.Result.ok
    (if (m.cells.read (base + 2)).int ≤ (m.cells.read (base + 1)).int then target else pc + 1) _ = _
  rw [hcells.second, hcells.third, Cell.int_ofInt, Cell.int_ofInt]
  split
  · next hle => rw [Direct.indicesFrom_of_le hk hle]; rfl
  · next hlt => rw [(Direct.indicesFrom_of_lt hk hlt).1]; rfl

theorem eachStep_leads {pc base target : Nat} {v : Value} {x : Int64} {id : RenderId} {rd : Render}
    {made : Array Thunk} {m : Machine} {w : World} {xs : List Int64}
    (hi : rd.program.code[pc]? = some { op := .eachStep base target })
    (hm : m.store.Shows made su.futures.states w) (hsize : base + 1 < m.cells.size)
    (h : EachLeft base v (x :: xs) m.cells) :
    ∃ m', (rd.course reg su.context id pc m).Leads (rd.course reg su.context id target m') ∧
    m.Still base made su.futures.states m' w ∧ EachLeft base v xs m'.cells := by
  obtain ⟨k, _, hadd, hk, hxs, hcells⟩ := h.current
  refine ⟨{ cells := m.cells.write (base + 1) (.ofInt (x + 1)), store := m.store,
            maker := m.store.heap.fresh },
    Render.course_step hi fun invoke =>
      ?_, ⟨(Cells.SameBelow.refl ..).write (Nat.le_succ base) _, hm⟩, ?_⟩
  · rw [m.setUp_plain rfl]
    change EStateM.Result.ok target { m with
      cells := m.cells.write (base + 1) (.ofInt ((m.cells.read (base + 1)).int + 1)), maker :=
        m.store.heap.fresh } = _
    rw [hcells.second, Cell.int_ofInt]
  · refine ⟨k + 1, hk, hxs, ?_, ?_, ?_⟩
    · exact (Cells.read_write_of_ne _ (by omega) _).trans hcells.first
    · rw [← hadd]
      exact Cells.read_write_self hsize _
    · exact (Cells.read_write_of_ne _ (by omega) _).trans hcells.third

theorem forEach_performs {var : String} {list : Expr} {source : List Stmt}
    {body ifEmpty : List Plan}
    (hbody : Carries su reg depth a (fun out pc => compileBlock out pc body) fun scene r sink =>
      Direct.block su call scene r sink body)
    (hempty : Carries su reg depth a (fun out pc => compileBlock out pc ifEmpty) fun scene r sink =>
      Direct.block su call scene r sink ifEmpty) :
    Performs su reg depth a (fun out pc =>
      compilePlan out pc (.forEach var list source body ifEmpty)) fun scene r sink =>
    Direct.plan su call scene r sink (.forEach var list source body ifEmpty) := by
  intro out pc b b' is id rd made m r sink w hcode hhas hsize h ho
  unfold compilePlan at hcode
  obtain ⟨check, hcode, hcheck⟩ := check_plays h.slots hcode
  obtain ⟨b₇, hcode, hexit⟩ := Build.inScope_ok hcode
  obtain ⟨base, b₁, hbase, hcode⟩ := Build.bind_ok hcode
  obtain ⟨i, b₂, hblock, hcode⟩ := Build.bind_ok hcode
  obtain ⟨⟨c, state, x⟩, b₃, hstep, hcode⟩ := Build.bind_ok hcode
  obtain ⟨u, b₄, hbind, hcode⟩ := Build.bind_ok hcode
  obtain ⟨pause, b₅, hpause, hcode⟩ := Build.bind_ok hcode
  obtain ⟨inner, b₆, hinner, hcode⟩ := Build.bind_ok hcode
  obtain ⟨last, b₈, hlast, hcode⟩ := Build.bind_ok hcode
  obtain ⟨rfl, rfl⟩ := Build.pure_ok hcode
  cases hbind
  obtain ⟨hfirst, hmark, hg, hl⟩ := loopSlots h.slots.enter hbase hblock
  have hfirst : base = b.slots.mark := hfirst
  obtain ⟨m₁, hlead, hs₁⟩ := hcheck hhas.head h.store b.slots.mark
  have hin₁ := h.still (.refl made) hs₁
  have h₁ := hin₁.inner.grown hg hl
  have ho₁ := (ho.keep hs₁.cells).mono (by omega : b.slots.mark ≤ b₂.slots.mark)
  obtain ⟨hx, ht, hcome⟩ := h₁.exprParts hstep
  obtain ⟨table, ht⟩ := ht [0]
  have hmemo := hx.mark_le_memo
  -- how many cells there are
  have hheld := (hx.resized.holds h₁.holds).bind var
    (x := { slot := base, kind := .value, loop := some (base + 1, base + 2) }) <| by
      refine ⟨Shapes.below_used.2 (show base < _ by omega), ?_⟩
      rintro i l ⟨⟩
      exact ⟨Shapes.below_used.2 (by omega), Shapes.below_used.2 (by omega)⟩
  obtain ⟨hr, hp⟩ := round_ok (compileBlock_ok body) (pc + 2 + 1) hheld ho₁.fits hpause hinner
  obtain ⟨hr', _⟩ := orNothing_ok (compileBlock_ok ifEmpty) _ hp.holds ho₁.fits hlast
  obtain ⟨hresized, hsame⟩ :=
    hexit (hg.trans ((hx.resized.grows h₁.slots).trans ((hr.trans hr').grows hheld.slots)))
  rw [hsame] at hsize
  have hlt : base + 2 < m.cells.size := by
    have := h₁.slots.size
    have := hx.resized.size
    have hgrown : b₃.slots.size ≤ b₇.slots.size := (hr.trans hr').size
    omega
  have hinit : rd.Plays reg su.context id depth (rd.course reg su.context id (pc + 1) m₁)
      (fun xs => if xs.isEmpty then pc + 2 + 1 + pause.length + inner.length + 1 else pc + 2)
      (fun xs m' w' => m₁.Still base made su.futures.states m' w' ∧ ∃ v, xs = Direct.listItems v ∧
        LoopCells base (.value v) (.ofInt (Int64.ofNat 0))
        (.ofInt (Int64.ofNat xs.length)) m'.cells)
      (rd.scene.eval su (Direct.items r list) w) := by
    refine .instr hhas.tail.head (fun _ _ _ _ => Op.noConfusion) fun invoke => ?_
    have hop : Operand (· < b₂.slots.mark) _ (fun _ => False) (Eval.items · c) := Operand.items ht
    refine Exec.Follows.finish
      (h₁.evaluates (f := fun p => (Direct.listItems p.1, p.2)) (g := fun xs => (xs, xs.length))
        hx rfl rfl hop (fun _ hj => hj.elim) (fun env cells hc =>
          Direct.items_alike (hcome env cells hc)) rd reg) ?_
    rintro ⟨v, length⟩ m' xs w' ⟨hpair, hs⟩
    have hxs : Direct.listItems v = xs := (Prod.mk.inj hpair).1
    have hlength : length = xs.length := (Prod.mk.inj hpair).2
    subst hxs hlength
    have hlow := hs.mono (by omega : base ≤ b₂.slots.mark)
    refine ⟨_, _, rfl, ?_, ?_, v, rfl, ?_⟩
    · simp only [List.isEmpty_iff_length_eq_zero]
    · exact (((hlow.write (Nat.le_refl base) _).write (by omega) _).write (by omega) _).clearMemo
        rfl (by omega)
    · have hset := LoopCells.set (.value v) (.ofInt 0)
        (.ofInt (Int64.ofNat (Direct.listItems v).length))
          (by rw [hs.cells.size, hs₁.cells.size]; exact hlt)
      exact hset.keep ((Cells.SameBelow.refl ..).clear (by omega) _)
  unfold Direct.plan
  refine .lead hlead (hinit.bind ?_)
  rintro xs m₂ w₂ ⟨hs₂, v, rfl, hcells⟩
  rw [hfirst] at hs₂
  have hin₂ := hin₁.still (.refl made) hs₂
  have hs := hs₁.trans hs₂
  let emptyAt := pc + 2 + 1 + pause.length + inner.length + 1
  have hhead : rd.program.Has (pc + 2) ({ op := .eachNext base (emptyAt + last.length) } ::
      ((pause ++ inner) ++ { op := .eachStep base (pc + 2) } :: last)) := hhas.tail.tail
  have hend : pc + (check :: { op := .eachInit base c emptyAt, extent := some x } ::
      { op := .eachNext base (emptyAt + last.length) } :: pause ++ inner ++
        { op := .eachStep base (pc + 2) } :: last).length = emptyAt + last.length := by
    simp only [List.length_append, List.length_cons, emptyAt]
    omega
  have hitem {made' : Array Thunk} {m' : Machine} {w' : World} (h' : Situated su made' b m' r w')
      {index : Int64} (hc : LoopCells base (.value v) (.ofInt index)
          (.ofInt (Int64.ofNat (Direct.listItems v).length)) m'.cells) :=
    bindItem_situated ((h'.inner.grown hg hl).resized hx.resized) var
      (by rw [hx.resized.mark]; omega) hc
  have hdone {m' : Machine} {w' : World} (hw : m₂.Went su made b.slots.mark m' w') :
      m.Came su made b.slots.mark m' w' b' r :=
      h.went (.after (.refl made) hs hw (Nat.le_refl _)) hresized
  cases hnone : (Direct.listItems v).isEmpty with
  | true =>
    simp only [if_true]
    have hlastCode : rd.program.Has emptyAt last := by
      have hcode := hhead.tail.right.tail
      rw [List.length_append, ← Nat.add_assoc] at hcode
      exact hcode
    have hbelow : b.slots.mark ≤ b₆.slots.mark := by
      have hsame : b₆.slots.mark = b₃.slots.mark := hr.mark
      rw [hsame, hx.resized.mark]
      omega
    have hplays := noBlock_carries hempty id hlast hlastCode
      (by rw [hs₂.cells.size, hs₁.cells.size]; exact hsize) ((hitem hin₂ hcells).resized hr)
      ((ho.keep hs.cells).mono hbelow)
    refine hplays.bind fun _ m' w' hw =>
      .done hend (hdone (.after (.refl made) ⟨.refl .., hs₂.store⟩ hw hbelow))
  | false =>
    simp only [Bool.false_eq_true, if_false]
    refine .bind (loop_plays (EachLeft base v) (base + 3) (pc + 2 + 1 + (pause ++ inner).length)
      (emptyAt + last.length) (by omega) .keep ?_ ?_ ?_ hs.cells hin₂
      ⟨0, .zero _, Direct.indices_eq _, hcells⟩)
      fun _ m' w' hw => .done hend (hdone hw)
    · intro xs made' m' w' h' hxs
      exact eachNext_leads hhead.head h'.store hxs _
    · intro index xs made' m' w' hsame' h' hxs
      obtain ⟨_, _, _, _, _, hc⟩ := hxs.current
      have hplays := round_plays hbody id hpause hinner hhead.tail.left
        (by rw [hsame'.size]; exact Nat.le_trans hr'.size hsize) (hitem h' hc)
        ((ho.keep hsame').mono (by rw [hx.resized.mark]; omega))
      refine hplays.imp fun _ m'' w'' hw => ⟨rfl, ?_⟩
      rw [hx.resized.mark, hmark] at hw
      exact hw
    · intro index xs made' m' w' hsame' h' hxs
      rw [← hfirst]
      exact eachStep_leads hhead.tail.right.head h'.store (by rw [hsame'.size]; omega) hxs

end Program

end Interlude
