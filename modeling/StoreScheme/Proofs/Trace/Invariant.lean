import StoreScheme.Proofs.Store.Cells
import StoreScheme.Proofs.Trace.Basic
import StoreScheme.Proofs.Value.Closures

/-!
# Invariants of recorded evaluation

An invariant says what may be evaluated where, what a closure may be and what may be recorded.  The
evaluator keeps it if a few laws hold, one for each thing that evaluation does: going down to a part,
making a closure, opening the body of a closure or a `let`, and looking up a variable.

* `Moment`, `Moment.Before`: memory and record, and how they grow
* `Judgement`, `Invariant`: the predicates and their laws
* `Invariant.eval_kept`, `Invariant.apply_kept`: evaluation keeps an invariant, also when it fails or
  runs out of fuel
* `EvalError.Explained`: a failure to find or reach a variable ends with the look-up of it
-/

namespace StoreScheme

/-! ## Moments -/

structure Moment where
  memory : Memory
  record : Record

namespace Moment

def note (s : Moment) (event : Event) : Moment := ⟨s.memory, event :: s.record⟩

def allocate (s : Moment) (vs : List Value) : Moment :=
  ⟨{ s.memory with store := (s.memory.store.allocateAll vs).2 }, s.record⟩

def frame (s : Moment) (names : List String) (vs : List Value) : Frame :=
  ⟨names, (s.memory.store.allocateAll vs).1⟩

def bindEvent (s : Moment) (place : Option Occurrence) (names : List String) (vs : List Value)
    (env : Env) : Event :=
  .bind place (s.frame names vs) env (s.allocate vs).memory

def enter (s : Moment) (place : Option Occurrence) (names : List String) (vs : List Value)
    (env : Env) : Moment :=
  (s.allocate vs).note (s.bindEvent place names vs env)

def close (s : Moment) (place : Option Occurrence) : Moment :=
  ⟨{ s.memory with fresh := s.memory.fresh + 1 }, .close place s.memory.fresh :: s.record⟩

structure Before (s t : Moment) : Prop where
  size : s.memory.store.size ≤ t.memory.store.size
  fresh : s.memory.fresh ≤ t.memory.fresh
  record : s.record <:+ t.record
  origin : ∀ id < s.memory.fresh, t.record.origin? id = s.record.origin? id
  -- A frame is only ever bound to cells that are new then.
  frames : ∀ link, t.record.Binds link → s.record.Binds link ∨
    ∀ a ∈ link.1.addresses, s.memory.store.size ≤ a ∧ a < t.memory.store.size

def Called (s : Moment) (place : Option Occurrence) (e : Expr) (env : Env) : Prop :=
  ∃ m, .call place e env m ∈ s.record

variable {s t u : Moment}

theorem Before.refl (s : Moment) : s.Before s :=
  ⟨Nat.le_refl _, Nat.le_refl _, List.suffix_refl _, fun _ _ => rfl, fun _ => .inl⟩

theorem Before.trans (st : s.Before t) (tu : t.Before u) : s.Before u where
  size := Nat.le_trans st.size tu.size
  fresh := Nat.le_trans st.fresh tu.fresh
  record := st.record.trans tu.record
  origin id old := (tu.origin id (Nat.lt_of_lt_of_le old st.fresh)).trans (st.origin id old)
  frames link bound := by
    rcases tu.frames link bound with earlier | new
    · refine (st.frames link earlier).imp_right fun new a member => ?_
      exact ⟨(new a member).1, Nat.lt_of_lt_of_le (new a member).2 tu.size⟩
    · exact .inr fun a member => ⟨Nat.le_trans st.size (new a member).1, (new a member).2⟩

theorem Called.mono {place : Option Occurrence} {e : Expr} {env : Env} (st : s.Before t)
    (called : s.Called place e env) : t.Called place e env := by
  obtain ⟨m, member⟩ := called
  exact ⟨m, st.record.subset member⟩

theorem before_of_memory {m : Memory} (size : s.memory.store.size ≤ m.store.size)
    (fresh : s.memory.fresh ≤ m.fresh) : s.Before ⟨m, s.record⟩ :=
  ⟨size, fresh, List.suffix_refl _, fun _ _ => rfl, fun _ => .inl⟩

theorem before_note {event : Event} (kind : ∀ id, event.makes? id = none)
    (unbound : event.binds? = none) : s.Before (s.note event) where
  size := Nat.le_refl _
  fresh := Nat.le_refl _
  record := List.suffix_cons _ _
  origin id _ := by simp [note, Record.origin?, kind id]
  frames link bound := by
    rcases Record.binds_cons.1 bound with new | old
    · cases unbound.symm.trans new
    · exact .inl old

theorem before_allocate (vs : List Value) : s.Before (s.allocate vs) :=
  before_of_memory (by simp [Store.size_allocateAll]) (Nat.le_refl _)

theorem mem_frame {names : List String} {vs : List Value} {a : Address}
    (member : a ∈ (s.frame names vs).addresses) :
    s.memory.store.size ≤ a ∧ a < (s.allocate vs).memory.store.size := by
  simp only [frame, Store.allocateAll_fst, List.mem_range'_1] at member
  simpa only [allocate, Store.size_allocateAll] using member

theorem before_enter {place : Option Occurrence} {names : List String} {vs : List Value} {env : Env} :
    s.Before (s.enter place names vs env) where
  size := (before_allocate vs).size
  fresh := Nat.le_refl _
  record := List.suffix_cons _ _
  origin id _ := rfl
  frames link bound := by
    rcases Record.binds_cons.1 bound with new | old
    · cases new
      exact .inr fun _ => mem_frame
    · exact .inl old

theorem before_close (place : Option Occurrence) : s.Before (s.close place) where
  size := Nat.le_refl _
  fresh := Nat.le_succ _
  record := List.suffix_cons _ _
  origin id old := by
    have other : s.memory.fresh ≠ id := Nat.ne_of_gt old
    simp [close, Record.origin?, Event.makes?, other]
  frames link bound := by
    rcases Record.binds_cons.1 bound with new | old
    · cases new
    · exact .inl old

end Moment

/-! ## Judgements and invariants -/

def Form.root : Form → Expr
  | .define _ e => e
  | .expr e => e

/-- A form that stands in some source. -/
def Form.IsRead (x : Form) : Prop :=
  ∃ foldCase fresh source xs next, readForms foldCase fresh source = .ok (xs, next) ∧ x ∈ xs

def Expr.Mentions (e : Expr) (name : String) : Prop := e = .ref name ∨ ∃ value, e = .assign name value

/-- What is claimed of closures, of expressions that are evaluated in an environment, of global
names and of events after those recorded before. -/
structure Judgement where
  closure : Moment → ClosureProp
  site : Moment → Option Occurrence → Expr → Env → Prop
  globals : Moment → Prop
  event : Record → Event → Prop

namespace Judgement

structure Sound (J : Judgement) (s : Moment) : Prop where
  globals : J.globals s
  cells : ∀ a v, s.memory.store.read? a = some v → v.AllClosures (J.closure s)

def Trail (J : Judgement) : Record → Prop
  | [] => True
  | event :: r => J.event r event ∧ J.Trail r

theorem Trail.suffix {J : Judgement} {r earlier : Record} (trail : J.Trail r)
    (before : earlier <:+ r) : J.Trail earlier := by
  induction r with
  | nil => exact List.suffix_nil.1 before ▸ trail
  | cons last r ih =>
      rcases List.suffix_cons_iff.1 before with rfl | before
      · exact trail
      · exact ih trail.2 before

theorem Trail.event {J : Judgement} {r earlier : Record} {event : Event} (trail : J.Trail r)
    (recorded : event :: earlier <:+ r) : J.event earlier event :=
  (trail.suffix recorded).1

/-- The parts of a place from number `i` on may be evaluated with names bound to new cells. -/
structure Opens (J : Judgement) (s : Moment) (place : Option Occurrence) (names : List String)
    (i : Nat) (es : List Expr) (vs : List Value) (env : Env) : Prop where
  event : J.event s.record (s.bindEvent place names vs env)
  site : ∀ j e, es[j]? = some e →
    J.site (s.enter place names vs env) (partOf place (i + j)) e (s.frame names vs :: env)

end Judgement

structure Invariant extends Judgement where
  -- What is claimed goes on to hold.
  closure_mono : ∀ {s t : Moment} {id params body env}, s.Before t →
    closure s id params body env → closure t id params body env
  site_mono : ∀ {s t : Moment} {place e env}, s.Before t → site s place e env → site t place e env
  globals_mono : ∀ {s t : Moment}, s.Before t → t.memory.globals = s.memory.globals →
    globals s → globals t
  globals_empty : globals ⟨{}, []⟩
  globals_define : ∀ {s : Moment} (policy : RedefinePolicy) (name : String) (v : Value), globals s →
    globals ⟨{ s.memory with
      store := (s.memory.store.allocate v).2
      globals := s.memory.globals.define policy name s.memory.store.size }, s.record⟩
  -- Evaluation starts at the top of a form and goes down to its parts.
  site_top : ∀ (s : Moment) {x : Form}, x.IsRead → site s (some ⟨x.root, []⟩) x.root []
  site_part : ∀ {s : Moment} {place e env i part}, site s place e env →
    e.parts[i]? = some (none, part) → site s (partOf place i) part env
  call : ∀ {s : Moment} {place e env}, toJudgement.Sound s → site s place e env →
    event s.record (.call place e env s.memory)
  lookup : ∀ {s : Moment} {place e env name}, toJudgement.Sound s → site s place e env →
    e.Mentions name → event s.record (.lookup place name env s.memory)
  -- The body of a closure is opened where its `lambda` stands, that of a `let` on the spot.
  close : ∀ {s : Moment} {place params body env}, site s place (.lambda params body) env →
    s.Called place (.lambda params body) env →
    event s.record (.close place s.memory.fresh) ∧
      closure (s.close place) s.memory.fresh params body env
  opens_closure : ∀ {s : Moment} {id params body env vs}, toJudgement.Sound s →
    toJudgement.Sound (s.allocate vs) → closure s id params body env → params.length = vs.length →
    toJudgement.Opens s (s.record.origin? id) params 0 body vs env
  opens_let : ∀ {s : Moment} {place names values body env vs}, toJudgement.Sound s →
    toJudgement.Sound (s.allocate vs) → site s place (.letIn names values body) env → s.Called place (.letIn names values body) env →
    values.length = vs.length →
    toJudgement.Opens s place names values.length body vs env

/-! ## What a computation keeps -/

/-- An error that has to do with a variable comes right after the look-up of it, which tells why. -/
def EvalError.Explained (r : Record) : EvalError → Prop
  | .unboundVariable name => ∃ place env m,
      r.head? = some (.lookup place name env m) ∧ env.lookup? m.globals name = none
  | .outOfBounds a => ∃ place name env m, r.head? = some (.lookup place name env m) ∧
      env.lookup? m.globals name = some a ∧ m.store.size ≤ a
  | _ => True

namespace Invariant

variable (I : Invariant)

structure Holds (s : Moment) : Prop where
  sound : I.Sound s
  trail : I.Trail s.record

/-- What is asked of the outcome of a computation that starts at a moment.  The record of a
computation that runs out of fuel counts as well. -/
def Kept {α : Type} (s : Moment) (Q : Moment → α → Prop) : Outcome α × Record → Prop
  | (.value a m, r) => s.Before ⟨m, r⟩ ∧ I.Holds ⟨m, r⟩ ∧ Q ⟨m, r⟩ a
  | (.error e m, r) => s.Before ⟨m, r⟩ ∧ I.Holds ⟨m, r⟩ ∧
      (∀ v ∈ e.values, v.AllClosures (I.closure ⟨m, r⟩)) ∧ e.Explained r
  | (.outOfFuel, r) => I.Trail r

def Proper (s : Moment) (v : Value) : Prop := v.AllClosures (I.closure s)

def Keeps (tr : Traced.Tracer) : Prop :=
  ∀ s place e env, I.Holds s → I.site s place e env →
    I.Kept s I.Proper (tr place e env s.memory s.record)

variable {I} {s t : Moment}

theorem Proper.mono (st : s.Before t) {v : Value} (proper : I.Proper s v) : I.Proper t v :=
  Value.AllClosures.imp (fun _ _ _ _ => I.closure_mono st) proper

theorem sound_later (sound : I.Sound s) (st : s.Before t)
    (globals : t.memory.globals = s.memory.globals)
    (cells : ∀ a v, t.memory.store.read? a = some v →
      s.memory.store.read? a = some v ∨ I.Proper t v) : I.Sound t where
  globals := I.globals_mono st globals sound.globals
  cells a v read := by
    rcases cells a v read with old | new
    · exact Proper.mono st (sound.cells a v old)
    · exact new

theorem Holds.note (holds : I.Holds s) {event : Event} (kind : ∀ id, event.makes? id = none)
    (unbound : event.binds? = none) (fits : I.event s.record event) : I.Holds (s.note event) where
  sound := sound_later holds.sound (Moment.before_note kind unbound) rfl fun _ _ read => .inl read
  trail := ⟨fits, holds.trail⟩

theorem Holds.allocate_sound (holds : I.Holds s) {vs : List Value} (proper : ∀ v ∈ vs, I.Proper s v) :
    I.Sound (s.allocate vs) :=
  sound_later holds.sound (Moment.before_allocate vs) rfl fun _ v read =>
    (Store.mem_of_read?_allocateAll read).imp_right fun new =>
      (proper v new).mono (Moment.before_allocate vs)

section
variable {α β : Type} {Q : Moment → α → Prop} {R : Moment → β → Prop}

theorem Kept.of_before (st : s.Before t) {o : Outcome α × Record} (kept : I.Kept t Q o) :
    I.Kept s Q o := by
  rcases o with ⟨a | e | _, r⟩
  · exact ⟨st.trans kept.1, kept.2⟩
  · exact ⟨st.trans kept.1, kept.2⟩
  · exact kept

theorem Kept.bind {x : Traced α} {f : α → Traced β} (first : I.Kept s Q (x s.memory s.record))
    (next : ∀ t a, s.Before t → I.Holds t → Q t a → I.Kept t R (f a t.memory t.record)) :
    I.Kept s R ((x >>= f) s.memory s.record) := by
  change I.Kept s R (Traced.bind x f s.memory s.record)
  unfold Traced.bind
  rcases h : x s.memory s.record with ⟨⟨a, m⟩ | ⟨e, m⟩ | _, r⟩
  · rw [h] at first
    obtain ⟨st, holds, value⟩ := first
    exact (next ⟨m, r⟩ a st holds value).of_before st
  · rw [h] at first
    exact first
  · rw [h] at first
    exact first

theorem kept_pure (holds : I.Holds s) {a : α} (value : Q s a) :
    I.Kept s Q ((Pure.pure a : Traced α) s.memory s.record) :=
  ⟨.refl s, holds, value⟩

theorem kept_fail (holds : I.Holds s) {e : EvalError} (values : ∀ v ∈ e.values, I.Proper s v)
    (explained : e.Explained s.record) :
    I.Kept s Q (Traced.lift (Eval.fail e : Eval α) s.memory s.record) :=
  ⟨.refl s, holds, values, explained⟩

end

/-! ## Looking up, reading and writing -/

section
variable {place : Option Occurrence} {e : Expr} {env : Env} {name : String} {a : Address} {v : Value}

def Found (place : Option Occurrence) (name : String) (env : Env) (t : Moment) (a : Address) : Prop :=
  t.record.head? = some (.lookup place name env t.memory) ∧
    env.lookup? t.memory.globals name = some a

theorem lookup_kept (holds : I.Holds s) (site : I.site s place e env) (mentions : e.Mentions name) :
    I.Kept s (Found place name env) (Traced.lookup place env name s.memory s.record) := by
  have noted : I.Holds (s.note (.lookup place name env s.memory)) :=
    holds.note (fun _ => rfl) rfl (I.lookup holds.sound site mentions)
  refine Kept.of_before (t := s.note (.lookup place name env s.memory))
    (Moment.before_note (fun _ => rfl) rfl) ?_
  change I.Kept _ _ (Eval.lookup env name s.memory, _)
  unfold Eval.lookup
  split
  · rename_i address found
    exact ⟨.refl _, noted, rfl, found⟩
  · rename_i missing
    exact ⟨.refl _, noted, List.forall_mem_nil _, place, env, s.memory, rfl, missing⟩

theorem read_kept (holds : I.Holds s) (found : Found place name env s a) :
    I.Kept s I.Proper (Traced.lift (Eval.read a) s.memory s.record) := by
  change I.Kept _ _ (Eval.read a s.memory, _)
  unfold Eval.read
  split
  · rename_i v read
    exact ⟨.refl s, holds, holds.sound.cells a v read⟩
  · rename_i missing
    exact ⟨.refl s, holds, List.forall_mem_nil _, place, name, env, s.memory,
      found.1, found.2, Store.read?_eq_none.1 missing⟩

theorem write_kept (holds : I.Holds s) (found : Found place name env s a) (proper : I.Proper s v) :
    I.Kept s (fun _ _ => True) (Traced.lift (Eval.write a v) s.memory s.record) := by
  change I.Kept _ _ (Eval.write a v s.memory, _)
  unfold Eval.write
  split
  · rename_i store written
    have later : s.Before ⟨{ s.memory with store }, s.record⟩ :=
      Moment.before_of_memory (Nat.le_of_eq (Store.size_of_write? written).symm) (Nat.le_refl _)
    refine ⟨later, ⟨sound_later holds.sound later rfl fun b w read => ?_, holds.trail⟩, trivial⟩
    rw [show Store.read? _ b = _ from Store.read?_of_write? written b] at read
    split at read
    · cases read
      exact .inr (proper.mono later)
    · exact .inl read
  · rename_i missing
    exact ⟨.refl s, holds, List.forall_mem_nil _, place, name, env, s.memory,
      found.1, found.2, Store.write?_eq_none.1 missing⟩

end

/-! ## Closures and primitives -/

theorem close_kept {place : Option Occurrence} {params : List String} {body : List Expr} {env : Env}
    (holds : I.Holds s) (site : I.site s place (.lambda params body) env)
    (called : s.Called place (.lambda params body) env) :
    I.Kept s I.Proper (Traced.close place params body env s.memory s.record) := by
  obtain ⟨event, made⟩ := I.close site called
  have later := s.before_close place
  exact ⟨later, ⟨sound_later holds.sound later rfl fun _ _ read => .inl read, event, holds.trail⟩, made⟩

theorem primitive_kept (op : Primitive) {args : List Value} (holds : I.Holds s)
    (proper : ∀ v ∈ args, I.Proper s v) :
    I.Kept s I.Proper (Traced.lift (Eval.applyPrimitive op args) s.memory s.record) := by
  change I.Kept _ _ (Eval.applyPrimitive op args s.memory, _)
  unfold Eval.applyPrimitive
  split
  · rename_i v fresh result
    obtain ⟨made, grown⟩ := Primitive.apply_ok (P := I.closure s) result
    have later : s.Before ⟨{ s.memory with fresh }, s.record⟩ :=
      Moment.before_of_memory (Nat.le_refl _) grown
    exact ⟨later, ⟨sound_later holds.sound later rfl fun _ _ read => .inl read, holds.trail⟩,
      Proper.mono later (made proper)⟩
  · rename_i e failed
    exact ⟨.refl s, holds, fun v hv => proper v (Primitive.apply_error failed v hv), trivial⟩

/-! ## Sequences and bodies -/

section
variable {tr : Traced.Tracer} {place : Option Occurrence} {env : Env} {i : Nat} {es : List Expr}

theorem all_kept (keeps : I.Keeps tr) (holds : I.Holds s)
    (sites : ∀ j e, es[j]? = some e → I.site s (partOf place (i + j)) e env) :
    I.Kept s (fun t vs => es.length = vs.length ∧ ∀ v ∈ vs, I.Proper t v)
      (Traced.all tr place env i es s.memory s.record) := by
  induction es generalizing s i with
  | nil => exact kept_pure holds ⟨rfl, List.forall_mem_nil _⟩
  | cons e es ih =>
      refine (keeps s _ e env holds (sites 0 e rfl)).bind fun t v st holds proper => ?_
      have rest : ∀ j e, es[j]? = some e → I.site t (partOf place (i + 1 + j)) e env := by
        intro j e' at'
        rw [Nat.add_right_comm]
        exact I.site_mono st (sites (j + 1) e' at')
      refine (ih holds rest).bind fun u vs tu holds ⟨length, propers⟩ => kept_pure holds ⟨?_, ?_⟩
      · simp [length]
      · exact List.forall_mem_cons.2 ⟨proper.mono tu, propers⟩

theorem body_kept (keeps : I.Keeps tr) (holds : I.Holds s)
    (sites : ∀ j e, es[j]? = some e → I.site s (partOf place (i + j)) e env) :
    I.Kept s I.Proper (Traced.body tr place env i es s.memory s.record) := by
  induction es generalizing s i with
  | nil => exact kept_fail holds (List.forall_mem_nil _) trivial
  | cons e es ih =>
      have first := keeps s _ e env holds (sites 0 e rfl)
      cases es with
      | nil => exact first
      | cons e' es =>
          refine first.bind fun t v st holds _ => ih holds fun j e'' at' => ?_
          rw [Nat.add_right_comm]
          exact I.site_mono st (sites (j + 1) e'' at')

theorem bodyWith_kept (keeps : I.Keeps tr) {names : List String} {vs : List Value} (holds : I.Holds s)
    (proper : ∀ v ∈ vs, I.Proper s v) (opens : I.Opens s place names i es vs env) :
    I.Kept s I.Proper (Traced.bodyWith tr place env names i es vs s.memory s.record) := by
  have later : s.Before (s.enter place names vs env) := Moment.before_enter
  have sound : I.Sound (s.enter place names vs env) :=
    sound_later holds.sound later rfl fun _ v read =>
      (Store.mem_of_read?_allocateAll read).imp_right fun new => (proper v new).mono later
  have entered : I.Holds (s.enter place names vs env) := ⟨sound, opens.event, holds.trail⟩
  exact (body_kept keeps entered opens.site).of_before Moment.before_enter

theorem apply_kept (keeps : I.Keeps tr) {procedure : Value} {args : List Value} (holds : I.Holds s)
    (proper : I.Proper s procedure) (propers : ∀ v ∈ args, I.Proper s v) :
    I.Kept s I.Proper (Traced.apply tr procedure args s.memory s.record) := by
  cases procedure with
  | primitive op => exact primitive_kept op holds propers
  | closure id params es env =>
      by_cases arity : params.length = args.length
      · simp only [Traced.apply, if_pos arity]
        have sound := holds.allocate_sound propers
        exact bodyWith_kept keeps holds propers (I.opens_closure holds.sound sound proper arity)
      · simp only [Traced.apply, if_neg arity]
        exact kept_fail holds (List.forall_mem_nil _) trivial
  | _ => exact kept_fail holds (fun v hv => by rw [List.mem_singleton.1 hv]; exact proper) trivial

end

/-! ## Expressions -/

theorem step_kept {tr : Traced.Tracer} (keeps : I.Keeps tr) {place : Option Occurrence} {e : Expr}
    {env : Env} (holds : I.Holds s) (site : I.site s place e env) (called : s.Called place e env) :
    I.Kept s I.Proper (Traced.step tr place e env s.memory s.record) := by
  cases e with
  | number n => exact kept_pure holds trivial
  | boolean b => exact kept_pure holds trivial
  | string x => exact kept_pure holds trivial
  | literal l => exact kept_pure holds (Value.allClosures_ofLiteral l)
  | primitive p => exact kept_pure holds trivial
  | ref name =>
      exact (lookup_kept holds site (.inl rfl)).bind fun t a _ holds found => read_kept holds found
  | ifElse test consequent alternative =>
      refine (keeps s _ test env holds (I.site_part site rfl)).bind fun t v st holds _ => ?_
      have later := I.site_mono st site
      by_cases true : v.isTrue
      · simp only [if_pos true]
        exact keeps t _ consequent env holds (I.site_part later rfl)
      · simp only [if_neg true]
        cases alternative with
        | some e => exact keeps t _ e env holds (I.site_part later rfl)
        | none => exact kept_pure holds trivial
  | lambda params body => exact close_kept holds site called
  | letIn names values body =>
      have sites : ∀ j e, values[j]? = some e → I.site s (partOf place (0 + j)) e env := by
        intro j e at'
        refine I.site_part site ?_
        have inside := (List.getElem?_eq_some_iff.1 at').1
        rw [Nat.zero_add, Expr.parts, List.getElem?_append_left (by simpa using inside)]
        simp [at']
      refine (all_kept keeps holds sites).bind fun t vs st holds each => ?_
      obtain ⟨length, propers⟩ := each
      have sound := holds.allocate_sound propers
      exact bodyWith_kept keeps holds propers
        (I.opens_let holds.sound sound (I.site_mono st site) (called.mono st) length)
  | apply operator operands =>
      refine (keeps s _ operator env holds (I.site_part site rfl)).bind
        fun t procedure st holds proper => ?_
      have sites : ∀ j e, operands[j]? = some e → I.site t (partOf place (1 + j)) e env := by
        intro j e at'
        refine I.site_part (I.site_mono st site) ?_
        simp [Expr.parts, Nat.add_comm 1 j, at']
      refine (all_kept keeps holds sites).bind fun u args tu holds each => ?_
      exact apply_kept keeps holds (proper.mono tu) each.2
  | assign name value =>
      refine (keeps s _ value env holds (I.site_part site rfl)).bind fun t v st holds proper => ?_
      have later := I.site_mono st site
      refine (lookup_kept holds later (.inr ⟨value, rfl⟩)).bind fun u a tu holds found => ?_
      refine (write_kept holds found (proper.mono tu)).bind fun _ _ _ holds _ => ?_
      exact kept_pure holds trivial

theorem eval_kept (I : Invariant) (fuel : Nat) : I.Keeps (Traced.eval fuel) := by
  induction fuel with
  | zero =>
      intro s place e env holds site
      -- Out of fuel: there is no memory to speak of, but the call was recorded.
      exact (holds.note (fun _ => rfl) rfl (I.call holds.sound site)).trail
  | succ fuel ih =>
      intro s place e env holds site
      have later : s.Before (s.note (.call place e env s.memory)) :=
        Moment.before_note (fun _ => rfl) rfl
      have noted := holds.note (fun _ => rfl) rfl (I.call holds.sound site)
      have called : (s.note (.call place e env s.memory)).Called place e env :=
        ⟨s.memory, List.mem_cons_self⟩
      exact (step_kept ih noted (I.site_mono later site) called).of_before later

end Invariant

end StoreScheme
