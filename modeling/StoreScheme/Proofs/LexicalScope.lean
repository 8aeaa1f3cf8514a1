import StoreScheme.Proofs.AddressSafety

/-!
# Lexical scope

The environment in which an expression is evaluated is given by the place where the expression
stands: it has one frame for each `lambda` or `let` around that place, innermost first, with the names
bound there.  Who calls a procedure does not matter, because a frame is only ever put in front of an
environment in which the binding expression was itself evaluated.

* `Occurrence.view?`: the expression at a place, with the binders around it
* `BoundBy`: an environment made by binders
* `lexicalScope`: the invariant of evaluation
* `History.Reached.lexical_scope`: the environments of all evaluations, the cells of all variables and
  the reason of all unbound ones
-/

namespace StoreScheme

/-! ## Binders -/

structure Binder where
  place : Occurrence
  names : List String

/-- The expression at the end of a way down, with the binders passed on it, innermost first. -/
def Expr.view? (root : Expr) : List Nat → Option (List Binder × Expr)
  | [] => some ([], root)
  | i :: path =>
    match root.view? path with
    | some (bs, e) => e.parts[i]?.map fun (names, part) =>
      (match names with
        | some names => ⟨⟨root, path⟩, names⟩ :: bs
        | none => bs, part)
    | none => none

def Occurrence.view? (o : Occurrence) : Option (List Binder × Expr) := o.root.view? o.path

/-- A binder put a frame in front of an environment, in which it was evaluated itself. -/
structure Binder.Made (r : Record) (b : Binder) (fr : Frame) (env : Env) : Prop where
  names : fr.names = b.names
  bound : ∃ m, .bind (some b.place) fr env m ∈ r
  called : ∃ e m, .call (some b.place) e env m ∈ r

inductive BoundBy (r : Record) : Env → List Binder → Prop
  | nil : BoundBy r [] []
  | cons {b : Binder} {bs : List Binder} {fr : Frame} {env : Env} : b.Made r fr env →
    BoundBy r env bs → BoundBy r (fr :: env) (b :: bs)

/-- An expression stands within some binders at a place of a program, and its environment was made
by them. -/
structure InScope (r : Record) (place : Option Occurrence) (e : Expr) (env : Env) (bs : List Binder) :
    Prop where
  stands : ∃ o, place = some o ∧ o.view? = some (bs, e) ∧ ∃ x : Form, x.IsRead ∧ x.root = o.root
  bound : BoundBy r env bs

variable {r r' : Record} {place : Option Occurrence} {e part : Expr} {env : Env} {b : Binder}
  {bs : List Binder} {names : List String} {fr : Frame} {i : Nat}

theorem Occurrence.view?_part {o : Occurrence} (view : o.view? = some (bs, e))
    (at' : e.parts[i]? = some (none, part)) :
    (⟨o.root, i :: o.path⟩ : Occurrence).view? = some (bs, part) := by
  change o.root.view? o.path = _ at view
  simp [Occurrence.view?, Expr.view?, view, at']

theorem Occurrence.view?_body {o : Occurrence} (view : o.view? = some (bs, e))
    (at' : e.parts[i]? = some (some names, part)) :
    (⟨o.root, i :: o.path⟩ : Occurrence).view? = some (⟨o, names⟩ :: bs, part) := by
  change o.root.view? o.path = _ at view
  simp [Occurrence.view?, Expr.view?, view, at']

theorem Binder.Made.mono (later : r <:+ r') (made : b.Made r fr env) : b.Made r' fr env := by
  obtain ⟨names, ⟨m, bound⟩, e, m', called⟩ := made
  exact ⟨names, ⟨m, later.subset bound⟩, e, m', later.subset called⟩

theorem BoundBy.mono (later : r <:+ r') (bound : BoundBy r env bs) : BoundBy r' env bs := by
  induction bound with
  | nil => exact .nil
  | cons made _ ih => exact .cons (made.mono later) ih

theorem BoundBy.map_names (bound : BoundBy r env bs) : env.map Frame.names = bs.map Binder.names := by
  induction bound with
  | nil => rfl
  | cons made _ ih => simp [made.names, ih]

theorem BoundBy.split {inner outer : List Binder} (bound : BoundBy r env (inner ++ b :: outer)) :
    ∃ frames fr further, env = frames ++ fr :: further ∧
      frames.map Frame.names = inner.map Binder.names ∧ b.Made r fr further ∧
      BoundBy r further outer := by
  induction inner generalizing env with
  | nil =>
      cases bound with
      | @cons _ _ fr further made rest => exact ⟨[], fr, further, rfl, rfl, made, rest⟩
  | cons b' inner ih =>
      cases bound with
      | @cons _ _ fr' _ made' rest =>
          obtain ⟨frames, fr, further, rfl, names, made, rest⟩ := ih rest
          exact ⟨fr' :: frames, fr, further, rfl, by simp [made'.names, names], made, rest⟩

theorem InScope.mono (later : r <:+ r') (inScope : InScope r place e env bs) :
    InScope r' place e env bs :=
  ⟨inScope.stands, inScope.bound.mono later⟩

theorem InScope.of_part (inScope : InScope r place e env bs) (at' : e.parts[i]? = some (none, part)) :
    InScope r (partOf place i) part env bs := by
  obtain ⟨⟨o, rfl, view, isRead⟩, bound⟩ := inScope
  exact ⟨⟨⟨o.root, i :: o.path⟩, rfl, Occurrence.view?_part view at', isRead⟩, bound⟩

theorem InScope.of_body {m : Memory} (inScope : InScope r place e env bs)
    (called : ∃ m, .call place e env m ∈ r) (at' : e.parts[i]? = some (some fr.names, part)) :
    ∃ bs, InScope (.bind place fr env m :: r) (partOf place i) part (fr :: env) bs := by
  obtain ⟨⟨o, rfl, view, isRead⟩, bound⟩ := inScope
  obtain ⟨m', called⟩ := called
  have later : r <:+ .bind (some o) fr env m :: r := List.suffix_cons _ _
  have made : (⟨o, fr.names⟩ : Binder).Made (.bind (some o) fr env m :: r) fr env :=
    ⟨rfl, ⟨m, List.mem_cons_self⟩, e, m', later.subset called⟩
  have view : (⟨o.root, i :: o.path⟩ : Occurrence).view? = some (⟨o, fr.names⟩ :: bs, part) :=
    Occurrence.view?_body view at'
  exact ⟨_, ⟨_, rfl, view, isRead⟩, .cons made (bound.mono later)⟩

/-! ## The invariant -/

def Event.Lexical (r : Record) : Event → Prop
  | .call place e env _ => ∃ bs, InScope r place e env bs
  | .lookup place name env _ => ∃ e bs, InScope r place e env bs ∧ e.Mentions name
  | .bind _ _ _ _ => True
  | .close _ _ => True

def lexical : Judgement where
  closure s id params body env := id < s.memory.fresh ∧
    s.Called (s.record.origin? id) (.lambda params body) env ∧
    ∃ bs, InScope s.record (s.record.origin? id) (.lambda params body) env bs
  site s place e env := ∃ bs, InScope s.record place e env bs
  globals _ := True
  event r event := event.Lexical r

theorem lexical_opens {s : Moment} {es : List Expr} {vs : List Value}
    (inScope : InScope s.record place e env bs) (called : s.Called place e env)
    (parts : ∀ j part, es[j]? = some part → e.parts[i + j]? = some (some names, part)) :
    lexical.Opens s place names i es vs env where
  event := trivial
  site j part at' := inScope.of_body called (parts j part at')

def lexicalScope : Invariant where
  toJudgement := lexical
  closure_mono := by
    rintro s t id params body env st ⟨old, called, bs, inScope⟩
    refine ⟨Nat.lt_of_lt_of_le old st.fresh, ?_⟩
    -- An identity that was given out before keeps its place.
    simp only [st.origin id old]
    exact ⟨called.mono st, bs, inScope.mono st.record⟩
  site_mono st site := site.imp fun _ inScope => inScope.mono st.record
  globals_mono _ _ _ := trivial
  globals_empty := trivial
  globals_define _ _ _ _ := trivial
  site_top s x isRead := ⟨[], ⟨⟨x.root, []⟩, rfl, rfl, x, isRead, rfl⟩, .nil⟩
  site_part site part := site.imp fun _ inScope => inScope.of_part part
  call _ site := site
  lookup _ site mentions := ⟨_, site.choose, site.choose_spec, mentions⟩
  close := by
    rintro s place params body env ⟨bs, inScope⟩ called
    obtain ⟨o, rfl, -⟩ := inScope.stands
    have later := s.before_close (some o)
    have origin : (s.close (some o)).record.origin? s.memory.fresh = some o := by
      simp [Moment.close, Record.origin?, Event.makes?]
    refine ⟨trivial, Nat.lt_succ_self _, ?_⟩
    simp only [origin]
    exact ⟨called.mono later, bs, inScope.mono later.record⟩
  opens_closure := by
    rintro s id params body env vs - - ⟨-, called, bs, inScope⟩ -
    refine lexical_opens inScope called fun j part at' => ?_
    simp [Expr.parts, at']
  opens_let := by
    rintro s place names values body env vs - - ⟨bs, inScope⟩ called -
    refine lexical_opens inScope called fun j part at' => ?_
    rw [Expr.parts, List.getElem?_append_right (by simp)]
    simp [at']

/-! ## The cells of variables -/

/-- Where a name leads within some binders: to the cell that the innermost binder of the name made
for it, or to a global one if no binder has it. -/
structure Resolves (r : Record) (bs : List Binder) (env : Env) (g : Globals) (name : String) : Prop where
  bound : ∀ inner b outer, bs = inner ++ b :: outer → name ∈ b.names →
    (∀ b' ∈ inner, name ∉ b'.names) →
    ∃ fr further i a, env[inner.length]? = some fr ∧ b.Made r fr further ∧
      fr.names.idxOf? name = some i ∧ fr.addresses[i]? = some a ∧ env.lookup? g name = some a
  free : (∀ b ∈ bs, name ∉ b.names) → env.lookup? g name = g.lookup? name

section
variable {g : Globals} {name : String}

theorem not_mem_names {frames : Env} (same : frames.map Frame.names = bs.map Binder.names)
    (missing : ∀ b ∈ bs, name ∉ b.names) : ∀ fr ∈ frames, name ∉ fr.names := by
  intro fr member
  have shared : fr.names ∈ bs.map Binder.names := same ▸ List.mem_map_of_mem member
  obtain ⟨b, member', names⟩ := List.mem_map.1 shared
  exact names ▸ missing b member'

theorem BoundBy.resolves (bound : BoundBy r env bs)
    (balanced : ∀ fr ∈ env, fr.names.length = fr.addresses.length) : Resolves r bs env g name where
  bound := by
    rintro inner b outer rfl member missing
    obtain ⟨frames, fr, further, rfl, names, made, -⟩ := bound.split
    have length : frames.length = inner.length := by simpa using congrArg List.length names
    obtain ⟨i, position⟩ : ∃ i, fr.names.idxOf? name = some i := by
      rw [← Option.isSome_iff_exists, List.isSome_idxOf?, made.names]
      exact member
    obtain ⟨a, at', found⟩ := Frame.lookup?_of_idxOf? (balanced fr (by simp)) position
    refine ⟨fr, further, i, a, by simp [← length], made, position, at', ?_⟩
    rw [Env.lookup?_append (not_mem_names names missing)]
    exact Env.lookup?_cons found
  free missing := by
    have passed : Env.lookup? g name (env ++ []) = Env.lookup? g name [] :=
      Env.lookup?_append (not_mem_names bound.map_names missing)
    rwa [List.append_nil] at passed

theorem Resolves.of_none (resolves : Resolves r bs env g name) (unbound : env.lookup? g name = none) :
    (∀ b ∈ bs, name ∉ b.names) ∧ g.lookup? name = none := by
  have missing : ∀ b ∈ bs, name ∉ b.names := by
    cases first : bs.find? (fun b => decide (name ∈ b.names)) with
    | none => simpa using first
    | some b =>
        obtain ⟨member, inner, outer, split, before⟩ := List.find?_eq_some_iff_append.1 first
        obtain ⟨_, _, _, a, _, _, _, _, found⟩ :=
          resolves.bound inner b outer split (by simpa using member) (by simpa using before)
        rw [unbound] at found
        cases found
  exact ⟨missing, resolves.free missing ▸ unbound⟩

end

theorem lookup_resolves {name : String} {m : Memory} {earlier : Record}
    (fits : addressSafety.Trail r) (inPlace : lexicalScope.Trail r)
    (recorded : .lookup place name env m :: earlier <:+ r) :
    ∃ e bs, InScope earlier place e env bs ∧ e.Mentions name ∧
      Resolves earlier bs env m.globals name := by
  obtain ⟨e, bs, inScope, mentions⟩ := inPlace.event recorded
  obtain ⟨-, fits, -⟩ := fits.event recorded
  exact ⟨e, bs, inScope, mentions, inScope.bound.resolves fun fr member => (fits fr member).balanced⟩

/-! ## Histories -/

/-- In all that is recorded along a history and during a request, however it ends, the environment of
an evaluation has the names of the binders around the place of the expression, and the cell of a
variable is the one of its innermost binder.  A variable is reported as unbound only where no binder
around it has its name, nor has a global cell at that moment. -/
theorem History.Reached.lexical_scope {h : History} (reached : h.Reached) {q : Request}
    (allowed : h.Allows q) (fuel : Nat) :
    (∀ place e env m earlier, .call place e env m :: earlier <:+ h.session.record fuel h.record q →
      ∃ bs, InScope earlier place e env bs ∧ env.map Frame.names = bs.map Binder.names) ∧
    (∀ place name env m earlier,
      .lookup place name env m :: earlier <:+ h.session.record fuel h.record q →
      ∃ e bs, InScope earlier place e env bs ∧ e.Mentions name ∧
        Resolves earlier bs env m.globals name) ∧
    ∀ name s, h.session.serve fuel q = some (.error (.eval (.unboundVariable name)), s) →
      ∃ place env m earlier e bs,
        h.session.record fuel h.record q = .lookup place name env m :: earlier ∧
        InScope earlier place e env bs ∧ e.Mentions name ∧ (∀ b ∈ bs, name ∉ b.names) ∧
        m.globals.lookup? name = none := by
  obtain ⟨fits, -⟩ := Invariant.serve_kept (addressSafety.reached_kept reached) allowed fuel
  obtain ⟨inPlace, served⟩ := Invariant.serve_kept (lexicalScope.reached_kept reached) allowed fuel
  refine ⟨fun place e env m earlier recorded => ?_, fun place name env m earlier recorded => ?_,
    fun name s result => ?_⟩
  · obtain ⟨bs, inScope⟩ := inPlace.event recorded
    exact ⟨bs, inScope, inScope.bound.map_names⟩
  · exact lookup_resolves fits inPlace recorded
  · obtain ⟨place, env, m, last, unbound⟩ := (served _ s result).explained _ rfl
    obtain ⟨earlier, record⟩ := List.head?_eq_some_iff.1 last
    obtain ⟨e, bs, inScope, mentions, resolves⟩ :=
      lookup_resolves fits inPlace ⟨[], record.symm⟩
    exact ⟨place, env, m, earlier, e, bs, record, inScope, mentions, resolves.of_none unbound⟩

def Reply.unbound? : Reply → Option String
  | .error (.eval (.unboundVariable name)) => some name
  | _ => none

theorem Reply.eq_of_unbound? {reply : Reply} {name : String} (unbound : reply.unbound? = some name) :
    reply = .error (.eval (.unboundVariable name)) := by
  unfold Reply.unbound? at unbound
  split at unbound
  · cases unbound
    rfl
  · cases unbound

-- A procedure with a free variable, called where a `let` binds a variable of that name.
theorem History.Reached.lexical_scope_free_variable :
    ∃ h : History, h.Reached ∧ ∃ s,
      h.session.serve 9 (.run "(let ((y #t)) (f))") = some (.error (.eval (.unboundVariable "y")), s) ∧
      ∃ place env m earlier e bs,
        h.session.record 9 h.record (.run "(let ((y #t)) (f))") = .lookup place "y" env m :: earlier ∧
        InScope earlier place e env bs ∧ e.Mentions "y" ∧ (∀ b ∈ bs, "y" ∉ b.names) ∧
        m.globals.lookup? "y" = none := by
  let h := History.ask { session := {} } 9 (.run "(define f (lambda () y)) #t")
  have reached : h.Reached := .ask (.start {}) (.run "(define f (lambda () y)) #t") trivial 9
  have allowed : h.Allows (.run "(let ((y #t)) (f))") := trivial
  have unbound : (h.session.serve 9 (.run "(let ((y #t)) (f))")).bind (·.1.unbound?) = some "y" := by
    decide +kernel
  obtain ⟨⟨reply, s⟩, served, reported⟩ := Option.bind_eq_some_iff.1 unbound
  cases Reply.eq_of_unbound? reported
  exact ⟨h, reached, s, served, (reached.lexical_scope allowed 9).2.2 "y" s served⟩

end StoreScheme
