import StoreScheme.Proofs.Env.Lookup
import StoreScheme.Proofs.Session.History

/-!
# Safety of addresses

No address ever points outside the store, and every frame has one address for each of its names.
This holds of the global names, of the environment of every closure wherever it is kept, and of every
environment that the evaluator is called with.

* `Frame.Fits`, `Env.Fits`, `Value.Fits`, `Memory.Fits`: addresses within a store of some size
* `Event.Fits`: the same for all that an event shows
* `addressSafety`: the invariant of evaluation
* `History.Reached.addresses_fit`: it holds along every history, and no reply reports an address out
  of bounds
-/

namespace StoreScheme

structure Frame.Fits (size : Nat) (fr : Frame) : Prop where
  balanced : fr.names.length = fr.addresses.length
  inUse : ∀ a ∈ fr.addresses, a < size

def Env.Fits (size : Nat) (env : Env) : Prop := ∀ fr ∈ env, fr.Fits size

def Value.Fits (size : Nat) (v : Value) : Prop := v.AllClosures fun _ _ _ env => env.Fits size

structure Memory.Fits (m : Memory) : Prop where
  globals : ∀ a ∈ m.globals.addresses, a < m.store.size
  cells : ∀ a v, m.store.read? a = some v → v.Fits m.store.size

/-- What an event shows fits into the memory of that moment.  A name found in a frame has an address
at its position. -/
def Event.Fits : Event → Prop
  | .call _ _ env m => m.Fits ∧ env.Fits m.store.size
  | .lookup _ name env m => m.Fits ∧ env.Fits m.store.size ∧
      ∀ fr ∈ env, ∀ i, fr.names.idxOf? name = some i → i < fr.addresses.length
  | .bind _ frame env m => m.Fits ∧ Env.Fits m.store.size (frame :: env)
  | .close _ _ => True

/-! ## Growing stores -/

section
variable {size larger : Nat} {fr : Frame} {env : Env} {v : Value}

theorem Frame.Fits.mono (grown : size ≤ larger) (fits : fr.Fits size) : fr.Fits larger :=
  ⟨fits.balanced, fun a member => Nat.lt_of_lt_of_le (fits.inUse a member) grown⟩

theorem Env.Fits.mono (grown : size ≤ larger) (fits : env.Fits size) : env.Fits larger :=
  fun fr member => (fits fr member).mono grown

theorem Env.Fits.lookup? {g : Globals} {name : String} {a : Address} (fits : env.Fits size)
    (globals : ∀ a ∈ g.addresses, a < size) (found : env.lookup? g name = some a) : a < size := by
  rcases Env.mem_of_lookup? found with local' | global
  · obtain ⟨fr, member, inFrame⟩ := Env.mem_addresses.1 local'
    exact (fits fr member).inUse a inFrame
  · exact globals a global

theorem Frame.Fits.position {name : String} {i : Nat} (fits : fr.Fits size)
    (position : fr.names.idxOf? name = some i) : i < fr.addresses.length := by
  rw [← fits.balanced]
  exact (List.idxOf?_eq_some_iff.1 position).1

end

theorem Moment.frame_fits (s : Moment) {names : List String} {vs : List Value}
    (length : names.length = vs.length) :
    (s.frame names vs).Fits (s.allocate vs).memory.store.size where
  balanced := by simp [frame, Store.allocateAll_fst, length]
  inUse a member := (mem_frame member).2

/-! ## Well-formed parts -/

theorem Expr.WellFormed.part {e part : Expr} {names : Option (List String)} (wellFormed : e.WellFormed)
    (member : (names, part) ∈ e.parts) : part.WellFormed := by
  cases wellFormed <;> simp only [Expr.parts] at member <;> grind

theorem Form.IsRead.root_wellFormed {x : Form} (isRead : x.IsRead) : x.root.WellFormed := by
  obtain ⟨_, _, _, xs, _, built, member⟩ := isRead
  cases (readForms_ok built).2 x member with
  | define _ wellFormed => exact wellFormed
  | expr wellFormed => exact wellFormed

/-! ## The invariant -/

def fitting : Judgement where
  closure s _ _ body env := env.Fits s.memory.store.size ∧ ∀ e ∈ body, e.WellFormed
  site s _ e env := env.Fits s.memory.store.size ∧ e.WellFormed
  globals s := ∀ a ∈ s.memory.globals.addresses, a < s.memory.store.size
  event _ event := event.Fits

variable {s : Moment}

theorem fitting_memory (sound : fitting.Sound s) : s.memory.Fits where
  globals := sound.globals
  cells a v read := (sound.cells a v read).imp fun _ _ _ _ closure => closure.1

theorem fitting_opens {place : Option Occurrence} {names : List String} {i : Nat} {es : List Expr}
    {vs : List Value} {env : Env} (sound : fitting.Sound (s.allocate vs))
    (length : names.length = vs.length) (fits : env.Fits s.memory.store.size)
    (wellFormed : ∀ e ∈ es, e.WellFormed) : fitting.Opens s place names i es vs env := by
  have grown : s.memory.store.size ≤ (s.allocate vs).memory.store.size :=
    (Moment.before_allocate vs).size
  have extended : Env.Fits (s.allocate vs).memory.store.size (s.frame names vs :: env) :=
    List.forall_mem_cons.2 ⟨s.frame_fits length, fits.mono grown⟩
  refine ⟨⟨fitting_memory sound, extended⟩, fun j e at' => ?_⟩
  exact ⟨extended, wellFormed e (List.mem_of_getElem? at')⟩

def addressSafety : Invariant where
  toJudgement := fitting
  closure_mono st closure := ⟨closure.1.mono st.size, closure.2⟩
  site_mono st site := ⟨site.1.mono st.size, site.2⟩
  globals_mono st same globals a member :=
    Nat.lt_of_lt_of_le (globals a (same ▸ member)) st.size
  globals_empty a member := absurd member List.not_mem_nil
  globals_define policy name v globals a member := by
    rw [Store.size_allocate]
    rcases Globals.mem_addresses_define member with rfl | old
    · exact Nat.lt_succ_self _
    · exact Nat.lt_succ_of_lt (globals a old)
  site_top s x isRead := ⟨List.forall_mem_nil _, isRead.root_wellFormed⟩
  site_part site part := ⟨site.1, site.2.part (List.mem_of_getElem? part)⟩
  call sound site := ⟨fitting_memory sound, site.1⟩
  lookup sound site _ :=
    ⟨fitting_memory sound, site.1, fun fr member _ position => (site.1 fr member).position position⟩
  close site _ := by
    cases site.2 with
    | lambda _ wellFormed => exact ⟨trivial, site.1, wellFormed⟩
  -- The arguments of a closure were counted; that a `let` has one value for each name comes from
  -- the way it is built.
  opens_closure _ sound closure length := fitting_opens sound length closure.1 closure.2
  opens_let _ sound site _ length := by
    cases site.2 with
    | letIn _ balanced _ wellFormed =>
        exact fitting_opens sound (balanced.trans length) site.1 wellFormed

theorem trail_fits {r : Record} (trail : addressSafety.Trail r) : ∀ event ∈ r, event.Fits := by
  intro event member
  obtain ⟨later, earlier, rfl⟩ := List.append_of_mem member
  exact trail.event (List.suffix_append later (event :: earlier))

theorem proper_fits {v : Value} (proper : addressSafety.Proper s v) :
    v.Fits s.memory.store.size :=
  proper.imp fun _ _ _ _ closure => closure.1

theorem not_outOfBounds {r : Record} (trail : addressSafety.Trail r) (a : Address) :
    ¬ (EvalError.outOfBounds a).Explained r := by
  rintro ⟨place, name, env, m, last, found, outside⟩
  have member : Event.lookup place name env m ∈ r := List.mem_of_mem_head? last
  obtain ⟨memory, fits, -⟩ := trail_fits trail _ member
  exact Nat.not_lt.2 outside (fits.lookup? memory.globals found)

/-! ## Histories -/

/-- Along every history all addresses fit, and so they do in all that is recorded and replied from
there on, however a request ends.  No reply reports an address out of bounds. -/
theorem History.Reached.addresses_fit {h : History} (reached : h.Reached) :
    h.session.memory.Fits ∧ (∀ v ∈ h.values, v.Fits h.session.memory.store.size) ∧
      (∀ event ∈ h.record, event.Fits) ∧
      ∀ q fuel, h.Allows q →
        (∀ event ∈ h.session.record fuel h.record q, event.Fits) ∧
        ∀ reply s, h.session.serve fuel q = some (reply, s) →
          s.memory.Fits ∧ (∀ v ∈ reply.newValues, v.Fits s.memory.store.size) ∧
          ∀ a, reply ≠ .error (.eval (.outOfBounds a)) := by
  have along := addressSafety.reached_kept reached
  refine ⟨fitting_memory along.holds.sound, fun v member => proper_fits (along.values v member),
    trail_fits along.holds.trail, fun q fuel allowed => ?_⟩
  obtain ⟨trail, served⟩ := Invariant.serve_kept along allowed fuel
  refine ⟨trail_fits trail, fun reply s result => ?_⟩
  have replied := served reply s result
  refine ⟨fitting_memory replied.holds.sound, fun v member => proper_fits (replied.values v member), ?_⟩
  exact fun a same => not_outOfBounds trail a (replied.explained _ same)

-- A closure in a cell of its own environment, which is then applied.
theorem History.Reached.addresses_fit_own_cell :
    ∃ h : History, h.Reached ∧ h.session.memory.store.size = 2 ∧ h.values.length = 1 ∧
      h.session.memory.Fits ∧ ∀ v ∈ h.values, v.Fits h.session.memory.store.size ∧
        ∀ fuel reply s, h.session.serve fuel (.apply v []) = some (reply, s) →
          s.memory.Fits ∧ ∀ a, reply ≠ .error (.eval (.outOfBounds a)) := by
  let source := "(define f (let ((x #t)) (set! x (lambda () x)) x)) f"
  have reached : (History.ask { session := {} } 9 (.run source)).Reached :=
    .ask (.start {}) (.run source) trivial 9
  obtain ⟨memory, values, -, requests⟩ := History.Reached.addresses_fit reached
  refine ⟨_, reached, by decide +kernel, by decide +kernel, memory, fun v member => ?_⟩
  refine ⟨values v member, fun fuel reply s served => ?_⟩
  have allowed : (History.ask { session := {} } 9 (.run source)).Allows (.apply v []) :=
    ⟨.replied member, List.forall_mem_nil _⟩
  obtain ⟨later, -, inBounds⟩ := (requests (.apply v []) fuel allowed).2 reply s served
  exact ⟨later, inBounds⟩

end StoreScheme
