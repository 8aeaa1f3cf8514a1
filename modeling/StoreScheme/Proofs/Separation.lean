import StoreScheme.Proofs.Env.Lookup
import StoreScheme.Proofs.Session.History

/-!
# Separation of variables

No two variables have the same cell.  Every frame gets new cells when it is bound, and so does every
global definition, so that an address tells its variable: an address that occurs in two frames
occurs in one frame that was captured twice.

* `Env.links`, `Moment.Frames`: the frames of a state, each with the environment behind it
* `Memory.Separate`: distinct variables have distinct cells
* `Memory.AssignsOne`: an assignment changes one variable and no other
* `separation`: the invariant of evaluation
* `History.Reached.variables_separate`: both hold in every state of every history
-/

namespace StoreScheme

/-! ## Frames of a state -/

/-- The frames of an environment, each with the environment behind it. -/
def Env.links : Env → List Link
  | [] => []
  | fr :: env => (fr, env) :: links env

def Value.links : Value → List Link
  | .pair _ car cdr => car.links ++ cdr.links
  | .closure _ _ _ env => env.links
  | _ => []

def Event.links : Event → List Link
  | .call _ _ env _ => env.links
  | .lookup _ _ env _ => env.links
  | .bind _ frame env _ => Env.links (frame :: env)
  | .close _ _ => []

def Event.memory? : Event → Option Memory
  | .call _ _ _ m => some m
  | .lookup _ _ _ m => some m
  | .bind _ _ _ m => some m
  | .close _ _ => none

/-- The frames of closures in cells and in values that are held elsewhere, and of all environments
in which something was evaluated so far.  A closure is made by evaluating a `lambda`, so that the
environments of closures which are kept nowhere yet are among the latter. -/
inductive Moment.Frames (s : Moment) (held : List Value) (link : Link) : Prop
  | cell {a : Address} {v : Value} : s.memory.store.read? a = some v → link ∈ v.links →
    Frames s held link
  | value {v : Value} : v ∈ held → link ∈ v.links → Frames s held link
  | recorded {event : Event} : event ∈ s.record → link ∈ event.links → Frames s held link

/-- A variable of a call or a `let`, by its frame and its position there, or a global one, by its
position among the global names. -/
inductive Variable
  | inFrame (link : Link) (i : Nat)
  | global (i : Nat)

namespace Variable

def address? (g : Globals) : Variable → Option Address
  | .inFrame link i => link.1.addresses[i]?
  | .global i => g.addresses[i]?

def Among (frames : Link → Prop) : Variable → Prop
  | .inFrame link _ => frames link
  | .global _ => True

end Variable

structure Memory.Separate (m : Memory) (frames : Link → Prop) : Prop where
  within : ∀ link, frames link → link.1.addresses.Nodup
  globals : m.globals.addresses.Nodup
  outside : ∀ link, frames link → ∀ a ∈ link.1.addresses, a ∉ m.globals.addresses
  -- Frames with the same names, the same addresses and the same environment behind them.
  same : ∀ link link', frames link → frames link' →
    ∀ a ∈ link.1.addresses, a ∈ link'.1.addresses → link = link'

/-- An assignment to a name is an assignment to one variable in its scope, and what any other
variable holds is left as it was. -/
def Memory.AssignsOne (m : Memory) (frames : Link → Prop) : Prop :=
  ∀ (env : Env) name a v store, (∀ link ∈ env.links, frames link) →
    env.lookup? m.globals name = some a → m.store.write? a v = some store →
    ∃ x : Variable, x.Among (· ∈ env.links) ∧ x.address? m.globals = some a ∧
      ∀ y : Variable, y.Among frames → y ≠ x → ∀ b, y.address? m.globals = some b →
        store.read? b = m.store.read? b

/-! ## Variables and their addresses -/

section
variable {m : Memory} {frames : Link → Prop} {link : Link} {env : Env} {fr : Frame} {g : Globals}
  {name : String} {a : Address} {x y : Variable}

theorem Env.mem_links (member : fr ∈ env) : ∃ next, (fr, next) ∈ env.links := by
  induction env with
  | nil => cases member
  | cons fr' env ih =>
      rcases List.mem_cons.1 member with rfl | further
      · exact ⟨env, List.mem_cons_self⟩
      · obtain ⟨next, linked⟩ := ih further
        exact ⟨next, List.mem_cons_of_mem _ linked⟩

theorem Env.variable_of_lookup? (found : env.lookup? g name = some a) :
    ∃ x : Variable, x.Among (· ∈ env.links) ∧ x.address? g = some a := by
  rcases Env.mem_of_lookup? found with inFrame | isGlobal
  · obtain ⟨fr, member, holds⟩ := Env.mem_addresses.1 inFrame
    obtain ⟨next, linked⟩ := Env.mem_links member
    obtain ⟨i, at'⟩ := List.mem_iff_getElem?.1 holds
    exact ⟨.inFrame (fr, next) i, linked, at'⟩
  · obtain ⟨i, at'⟩ := List.mem_iff_getElem?.1 isGlobal
    exact ⟨.global i, trivial, at'⟩

theorem eq_of_getElem?_of_nodup {as : List Address} {i j : Nat} (distinct : as.Nodup)
    (first : as[i]? = some a) (second : as[j]? = some a) : i = j := by
  have inside : i < as.length := (List.getElem?_eq_some_iff.1 first).1
  exact (List.getElem?_inj inside distinct).1 (first.trans second.symm)

/-- An address tells its variable. -/
theorem Memory.Separate.eq_of_address? (separate : m.Separate frames) (hx : x.Among frames)
    (hy : y.Among frames) (first : x.address? m.globals = some a)
    (second : y.address? m.globals = some a) : x = y := by
  cases x with
  | inFrame link i =>
      have inLink : a ∈ link.1.addresses := List.mem_of_getElem? first
      cases y with
      | inFrame link' j =>
          obtain rfl := separate.same link link' hx hy a inLink (List.mem_of_getElem? second)
          rw [eq_of_getElem?_of_nodup (separate.within link hx) first second]
      | global j => exact absurd (List.mem_of_getElem? second) (separate.outside link hx a inLink)
  | global i =>
      cases y with
      | inFrame link j =>
          have inLink : a ∈ link.1.addresses := List.mem_of_getElem? second
          exact absurd (List.mem_of_getElem? first) (separate.outside link hy a inLink)
      | global j => rw [eq_of_getElem?_of_nodup separate.globals first second]

theorem Memory.Separate.assignsOne (separate : m.Separate frames) : m.AssignsOne frames := by
  intro env name a v store inScope found written
  obtain ⟨x, among, address⟩ := Env.variable_of_lookup? found
  have hx : x.Among frames := by
    cases x with
    | inFrame link i => exact inScope link among
    | global i => trivial
  refine ⟨x, among, address, fun y hy other b address' => ?_⟩
  have different : b ≠ a := by
    rintro rfl
    exact other (separate.eq_of_address? hy hx address' address)
  rw [Store.read?_of_write? written, if_neg different]

end

/-! ## Made environments -/

/-- Each frame of an environment was bound in front of the environment behind it. -/
def Env.Made (r : Record) (env : Env) : Prop := ∀ link ∈ env.links, r.Binds link

section
variable {r r' : Record} {env : Env} {v : Value} {event : Event} {link : Link}

theorem Record.Binds.mono (later : r <:+ r') (bound : r.Binds link) : r'.Binds link := by
  obtain ⟨event, member, binds⟩ := bound
  exact ⟨event, later.subset member, binds⟩

theorem Env.Made.mono (later : r <:+ r') (made : env.Made r) : env.Made r' :=
  fun link member => (made link member).mono later

theorem Env.Made.cons {fr : Frame} (bound : r.Binds (fr, env)) (made : env.Made r) :
    Env.Made r (fr :: env) :=
  List.forall_mem_cons.2 ⟨bound, made⟩

theorem Value.links_bound (made : v.AllClosures fun _ _ _ env => env.Made r) :
    ∀ link ∈ v.links, r.Binds link := by
  induction v with
  | pair id car cdr ihCar ihCdr => exact List.forall_mem_append.2 ⟨ihCar made.1, ihCdr made.2⟩
  | closure id params body env => exact made
  | _ => exact List.forall_mem_nil _

end

/-! ## The invariant -/

/-- All addresses are in use, and none is both in a frame and global. -/
structure Moment.Apart (s : Moment) : Prop where
  distinct : s.memory.globals.addresses.Nodup
  globals : ∀ a ∈ s.memory.globals.addresses, a < s.memory.store.size
  frames : ∀ link, s.record.Binds link →
    ∀ a ∈ link.1.addresses, a < s.memory.store.size ∧ a ∉ s.memory.globals.addresses

/-- Besides, the closures in cells have environments that were made. -/
structure Moment.Tidy (s : Moment) : Prop where
  apart : s.Apart
  cells : ∀ a v, s.memory.store.read? a = some v → ∀ link ∈ v.links, s.record.Binds link

/-- What an event shows is tidy, and a frame that is bound has new cells only, each once. -/
structure Event.Separate (r : Record) (event : Event) : Prop where
  tidy : ∀ m, event.memory? = some m → Moment.Tidy ⟨m, event :: r⟩
  made : ∀ link ∈ event.links, Record.Binds (event :: r) link
  distinct : ∀ link, event.binds? = some link → link.1.addresses.Nodup
  new : ∀ link, event.binds? = some link →
    ∀ link', r.Binds link' → ∀ a ∈ link.1.addresses, a ∉ link'.1.addresses

def separated : Judgement where
  closure s _ _ _ env := env.Made s.record
  site s _ _ env := env.Made s.record
  globals s := s.Apart
  event r event := event.Separate r

section
variable {s t : Moment}

theorem Moment.Apart.mono (st : s.Before t) (same : t.memory.globals = s.memory.globals)
    (apart : s.Apart) : t.Apart where
  distinct := same ▸ apart.distinct
  globals a member := Nat.lt_of_lt_of_le (apart.globals a (same ▸ member)) st.size
  frames link bound a member := by
    rw [same]
    rcases st.frames link bound with old | new
    · obtain ⟨inUse, notGlobal⟩ := apart.frames link old a member
      exact ⟨Nat.lt_of_lt_of_le inUse st.size, notGlobal⟩
    · obtain ⟨fresh, inUse⟩ := new a member
      exact ⟨inUse, fun isGlobal => Nat.not_lt.2 fresh (apart.globals a isGlobal)⟩

theorem Moment.Apart.define (policy : RedefinePolicy) (name : String) (v : Value) (apart : s.Apart) :
    Moment.Apart ⟨{ s.memory with
      store := (s.memory.store.allocate v).2
      globals := s.memory.globals.define policy name s.memory.store.size }, s.record⟩ where
  distinct := by
    refine Globals.nodup_define apart.distinct fun isGlobal => ?_
    exact Nat.lt_irrefl _ (apart.globals _ isGlobal)
  globals a member := by
    rw [Store.size_allocate]
    rcases Globals.mem_addresses_define member with rfl | old
    · exact Nat.lt_succ_self _
    · exact Nat.lt_succ_of_lt (apart.globals a old)
  frames link bound a member := by
    obtain ⟨inUse, notGlobal⟩ := apart.frames link bound a member
    refine ⟨?_, fun isGlobal => ?_⟩
    · rw [Store.size_allocate]
      exact Nat.lt_succ_of_lt inUse
    · rcases Globals.mem_addresses_define isGlobal with rfl | old
      · exact Nat.lt_irrefl _ inUse
      · exact notGlobal old

theorem separated_tidy (sound : separated.Sound s) : s.Tidy where
  apart := sound.globals
  cells a v read := Value.links_bound (sound.cells a v read)

theorem Moment.Tidy.note {event : Event} (unbound : event.binds? = none) (tidy : s.Tidy) :
    (s.note event).Tidy where
  apart := by
    refine ⟨tidy.apart.distinct, tidy.apart.globals, fun link bound => ?_⟩
    rcases Record.binds_cons.1 bound with new | old
    · cases unbound.symm.trans new
    · exact tidy.apart.frames link old
  cells a v read link member := (tidy.cells a v read link member).mono (List.suffix_cons _ _)

/-- Events that show an environment and bind no frame. -/
theorem separate_of_tidy {event : Event} {env : Env} (unbound : event.binds? = none)
    (memory : event.memory? = some s.memory) (links : event.links = env.links) (tidy : s.Tidy)
    (made : env.Made s.record) : event.Separate s.record where
  tidy m shown := by
    cases memory.symm.trans shown
    exact tidy.note unbound
  made link member := (made link (links ▸ member)).mono (List.suffix_cons _ _)
  distinct link binds := nomatch unbound.symm.trans binds
  new link binds := nomatch unbound.symm.trans binds

theorem separated_opens {place : Option Occurrence} {names : List String} {i : Nat} {es : List Expr}
    {vs : List Value} {env : Env} (sound : separated.Sound s)
    (allocated : separated.Sound (s.allocate vs)) (made : env.Made s.record) :
    separated.Opens s place names i es vs env := by
  have later : s.Before (s.enter place names vs env) := Moment.before_enter
  have bound : (s.enter place names vs env).record.Binds (s.frame names vs, env) :=
    Record.binds_cons.2 (.inl rfl)
  have extended : Env.Made (s.enter place names vs env).record (s.frame names vs :: env) :=
    .cons bound (made.mono later.record)
  refine ⟨⟨fun m shown => ?_, extended, ?_, ?_⟩, fun _ _ _ => extended⟩
  · cases shown
    refine ⟨Moment.Apart.mono later rfl sound.globals, fun a v read link member => ?_⟩
    exact (Value.links_bound (allocated.cells a v read) link member).mono later.record
  · rintro _ ⟨⟩
    change (s.memory.store.allocateAll vs).1.Nodup
    rw [Store.allocateAll_fst]
    exact List.nodup_range'
  · -- The cells of older frames were in use before the new ones were made.
    rintro _ ⟨⟩ link' old a member member'
    obtain ⟨inUse, -⟩ := sound.globals.frames link' old a member'
    exact Nat.not_lt.2 (Moment.mem_frame member).1 inUse

end

def separation : Invariant where
  toJudgement := separated
  closure_mono st made := made.mono st.record
  site_mono st made := made.mono st.record
  globals_mono st same apart := apart.mono st same
  globals_empty :=
    ⟨List.nodup_nil, List.forall_mem_nil _, fun _ ⟨_, member, _⟩ => absurd member List.not_mem_nil⟩
  globals_define policy name v apart := apart.define policy name v
  site_top _ _ _ := List.forall_mem_nil _
  site_part made _ := made
  call sound made := separate_of_tidy rfl rfl rfl (separated_tidy sound) made
  lookup sound made _ := separate_of_tidy rfl rfl rfl (separated_tidy sound) made
  close made _ := by
    refine ⟨⟨?_, ?_, ?_, ?_⟩, made.mono (List.suffix_cons _ _)⟩
    · rintro _ ⟨⟩
    · exact List.forall_mem_nil _
    · rintro _ ⟨⟩
    · rintro _ ⟨⟩
  opens_closure sound allocated made _ := separated_opens sound allocated made
  opens_let sound allocated made _ _ := separated_opens sound allocated made

/-! ## States -/

section
variable {r : Record} {s : Moment} {held : List Value}

theorem trail_distinct (trail : separation.Trail r) {link : Link} (bound : r.Binds link) :
    link.1.addresses.Nodup := by
  induction r with
  | nil => exact absurd bound.choose_spec.1 List.not_mem_nil
  | cons event r ih =>
      rcases Record.binds_cons.1 bound with last | earlier
      · exact trail.1.distinct link last
      · exact ih trail.2 earlier

-- Of two frames that were bound one after the other, the later one had new cells.
theorem trail_same (trail : separation.Trail r) {link link' : Link} (bound : r.Binds link)
    (bound' : r.Binds link') {a : Address} (member : a ∈ link.1.addresses)
    (member' : a ∈ link'.1.addresses) : link = link' := by
  induction r with
  | nil => exact absurd bound.choose_spec.1 List.not_mem_nil
  | cons event r ih =>
      rcases Record.binds_cons.1 bound with last | earlier <;>
        rcases Record.binds_cons.1 bound' with last' | earlier'
      · exact Option.some.inj (last.symm.trans last')
      · exact absurd member' (trail.1.new link last link' earlier' a member)
      · exact absurd member (trail.1.new link' last' link earlier a member')
      · exact ih trail.2 earlier earlier'

theorem Moment.Frames.bound (trail : separation.Trail s.record) (tidy : s.Tidy)
    (proper : ∀ v ∈ held, ∀ link ∈ v.links, s.record.Binds link) {link : Link}
    (present : s.Frames held link) : s.record.Binds link := by
  cases present with
  | cell read member => exact tidy.cells _ _ read link member
  | value among member => exact proper _ among link member
  | recorded among member =>
      obtain ⟨later, earlier, split⟩ := List.append_of_mem among
      have suffix := split ▸ List.suffix_append later _
      exact ((trail.event suffix).made link member).mono suffix

theorem Moment.Tidy.separate (trail : separation.Trail s.record) (tidy : s.Tidy)
    (proper : ∀ v ∈ held, ∀ link ∈ v.links, s.record.Binds link) :
    s.memory.Separate (s.Frames held) where
  within _ present := trail_distinct trail (present.bound trail tidy proper)
  globals := tidy.apart.distinct
  outside link present a member :=
    (tidy.apart.frames link (present.bound trail tidy proper) a member).2
  same _ _ present present' _ :=
    trail_same trail (present.bound trail tidy proper) (present'.bound trail tidy proper)

end

/-! ## Histories -/

/-- Along every history, at every moment of a request, however it ends, and after it, distinct
variables have distinct cells, and an assignment to one is not seen through any other. -/
theorem History.Reached.variables_separate {h : History} (reached : h.Reached) :
    (h.session.memory.Separate (h.moment.Frames h.values) ∧
      h.session.memory.AssignsOne (h.moment.Frames h.values)) ∧
    ∀ q fuel, h.Allows q →
      (∀ event earlier m, event :: earlier <:+ h.session.record fuel h.record q →
        event.memory? = some m →
        m.Separate (Moment.Frames ⟨m, event :: earlier⟩ []) ∧
        m.AssignsOne (Moment.Frames ⟨m, event :: earlier⟩ [])) ∧
      ∀ reply s, h.session.serve fuel q = some (reply, s) →
        let later : Moment := ⟨s.memory, h.session.record fuel h.record q⟩
        s.memory.Separate (later.Frames (reply.newValues ++ h.values)) ∧
        s.memory.AssignsOne (later.Frames (reply.newValues ++ h.values)) := by
  have along := separation.reached_kept reached
  have now : h.session.memory.Separate (h.moment.Frames h.values) :=
    Moment.Tidy.separate along.holds.trail (separated_tidy along.holds.sound) fun v member =>
      Value.links_bound (along.values v member)
  refine ⟨⟨now, now.assignsOne⟩, fun q fuel allowed => ?_⟩
  obtain ⟨trail, served⟩ := Invariant.serve_kept along allowed fuel
  constructor
  · intro event earlier m recorded shown
    have then' : m.Separate (Moment.Frames ⟨m, event :: earlier⟩ []) :=
      Moment.Tidy.separate (trail.suffix recorded) ((trail.event recorded).tidy m shown)
        (List.forall_mem_nil _)
    exact ⟨then', then'.assignsOne⟩
  · intro reply s result later
    have replied := served reply s result
    have values : ∀ v ∈ reply.newValues ++ h.values, separation.Proper later v := by
      refine List.forall_mem_append.2 ⟨replied.values, fun v member => ?_⟩
      exact (along.values v member).mono replied.before
    have after : s.memory.Separate (later.Frames (reply.newValues ++ h.values)) :=
      Moment.Tidy.separate replied.holds.trail (separated_tidy replied.holds.sound) fun v member =>
        Value.links_bound (values v member)
    exact ⟨after, after.assignsOne⟩

-- Two closures made by two calls of one procedure.
theorem History.Reached.variables_separate_two_calls :
    ∃ h : History, h.Reached ∧ h.moment.Frames h.values (⟨["n"], [1]⟩, []) ∧
      h.moment.Frames h.values (⟨["n"], [2]⟩, []) ∧
      h.session.memory.Separate (h.moment.Frames h.values) := by
  let source := "(let ((f (lambda (n) (lambda () n)))) (cons (f #t) (f #f)))"
  have reached : (History.ask { session := {} } 9 (.run source)).Reached :=
    .ask (.start {}) (.run source) trivial 9
  have values : (History.ask { session := {} } 9 (.run source)).values.map Value.links =
      [[(⟨["n"], [1]⟩, []), (⟨["n"], [2]⟩, [])]] := by
    decide +kernel
  generalize History.ask { session := {} } 9 (.run source) = h at reached values
  obtain ⟨v, single, links⟩ := List.map_eq_singleton_iff.1 values
  have held : v ∈ h.values := by simp [single]
  refine ⟨h, reached, .value held ?_, .value held ?_, reached.variables_separate.1.1⟩
  · simp [links]
  · simp [links]

end StoreScheme
