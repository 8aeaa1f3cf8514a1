import StoreScheme.Proofs.Session.Client

/-!
# Sessions with an interner

Names can be kept once, in an interner, and stand everywhere else as keys: their positions in it.  A
name may be interned without being used, by a source that turns out to have an error for one, and then
the keys of all later names are others.  Whatever is interned, a client that looks at keys through the
interner sees what it would see of a session with names.

* `Interner.key`, `Interner.resolve`: keys for names and names for keys
* `KeyedClient.watch`: what is seen of a session with keys
* `KeyedClient.Shows`: a session with keys that stands for one with names, however names without a key
  would be written
* `KeyedClient.step_shows`, `KeyedClient.watch_shows`: this is kept by every command, and the same is
  seen
-/

namespace StoreScheme

/-! ## Interners -/

/-- Names in the order in which they were met. -/
structure Interner where
  names : List String := []

namespace Interner

def intern (i : Interner) (name : String) : Interner :=
  if name ∈ i.names then i else ⟨i.names ++ [name]⟩

def internAll (i : Interner) (names : List String) : Interner := names.foldl intern i

/-- The position of a name in decimal digits.  A name without a position is written after a mark, so
that different names always have different keys. -/
def key (i : Interner) (name : String) : String :=
  String.ofList (if name ∈ i.names then Nat.toDigits 10 (i.names.idxOf name) else '?' :: name.toList)

def resolve (i : Interner) (key : String) : String :=
  match key.toList with
  | '?' :: name => String.ofList name
  | digits => i.names.getD (Nat.ofDigitChars 10 digits 0) ""

theorem resolve_key (i : Interner) : Function.LeftInverse i.resolve i.key := by
  intro name
  by_cases met : name ∈ i.names
  · have position : i.names.idxOf name < i.names.length := List.idxOf_lt_length_of_mem met
    simp only [resolve, key, if_pos met, String.toList_ofList]
    split
    · rename_i rest digits
      have digit : '?'.isDigit = true :=
        Nat.isDigit_of_mem_toDigits (by decide) (by decide) (digits ▸ List.mem_cons_self)
      cases digit
    · simp [Nat.ofDigitChars_toDigits, List.getD_eq_getElem?_getD, position]
  · simp [resolve, key, met]

/-- Names for variables that are the keys of the interner where it has one. -/
structure Fits (i : Interner) (ρ : Renaming) : Prop where
  injective : Function.Injective ρ
  agrees : ∀ name ∈ i.names, ρ name = i.key name

theorem fits_key (i : Interner) : i.Fits i.key := ⟨i.resolve_key.injective, fun _ _ => rfl⟩

/-- No key has changed. -/
def Grows (i j : Interner) : Prop := ∀ ρ, j.Fits ρ → i.Fits ρ

theorem Grows.trans {i j k : Interner} (first : i.Grows j) (second : j.Grows k) : i.Grows k :=
  fun ρ fits => first ρ (second ρ fits)

theorem mem_intern {i : Interner} {name other : String} :
    other ∈ (i.intern name).names ↔ other = name ∨ other ∈ i.names := by
  unfold intern
  split
  · rename_i met
    exact ⟨.inr, fun member => member.elim (· ▸ met) id⟩
  · simp [or_comm]

theorem mem_internAll {i : Interner} {names : List String} {name : String} :
    name ∈ (i.internAll names).names ↔ name ∈ names ∨ name ∈ i.names := by
  induction names generalizing i with
  | nil => simp [internAll]
  | cons first names ih =>
      have rest := ih (i := i.intern first)
      rw [mem_intern] at rest
      simpa [internAll, or_assoc, or_left_comm] using rest

theorem grows_intern (i : Interner) (name : String) : i.Grows (i.intern name) := by
  unfold intern
  split
  · exact fun _ => id
  · refine fun ρ fits => ⟨fits.injective, fun old met => ?_⟩
    rw [fits.agrees old (by simp [met])]
    simp [key, met, List.idxOf_append]

theorem grows_internAll (i : Interner) (names : List String) : i.Grows (i.internAll names) := by
  induction names generalizing i with
  | nil => exact fun _ => id
  | cons name names ih => exact (i.grows_intern name).trans (ih (i.intern name))

end Interner

/-! ## Reading and running with keys -/

namespace Interner

/-- Reads a source and interns the names of its forms. -/
def read (i : Interner) (s : Session) (source : String) :
    (Except SourceError (List Form) × Session) × Interner :=
  match s.read source with
  | (.ok xs, s) =>
    let i := i.internAll (xs.flatMap Form.names)
    ((.ok (xs.map (Form.rename i.key)), s), i)
  | (.error e, s) => ((.error e, s), i)

def serve (i : Interner) (s : Session) (fuel : Nat) : Request → Option ((Reply × Session) × Interner)
  | .read source =>
    match i.read s source with
    | ((.ok xs, s), i) => some ((.forms xs, s), i)
    | ((.error e, s), i) => some ((.error e, s), i)
  | .run source =>
    match i.read s source with
    | ((.ok xs, s), i) => (s.serve fuel (.forms xs)).map (·, i)
    | ((.error e, s), i) => some ((.error e, s), i)
  | q => (s.serve fuel q).map (·, i)

end Interner

/-- A command, with the fuel for it and names that are interned on the occasion. -/
structure Act where
  command : Command
  fuel : Nat
  noted : List String := []

structure KeyedClient where
  client : Client
  interner : Interner := {}

namespace KeyedClient

def step (k : KeyedClient) (act : Act) : Option (Reply × KeyedClient) :=
  (k.client.request? act.command).bind fun q =>
    ((k.interner.internAll act.noted).serve k.client.session act.fuel q).map fun ((reply, s), i) =>
      (reply, ⟨k.client.after reply s, i⟩)

/-- What a client sees when it looks at keys through the interner. -/
def sight (k : KeyedClient) (reply : Reply) : Sight where
  reply := reply.rename k.interner.resolve
  size := k.client.session.memory.store.size
  globals name := k.client.session.memory.globals.lookup? (k.interner.key name)

def watch (k : KeyedClient) : List Act → Option (List Sight × KeyedClient)
  | [] => some ([], k)
  | act :: acts =>
    (k.step act).bind fun (reply, k) =>
      (k.watch acts).map fun (sights, k') => (k.sight reply :: sights, k')

end KeyedClient

/-! ## What is seen -/

theorem Session.read_rename (ρ : Renaming) (s : Session) (source : String) :
    (s.rename ρ).read source = ((s.read source).1, (s.read source).2.rename ρ) := by
  have same : readForms (s.rename ρ).options.foldCase (s.rename ρ).memory.fresh source =
      readForms s.options.foldCase s.memory.fresh source := rfl
  unfold read
  rw [same]
  cases readForms s.options.foldCase s.memory.fresh source <;> rfl

theorem Interner.read_rename (i : Interner) (s : Session) (source : String) :
    ∃ j, i.Grows j ∧ ∀ ρ, j.Fits ρ → i.read (s.rename ρ) source =
      (((s.read source).1.map (List.map (Form.rename ρ)), (s.read source).2.rename ρ), j) := by
  rcases found : s.read source with ⟨e | xs, s'⟩
  · refine ⟨i, fun _ => id, fun ρ _ => ?_⟩
    simp only [read, Session.read_rename, found]
    rfl
  · refine ⟨_, i.grows_internAll (xs.flatMap Form.names), fun ρ fits => ?_⟩
    have keyed : xs.map (Form.rename (i.internAll (xs.flatMap Form.names)).key) =
        xs.map (Form.rename ρ) := by
      refine List.map_congr_left fun x member => Form.rename_congr fun name mentioned => ?_
      exact (fits.agrees name (mem_internAll.2 (.inl (List.mem_flatMap.2 ⟨x, member, mentioned⟩)))).symm
    simp only [read, Session.read_rename, found, keyed]
    rfl

theorem Session.serve_run (s : Session) (fuel : Nat) (source : String) :
    s.serve fuel (.run source) = match s.read source with
      | (.ok xs, s) => s.serve fuel (.forms xs)
      | (.error e, s) => some (.error e, s) := by
  rcases read : s.read source with ⟨e | xs, s'⟩
  · simp only [serve, run, read]
    rfl
  · simp only [serve, run, read, Option.map_map]
    congr 1
    funext ran
    obtain ⟨result, s⟩ := ran
    cases result <;> rfl

theorem Session.serve_rename {ρ : Renaming} (injective : Function.Injective ρ) (s : Session) (fuel : Nat)
    {q : Request} (noSource : ∀ source, q ≠ .read source ∧ q ≠ .run source) :
    (s.rename ρ).serve fuel (q.rename ρ) =
      (s.serve fuel q).map fun (reply, s) => (reply.rename ρ, s.rename ρ) := by
  cases q with
  | read source => exact absurd rfl (noSource source).1
  | run source => exact absurd rfl (noSource source).2
  | form x => exact compute_rename (Eval.form_renamed injective fuel _ x) s
  | forms xs => exact compute_rename (Eval.forms_renamed injective fuel _ xs) s
  | apply procedure args =>
      exact compute_rename (Eval.apply_renamed (eval_renamed injective fuel) procedure args) s

theorem SourceError.rename_of_read {ρ : Renaming} {s s' : Session} {source : String} (e : SourceError)
    (read : s.read source = (.error e, s')) : e.rename ρ = e := by
  cases e with
  | eval e => exact absurd rfl ((Invariant.read_error read).2 e)
  | parse _ | form _ => rfl

theorem Interner.serve_rename (i : Interner) (s : Session) (fuel : Nat) (q : Request) :
    ∃ j, i.Grows j ∧ ∀ ρ, j.Fits ρ → i.serve (s.rename ρ) fuel (q.rename ρ) =
      (s.serve fuel q).map fun (reply, s) => ((reply.rename ρ, s.rename ρ), j) := by
  -- Only what is read brings new names.
  have computed (noSource : ∀ source, q ≠ .read source ∧ q ≠ .run source) (ρ : Renaming)
      (fits : i.Fits ρ) : ((s.rename ρ).serve fuel (q.rename ρ)).map (·, i) =
        (s.serve fuel q).map fun (reply, s) => ((reply.rename ρ, s.rename ρ), i) := by
    rw [Session.serve_rename fits.injective s fuel noSource, Option.map_map]
    rfl
  cases q with
  | read source =>
      obtain ⟨j, grows, keyed⟩ := i.read_rename s source
      refine ⟨j, grows, fun ρ fits => ?_⟩
      simp only [serve, Request.rename, Session.serve, keyed ρ fits]
      rcases read : s.read source with ⟨e | xs, s'⟩
      · simp only [Except.map, Option.map_some, Reply.rename, e.rename_of_read read]
      · rfl
  | run source =>
      obtain ⟨j, grows, keyed⟩ := i.read_rename s source
      refine ⟨j, grows, fun ρ fits => ?_⟩
      simp only [serve, Request.rename, Session.serve_run, keyed ρ fits]
      rcases read : s.read source with ⟨e | xs, s'⟩
      · simp only [Except.map, Option.map_some, Reply.rename, e.rename_of_read read]
      · have ran := Session.serve_rename fits.injective s' fuel (q := .forms xs) (by simp)
        simp only [Except.map, Request.rename] at ran ⊢
        rw [ran, Option.map_map]
        rfl
  | form x => exact ⟨i, fun _ => id, computed fun _ => by simp⟩
  | forms xs => exact ⟨i, fun _ => id, computed fun _ => by simp⟩
  | apply procedure args => exact ⟨i, fun _ => id, computed fun _ => by simp⟩

/-! ## Steps and runs -/

namespace KeyedClient

/-- A client with keys stands for one with names, however names without a key would be written. -/
def Shows (k : KeyedClient) (c : Client) : Prop := ∀ ρ, k.interner.Fits ρ → k.client = c.rename ρ

variable {k : KeyedClient} {c : Client}

theorem step_rename (shows : k.Shows c) (act : Act) :
    ∃ i, k.interner.Grows i ∧ ∀ ρ, i.Fits ρ → k.step act =
      (c.step act.fuel act.command).map fun (reply, c) => (reply.rename ρ, ⟨c.rename ρ, i⟩) := by
  have noted := k.interner.grows_internAll act.noted
  have asked (ρ : Renaming) (fits : k.interner.Fits ρ) :
      k.client.request? act.command = (c.request? act.command).map (Request.rename ρ) := by
    rw [shows ρ fits, Client.request?_rename]
  cases request : c.request? act.command with
  | none =>
      refine ⟨k.interner, fun _ => id, fun ρ fits => ?_⟩
      simp [step, Client.step, asked ρ fits, request]
  | some q =>
      obtain ⟨i, grows, served⟩ := (k.interner.internAll act.noted).serve_rename c.session act.fuel q
      refine ⟨i, noted.trans grows, fun ρ fits => ?_⟩
      have old := noted.trans grows ρ fits
      have session : k.client.session = c.session.rename ρ := by rw [shows ρ old]; rfl
      simp only [step, Client.step, asked ρ old, request, Option.map_some, Option.bind_some, session,
        served ρ fits, Option.map_map]
      congr 1
      funext ⟨reply, s⟩
      simp only [Function.comp_apply, ← Client.after_rename, shows ρ old]

theorem step_shows (shows : k.Shows c) (act : Act) :
    k.step act = none ∧ c.step act.fuel act.command = none ∨
      ∃ reply k' c', k.step act = some (reply.rename k'.interner.key, k') ∧
        c.step act.fuel act.command = some (reply, c') ∧ k.interner.Grows k'.interner ∧ k'.Shows c' := by
  obtain ⟨i, grows, stepped⟩ := step_rename shows act
  cases named : c.step act.fuel act.command with
  | none => exact .inl ⟨by simpa [named] using stepped i.key i.fits_key, rfl⟩
  | some result =>
      obtain ⟨reply, c'⟩ := result
      have keyed := stepped i.key i.fits_key
      rw [named, Option.map_some] at keyed
      refine .inr ⟨reply, ⟨c'.rename i.key, i⟩, c', keyed, rfl, grows, fun ρ fits => ?_⟩
      -- The step is one and the same, whichever names stand for those without a key.
      have other := stepped ρ fits
      rw [keyed, named, Option.map_some] at other
      exact congrArg (fun result => result.2.client) (Option.some.inj other)

theorem sight_rename (shows : k.Shows c) (reply : Reply) :
    k.sight (reply.rename k.interner.key) = c.session.sight reply := by
  have session : k.client.session = c.session.rename k.interner.key := by
    rw [shows _ k.interner.fits_key]
    rfl
  simp only [sight, Session.sight, session, reply.rename_rename k.interner.resolve_key, Session.rename,
    Memory.rename, Store.size_rename, Globals.lookup?_rename k.interner.resolve_key.injective]

def commands (acts : List Act) : List (Nat × Command) := acts.map fun act => (act.fuel, act.command)

theorem watch_shows (shows : k.Shows c) (acts : List Act) :
    k.watch acts = none ∧ c.watch (commands acts) = none ∨
      ∃ sights k' c', k.watch acts = some (sights, k') ∧
        c.watch (commands acts) = some (sights, c') ∧ k'.Shows c' := by
  induction acts generalizing k c with
  | nil => exact .inr ⟨[], k, c, rfl, rfl, shows⟩
  | cons act acts ih =>
      rcases step_shows shows act with ⟨keyed, named⟩ | ⟨reply, k', c', keyed, named, -, shows'⟩
      · exact .inl ⟨by simp [watch, keyed], by simp [commands, Client.watch, named]⟩
      · have first := sight_rename shows' reply
        simp only [watch, keyed, commands, List.map_cons, Client.watch, named, Option.bind_some]
        rcases ih shows' with ⟨keyed, named⟩ | ⟨sights, k'', c'', keyed, named, shows''⟩
        · exact .inl ⟨by simp [keyed], by simpa [commands] using named⟩
        · refine .inr ⟨c'.session.sight reply :: sights, k'', c'', ?_, ?_, shows''⟩
          · simp [keyed, first]
          · simpa [commands] using named

end KeyedClient

end StoreScheme
