import StoreScheme.Proofs.Latest
import StoreScheme.Proofs.Store.Cells

/-!
# Stores against their history

Whatever calls are made on a new store, its cells are those that were allocated, numbered in the order
of their values, and each holds what was last written to it.

* `Store.Call`, `Store.Answer`, `Store.call`, `Store.calls`: calls one after the other
* `Store.size_call`, `Store.read?_call`, `Store.read?_call_write`: what one call changes
* `Store.allocated`, `Store.given`: the values that were allocated and the addresses given out for them
* `Store.LatestWrite`: the latest write to an address that succeeded
* `Store.given_calls`, `Store.read?_calls`, `Store.calls_idle`: all calls
* `Store.follows_history`: a new store after any calls
-/

namespace StoreScheme

namespace Store

/-! ## Calls -/

inductive Call
  | allocate (v : Value)
  | allocateAll (vs : List Value)
  | read (a : Address)
  | write (a : Address) (v : Value)

inductive Answer
  | address (a : Address)
  | addresses (as : List Address)
  | value (v : Value)
  | written
  | outOfBounds (a : Address)

/-- Makes a call: its answer and the store after it. -/
def call (s : Store) : Call → Answer × Store
  | .allocate v => (.address (s.allocate v).1, (s.allocate v).2)
  | .allocateAll vs => (.addresses (s.allocateAll vs).1, (s.allocateAll vs).2)
  | .read a =>
    match s.read? a with
    | some v => (.value v, s)
    | none => (.outOfBounds a, s)
  | .write a v =>
    match s.write? a v with
    | some t => (.written, t)
    | none => (.outOfBounds a, s)

/-- Makes calls one after the other. -/
def calls (s : Store) : List Call → List Answer × Store
  | [] => ([], s)
  | c :: cs => ((s.call c).1 :: ((s.call c).2.calls cs).1, ((s.call c).2.calls cs).2)

/-- The values for which a call allocates cells. -/
def Call.values : Call → List Value
  | .allocate v => [v]
  | .allocateAll vs => vs
  | _ => []

/-- The addresses that an answer gives out. -/
def Answer.given : Answer → List Address
  | .address a => [a]
  | .addresses as => as
  | _ => []

def allocated (cs : List Call) : List Value := cs.flatMap Call.values

def given (answers : List Answer) : List Address := answers.flatMap Answer.given

variable {s t : Store} {c : Call} {cs ds : List Call} {a b : Address} {v w : Value}

/-! ## One call -/

theorem call_write_of_lt (inside : a < s.size) (v : Value) :
    ∃ t, s.write? a v = some t ∧ s.call (.write a v) = (.written, t) := by
  cases write : s.write? a v with
  | none => exact absurd (write?_eq_none.1 write) (Nat.not_le.2 inside)
  | some t => exact ⟨t, rfl, by simp [call, write]⟩

theorem call_write_of_le (outside : s.size ≤ a) (v : Value) : s.call (.write a v) = (.outOfBounds a, s) := by
  simp [call, write?_eq_none.2 outside]

theorem call_read (s : Store) (a : Address) : (s.call (.read a)).2 = s := by
  rw [call]
  cases s.read? a <;> rfl

theorem written_iff : (s.call (.write a v)).1 = .written ↔ a < s.size := by
  rcases Nat.lt_or_ge a s.size with inside | outside
  · obtain ⟨t, -, done⟩ := call_write_of_lt inside v
    simp [done, inside]
  · simp [call_write_of_le outside v, Nat.not_lt.2 outside]

theorem size_call (s : Store) (c : Call) : (s.call c).2.size = s.size + c.values.length := by
  cases c with
  | allocate v => exact size_allocate s v
  | allocateAll vs => exact size_allocateAll s vs
  | read a => rw [call_read]; rfl
  | write a v =>
      rcases Nat.lt_or_ge a s.size with inside | outside
      · obtain ⟨t, write, done⟩ := call_write_of_lt inside v
        rw [done]
        exact size_of_write? write
      · rw [call_write_of_le outside v]
        rfl

theorem given_call (s : Store) (c : Call) :
    (s.call c).1.given = List.range' s.size c.values.length := by
  cases c with
  | allocate v => rfl
  | allocateAll vs => exact allocateAll_fst s vs
  | read a =>
      rw [call]
      cases s.read? a <;> rfl
  | write a v =>
      rw [call]
      cases s.write? a v <;> rfl

/-- A call that does not write to a cell leaves it, and adds the cells for its values. -/
theorem read?_call (s : Store) (other : ∀ v, c = .write a v → s.size ≤ a) :
    (s.call c).2.read? a = if a < s.size then s.read? a else c.values[a - s.size]? := by
  have kept : s.read? a = if a < s.size then s.read? a else [][a - s.size]? := by
    split
    · rfl
    · exact read?_eq_none.2 (Nat.not_lt.1 ‹_›)
  cases c with
  | allocate v =>
      have one := read?_allocateAll s [v] a
      exact one
  | allocateAll vs => exact read?_allocateAll s vs a
  | read b =>
      rw [call_read]
      exact kept
  | write b v =>
      rcases Nat.lt_or_ge b s.size with inside | outside
      · obtain ⟨t, write, done⟩ := call_write_of_lt inside v
        have different : a ≠ b := by
          rintro rfl
          exact Nat.not_le.2 inside (other v rfl)
        rw [done, read?_of_write? write, if_neg different]
        exact kept
      · rw [call_write_of_le outside v]
        exact kept

theorem read?_call_write (inside : a < s.size) (v : Value) : (s.call (.write a v)).2.read? a = some v := by
  obtain ⟨t, write, done⟩ := call_write_of_lt inside v
  rw [done, read?_of_write? write, if_pos rfl]

/-! ## Calls one after the other -/

theorem calls_append (s : Store) (cs ds : List Call) :
    s.calls (cs ++ ds) = ((s.calls cs).1 ++ ((s.calls cs).2.calls ds).1, ((s.calls cs).2.calls ds).2) := by
  induction cs generalizing s with
  | nil => rfl
  | cons c cs ih => simp only [List.cons_append, calls, ih]

theorem calls_concat (s : Store) (cs : List Call) (c : Call) :
    s.calls (cs ++ [c]) = ((s.calls cs).1 ++ [((s.calls cs).2.call c).1], ((s.calls cs).2.call c).2) :=
  calls_append s cs [c]

theorem allocated_concat (cs : List Call) (c : Call) : allocated (cs ++ [c]) = allocated cs ++ c.values := by
  simp [allocated]

theorem size_calls (cs : List Call) : (({} : Store).calls cs).2.size = (allocated cs).length := by
  induction cs using List.reverseRecOn with
  | nil => rfl
  | append_singleton cs c ih => rw [calls_concat, size_call, ih, allocated_concat, List.length_append]

theorem given_calls (cs : List Call) :
    given (({} : Store).calls cs).1 = List.range (allocated cs).length := by
  induction cs using List.reverseRecOn with
  | nil => rfl
  | append_singleton cs c ih =>
      have last : given [((({} : Store).calls cs).2.call c).1] =
          List.range' (allocated cs).length c.values.length := by
        rw [given, List.flatMap_singleton, given_call, size_calls]
      have both := List.range'_append_1 (s := 0) (m := (allocated cs).length) (n := c.values.length)
      rw [Nat.zero_add] at both
      rw [calls_concat, given, List.flatMap_append, ← given, ← given, ih, last, allocated_concat,
        List.length_append, List.range_eq_range', List.range_eq_range', both]

/-- A write to an address succeeds after some calls. -/
def Writes (a : Address) (before : List Call) (c : Call) : Prop :=
  ∃ v, c = .write a v ∧ ((({} : Store).calls before).2.call c).1 = .written

/-- The latest write to an address that succeeded. -/
def LatestWrite (cs : List Call) (a : Address) (v : Value) : Prop := Latest (Writes a) cs (.write a v)

theorem writes_iff : Writes a cs c ↔ ∃ v, c = .write a v ∧ a < (allocated cs).length := by
  rw [← size_calls]
  constructor
  · rintro ⟨v, rfl, written⟩
    exact ⟨v, rfl, written_iff.1 written⟩
  · rintro ⟨v, rfl, inside⟩
    exact ⟨v, rfl, written_iff.2 inside⟩

/-- A cell holds what was written last with success, or what it was allocated with. -/
theorem read?_calls (cs : List Call) (a : Address) (v : Value) :
    (({} : Store).calls cs).2.read? a = some v ↔
      LatestWrite cs a v ∨ (∀ c, ¬ Latest (Writes a) cs c) ∧ (allocated cs)[a]? = some v := by
  induction cs using List.reverseRecOn with
  | nil => simp [LatestWrite, not_latest_nil, calls, read?, allocated]
  | append_singleton cs c ih =>
      have size := size_calls cs
      rw [calls_concat, allocated_concat]
      generalize (({} : Store).calls cs).2 = s at ih size
      simp only [LatestWrite, latest_concat]
      by_cases writes : Writes a cs c
      · obtain ⟨w, rfl, inside⟩ := writes_iff.1 writes
        rw [read?_call_write (size ▸ inside)]
        simp [writes, eq_comm]
      · have other : ∀ w, c = .write a w → s.size ≤ a := by
          intro w same
          rw [size]
          exact Nat.not_lt.1 fun inside => writes (writes_iff.2 ⟨w, same, inside⟩)
        rw [read?_call s other, size]
        simp only [writes, false_and, not_false_eq_true, true_and, false_or]
        split
        · rename_i inside
          rw [ih, List.getElem?_append_left inside, LatestWrite]
        · rename_i outside
          -- No write to the cell can have succeeded before there was one.
          have none : ∀ c, ¬ Latest (Writes a) cs c := by
            rw [forall_not_latest]
            rintro before c after rfl counts
            obtain ⟨w, -, inside⟩ := writes_iff.1 counts
            have earlier : (allocated before).length ≤ (allocated (before ++ c :: after)).length := by
              rw [allocated, allocated, List.flatMap_append, List.length_append]
              exact Nat.le_add_right _ _
            exact outside (Nat.lt_of_lt_of_le inside earlier)
          rw [List.getElem?_append_right (Nat.not_lt.1 outside)]
          simp [none]

/-- A read, and a write that fails. -/
inductive Idle (s : Store) : Call → Prop
  | read {a : Address} : Idle s (.read a)
  | write {a : Address} {v : Value} : (s.call (.write a v)).1 ≠ .written → Idle s (.write a v)

theorem Idle.call_eq (idle : s.Idle c) : (s.call c).2 = s := by
  cases idle with
  | read => exact call_read s _
  | @write a v failed =>
      rw [call_write_of_le (Nat.not_lt.1 fun inside => failed (written_iff.2 inside))]

theorem length_calls (s : Store) (cs : List Call) : (s.calls cs).1.length = cs.length := by
  induction cs generalizing s with
  | nil => rfl
  | cons c cs ih => rw [calls, List.length_cons, List.length_cons, ih]

/-- Without an idle call, all other calls have the same answers and leave the same store. -/
theorem calls_idle (idle : (s.calls cs).2.Idle c) (ds : List Call) :
    s.calls (cs ++ ds) = ((s.calls (cs ++ c :: ds)).1.eraseIdx cs.length, (s.calls (cs ++ c :: ds)).2) := by
  have answers := length_calls s cs
  rw [calls_append, calls_append, calls, idle.call_eq, List.eraseIdx_append_of_length_le (by omega), answers,
    Nat.sub_self, List.eraseIdx_cons_zero]

theorem last?_eq (s : Store) : s.last? = (List.range s.size).max? := by
  unfold last?
  split
  · rename_i empty
    rw [empty]
    rfl
  · rename_i nonempty
    refine (List.max?_eq_some_iff.2 ⟨List.mem_range.2 (by omega), fun b member => ?_⟩).symm
    have inside := List.mem_range.1 member
    omega

/-- After any calls on a new store, an address can be read just if it is below the number of values
that were allocated.  It then holds the value of the latest write to it that succeeded, or the one it
was allocated with if there is none.  The addresses were given out in order from zero on, and the last
one is the greatest of them.  A read, or a write that fails, has no effect on the store and on any
other answer. -/
theorem follows_history (cs : List Call) :
    (∀ a, ((({} : Store).calls cs).2.read? a).isSome = true ↔ a < (allocated cs).length) ∧
    (∀ a v, (({} : Store).calls cs).2.read? a = some v ↔
      LatestWrite cs a v ∨
      (∀ before w after, cs = before ++ .write a w :: after →
        ((({} : Store).calls before).2.call (.write a w)).1 ≠ .written) ∧ (allocated cs)[a]? = some v) ∧
    given (({} : Store).calls cs).1 = List.range (allocated cs).length ∧
    (({} : Store).calls cs).2.last? = (given (({} : Store).calls cs).1).max? ∧
    ∀ before c after, cs = before ++ c :: after → (({} : Store).calls before).2.Idle c →
      ((({} : Store).calls before).2.call c).2 = (({} : Store).calls before).2 ∧
      ({} : Store).calls (before ++ after) =
        ((({} : Store).calls cs).1.eraseIdx before.length, (({} : Store).calls cs).2) := by
  refine ⟨fun a => ?_, fun a v => ?_, given_calls cs, ?_, ?_⟩
  · rw [Option.isSome_iff_ne_none, ne_eq, read?_eq_none, size_calls, Nat.not_le]
  · rw [read?_calls, forall_not_latest]
    refine or_congr_right (and_congr_left fun _ => ⟨?_, ?_⟩)
    · intro none before w after split written
      exact none before _ after split ⟨w, rfl, written⟩
    · rintro none before c after split ⟨w, rfl, written⟩
      exact none before w after split written
  · rw [last?_eq, given_calls, size_calls]
  · rintro before c after rfl idle
    exact ⟨idle.call_eq, calls_idle idle after⟩

/-- A write before there is a cell is lost, and a later one is not. -/
theorem follows_history_early_write :
    (({} : Store).calls [.write 0 .void, .allocate .null, .write 0 (.boolean true)]).2.read? 0 =
      some (.boolean true) ∧
    (({} : Store).calls [.allocate .null, .write 0 (.boolean true)]).1 = [.address 0, .written] := by
  obtain ⟨-, read, -, -, idle⟩ := follows_history [.write 0 .void, .allocate .null, .write 0 (.boolean true)]
  have failed : (({} : Store).calls []).2.Idle (.write 0 .void) := .write (by simp [calls, call, write?])
  have latest : LatestWrite ([.write 0 .void, .allocate .null] ++ [.write 0 (.boolean true)]) 0
      (.boolean true) :=
    latest_last (writes_iff.2 ⟨_, rfl, Nat.one_pos⟩)
  exact ⟨(read 0 (.boolean true)).2 (.inl latest), congrArg Prod.fst (idle [] _ _ rfl failed).2⟩

end Store

end StoreScheme
