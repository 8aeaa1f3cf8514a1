import Mathlib.Data.Finset.Card
import StoreScheme.Proofs.Env.Lookup
import StoreScheme.Proofs.Latest

/-!
# Global definitions

Each definition may come with a policy of its own.  A second definition of a name is either added
behind the first one, where it is never found, or it changes the first entry of the name, whatever was
added in between.  So the address of a name is decided by one definition in the whole history.

* `Definition`, `Globals.defineAll`: definitions one after the other
* `Globals.lookup?_define`, `Globals.names_define`: what one definition changes
* `Definition.Takes`, `Definition.Decides`: the definition that a name is found by
* `Globals.lookup?_eq_some_iff`, `Globals.lookup?_filter`, `Globals.size_defineAll`: all definitions
* `globals_follow_history`: the global names after any definitions
-/

namespace StoreScheme

/-- A top-level definition and the policy under which it is made. -/
structure Definition where
  policy : RedefinePolicy
  name : String
  address : Address
deriving DecidableEq

namespace Globals

def names (g : Globals) : List String := g.entries.map Prod.fst

/-- Makes definitions, the first one first. -/
def defineAll (g : Globals) (ds : List Definition) : Globals :=
  ds.foldl (fun g d => g.define d.policy d.name d.address) g

variable {g : Globals} {name : String}

/-! ## One definition -/

theorem lookup_rebind (name other : String) (address : Address) (entries : List (String × Address)) :
    (rebind name address entries).lookup other =
      if other = name then (entries.lookup name).map fun _ => address else entries.lookup other := by
  induction entries with
  | nil => simp [rebind]
  | cons entry entries ih =>
      obtain ⟨n, b⟩ := entry
      unfold rebind
      split
      · rename_i same
        subst same
        by_cases here : other = n
        · simp [here]
        · have further : (other == n) = false := by simpa using here
          simp [List.lookup_cons, here, further]
      · rename_i different
        have passed : (name == n) = false := by simpa using Ne.symm different
        by_cases here : other = n
        · simp [here, different]
        · have further : (other == n) = false := by simpa using here
          rw [List.lookup_cons, further, List.lookup_cons, passed, List.lookup_cons, further]
          exact ih

theorem map_fst_rebind (name : String) (address : Address) (entries : List (String × Address)) :
    (rebind name address entries).map Prod.fst = entries.map Prod.fst := by
  induction entries with
  | nil => rfl
  | cons entry entries ih =>
      obtain ⟨n, b⟩ := entry
      unfold rebind
      split
      · rfl
      · rw [List.map_cons, List.map_cons, ih]

theorem lookup?_eq_none : g.lookup? name = none ↔ name ∉ g.names := by
  simp only [lookup?, names, List.lookup_eq_none_iff, List.mem_map]
  grind

theorem isSome_lookup? : (g.lookup? name).isSome = true ↔ name ∈ g.names := by
  rw [Option.isSome_iff_ne_none, ne_eq, lookup?_eq_none, not_not]

/-- A definition is found if its name is new or if it wins over the earlier ones. -/
theorem lookup?_define (g : Globals) (policy : RedefinePolicy) (name other : String) (address : Address) :
    (g.define policy name address).lookup? other =
      if other = name ∧ (policy = .latestWins ∨ name ∉ g.names) then some address else g.lookup? other := by
  unfold define
  split
  · rename_i rebound
    obtain ⟨wins, found⟩ := rebound
    obtain ⟨a, found⟩ := Option.isSome_iff_exists.1 found
    have found' : g.entries.lookup name = some a := found
    simp [lookup?, lookup_rebind, found', wins]
  · rename_i added
    by_cases same : other = name
    · subst same
      cases found : g.lookup? other with
      | none =>
          have new : other ∉ g.names := lookup?_eq_none.1 found
          have found' : g.entries.lookup other = none := found
          simp [lookup?, List.lookup_append, found', new]
      | some a =>
          have old : other ∈ g.names := isSome_lookup?.1 (by rw [found]; rfl)
          have found' : g.entries.lookup other = some a := found
          have second : policy ≠ .latestWins := fun wins => added ⟨wins, by rw [found]; rfl⟩
          simp [lookup?, List.lookup_append, found', old, second]
    · have passed : (other == name) = false := by simpa using same
      have none : [(name, address)].lookup other = none := by rw [List.lookup_cons, passed, List.lookup_nil]
      simp [lookup?, List.lookup_append, same, none]

theorem names_define (g : Globals) (policy : RedefinePolicy) (name : String) (address : Address) :
    (g.define policy name address).names =
      if policy = .latestWins ∧ name ∈ g.names then g.names else g.names ++ [name] := by
  simp only [define, isSome_lookup?]
  split
  · exact map_fst_rebind name address g.entries
  · simp [names]

theorem size_eq (g : Globals) : g.size = g.names.length := by
  simp [size, names]

/-! ## Definitions one after the other -/

theorem defineAll_concat (g : Globals) (ds : List Definition) (d : Definition) :
    g.defineAll (ds ++ [d]) = (g.defineAll ds).define d.policy d.name d.address := by
  simp [defineAll]

/-- The names are those that were defined. -/
theorem mem_names_defineAll (ds : List Definition) (name : String) :
    name ∈ (defineAll {} ds).names ↔ name ∈ ds.map Definition.name := by
  induction ds using List.reverseRecOn generalizing name with
  | nil => exact Iff.rfl
  | append_singleton ds d ih =>
      rw [defineAll_concat, names_define]
      split
      · rename_i old
        rw [ih, List.map_append, List.mem_append]
        constructor
        · exact .inl
        · rintro (earlier | last)
          · exact earlier
          · rw [List.mem_singleton.1 last]
            exact (ih d.name).1 old.2
      · rw [List.mem_append, ih, List.map_append, List.mem_append]
        rfl

end Globals

namespace Definition

/-- A definition takes its name if it is the first one of it or wins over the earlier ones. -/
def Takes (before : List Definition) (d : Definition) : Prop :=
  d.policy = .latestWins ∨ d.name ∉ before.map Definition.name

/-- The latest definition that takes a name. -/
def Decides (ds : List Definition) (name : String) (d : Definition) : Prop :=
  Latest (fun before d => d.name = name ∧ Takes before d) ds d

/-- Whether the definition at a position is one more of a name that is found by an earlier one. -/
def isHidden (ds : List Definition) (i : Nat) : Bool :=
  ds[i]?.any fun d => d.policy = .firstWins ∧ d.name ∈ (ds.take i).map Definition.name

/-- The number of hidden definitions. -/
def hiddenCount (ds : List Definition) : Nat := (List.range ds.length).countP (isHidden ds)

theorem hiddenCount_concat (ds : List Definition) (d : Definition) :
    hiddenCount (ds ++ [d]) = hiddenCount ds +
      if d.policy = .firstWins ∧ d.name ∈ ds.map Definition.name then 1 else 0 := by
  have earlier : (List.range ds.length).countP (isHidden (ds ++ [d])) = hiddenCount ds := by
    refine List.countP_congr fun i inside => ?_
    have inside := List.mem_range.1 inside
    simp only [isHidden, List.getElem?_append_left inside, List.take_append_of_le_length (Nat.le_of_lt inside)]
  have last : isHidden (ds ++ [d]) ds.length =
      decide (d.policy = .firstWins ∧ d.name ∈ ds.map Definition.name) := by
    simp [isHidden]
  rw [hiddenCount, List.length_append, List.length_singleton, List.range_succ, List.countP_append, earlier,
    List.countP_singleton, last]
  simp

end Definition

namespace Globals

open Definition

variable {name : String} {a : Address}

theorem lookup?_eq_some_iff (ds : List Definition) :
    (defineAll {} ds).lookup? name = some a ↔ ∃ d, Decides ds name d ∧ d.address = a := by
  induction ds using List.reverseRecOn with
  | nil =>
      constructor
      · intro found
        cases found
      · rintro ⟨d, decides, -⟩
        exact absurd decides not_latest_nil
  | append_singleton ds e ih =>
      rw [defineAll_concat, lookup?_define]
      simp only [mem_names_defineAll, Decides, latest_concat]
      by_cases takes : e.name = name ∧ Takes ds e
      · rw [if_pos ⟨takes.1.symm, takes.2⟩]
        simp [takes]
      · rw [if_neg fun ⟨same, takes'⟩ => takes ⟨same.symm, takes'⟩, ih]
        simp [takes, Decides]

/-- Definitions of other names are of no account. -/
theorem lookup?_filter (ds : List Definition) (name : String) :
    (defineAll {} (ds.filter fun d => d.name = name)).lookup? name = (defineAll {} ds).lookup? name := by
  induction ds using List.reverseRecOn with
  | nil => rfl
  | append_singleton ds d ih =>
      rw [List.filter_append, defineAll_concat, lookup?_define]
      by_cases same : d.name = name
      · have kept : [d].filter (fun d => d.name = name) = [d] := by simp [same]
        rw [kept, defineAll_concat, lookup?_define, ih]
        simp [mem_names_defineAll, same]
      · have dropped : [d].filter (fun d => d.name = name) = [] := by simp [same]
        rw [dropped, List.append_nil, ih, if_neg fun taken => same taken.1.symm]

theorem size_defineAll (ds : List Definition) :
    (defineAll {} ds).size = (ds.map Definition.name).toFinset.card + hiddenCount ds := by
  induction ds using List.reverseRecOn with
  | nil => rfl
  | append_singleton ds d ih =>
      rw [size_eq] at ih
      have distinct : (ds.map Definition.name ++ [d.name]).toFinset =
          insert d.name (ds.map Definition.name).toFinset := by
        rw [List.toFinset_append, List.toFinset_cons, List.toFinset_nil, insert_empty_eq, Finset.union_singleton]
      rw [size_eq, defineAll_concat, names_define, hiddenCount_concat, List.map_append, List.map_singleton,
        distinct]
      by_cases old : d.name ∈ ds.map Definition.name
      · have counted : d.name ∈ (ds.map Definition.name).toFinset := List.mem_toFinset.2 old
        rw [Finset.insert_eq_of_mem counted]
        cases wins : d.policy with
        | latestWins => simp [mem_names_defineAll, old, ih]
        | firstWins => simp [old, ih, Nat.add_assoc]
      · have notCounted : d.name ∉ (ds.map Definition.name).toFinset := mt List.mem_toFinset.1 old
        rw [Finset.card_insert_of_notMem notCounted]
        simp only [mem_names_defineAll, old, and_false, if_false, List.length_append, ih]
        simp only [List.length_singleton]
        omega

theorem nodup_names_defineAll {ds : List Definition} (latest : ∀ d ∈ ds, d.policy = .latestWins) :
    (defineAll {} ds).names.Nodup := by
  induction ds using List.reverseRecOn with
  | nil => exact List.nodup_nil
  | append_singleton ds d ih =>
      obtain ⟨earlier, last⟩ := List.forall_mem_append.1 latest
      rw [defineAll_concat, names_define]
      split
      · exact ih earlier
      · rename_i added
        have new : d.name ∉ (defineAll {} ds).names := fun old => added ⟨last d List.mem_cons_self, old⟩
        exact List.nodup_append_comm.1 (List.nodup_cons.2 ⟨new, ih earlier⟩)

end Globals

/-- After any definitions under any policies, a name is found just if it was defined, by the address of the
last definition of it that took it: one that was the first of the name or won over the earlier ones.
Definitions of other names have no influence.  There is one entry for each name, and one for each
definition that was added behind another one of its name; so there are none of these if the latest one
always wins. -/
theorem globals_follow_history (ds : List Definition) :
    (∀ name, (Globals.defineAll {} ds).lookup? name = none ↔ ∀ d ∈ ds, d.name ≠ name) ∧
    (∀ name a, (Globals.defineAll {} ds).lookup? name = some a ↔
      ∃ d, Definition.Decides ds name d ∧ d.address = a) ∧
    (∀ name, (Globals.defineAll {} ds).lookup? name =
      (Globals.defineAll {} (ds.filter fun d => d.name = name)).lookup? name) ∧
    (Globals.defineAll {} ds).size =
      (ds.map Definition.name).toFinset.card + Definition.hiddenCount ds ∧
    ((∀ d ∈ ds, d.policy = .latestWins) → (Globals.defineAll {} ds).names.Nodup) := by
  refine ⟨fun name => ?_, fun name a => Globals.lookup?_eq_some_iff ds, fun name => ?_,
    Globals.size_defineAll ds, Globals.nodup_names_defineAll⟩
  · rw [Globals.lookup?_eq_none, Globals.mem_names_defineAll, List.mem_map]
    exact ⟨fun missing d member same => missing ⟨d, member, same⟩,
      fun missing ⟨d, member, same⟩ => missing d member same⟩
  · exact (Globals.lookup?_filter ds name).symm

/-- A definition that wins changes the first entry of its name, not the hidden one behind it. -/
theorem globals_follow_history_mixed :
    (Globals.defineAll {} [⟨.firstWins, "x", 0⟩, ⟨.firstWins, "x", 1⟩, ⟨.latestWins, "y", 2⟩,
      ⟨.latestWins, "x", 3⟩, ⟨.firstWins, "x", 4⟩]).lookup? "x" = some 3 ∧
    (Globals.defineAll {} [⟨.latestWins, "x", 0⟩, ⟨.latestWins, "x", 1⟩]).names.Nodup := by
  have mixed := globals_follow_history [⟨.firstWins, "x", 0⟩, ⟨.firstWins, "x", 1⟩, ⟨.latestWins, "y", 2⟩,
    ⟨.latestWins, "x", 3⟩, ⟨.firstWins, "x", 4⟩]
  have latest := globals_follow_history [⟨.latestWins, "x", 0⟩, ⟨.latestWins, "x", 1⟩]
  have decides : Definition.Decides ([⟨.firstWins, "x", 0⟩, ⟨.firstWins, "x", 1⟩, ⟨.latestWins, "y", 2⟩] ++
      [⟨.latestWins, "x", 3⟩]) "x" ⟨.latestWins, "x", 3⟩ :=
    latest_last ⟨rfl, .inl rfl⟩
  have second := decides.concat (y := ⟨.firstWins, "x", 4⟩) (by simp [Definition.Takes])
  exact ⟨(mixed.2.1 "x" 3).2 ⟨_, second, rfl⟩, latest.2.2.2.2 (by simp)⟩

end StoreScheme
