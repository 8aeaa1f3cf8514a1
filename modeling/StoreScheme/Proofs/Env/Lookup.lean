import StoreScheme.Env

/-!
# Looking up names

Where an address that was found comes from.

* `Frame.lookup?_eq`: a frame gives the address at the position of a name
* `Env.lookup?_append`, `Env.lookup?_cons`: the innermost frame that has a name decides
* `Env.mem_of_lookup?`: found addresses are addresses of a frame or of a global name
* `Globals.mem_addresses_define`, `Globals.nodup_define`: a definition adds one address at most, and
  keeps all of them distinct
-/

namespace StoreScheme

def Env.addresses (env : Env) : List Address := env.flatMap Frame.addresses

def Globals.addresses (g : Globals) : List Address := g.entries.map Prod.snd

namespace Frame

variable {fr : Frame} {name : String} {a : Address}

theorem lookup_zip (names : List String) (addresses : List Address) (name : String) :
    (names.zip addresses).lookup name = (names.idxOf? name).bind (addresses[·]?) := by
  induction names generalizing addresses with
  | nil => rfl
  | cons n names ih =>
      cases addresses with
      | nil => simp
      | cons b addresses =>
          by_cases same : n = name
          · subst same
            simp [List.idxOf?_cons]
          · have different : (name == n) = false := by simpa using Ne.symm same
            have different' : (n == name) = false := by simpa using same
            simp only [List.zip_cons_cons, List.lookup_cons, different, List.idxOf?_cons, different', ih]
            cases names.idxOf? name <;> simp

theorem lookup?_eq (fr : Frame) (name : String) :
    fr.lookup? name = (fr.names.idxOf? name).bind (fr.addresses[·]?) :=
  lookup_zip fr.names fr.addresses name

theorem lookup?_of_not_mem (missing : name ∉ fr.names) : fr.lookup? name = none := by
  rw [lookup?_eq, List.idxOf?_eq_none_iff.2 missing]
  rfl

theorem mem_of_lookup? (found : fr.lookup? name = some a) : a ∈ fr.addresses := by
  rw [lookup?_eq] at found
  obtain ⟨i, -, at'⟩ := Option.bind_eq_some_iff.1 found
  exact List.mem_of_getElem? at'

theorem lookup?_of_idxOf? (balanced : fr.names.length = fr.addresses.length) {i : Nat}
    (position : fr.names.idxOf? name = some i) :
    ∃ a, fr.addresses[i]? = some a ∧ fr.lookup? name = some a := by
  have inside : i < fr.addresses.length := by
    rw [← balanced]
    exact (List.idxOf?_eq_some_iff.1 position).1
  have found : fr.addresses[i]? = some fr.addresses[i] := List.getElem?_eq_getElem inside
  refine ⟨fr.addresses[i], found, ?_⟩
  rw [lookup?_eq, position]
  exact found

end Frame

namespace Globals

variable {g : Globals} {name : String} {a address : Address}

theorem mem_of_lookup (entries : List (String × Address)) (found : entries.lookup name = some a) :
    a ∈ entries.map Prod.snd := by
  obtain ⟨before, after, split, -⟩ := List.lookup_eq_some_iff.1 found
  simp [split]

theorem mem_of_lookup? (found : g.lookup? name = some a) : a ∈ g.addresses :=
  mem_of_lookup g.entries found

theorem mem_rebind {entries : List (String × Address)}
    (member : a ∈ (rebind name address entries).map Prod.snd) :
    a = address ∨ a ∈ entries.map Prod.snd := by
  induction entries with
  | nil => exact .inr member
  | cons entry entries ih =>
      obtain ⟨n, b⟩ := entry
      unfold rebind at member
      split at member <;> grind

theorem mem_addresses_define {policy : RedefinePolicy}
    (member : a ∈ (g.define policy name address).addresses) : a = address ∨ a ∈ g.addresses := by
  unfold define at member
  split at member
  · exact mem_rebind member
  · simp only [addresses, List.map_append, List.mem_append] at member ⊢
    grind

theorem nodup_rebind {entries : List (String × Address)} (distinct : (entries.map Prod.snd).Nodup)
    (new : address ∉ entries.map Prod.snd) : ((rebind name address entries).map Prod.snd).Nodup := by
  induction entries with
  | nil => exact distinct
  | cons entry entries ih =>
      obtain ⟨n, b⟩ := entry
      simp only [List.map_cons, List.nodup_cons, List.mem_cons, not_or] at distinct new
      unfold rebind
      split
      · simp only [List.map_cons, List.nodup_cons]
        exact ⟨new.2, distinct.2⟩
      · simp only [List.map_cons, List.nodup_cons]
        refine ⟨fun member => ?_, ih distinct.2 new.2⟩
        rcases mem_rebind member with same | old
        · exact new.1 same.symm
        · exact distinct.1 old

theorem nodup_define {policy : RedefinePolicy} (distinct : g.addresses.Nodup)
    (new : address ∉ g.addresses) : (g.define policy name address).addresses.Nodup := by
  unfold define
  split
  · exact nodup_rebind distinct new
  · simp only [addresses, List.map_append, List.map_cons, List.map_nil]
    refine List.nodup_append.2 ⟨distinct, by simp, fun a member b last => ?_⟩
    rintro rfl
    exact new (List.mem_singleton.1 last ▸ member)

end Globals

namespace Env

variable {env : Env} {fr : Frame} {g : Globals} {name : String} {a : Address}

theorem mem_addresses : a ∈ env.addresses ↔ ∃ fr ∈ env, a ∈ fr.addresses := List.mem_flatMap

theorem mem_of_lookup? (found : env.lookup? g name = some a) :
    a ∈ env.addresses ∨ a ∈ g.addresses := by
  induction env with
  | nil => exact .inr (Globals.mem_of_lookup? found)
  | cons fr env ih =>
      rw [lookup?, Option.or_eq_some_iff] at found
      rcases found with here | ⟨-, further⟩
      · exact .inl (List.mem_flatMap.2 ⟨fr, by simp, Frame.mem_of_lookup? here⟩)
      · exact (ih further).imp_left fun member => List.mem_append_right _ member

theorem lookup?_append {frames : Env} (missing : ∀ fr ∈ frames, name ∉ fr.names) :
    lookup? g name (frames ++ env) = lookup? g name env := by
  induction frames with
  | nil => rfl
  | cons fr frames ih =>
      obtain ⟨here, further⟩ := List.forall_mem_cons.1 missing
      rw [List.cons_append, lookup?, Frame.lookup?_of_not_mem here, Option.none_or, ih further]

theorem lookup?_cons (found : fr.lookup? name = some a) : lookup? g name (fr :: env) = some a := by
  rw [lookup?, found, Option.some_or]

end Env

end StoreScheme
