import Mathlib.Data.List.Chain
import Mathlib.Data.List.Pairwise
import StoreScheme.Proofs.Equality
import StoreScheme.Proofs.ExactArithmetic
import StoreScheme.Proofs.Number.Rounding

/-!
# Comparisons of many numbers

A comparison looks at neighbours only.  Less-than is transitive, across exactness too, because integers
become reals in order.  Equality is not: a real can equal two different integers that become the same real.
Unless such a real is among the arguments, equality of neighbours is equality of all.

* `Number.numLt_trans`, `Number.numEq_iff`: two numbers
* `Bridged`: integers that a real can not tell apart
* `Primitive.holdsAlong_iff_pairwise`: from neighbours to all
* `neighbours_compare_all`: equality and less-than of many numbers
-/

namespace StoreScheme

/-! ## Two numbers -/

theorem Binary64.lt_iff {x y : Binary64} :
    x.lt y = true ↔ ∃ j k, x.orderKey = some j ∧ y.orderKey = some k ∧ j < k := by
  unfold lt
  cases x.orderKey with
  | none => simp
  | some j =>
      cases y.orderKey with
      | none => simp
      | some k => simp

namespace Number

variable {a b c : Number}

theorem eq_ofInt_self (n : Int) : (Binary64.ofInt n).eq (.ofInt n) = true :=
  Binary64.eq_iff.2 ⟨_, Binary64.orderKey_ofInt n, Binary64.orderKey_ofInt n⟩

theorem toReal_eq_self (number : a ≠ .real .nan) : a.toReal.eq a.toReal = true := by
  cases a with
  | integer n => exact eq_ofInt_self n.toInt
  | real x =>
      cases x with
      | nan => exact absurd rfl number
      | infinity s => exact Binary64.eq_iff.2 ⟨_, rfl, rfl⟩
      | finite s k => exact Binary64.eq_iff.2 ⟨_, rfl, rfl⟩

theorem numEq_iff : a.numEq b = true ↔
    a.toReal.eq b.toReal = true ∧ ∀ m n, a = .integer m → b = .integer n → m = n := by
  cases a with
  | real x => cases b <;> simp [numEq]
  | integer m =>
      cases b with
      | real y => simp [numEq]
      | integer n =>
          constructor
          · intro equal
            obtain rfl := eq_of_beq equal
            refine ⟨eq_ofInt_self _, ?_⟩
            rintro _ _ ⟨⟩ ⟨⟩
            rfl
          · intro ⟨_, same⟩
            exact beq_iff_eq.2 (same m n rfl rfl)

theorem numEq_symm (equal : a.numEq b = true) : b.numEq a = true := by
  obtain ⟨real, integer⟩ := numEq_iff.1 equal
  exact numEq_iff.2 ⟨Binary64.eq_symm real, fun m n first second => (integer n m second first).symm⟩

theorem numEq_self (number : a ≠ .real .nan) : a.numEq a = true := by
  refine numEq_iff.2 ⟨toReal_eq_self number, ?_⟩
  rintro m n rfl ⟨⟩
  rfl

theorem numLt_cases (less : a.numLt b = true) :
    (∃ m n, a = .integer m ∧ b = .integer n ∧ m < n) ∨ a.toReal.lt b.toReal = true := by
  cases a with
  | real x => exact .inr (by cases b <;> exact less)
  | integer m =>
      cases b with
      | real y => exact .inr less
      | integer n => exact .inl ⟨m, n, rfl, rfl, of_decide_eq_true less⟩

theorem numLt_of_lt (less : a.toReal.lt b.toReal = true) : a.numLt b = true := by
  cases a with
  | real x => cases b <;> exact less
  | integer m =>
      cases b with
      | real y => exact less
      | integer n =>
          obtain ⟨j, k, first, second, order⟩ := Binary64.lt_iff.1 less
          refine decide_eq_true (Int64.not_le.1 fun le => ?_)
          have reversed := Binary64.ofInt_mono (Int64.le_iff_toInt_le.1 le) second first
          omega

/-- Integers that are in order are not out of order as reals. -/
theorem key_le_of_numLt (less : a.numLt b = true) :
    ∃ j k, a.toReal.orderKey = some j ∧ b.toReal.orderKey = some k ∧ j ≤ k := by
  obtain ⟨m, n, rfl, rfl, order⟩ | order := numLt_cases less
  · have first := Binary64.orderKey_ofInt m.toInt
    have second := Binary64.orderKey_ofInt n.toInt
    have le : m.toInt ≤ n.toInt := Int.le_of_lt (Int64.lt_iff_toInt_lt.1 order)
    exact ⟨_, _, first, second, Binary64.ofInt_mono le first second⟩
  · obtain ⟨j, k, first, second, order⟩ := Binary64.lt_iff.1 order
    exact ⟨j, k, first, second, Int.le_of_lt order⟩

theorem numLt_trans (first : a.numLt b = true) (second : b.numLt c = true) : a.numLt c = true := by
  obtain ⟨i, j, left, middle, le⟩ := key_le_of_numLt first
  obtain ⟨j', k, middle', right, le'⟩ := key_le_of_numLt second
  cases middle.symm.trans middle'
  -- Three integers are compared as such.  Otherwise one step is between reals, and the other does not go back.
  obtain ⟨m, n, rfl, rfl, order⟩ | order := numLt_cases first
  · obtain ⟨_, p, ⟨⟩, rfl, order'⟩ | order' := numLt_cases second
    · exact decide_eq_true (Int64.lt_trans order order')
    · obtain ⟨_, _, same, same', order'⟩ := Binary64.lt_iff.1 order'
      cases middle.symm.trans same
      cases right.symm.trans same'
      exact numLt_of_lt (Binary64.lt_iff.2 ⟨i, k, left, right, Int.lt_of_le_of_lt le order'⟩)
  · obtain ⟨_, _, same, same', order⟩ := Binary64.lt_iff.1 order
    cases left.symm.trans same
    cases middle.symm.trans same'
    exact numLt_of_lt (Binary64.lt_iff.2 ⟨i, k, left, right, Int.lt_of_lt_of_le order le'⟩)

end Number

/-! ## From neighbours to all -/

namespace Primitive

section
variable {α : Type} {r : α → α → Bool} {xs : List α}

theorem holdsAlong_iff_isChain : holdsAlong r xs = true ↔ xs.IsChain fun a b => r a b = true := by
  induction xs with
  | nil => simp [holdsAlong]
  | cons a xs ih =>
      cases xs with
      | nil => simp [holdsAlong]
      | cons b rest => rw [holdsAlong, Bool.and_eq_true, ih, List.isChain_cons_cons]

/-- A relation between neighbours that is transitive among them holds from each to all later ones. -/
theorem holdsAlong_iff_pairwise
    (trans : ∀ a ∈ xs, ∀ b ∈ xs, ∀ c ∈ xs, r a b = true → r b c = true → r a c = true) :
    holdsAlong r xs = true ↔ xs.Pairwise fun a b => r a b = true := by
  refine holdsAlong_iff_isChain.trans ⟨fun chain => ?_, List.Pairwise.isChain⟩
  induction xs with
  | nil => exact .nil
  | cons a xs ih =>
      cases xs with
      | nil => exact List.pairwise_singleton _ a
      | cons b rest =>
          obtain ⟨first, chain⟩ := List.isChain_cons_cons.1 chain
          have later := ih (fun b hb c hc d hd => trans b (.tail a hb) c (.tail a hc) d (.tail a hd)) chain
          refine List.pairwise_cons.2 ⟨List.forall_mem_cons.2 ⟨first, fun c member => ?_⟩, later⟩
          have next := (List.pairwise_cons.1 later).1 c member
          exact trans a (.head _) b (.tail _ (.head _)) c (.tail _ (.tail _ member)) first next

theorem holdsAlong_iff_forall (symm : ∀ a b, r a b = true → r b a = true) (refl : ∀ a ∈ xs, r a a = true)
    (trans : ∀ a ∈ xs, ∀ b ∈ xs, ∀ c ∈ xs, r a b = true → r b c = true → r a c = true) :
    holdsAlong r xs = true ↔ ∀ a ∈ xs, ∀ b ∈ xs, r a b = true := by
  have : Std.Symm fun a b => r a b = true := ⟨symm⟩
  rw [holdsAlong_iff_pairwise trans]
  exact ⟨fun pairwise a ha b hb => pairwise.forall_of_forall refl ha hb, List.pairwise_of_forall_mem_list⟩

theorem holdsAlong_iff_neighbours : holdsAlong r xs = true ↔
    ∀ front a b rest, xs = front ++ a :: b :: rest → r a b = true := by
  rw [holdsAlong_iff_isChain, List.isChain_iff_forall_rel_of_append_cons_cons]
  exact ⟨fun chain front a b rest split => chain split, fun chain a b front rest => chain front a b rest⟩

end

theorem numbers_map (op : Primitive) (ns : List Number) : op.numbers (ns.map .number) = .ok ns := by
  induction ns with
  | nil => rfl
  | cons n ns ih =>
      rw [List.map_cons, numbers, ih]
      rfl

theorem compare_map (op : Primitive) (r : Number → Number → Bool) (ns : List Number) :
    op.compare r (ns.map .number) = .ok (.boolean (holdsAlong r ns)) := by
  rw [compare, numbers_map]
  rfl

theorem apply_of_compares {op : Primitive} {r : Number → Number → Bool} {ns : List Number} (fresh : Identity)
    (makesPair : op ≠ .cons) (makesList : op ≠ .list) (arity : op.arity = .atLeast 1)
    (compares : ∀ args, op.compute args = op.compare r args) (nonempty : ns ≠ []) :
    op.apply (ns.map .number) fresh = .ok (.boolean (holdsAlong r ns), fresh) := by
  have accepted : op.arity.accepts (ns.map Value.number).length = true := by
    rw [arity, List.length_map]
    exact decide_eq_true (List.length_pos_iff.2 nonempty)
  rw [apply_of_accepts op fresh makesPair makesList accepted, compares, compare_map]
  rfl

theorem apply_numEq {ns : List Number} (fresh : Identity) (nonempty : ns ≠ []) :
    numEq.apply (ns.map .number) fresh = .ok (.boolean (holdsAlong Number.numEq ns), fresh) :=
  apply_of_compares fresh nofun nofun rfl (fun _ => rfl) nonempty

theorem apply_less {ns : List Number} (fresh : Identity) (nonempty : ns ≠ []) :
    less.apply (ns.map .number) fresh = .ok (.boolean (holdsAlong Number.numLt ns), fresh) :=
  apply_of_compares fresh nofun nofun rfl (fun _ => rfl) nonempty

end Primitive

/-! ## Many numbers -/

/-- There is a real among the numbers, and there are two integers that become the same real. -/
def Bridged (ns : List Number) : Prop :=
  (∃ x, .real x ∈ ns) ∧ ∃ m n : Int64, m ≠ n ∧ .integer m ∈ ns ∧ .integer n ∈ ns ∧
    (Binary64.ofInt m.toInt).eq (.ofInt n.toInt) = true

namespace Number

open Primitive

variable {ns : List Number} {a b c : Number}

theorem not_bridged_of_small (small : ∀ n, .integer n ∈ ns → n.toInt.natAbs ≤ 2 ^ 53) : ¬ Bridged ns := by
  rintro ⟨-, m, n, different, m_member, n_member, equal⟩
  obtain ⟨key, first, second⟩ := Binary64.eq_iff.1 equal
  have same := (Binary64.ofInt_eq_iff (small m m_member) (small n n_member)).1 (first.trans second.symm)
  exact different (Int64.toInt_inj.1 same)

theorem numEq_trans (apart : ¬ Bridged ns) (a_member : a ∈ ns) (b_member : b ∈ ns) (c_member : c ∈ ns)
    (first : a.numEq b = true) (second : b.numEq c = true) : a.numEq c = true := by
  obtain ⟨real, integers⟩ := numEq_iff.1 first
  obtain ⟨real', integers'⟩ := numEq_iff.1 second
  refine numEq_iff.2 ⟨Binary64.eq_trans real real', ?_⟩
  rintro m n rfl rfl
  cases b with
  | integer k => exact (integers m k rfl rfl).trans (integers' k n rfl rfl)
  | real x =>
      by_contra different
      exact apart ⟨⟨x, b_member⟩, m, n, different, a_member, c_member, Binary64.eq_trans real real'⟩

section
variable (noNaN : .real .nan ∉ ns)
include noNaN

theorem number_of_mem (member : a ∈ ns) : a ≠ .real .nan := fun same => noNaN (same ▸ member)

theorem holdsAlong_numEq_iff : holdsAlong numEq ns = true ↔
    (∀ a ∈ ns, ∀ b ∈ ns, a.toReal.eq b.toReal = true) ∧
      ∀ front m n rest, ns = front ++ .integer m :: .integer n :: rest → m = n := by
  have reals := holdsAlong_iff_forall (r := fun a b => a.toReal.eq b.toReal)
    (fun _ _ => Binary64.eq_symm) (fun a member => toReal_eq_self (number_of_mem noNaN member))
    (fun _ _ _ _ _ _ => Binary64.eq_trans)
  rw [← reals, holdsAlong_iff_neighbours, holdsAlong_iff_neighbours]
  constructor
  · intro neighbours
    exact ⟨fun front a b rest split => (numEq_iff.1 (neighbours front a b rest split)).1,
      fun front m n rest split => (numEq_iff.1 (neighbours _ _ _ _ split)).2 m n rfl rfl⟩
  · rintro ⟨equal, integers⟩ front a b rest split
    refine numEq_iff.2 ⟨equal front a b rest split, ?_⟩
    rintro m n rfl rfl
    exact integers front m n rest split

theorem holdsAlong_numEq_iff_forall (apart : ¬ Bridged ns) :
    holdsAlong numEq ns = true ↔ ∀ a ∈ ns, ∀ b ∈ ns, a.numEq b = true :=
  holdsAlong_iff_forall (fun _ _ => numEq_symm) (fun _ member => numEq_self (number_of_mem noNaN member))
    fun _ ha _ hb _ hc => numEq_trans apart ha hb hc

end

end Number

theorem Bridged.perm {ms ns : List Number} (perm : ms.Perm ns) (bridged : Bridged ms) : Bridged ns := by
  obtain ⟨⟨x, real⟩, m, n, different, m_member, n_member, equal⟩ := bridged
  exact ⟨⟨x, perm.subset real⟩, m, n, different, perm.subset m_member, perm.subset n_member, equal⟩

/-- Numbers are told to be equal if they are equal as reals and no two integers meet that differ.  Unless a
real stands among integers that become the same real, these are the numbers of which every two are equal, and
their order does not matter; only integers beyond `2 ^ 53` can do that.  Less-than holds if it holds from each
number to all later ones. -/
theorem neighbours_compare_all {ns : List Number} (nonempty : ns ≠ []) (noNaN : .real .nan ∉ ns)
    (fresh : Identity) :
    (∃ equal, Primitive.numEq.apply (ns.map .number) fresh = .ok (.boolean equal, fresh) ∧
      (equal = true ↔ (∀ a ∈ ns, ∀ b ∈ ns, a.toReal.eq b.toReal = true) ∧
        ∀ front m n rest, ns = front ++ .integer m :: .integer n :: rest → m = n) ∧
      (¬ Bridged ns → (equal = true ↔ ∀ a ∈ ns, ∀ b ∈ ns, a.numEq b = true) ∧
        ∀ ms : List Number, ms.Perm ns → Primitive.numEq.apply (ms.map .number) fresh = .ok (.boolean equal, fresh))) ∧
    ((∀ n, .integer n ∈ ns → n.toInt.natAbs ≤ 2 ^ 53) → ¬ Bridged ns) ∧
    ∃ less, Primitive.less.apply (ns.map .number) fresh = .ok (.boolean less, fresh) ∧
      (less = true ↔ ns.Pairwise fun a b => a.numLt b = true) := by
  refine ⟨⟨_, Primitive.apply_numEq fresh nonempty, Number.holdsAlong_numEq_iff noNaN, fun apart => ⟨?_, ?_⟩⟩,
    Number.not_bridged_of_small, _, Primitive.apply_less fresh nonempty, ?_⟩
  · exact Number.holdsAlong_numEq_iff_forall noNaN apart
  · intro ms perm
    have same : Primitive.holdsAlong Number.numEq ms = Primitive.holdsAlong Number.numEq ns := by
      rw [Bool.eq_iff_iff, Number.holdsAlong_numEq_iff_forall (fun nan => noNaN (perm.subset nan))
        (fun bridged => apart (bridged.perm perm)), Number.holdsAlong_numEq_iff_forall noNaN apart]
      simp only [perm.mem_iff]
    have nonempty' : ms ≠ [] := fun nil => nonempty (List.nil_perm.1 (nil ▸ perm))
    rw [Primitive.apply_numEq fresh nonempty', same]
  · exact Primitive.holdsAlong_iff_pairwise fun _ _ _ _ _ _ => Number.numLt_trans

/-- The real `2 ^ 53` with integers around it. -/
def aroundReal (m n : Int64) : List Number := [.integer m, .real (.ofInt 9007199254740992), .integer n]

theorem neighbours_compare_all_one_integer :
    ¬ Bridged (aroundReal 9007199254740993 9007199254740993) ∧ ∃ equal,
      Primitive.numEq.apply ((aroundReal 9007199254740993 9007199254740993).map .number) 0 =
        .ok (.boolean equal, 0) ∧
      (equal = true ↔ ∀ a ∈ aroundReal 9007199254740993 9007199254740993,
        ∀ b ∈ aroundReal 9007199254740993 9007199254740993, a.numEq b = true) := by
  have apart : ¬ Bridged (aroundReal 9007199254740993 9007199254740993) := by
    rintro ⟨-, m, n, different, m_member, n_member, -⟩
    simp only [aroundReal, List.mem_cons, List.not_mem_nil, Number.integer.injEq, reduceCtorEq, or_false,
      false_or, or_self] at m_member n_member
    exact different (m_member.trans n_member.symm)
  have nonempty : aroundReal 9007199254740993 9007199254740993 ≠ [] := nofun
  have noNaN : .real .nan ∉ aroundReal 9007199254740993 9007199254740993 := by decide +kernel
  obtain ⟨⟨equal, applied, -, all⟩, -⟩ := neighbours_compare_all nonempty noNaN 0
  exact ⟨apart, equal, applied, (all apart).1⟩

/-- With the real between them, two different integers are told to be equal, and next to each other not. -/
theorem real_between_different_integers :
    Primitive.numEq.apply ((aroundReal 9007199254740993 9007199254740992).map .number) 0 =
      .ok (.boolean true, 0) ∧
    Number.numEq (.integer 9007199254740993) (.integer 9007199254740992) = false ∧
    Primitive.numEq.apply ([.real (.ofInt 9007199254740992), .integer 9007199254740993,
      .integer 9007199254740992].map .number) 0 = .ok (.boolean false, 0) := by
  have between : Primitive.holdsAlong Number.numEq (aroundReal 9007199254740993 9007199254740992) = true := by
    decide +kernel
  have before : Primitive.holdsAlong Number.numEq [.real (.ofInt 9007199254740992),
      .integer 9007199254740993, .integer 9007199254740992] = false := by
    decide +kernel
  refine ⟨?_, by decide, ?_⟩
  · refine (Primitive.apply_numEq 0 (List.cons_ne_nil _ _)).trans ?_
    rw [← aroundReal, between]
  · rw [Primitive.apply_numEq 0 (List.cons_ne_nil _ _), before]

end StoreScheme
