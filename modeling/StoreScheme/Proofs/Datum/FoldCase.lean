import Mathlib.Data.List.Nodup
import StoreScheme.Proofs.Rereading

/-!
# Settings of case folding

The ends of the directives of a source increase, so the setting at an offset can be found by binary
search, and it is that of the directive with the greatest end up to there.  The switches themselves can be
found by walking through the tree and reading the texts of its directives again.

* `searchFrom`, `partitionPoint`: binary search for the end of the elements with a property
* `FoldCase.searched?`: a setting found that way
* `FoldCase.reread`: the switches of a tree, from the texts of its leaves
* `Setting`: the setting that the directives of a source make at an offset
* `setting_iff`: the setting that is used
-/

namespace StoreScheme

/-! ## Binary search -/

section
variable {α : Type} {p : α → Bool} {xs : List α} {base size k : Nat}

/-- Searches among `size` elements from `base` on, which has the property unless it is the first. -/
def searchFrom (p : α → Bool) (xs : List α) (base size : Nat) : Nat :=
  if 1 < size then
    let half := size / 2
    searchFrom p xs (if xs[base + half]?.any p then base + half else base) (size - half)
  else if xs[base]?.any p then base + 1 else base
termination_by size
decreasing_by omega

def partitionPoint (p : α → Bool) (xs : List α) : Nat := searchFrom p xs 0 xs.length

theorem searchFrom_eq (partitioned : ∀ i, xs[i]?.any p = true ↔ i < k) (above : base = 0 ∨ base < k)
    (below : k ≤ base + size) : searchFrom p xs base size = k := by
  -- `above` and `below` are what halving keeps: the point is in the range, and `base` is in front of it.
  fun_induction searchFrom p xs base size with
  | case1 base size several half ih =>
      apply ih
      · split
        · rename_i found
          exact .inr ((partitioned _).1 found)
        · exact above
      · split
        · omega
        · rename_i notFound
          rw [partitioned] at notFound
          omega
  | case2 base size single found =>
      rw [partitioned] at found
      omega
  | case3 base size single notFound =>
      rw [partitioned] at notFound
      omega

theorem any_getElem?_iff (partitioned : xs.Pairwise fun a b => p b = true → p a = true) (i : Nat) :
    xs[i]?.any p = true ↔ i < (xs.takeWhile p).length := by
  induction xs generalizing i with
  | nil => simp
  | cons x xs ih =>
      obtain ⟨first, others⟩ := List.pairwise_cons.1 partitioned
      cases holds : p x with
      | true =>
          rw [List.takeWhile_cons_of_pos holds, List.length_cons]
          cases i with
          | zero => simp [holds]
          | succ i => rw [List.getElem?_cons_succ, ih others i, Nat.add_lt_add_iff_right]
      | false =>
          rw [List.takeWhile_cons_of_neg (by simp [holds]), Option.any_eq_true]
          constructor
          · rintro ⟨y, found, holds'⟩
            rcases List.mem_cons.1 (List.mem_of_getElem? found) with rfl | later
            · cases holds.symm.trans holds'
            · cases holds.symm.trans (first y later holds')
          · exact fun impossible => absurd impossible (Nat.not_lt_zero i)

theorem partitionPoint_eq (partitioned : xs.Pairwise fun a b => p b = true → p a = true) :
    partitionPoint p xs = (xs.takeWhile p).length := by
  refine searchFrom_eq (any_getElem?_iff partitioned) (.inl rfl) ?_
  rw [Nat.zero_add]
  exact (List.takeWhile_prefix p).length_le

end

namespace FoldCase

variable {f : FoldCase} {offset : Nat} {l : Lexeme}

def Increasing (f : FoldCase) : Prop := f.switches.Pairwise fun a b => a.1 < b.1

/-- Whether identifiers fold case at an offset, found by binary search; nothing if the search points
outside of the switches. -/
def searched? (f : FoldCase) (offset : Nat) : Option Bool :=
  match partitionPoint (fun switch => switch.1 ≤ offset) f.switches with
  | 0 => some f.initial
  | i + 1 => f.switches[i]?.map Prod.snd

theorem searched?_eq (increasing : f.Increasing) (offset : Nat) :
    f.searched? offset = some (f.foldsAt offset) := by
  have partitioned : f.switches.Pairwise fun a b =>
      decide (b.1 ≤ offset) = true → decide (a.1 ≤ offset) = true := by
    refine increasing.imp fun {a b} less holds => ?_
    exact decide_eq_true (Nat.le_trans (Nat.le_of_lt less) (of_decide_eq_true holds))
  have inside := List.takeWhile_prefix (fun switch => decide (switch.1 ≤ offset)) (l := f.switches)
  unfold searched? foldsAt
  rw [partitionPoint_eq partitioned]
  generalize f.switches.takeWhile (fun switch => decide (switch.1 ≤ offset)) = taken at inside
  obtain rfl | ⟨front, last, rfl⟩ := List.eq_nil_or_concat taken
  · rfl
  · obtain ⟨rest, whole⟩ := inside
    simp [← whole]

/-! ## The last switch -/

theorem takeWhile_eq_filter (increasing : f.Increasing) (offset : Nat) :
    f.switches.takeWhile (fun switch => switch.1 ≤ offset) =
      f.switches.filter fun switch => switch.1 ≤ offset := by
  unfold Increasing at increasing
  generalize f.switches = switches at increasing
  induction switches with
  | nil => rfl
  | cons switch switches ih =>
      obtain ⟨first, others⟩ := List.pairwise_cons.1 increasing
      rw [List.takeWhile_cons, List.filter_cons]
      split
      · rw [ih others]
      · -- Behind the first switch that is too far on, all are.
        rename_i behind
        rw [decide_eq_true_eq] at behind
        rw [eq_comm, List.filter_eq_nil_iff]
        intro later member
        have less := first later member
        rw [decide_eq_true_eq]
        omega

theorem le_of_getLast? {switches : List (Nat × Bool)} {last : Nat × Bool}
    (increasing : switches.Pairwise fun a b => a.1 < b.1) (isLast : switches.getLast? = some last) :
    ∀ switch ∈ switches, switch.1 ≤ last.1 := by
  obtain ⟨front, rfl⟩ := List.getLast?_eq_some_iff.1 isLast
  obtain ⟨-, -, across⟩ := List.pairwise_append.1 increasing
  intro switch member
  rcases List.mem_append.1 member with earlier | same
  · exact Nat.le_of_lt (across switch earlier last (List.mem_singleton_self last))
  · exact Nat.le_of_eq (congrArg Prod.fst (List.mem_singleton.1 same))

/-! ## Switches of a source -/

theorem switch?_eq_some_iff {switch : Nat × Bool} : switch? l = some switch ↔
    ∃ d, l.result = .ok (.directive d) ∧ (l.stop, decide (d = .foldCase)) = switch := by
  unfold switch?
  split
  · rename_i d result
    simp [result]
  · rename_i other
    constructor
    · nofun
    · rintro ⟨d, result, -⟩
      exact absurd result (other d)

/-- The setting of a directive's leaf, from its text. -/
def rereadSwitch? : Tree → Option (Nat × Bool)
  | .leaf .directive l =>
    match firstToken? l.text with
    | some (.directive d) => some (l.stop, d = .foldCase)
    | _ => none
  | _ => none

/-- The switches of a tree, from the texts of its leaves. -/
def reread (initial : Bool) (t : Tree) : FoldCase := ⟨initial, t.parts.filterMap rereadSwitch?⟩

theorem rereadSwitch?_eq {source : String} {kind : LeafKind} (member : l ∈ lex source)
    (labels : kind.Labels l) : rereadSwitch? (.leaf kind l) = switch? l := by
  cases labels with
  | @token _ token ok =>
      cases token with
      | directive d => simp [rereadSwitch?, switch?, Token.leafKind, Lexeme.firstToken?_text member ok, ok]
      | _ => simp [rereadSwitch?, switch?, Token.leafKind, ok]
  | error failed | closeParen failed | dot failed => simp [rereadSwitch?, switch?, failed]

theorem reread_eq (source : String) (initial : Bool) :
    reread initial (parse source).tree = ofTree initial (parse source).tree := by
  rw [reread, ofTree, Tree.leaves_eq, List.filterMap_filterMap]
  congr 1
  refine List.filterMap_congr fun part inside => ?_
  cases parse_regular source part inside with
  | leaf labels =>
      have member := parse_leaves source ▸ Tree.mem_leaves inside
      exact rereadSwitch?_eq member labels
  | atom _ _ | list | quoted | other _ => rfl

end FoldCase

/-! ## The setting of a source -/

/-- The setting at an offset: that of the directive with the greatest end up to there, or the default if
there is none. -/
inductive Setting (source : String) (initial : Bool) (offset : Nat) : Bool → Prop
  | directive {l : Lexeme} {d : Directive} : l ∈ lex source → l.result = .ok (.directive d) →
    l.stop ≤ offset →
    (∀ m ∈ lex source, ∀ d', m.result = .ok (.directive d') → m.stop ≤ offset → m.stop ≤ l.stop) →
    Setting source initial offset (d = .foldCase)
  | initial : (∀ m ∈ lex source, ∀ d, m.result = .ok (.directive d) → offset < m.stop) →
    Setting source initial offset initial

section
variable {source : String} {initial : Bool} {offset : Nat}

theorem increasing_ofTree (source : String) (initial : Bool) :
    (FoldCase.ofTree initial (parse source).tree).Increasing := by
  unfold FoldCase.Increasing FoldCase.ofTree
  rw [parse_leaves, List.pairwise_filterMap]
  refine (lex_tiling source).stops_increase.imp fun {l m} less a switch b switch' => ?_
  obtain ⟨_, _, rfl⟩ := FoldCase.switch?_eq_some_iff.1 switch
  obtain ⟨_, _, rfl⟩ := FoldCase.switch?_eq_some_iff.1 switch'
  exact less

theorem mem_switches {l : Lexeme} {d : Directive} (member : l ∈ lex source)
    (result : l.result = .ok (.directive d)) :
    (l.stop, decide (d = .foldCase)) ∈ (FoldCase.ofTree initial (parse source).tree).switches := by
  rw [FoldCase.ofTree, parse_leaves]
  exact List.mem_filterMap.2 ⟨l, member, FoldCase.switch?_eq_some_iff.2 ⟨d, result, rfl⟩⟩

theorem setting_foldsAt (source : String) (initial : Bool) (offset : Nat) :
    Setting source initial offset ((FoldCase.ofTree initial (parse source).tree).foldsAt offset) := by
  have increasing := increasing_ofTree source initial
  have inside {m : Lexeme} {d : Directive} (member : m ∈ lex source)
      (result : m.result = .ok (.directive d)) (before : m.stop ≤ offset) : (m.stop, decide (d = .foldCase)) ∈
        (FoldCase.ofTree initial (parse source).tree).switches.filter fun switch => switch.1 ≤ offset :=
    List.mem_filter.2 ⟨mem_switches member result, decide_eq_true before⟩
  unfold FoldCase.foldsAt
  rw [FoldCase.takeWhile_eq_filter increasing]
  split
  · rename_i stop folds isLast
    obtain ⟨listed, before⟩ := List.mem_filter.1 (List.mem_of_getLast? isLast)
    have greatest := FoldCase.le_of_getLast? (increasing.filter _) isLast
    rw [FoldCase.ofTree, parse_leaves] at listed
    obtain ⟨l, member, switch⟩ := List.mem_filterMap.1 listed
    obtain ⟨d, result, same⟩ := FoldCase.switch?_eq_some_iff.1 switch
    obtain ⟨rfl, rfl⟩ := Prod.mk.inj same
    refine .directive member result (of_decide_eq_true before) fun m member' d' result' before' => ?_
    exact greatest _ (inside member' result' before')
  · rename_i noLast
    refine .initial fun m member d result => Nat.lt_of_not_le fun before => ?_
    have listed := inside member result before
    rw [List.getLast?_eq_none_iff.1 noLast] at listed
    cases listed

theorem eq_of_stop_eq {l m : Lexeme} (member : l ∈ lex source) (member' : m ∈ lex source)
    (same : l.stop = m.stop) : l = m := by
  have apart : ((lex source).map Lexeme.stop).Nodup :=
    List.pairwise_map.2 ((lex_tiling source).stops_increase.imp Nat.ne_of_lt)
  exact List.inj_on_of_nodup_map apart member member' same

theorem Setting.unique {b b' : Bool} (setting : Setting source initial offset b)
    (setting' : Setting source initial offset b') : b = b' := by
  cases setting with
  | directive member result before greatest =>
      cases setting' with
      | directive member' result' before' greatest' =>
          have le := greatest' _ member _ result before
          have ge := greatest _ member' _ result' before'
          have same := Nat.le_antisymm le ge
          cases eq_of_stop_eq member member' same
          cases result.symm.trans result'
          rfl
      | initial none => exact absurd before (Nat.not_le_of_lt (none _ member _ result))
  | initial none =>
      cases setting' with
      | directive member result before _ => exact absurd before (Nat.not_le_of_lt (none _ member _ result))
      | initial _ => rfl

theorem setting_iff {b : Bool} : Setting source initial offset b ↔
    (FoldCase.ofTree initial (parse source).tree).foldsAt offset = b := by
  constructor
  · exact (setting_foldsAt source initial offset).unique
  · rintro rfl
    exact setting_foldsAt source initial offset

end

end StoreScheme
