import StoreScheme.Proofs.Text.Regex

/-!
# Languages without common texts

Two expressions have no text in common if, after any way to start a common text, what is left of one
has no text in common with what is left of the other.  There are finitely many things that can be left,
so that a search finds them all, and a list of pairs that nothing leads out of is a proof.

* `Regex.heads`: the ways to start a text of the language
* `Regex.Closed`: a list of pairs that nothing leads out of
* `Regex.not_matches_of_closed`: the pairs of such a list have no common texts
* `Regex.apart`, `Regex.not_matches_of_apart`: the search
-/

namespace StoreScheme

namespace CharClass

/-- Whether there may be a character in both classes; with a complement it is not looked for. -/
def meets (a b : CharClass) : Bool :=
  a.complemented || b.complemented ||
    a.ranges.any fun (first, last) => b.ranges.any fun (first', last') => first ≤ last' && first' ≤ last

theorem meets_of_contains {a b : CharClass} {c : Char} (left : a.contains c = true)
    (right : b.contains c = true) : a.meets b = true := by
  obtain ⟨ranges, complemented⟩ := a
  obtain ⟨ranges', complemented'⟩ := b
  cases complemented with
  | true => rfl
  | false =>
      cases complemented' with
      | true => rfl
      | false =>
          simp only [contains, Bool.bne_false, List.any_eq_true, Bool.and_eq_true, decide_eq_true_eq]
            at left right
          obtain ⟨⟨first, last⟩, member, above, below⟩ := left
          obtain ⟨⟨first', last'⟩, member', above', below'⟩ := right
          simp only [meets, Bool.false_or, List.any_eq_true, Bool.and_eq_true, decide_eq_true_eq]
          exact ⟨_, member, _, member', Char.le_trans above below', Char.le_trans above' below⟩

end CharClass

namespace Regex

variable {r s : Regex} {c : Char} {w : List Char} {pairs : List (Regex × Regex)}

/-- The classes that a first character may be taken from, each with what is left to match after it. -/
def heads : Regex → List (CharClass × Regex)
  | .empty => []
  | .epsilon => []
  | .chars k => [(k, .epsilon)]
  | .seq r s => (r.heads.map fun (k, rest) => (k, mkSeq rest s)) ++ if r.nullable then s.heads else []
  | .alt r s => r.heads ++ s.heads
  | .star r => r.heads.map fun (k, rest) => (k, mkSeq rest (.star r))

theorem exists_head (matched : r.Matches (c :: w)) :
    ∃ k rest, (k, rest) ∈ r.heads ∧ k.contains c = true ∧ rest.Matches w := by
  induction r generalizing w with
  | empty => simp at matched
  | epsilon => simp at matched
  | chars k =>
      obtain ⟨contains, rfl⟩ := matches_chars_cons.1 matched
      exact ⟨k, .epsilon, List.mem_singleton_self _, contains, .epsilon⟩
  | seq r s ihr ihs =>
      obtain ⟨u, v, first, second, whole⟩ := matches_seq.1 matched
      cases u with
      | nil =>
          cases whole
          obtain ⟨k, rest, member, contains, matched⟩ := ihs second
          refine ⟨k, rest, ?_, contains, matched⟩
          rw [heads, if_pos (nullable_iff.2 first)]
          exact List.mem_append_right _ member
      | cons d u =>
          cases whole
          obtain ⟨k, rest, member, contains, matched⟩ := ihr first
          refine ⟨k, mkSeq rest s, ?_, contains, matches_mkSeq.2 (.seq matched second)⟩
          exact List.mem_append_left _ (List.mem_map.2 ⟨_, member, rfl⟩)
  | alt r s ihr ihs =>
      rcases matches_alt.1 matched with left | right
      · obtain ⟨k, rest, member, found⟩ := ihr left
        exact ⟨k, rest, List.mem_append_left _ member, found⟩
      · obtain ⟨k, rest, member, found⟩ := ihs right
        exact ⟨k, rest, List.mem_append_right _ member, found⟩
  | star r ih =>
      obtain ⟨u, v, first, repetition, rfl⟩ := matches_star_cons.1 matched
      obtain ⟨k, rest, member, contains, matched⟩ := ih first
      exact ⟨k, _, List.mem_map.2 ⟨_, member, rfl⟩, contains, matches_mkSeq.2 (.seq matched repetition)⟩

/-- What may be left of two expressions after a first character of a common text. -/
def common (r s : Regex) : List (Regex × Regex) :=
  r.heads.flatMap fun (k, rest) =>
    (s.heads.filter fun (k', _) => k.meets k').map fun (_, rest') => (rest, rest')

theorem exists_common (left : r.Matches (c :: w)) (right : s.Matches (c :: w)) :
    ∃ p ∈ common r s, p.1.Matches w ∧ p.2.Matches w := by
  obtain ⟨k, rest, member, contains, matched⟩ := exists_head left
  obtain ⟨k', rest', member', contains', matched'⟩ := exists_head right
  refine ⟨(rest, rest'), List.mem_flatMap.2 ⟨_, member, List.mem_map.2 ⟨(k', rest'), ?_, rfl⟩⟩, matched,
    matched'⟩
  exact List.mem_filter.2 ⟨member', CharClass.meets_of_contains contains contains'⟩

/-- No pair of the list has the empty text in common, and whatever may be left is in the list again. -/
def Closed (pairs : List (Regex × Regex)) : Bool :=
  pairs.all fun (r, s) => !(r.nullable && s.nullable) && (common r s).all (pairs.contains ·)

theorem not_matches_of_closed (closed : Closed pairs = true) (member : (r, s) ∈ pairs)
    (left : r.Matches w) : ¬ s.Matches w := by
  intro right
  have step := List.all_eq_true.1 closed _ member
  rw [Bool.and_eq_true, Bool.not_eq_true'] at step
  induction w generalizing r s with
  | nil =>
      have both : (r.nullable && s.nullable) = true := by
        rw [nullable_iff.2 left, nullable_iff.2 right, Bool.and_self]
      rw [both] at step
      cases step.1
  | cons c w ih =>
      obtain ⟨⟨r', s'⟩, next, left', right'⟩ := exists_common left right
      have member' : (r', s') ∈ pairs := by simpa using List.all_eq_true.1 step.2 _ next
      have step' := List.all_eq_true.1 closed _ member'
      rw [Bool.and_eq_true, Bool.not_eq_true'] at step'
      exact ih member' left' right' step'

/-- All pairs that some pairs lead to, as far as the fuel goes. -/
def explore : (fuel : Nat) → (found : List (Regex × Regex)) → List (Regex × Regex) → List (Regex × Regex)
  | 0, found, _ => found
  | _ + 1, found, [] => found
  | fuel + 1, found, p :: pairs =>
    if found.contains p then explore fuel found pairs
    else explore fuel (p :: found) (common p.1 p.2 ++ pairs)

/-- Whether the search finds that two expressions have no common text. -/
def apart (fuel : Nat) (r s : Regex) : Bool :=
  let pairs := explore fuel [] [(r, s)]
  Closed pairs && pairs.contains (r, s)

theorem not_matches_of_apart {fuel : Nat} (isApart : apart fuel r s = true) (left : r.Matches w) :
    ¬ s.Matches w := by
  obtain ⟨closed, found⟩ := Bool.and_eq_true_iff.1 isApart
  exact not_matches_of_closed closed (by simpa using found) left

end Regex

end StoreScheme
