import Mathlib.Data.List.Induction

/-!
# The latest event of a kind

Whether an event of a history counts may depend on what came before it.  What holds at the end is often
decided by the latest one that does.

* `Latest`: the latest event that counts
* `latest_concat`: one event more
* `forall_not_latest`: there is none if no event counts
-/

namespace StoreScheme

variable {α : Type} {P : List α → α → Prop} {xs before after : List α} {x y : α}

/-- A part of a longer history is its last event, or a part of the history before that. -/
theorem append_cons_of_concat (split : xs ++ [y] = before ++ x :: after) :
    xs = before ∧ y = x ∧ after = [] ∨ ∃ earlier, after = earlier ++ [y] ∧ xs = before ++ x :: earlier := by
  rcases List.eq_nil_or_concat after with rfl | ⟨earlier, z, rfl⟩
  · obtain ⟨rfl, rfl⟩ : xs = before ∧ y = x := by simpa using split
    exact .inl ⟨rfl, rfl, rfl⟩
  · rw [List.concat_eq_append, ← List.cons_append, ← List.append_assoc] at split
    obtain ⟨rfl, same⟩ := List.append_inj' split rfl
    obtain rfl : y = z := by simpa using same
    exact .inr ⟨earlier, List.concat_eq_append .., rfl⟩

/-- An event counts, given those before it, and no later one does. -/
def Latest (P : List α → α → Prop) (xs : List α) (x : α) : Prop :=
  ∃ before after, xs = before ++ x :: after ∧ P before x ∧
    ∀ between y rest, after = between ++ y :: rest → ¬ P (before ++ x :: between) y

theorem not_latest_nil : ¬ Latest P [] x := by
  rintro ⟨before, after, split, -⟩
  simp at split

theorem latest_last (counts : P xs x) : Latest P (xs ++ [x]) x := by
  refine ⟨xs, [], rfl, counts, fun between y rest none => ?_⟩
  simp at none

theorem Latest.concat (latest : Latest P xs x) (other : ¬ P xs y) : Latest P (xs ++ [y]) x := by
  obtain ⟨before, after, rfl, counts, last⟩ := latest
  refine ⟨before, after ++ [y], by simp, counts, fun between z rest split => ?_⟩
  rcases append_cons_of_concat split with ⟨rfl, rfl, rfl⟩ | ⟨earlier, rfl, rfl⟩
  · exact other
  · exact last between z earlier rfl

theorem latest_concat : Latest P (xs ++ [y]) x ↔ P xs y ∧ x = y ∨ ¬ P xs y ∧ Latest P xs x := by
  constructor
  · rintro ⟨before, after, split, counts, last⟩
    rcases append_cons_of_concat split with ⟨rfl, rfl, rfl⟩ | ⟨after, rfl, rfl⟩
    · exact .inl ⟨counts, rfl⟩
    · refine .inr ⟨last after y [] rfl, before, after, rfl, counts, fun between z rest split => ?_⟩
      exact last between z (rest ++ [y]) (by simp [split])
  · rintro (⟨counts, rfl⟩ | ⟨other, latest⟩)
    · exact latest_last counts
    · exact latest.concat other

theorem forall_not_latest :
    (∀ x, ¬ Latest P xs x) ↔ ∀ before x after, xs = before ++ x :: after → ¬ P before x := by
  constructor
  · intro none
    induction xs using List.reverseRecOn with
    | nil =>
        intro before x after split
        simp at split
    | append_singleton xs y ih =>
        have other : ¬ P xs y := fun counts => none y (latest_last counts)
        intro before x after split
        rcases append_cons_of_concat split with ⟨rfl, rfl, rfl⟩ | ⟨earlier, rfl, rfl⟩
        · exact other
        · exact ih (fun x latest => none x (latest.concat other)) before x earlier rfl
  · rintro none x ⟨before, after, split, counts, -⟩
    exact none before x after split counts

end StoreScheme
