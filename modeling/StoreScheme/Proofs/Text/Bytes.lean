import StoreScheme.Text.Bytes

/-!
# Texts cut at byte offsets

A text that is put together from parts can be cut again where the parts meet, and the cuts give back
the parts.

* `Bytes.isBoundary_append`, `Bytes.isBoundary_append_add`: boundaries at the end of a part and behind it
* `Bytes.isBoundary_before_last`: the last byte of a text
* `Bytes.slice_append`: the text between two boundaries
-/

namespace StoreScheme.Bytes

/-- The number of bytes of some characters. -/
def size (cs : List Char) : Nat := (String.ofList cs).utf8ByteSize

theorem size_toList (s : String) : size s.toList = s.utf8ByteSize := by
  rw [size, String.ofList_toList]

@[simp] theorem size_nil : size [] = 0 := rfl

@[simp] theorem size_cons (c : Char) (cs : List Char) : size (c :: cs) = c.utf8Size + size cs := by
  simp [size, String.ofList_cons, String.utf8ByteSize_append]

theorem size_append (u v : List Char) : size (u ++ v) = size u + size v := by
  simp [size, String.ofList_append, String.utf8ByteSize_append]

theorem size_eq_zero {cs : List Char} : size cs = 0 ↔ cs = [] := by
  cases cs with
  | nil => simp
  | cons c cs => simp [Nat.ne_of_gt c.utf8Size_pos]

/-- A first character takes at least one byte, so that the recursions below step over it. -/
theorem exists_size_cons (c : Char) (cs : List Char) :
    ∃ n, size (c :: cs) = n + 1 ∧ n + 1 - c.utf8Size = size cs := by
  have positive := c.utf8Size_pos
  refine ⟨c.utf8Size + size cs - 1, ?_, ?_⟩
  · rw [size_cons]
    omega
  · omega

theorem isBoundary_append_add (u v : List Char) (n : Nat) :
    isBoundary (size u + n) (u ++ v) = isBoundary n v := by
  induction u with
  | nil => simp
  | cons c u ih =>
      obtain ⟨m, whole, rest⟩ := exists_size_cons c u
      have first : c.utf8Size ≤ m + 1 := by
        rw [← whole, size_cons]
        exact Nat.le_add_right _ _
      have fits : c.utf8Size ≤ m + n + 1 := by omega
      have next : m + n + 1 - c.utf8Size = size u + n := by omega
      rw [whole, Nat.add_right_comm, List.cons_append, isBoundary, next, ih, decide_eq_true fits, Bool.true_and]

theorem isBoundary_append (u v : List Char) : isBoundary (size u) (u ++ v) = true := by
  have cut := isBoundary_append_add u v 0
  rwa [Nat.add_zero, isBoundary] at cut

/-- The last byte of a text can be cut off only if it is the whole last character. -/
theorem isBoundary_before_last (u : List Char) (c : Char) :
    isBoundary (size (u ++ [c]) - 1) (u ++ [c]) = true ↔ c.utf8Size = 1 := by
  have positive := c.utf8Size_pos
  have place : size (u ++ [c]) - 1 = size u + (c.utf8Size - 1) := by
    rw [size_append, size_cons, size_nil]
    omega
  rw [place, isBoundary_append_add]
  cases below : c.utf8Size - 1 with
  | zero => simpa [isBoundary] using by omega
  | succ n => simpa [isBoundary] using by omega

theorem drop_append (u v : List Char) : drop (size u) (u ++ v) = v := by
  induction u with
  | nil => simp [drop]
  | cons c u ih =>
      obtain ⟨n, whole, rest⟩ := exists_size_cons c u
      simp [whole, drop, rest, ih]

theorem take_append (u v : List Char) : take (size u) (u ++ v) = u := by
  induction u with
  | nil => simp [take]
  | cons c u ih =>
      obtain ⟨n, whole, rest⟩ := exists_size_cons c u
      simp [whole, take, rest, ih]

theorem slice_append (u v w : List Char) :
    slice (size u) (size u + size v) (u ++ (v ++ w)) = String.ofList v := by
  rw [slice, drop_append, Nat.add_sub_cancel_left, take_append]

end StoreScheme.Bytes
