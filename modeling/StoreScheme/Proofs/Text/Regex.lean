import StoreScheme.Text.Regex

/-!
# Languages of regular expressions

Derivatives compute the language of an expression, so that the longest match found by them is the
longest prefix in the language.

* `Regex.matches_derive`: the derivative by a character
* `Regex.Longest`, `Regex.longest?_eq_some_iff`, `Regex.longest?_eq_none_iff`: longest matches
* `Regex.longest?_append`: a match that can not go on into the text that follows
* `Regex.avoids`, `Regex.starts`: which characters do not occur in a language, and which come first
* `Regex.PrefixFree`: no text of the language goes on into another one
-/

namespace StoreScheme

namespace CharClass

variable {c d : Char} {a b : CharClass}

@[simp] theorem contains_singleton : contains ⟨[(d, d)], false⟩ c = true ↔ c = d := by
  simp only [contains, List.any_cons, List.any_nil, Bool.or_false, Bool.bne_false, Bool.and_eq_true,
    decide_eq_true_eq]
  constructor
  · intro ⟨above, below⟩
    exact Char.le_antisymm below above
  · intro same
    rw [same]
    exact ⟨Char.le_refl d, Char.le_refl d⟩

theorem any_singletons (cs : List Char) :
    (cs.map fun c => (c, c)).any (fun (first, last) => first ≤ c && c ≤ last) = true ↔ c ∈ cs := by
  induction cs with
  | nil => simp
  | cons d cs ih =>
      have first := contains_singleton (c := c) (d := d)
      simp only [contains, List.any_cons, List.any_nil, Bool.or_false, Bool.bne_false] at first
      rw [List.map_cons, List.any_cons, Bool.or_eq_true, ih, first, List.mem_cons]

@[simp] theorem contains_ofString {t : String} : (ofString t).contains c = true ↔ c ∈ t.toList := by
  rw [contains, ofString, Bool.bne_false]
  exact any_singletons t.toList

@[simp] theorem contains_noneOf {t : String} : (noneOf t).contains c = true ↔ c ∉ t.toList := by
  rw [contains, noneOf, Bool.bne_true, Bool.not_eq_true', ← Bool.not_eq_true]
  exact not_congr (any_singletons t.toList)

end CharClass

namespace Regex

variable {r s : Regex} {c : Char} {k : CharClass} {t u v w : List Char}

/-! ## Languages -/

@[simp] theorem not_matches_empty : ¬ Matches .empty w := nofun

@[simp] theorem matches_epsilon : Matches .epsilon w ↔ w = [] := by
  constructor
  · rintro ⟨⟩
    rfl
  · rintro rfl
    exact .epsilon

theorem matches_chars : Matches (.chars k) w ↔ ∃ c, k.contains c = true ∧ w = [c] := by
  constructor
  · rintro ⟨⟩
    exact ⟨_, ‹_›, rfl⟩
  · rintro ⟨c, contains, rfl⟩
    exact .chars contains

@[simp] theorem matches_chars_cons : Matches (.chars k) (c :: w) ↔ k.contains c = true ∧ w = [] := by
  rw [matches_chars]
  constructor
  · rintro ⟨d, contains, whole⟩
    cases whole
    exact ⟨contains, rfl⟩
  · rintro ⟨contains, rfl⟩
    exact ⟨c, contains, rfl⟩

theorem matches_seq :
    Matches (.seq r s) w ↔ ∃ u v, Matches r u ∧ Matches s v ∧ w = u ++ v := by
  constructor
  · rintro ⟨⟩
    exact ⟨_, _, ‹_›, ‹_›, rfl⟩
  · rintro ⟨u, v, first, second, rfl⟩
    exact .seq first second

@[simp] theorem matches_alt : Matches (.alt r s) w ↔ Matches r w ∨ Matches s w := by
  constructor
  · rintro (_ | _)
    · exact .inl ‹_›
    · exact .inr ‹_›
  · rintro (left | right)
    · exact .altLeft left
    · exact .altRight right

/-- A repetition starts with a match that is not empty, or is empty itself. -/
theorem matches_star_cons : Matches (.star r) (c :: w) ↔
    ∃ u v, Matches r (c :: u) ∧ Matches (.star r) v ∧ w = u ++ v := by
  constructor
  · intro repetition
    generalize whole : c :: w = text at repetition
    generalize expression : Regex.star r = e at repetition
    induction repetition with
    | starNil => cases whole
    | @starCons _ first rest matched repetition _ ih =>
        cases expression
        cases first with
        | nil => exact ih whole rfl
        | cons d first =>
            cases whole
            exact ⟨first, rest, matched, repetition, rfl⟩
    | epsilon | chars | seq | altLeft | altRight => cases expression
  · rintro ⟨u, v, first, rest, rfl⟩
    exact .starCons first rest

theorem matches_star_append (first : Matches (.star r) u) (second : Matches (.star r) v) :
    Matches (.star r) (u ++ v) := by
  generalize expression : Regex.star r = e at first
  induction first with
  | starNil =>
      cases expression
      exact second
  | starCons matched _ _ ih =>
      cases expression
      rw [List.append_assoc]
      exact .starCons matched (ih rfl)
  | epsilon | chars | seq | altLeft | altRight => cases expression

theorem matches_star_chars (contains : ∀ c ∈ w, k.contains c = true) : Matches (.star (.chars k)) w := by
  induction w with
  | nil => exact .starNil
  | cons c w ih =>
      obtain ⟨first, rest⟩ := List.forall_mem_cons.1 contains
      exact .starCons (u := [c]) (.chars first) (ih rest)

theorem matches_text_iff {t : String} : Matches (.text t) w ↔ w = t.toList := by
  unfold text
  induction t.toList generalizing w with
  | nil => exact matches_epsilon
  | cons c cs ih =>
      rw [List.foldr_cons, matches_seq]
      constructor
      · intro ⟨u, v, first, rest, whole⟩
        obtain ⟨d, contains, rfl⟩ := matches_chars.1 first
        rw [whole, ih.1 rest, CharClass.contains_singleton.1 contains, List.singleton_append]
      · intro whole
        exact ⟨[c], cs, .chars (CharClass.contains_singleton.2 rfl), ih.2 rfl, whole⟩

theorem matches_text (t : String) : Matches (.text t) t.toList := matches_text_iff.2 rfl

theorem nullable_iff : r.nullable = true ↔ Matches r [] := by
  induction r with
  | empty | epsilon => simp [nullable]
  | chars k => simp [nullable, matches_chars]
  | seq r s ihr ihs =>
      simp only [nullable, Bool.and_eq_true, ihr, ihs, matches_seq]
      constructor
      · intro ⟨first, second⟩
        exact ⟨[], [], first, second, rfl⟩
      · intro ⟨u, v, first, second, whole⟩
        obtain ⟨rfl, rfl⟩ := List.append_eq_nil_iff.1 whole.symm
        exact ⟨first, second⟩
  | alt r s ihr ihs => simp [nullable, ihr, ihs]
  | star r _ => simp [nullable, Matches.starNil]

theorem matches_mkSeq : Matches (mkSeq r s) w ↔ Matches (.seq r s) w := by
  unfold mkSeq
  split
  · simp [matches_seq]
  · simp [matches_seq]
  · rfl

theorem matches_mkAlt : Matches (mkAlt r s) w ↔ Matches (.alt r s) w := by
  unfold mkAlt
  split <;> simp

theorem matches_derive : Matches (derive c r) w ↔ Matches r (c :: w) := by
  induction r generalizing w with
  | empty => simp [derive]
  | epsilon => simp [derive]
  | chars k =>
      by_cases contains : k.contains c = true
      · simp [derive, contains]
      · simp [derive, contains]
  | seq r s ihr ihs =>
      have first : Matches (.seq (derive c r) s) w ↔
          ∃ u v, Matches r (c :: u) ∧ Matches s v ∧ w = u ++ v := by
        simp only [matches_seq, ihr]
      have split : Matches (.seq r s) (c :: w) ↔
          (∃ u v, Matches r (c :: u) ∧ Matches s v ∧ w = u ++ v) ∨
            Matches r [] ∧ Matches s (c :: w) := by
        rw [matches_seq]
        constructor
        · rintro ⟨u, v, matched, rest, whole⟩
          cases u with
          | nil =>
              cases whole
              exact .inr ⟨matched, rest⟩
          | cons d u =>
              cases whole
              exact .inl ⟨u, v, matched, rest, rfl⟩
        · rintro (⟨u, v, matched, rest, rfl⟩ | ⟨empty, rest⟩)
          · exact ⟨c :: u, v, matched, rest, rfl⟩
          · exact ⟨[], c :: w, empty, rest, rfl⟩
      by_cases nullable : r.nullable = true
      · simp [derive, nullable, matches_mkAlt, matches_mkSeq, first, split, ihs, ← nullable_iff]
      · simp [derive, nullable, matches_mkSeq, first, split, ← nullable_iff]
  | alt r s ihr ihs => simp [derive, matches_mkAlt, ihr, ihs]
  | star r ih =>
      simp only [derive, matches_mkSeq, matches_seq, ih, matches_star_cons]

/-! ## Longest matches -/

structure Longest (r : Regex) (input : List Char) (n : Nat) : Prop where
  le : n ≤ input.length
  matched : r.Matches (input.take n)
  maximal : ∀ u, u <+: input → r.Matches u → u.length ≤ n

theorem Longest.unique {input : List Char} {m n : Nat} (first : r.Longest input m)
    (second : r.Longest input n) : m = n := by
  have le := second.maximal _ (List.take_prefix m input) first.matched
  have ge := first.maximal _ (List.take_prefix n input) second.matched
  rw [List.length_take_of_le first.le] at le
  rw [List.length_take_of_le second.le] at ge
  omega

theorem isEmpty_iff : r.isEmpty = true ↔ r = .empty := by
  cases r <;> simp [isEmpty]

/-- The best match of all the text, or the best one before it if it has none. -/
theorem longestFrom_cases (best : Option Nat) (k : Nat) (r : Regex) (input : List Char) :
    (∃ n, r.Longest input n ∧ longestFrom best k r input = some (k + n)) ∨
      (∀ u, u <+: input → ¬ r.Matches u) ∧ longestFrom best k r input = best := by
  induction input generalizing best k r with
  | nil =>
      by_cases nullable : r.nullable = true
      · refine .inl ⟨0, ⟨Nat.le_refl 0, nullable_iff.1 nullable, ?_⟩, by simp [longestFrom, nullable]⟩
        intro u below _
        simpa using below.length_le
      · refine .inr ⟨?_, by simp [longestFrom, nullable]⟩
        intro u below matched
        rw [List.prefix_nil.1 below] at matched
        exact nullable (nullable_iff.2 matched)
  | cons c input ih =>
      by_cases empty : r.isEmpty = true
      · refine .inr ⟨?_, by simp [longestFrom, empty]⟩
        rw [isEmpty_iff.1 empty]
        exact fun u _ => not_matches_empty
      · have step : longestFrom best k r (c :: input) =
            longestFrom (if r.nullable then some k else best) (k + 1) (derive c r) input := by
          simp [longestFrom, empty]
        rcases ih (if r.nullable then some k else best) (k + 1) (derive c r) with
          ⟨n, longest, found⟩ | ⟨none, found⟩
        · refine .inl ⟨n + 1, ⟨?_, ?_, ?_⟩, ?_⟩
          · simpa using longest.le
          · exact matches_derive.1 longest.matched
          · intro u below matched
            rcases List.prefix_cons_iff.1 below with rfl | ⟨v, rfl, rest⟩
            · simp
            · simpa using longest.maximal v rest (matches_derive.2 matched)
          · rw [step, found]
            congr 1
            omega
        · have short : ∀ u, u <+: c :: input → r.Matches u → u = [] := by
            intro u below matched
            rcases List.prefix_cons_iff.1 below with rfl | ⟨v, rfl, rest⟩
            · rfl
            · exact absurd (matches_derive.2 matched) (none v rest)
          by_cases nullable : r.nullable = true
          · refine .inl ⟨0, ⟨Nat.zero_le _, nullable_iff.1 nullable, ?_⟩, ?_⟩
            · intro u below matched
              simp [short u below matched]
            · rw [step, found, if_pos nullable, Nat.add_zero]
          · refine .inr ⟨?_, by rw [step, found, if_neg nullable]⟩
            intro u below matched
            rw [short u below matched] at matched
            exact nullable (nullable_iff.2 matched)

theorem longest?_eq_some_iff {input : List Char} {n : Nat} :
    r.longest? input = some n ↔ r.Longest input n := by
  rcases longestFrom_cases none 0 r input with ⟨m, longest, found⟩ | ⟨none, found⟩
  · rw [longest?, found, Nat.zero_add, Option.some.injEq]
    constructor
    · rintro rfl
      exact longest
    · exact longest.unique
  · rw [longest?, found]
    constructor
    · nofun
    · intro longest
      exact absurd longest.matched (none _ (List.take_prefix n input))

theorem longest?_eq_none_iff {input : List Char} :
    r.longest? input = none ↔ ∀ u, u <+: input → ¬ r.Matches u := by
  rcases longestFrom_cases none 0 r input with ⟨n, longest, found⟩ | ⟨none, found⟩
  · rw [longest?, found]
    constructor
    · nofun
    · intro none
      exact absurd longest.matched (none _ (List.take_prefix n input))
  · rw [longest?, found]
    exact ⟨fun _ => none, fun _ => rfl⟩

theorem prefix_append_cons_iff {rest : List Char} (stops : ¬ t ++ [c] <+: u) :
    u <+: t ++ c :: rest ↔ u <+: t := by
  constructor
  · intro below
    rcases List.prefix_or_prefix_of_prefix below (List.prefix_append t _) with short | ⟨more, rfl⟩
    · exact short
    · have rest' := (List.prefix_append_right_inj t).1 below
      rcases List.prefix_cons_iff.1 rest' with rfl | ⟨more, rfl, _⟩
      · simp
      · refine absurd ⟨more, ?_⟩ stops
        simp
  · intro below
    exact below.trans (List.prefix_append t _)

/-- A match stays the longest one if no text of the language goes on with the character that follows. -/
theorem longest?_append {rest : List Char} (stops : ∀ w, r.Matches w → ¬ t ++ [c] <+: w) :
    r.longest? (t ++ c :: rest) = r.longest? t := by
  apply Option.ext
  intro n
  rw [longest?_eq_some_iff, longest?_eq_some_iff]
  constructor
  · intro longest
    have below := (prefix_append_cons_iff (stops _ longest.matched)).1 (List.take_prefix n _)
    have le : n ≤ t.length := by
      have length := below.length_le
      rwa [List.length_take_of_le longest.le] at length
    refine ⟨le, ?_, fun u below matched => ?_⟩
    · rw [← List.take_append_of_le_length le]
      exact longest.matched
    · exact longest.maximal u (below.trans (List.prefix_append t _)) matched
  · intro longest
    refine ⟨?_, ?_, fun u below matched => ?_⟩
    · rw [List.length_append]
      exact Nat.le_add_right_of_le longest.le
    · rw [List.take_append_of_le_length longest.le]
      exact longest.matched
    · exact longest.maximal u ((prefix_append_cons_iff (stops u matched)).1 below) matched

/-! ## Characters of a language -/

/-- No class of the expression has the character. -/
def avoids (c : Char) : Regex → Bool
  | .empty => true
  | .epsilon => true
  | .chars k => !k.contains c
  | .seq r s => avoids c r && avoids c s
  | .alt r s => avoids c r && avoids c s
  | .star r => avoids c r

/-- The classes that the first character of a text of the language may be taken from. -/
def firsts : Regex → List CharClass
  | .empty => []
  | .epsilon => []
  | .chars k => [k]
  | .seq r s => r.firsts ++ if r.nullable then s.firsts else []
  | .alt r s => r.firsts ++ s.firsts
  | .star r => r.firsts

def starts (c : Char) (r : Regex) : Bool := r.firsts.any (·.contains c)

theorem not_mem_of_avoids (avoids : r.avoids c = true) (matched : r.Matches w) : c ∉ w := by
  induction matched with
  | epsilon | starNil => simp
  | @chars k d contains =>
      simp only [Regex.avoids, Bool.not_eq_true'] at avoids
      intro member
      rw [List.mem_singleton.1 member, contains] at avoids
      cases avoids
  | seq _ _ ihr ihs =>
      simp only [Regex.avoids, Bool.and_eq_true] at avoids
      simp [ihr avoids.1, ihs avoids.2]
  | altLeft _ ih =>
      simp only [Regex.avoids, Bool.and_eq_true] at avoids
      exact ih avoids.1
  | altRight _ ih =>
      simp only [Regex.avoids, Bool.and_eq_true] at avoids
      exact ih avoids.2
  | starCons _ _ ihr ihs => simp [ihr avoids, ihs avoids]

theorem starts_of_matches (matched : r.Matches (c :: w)) : r.starts c = true := by
  induction r generalizing w with
  | empty => simp at matched
  | epsilon => simp at matched
  | chars k =>
      rw [matches_chars_cons] at matched
      simp [starts, firsts, matched.1]
  | seq r s ihr ihs =>
      obtain ⟨u, v, first, second, whole⟩ := matches_seq.1 matched
      cases u with
      | nil =>
          cases whole
          rw [starts, firsts, if_pos (nullable_iff.2 first), List.any_append, Bool.or_eq_true]
          exact .inr (ihs second)
      | cons d u =>
          cases whole
          rw [starts, firsts, List.any_append, Bool.or_eq_true]
          exact .inl (ihr first)
  | alt r s ihr ihs =>
      rw [matches_alt] at matched
      rw [starts, firsts, List.any_append, Bool.or_eq_true]
      exact matched.imp ihr ihs
  | star r ih =>
      obtain ⟨u, v, first, _, _⟩ := matches_star_cons.1 matched
      exact ih first

/-! ## Prefix-free languages -/

def PrefixFree (r : Regex) : Prop := ∀ t w, r.Matches t → r.Matches w → t <+: w → t = w

namespace PrefixFree

theorem epsilon : PrefixFree .epsilon := by
  intro t w matched matched' _
  rw [matches_epsilon.1 matched, matches_epsilon.1 matched']

theorem chars : PrefixFree (.chars k) := by
  intro t w matched matched' below
  obtain ⟨c, _, rfl⟩ := matches_chars.1 matched
  obtain ⟨d, _, rfl⟩ := matches_chars.1 matched'
  simpa using below

theorem append_eq (free : r.PrefixFree) (first : r.Matches t) (second : r.Matches u)
    (below : t ++ v <+: u ++ w) : t = u ∧ v <+: w := by
  have same : t = u := by
    have shorter := (List.prefix_append t v).trans below
    rcases List.prefix_or_prefix_of_prefix shorter (List.prefix_append u w) with below | above
    · exact free t u first second below
    · exact (free u t second first above).symm
  subst same
  exact ⟨rfl, (List.prefix_append_right_inj t).1 below⟩

theorem seq (first : r.PrefixFree) (second : s.PrefixFree) : PrefixFree (.seq r s) := by
  intro t w matched matched' below
  obtain ⟨t₁, t₂, matched₁, matched₂, rfl⟩ := matches_seq.1 matched
  obtain ⟨w₁, w₂, matched₁', matched₂', rfl⟩ := matches_seq.1 matched'
  obtain ⟨rfl, rest⟩ := first.append_eq matched₁ matched₁' below
  rw [second _ _ matched₂ matched₂' rest]

theorem text (t : String) : PrefixFree (.text t) := by
  unfold Regex.text
  induction t.toList with
  | nil => exact epsilon
  | cons c cs ih => exact chars.seq ih

/-- The two alternatives are told apart by their first characters. -/
theorem alt (first : r.PrefixFree) (second : s.PrefixFree) (apart : ∀ c, s.starts c → r.starts c = false)
    (nonempty : r.nullable = false) (nonempty' : s.nullable = false) : PrefixFree (.alt r s) := by
  have differ : ∀ t w, r.Matches t → s.Matches w → ¬ t <+: w ∧ ¬ w <+: t := by
    intro t w matched matched'
    cases t with
    | nil => rw [nullable_iff.2 matched] at nonempty; cases nonempty
    | cons c t =>
        cases w with
        | nil => rw [nullable_iff.2 matched'] at nonempty'; cases nonempty'
        | cons d w =>
            have starts := starts_of_matches matched
            have starts' := starts_of_matches matched'
            have other : c ≠ d := by
              rintro rfl
              rw [apart c starts'] at starts
              cases starts
            simp [other, Ne.symm other]
  intro t w matched matched' below
  rcases matches_alt.1 matched with left | right <;> rcases matches_alt.1 matched' with left' | right'
  · exact first t w left left' below
  · exact absurd below (differ t w left right').1
  · exact absurd below (differ w t left' right).2
  · exact second t w right right' below

/-- Repetitions that end where a text starts that no repeated one starts like. -/
theorem star (item : r.PrefixFree) (close : s.PrefixFree) (apart : ∀ c, s.starts c → r.starts c = false)
    (nonempty : s.nullable = false) : PrefixFree (.seq (.star r) s) := by
  have clash : ∀ {c u v}, Matches (.star r) (c :: u) → ¬ s.Matches (c :: v) := by
    intro c u v items ending
    have notItem := apart c (starts_of_matches ending)
    have isItem : r.starts c = true := starts_of_matches (r := .star r) items
    rw [isItem] at notItem
    cases notItem
  intro t w matched matched' below
  obtain ⟨t₁, t₂, items, ending, rfl⟩ := matches_seq.1 matched
  obtain ⟨w₁, w₂, items', ending', rfl⟩ := matches_seq.1 matched'
  clear matched matched'
  induction size : t₁.length using Nat.strongRecOn generalizing t₁ w₁ with
  | ind size ih =>
      subst size
      cases t₁ with
      | nil =>
          cases w₁ with
          | nil => rw [close t₂ w₂ ending ending' below]
          | cons c w₁ =>
              cases t₂ with
              | nil => rw [nullable_iff.2 ending] at nonempty; cases nonempty
              | cons d t₂ =>
                  obtain ⟨rfl, _⟩ := List.cons_prefix_cons.1 below
                  exact absurd ending (clash items')
      | cons c t₁ =>
          cases w₁ with
          | nil =>
              cases w₂ with
              | nil => cases List.prefix_nil.1 below
              | cons d w₂ =>
                  obtain ⟨rfl, _⟩ := List.cons_prefix_cons.1 below
                  exact absurd ending' (clash items)
          | cons d w₁ =>
              obtain ⟨u, v, first, rest, rfl⟩ := matches_star_cons.1 items
              obtain ⟨u', v', first', rest', rfl⟩ := matches_star_cons.1 items'
              have below' : (c :: u) ++ (v ++ t₂) <+: (d :: u') ++ (v' ++ w₂) := by simpa using below
              obtain ⟨same, below''⟩ := item.append_eq first first' below'
              have shorter : v.length < (c :: (u ++ v)).length := by
                rw [List.length_cons, List.length_append]
                omega
              have others := ih v.length shorter v rest v' rest' below'' rfl
              have whole : (c :: u) ++ (v ++ t₂) = (d :: u') ++ (v' ++ w₂) := by rw [same, others]
              simpa using whole

end PrefixFree

end Regex

end StoreScheme
