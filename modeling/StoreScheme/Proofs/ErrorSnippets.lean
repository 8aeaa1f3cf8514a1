import StoreScheme.Proofs.ErrorLabels
import StoreScheme.Proofs.Token.Longest

/-!
# Snippets of errors

The labels of an error start and end between characters, so that the source can be cut there, but for one
case: an error at the end of the source is widened by one byte, and the last character may have more.
Every label within a source is on one of its lines, so the report of an error is drawn in all other cases.

* `Span.BetweenCharacters`: places where a source can be cut
* `Snippet.draw?_isSome_iff`: which labels can be drawn
* `SplitsCharacter`: the sources whose last character is cut
* `Repl.drawn_between_characters_iff`: the labels between characters
* `Repl.error_labels_between_characters`: the labels and the report of an error
-/

namespace StoreScheme

/-- A source can be cut at both ends of a place. -/
def Span.BetweenCharacters (source : String) (span : Span) : Prop :=
  Bytes.isBoundary span.start source.toList = true ∧ Bytes.isBoundary span.stop source.toList = true

/-! ## Lines of a source -/

namespace Snippet

variable {source : String} {labels : List Label} {label : Label} {line : SourceLine}

/-- The bytes that lines take, each with one for its end. -/
def extent : List String → Nat
  | [] => 0
  | text :: rest => text.utf8ByteSize + 1 + extent rest

theorem exists_line_at (number start offset : Nat) (texts : List String) (behind : start ≤ offset)
    (before : offset < start + extent texts) :
    ∃ line ∈ numberLines number start texts, line.start ≤ offset ∧ offset ≤ line.stop := by
  induction texts generalizing number start with
  | nil => exact absurd before (Nat.not_lt.2 behind)
  | cons text rest ih =>
      rw [numberLines]
      by_cases on : offset ≤ start + text.utf8ByteSize
      · exact ⟨_, List.mem_cons_self, behind, on⟩
      · rw [extent] at before
        obtain ⟨line, later, place⟩ := ih (number + 1) (start + text.utf8ByteSize + 1) (by omega) (by omega)
        exact ⟨line, List.mem_cons_of_mem _ later, place⟩

theorem extent_splitOn (cs : List Char) :
    extent ((cs.splitOn '\n').map String.ofList) = Bytes.size cs + 1 := by
  induction cs with
  | nil => rfl
  | cons c cs ih =>
      rw [List.splitOn_cons_eq_if_modifyHead]
      split
      · rename_i ends
        rw [List.map_cons, extent, ih, eq_of_beq ends, Bytes.size_cons, ← Nat.add_assoc]
        rfl
      · obtain ⟨piece, rest, pieces⟩ := List.exists_cons_of_ne_nil (List.splitOn_ne_nil '\n' cs)
        rw [pieces, List.map_cons, extent, ← Bytes.size] at ih
        rw [pieces, List.modifyHead_cons, List.map_cons, extent, ← Bytes.size, Bytes.size_cons, Bytes.size_cons]
        omega

theorem touchedLine?_isSome (member : label ∈ labels) (above : label.span.start ≤ line.stop)
    (below : line.start ≤ label.span.stop) : (touchedLine? labels line).isSome = true := by
  have touches : (labels.filter fun l => l.span.start ≤ line.stop && line.start ≤ l.span.stop) ≠ [] := by
    refine List.ne_nil_of_mem (List.mem_filter.2 ⟨member, ?_⟩)
    simp [above, below]
  unfold touchedLine?
  dsimp only
  rw [if_neg (by simpa using touches)]
  split <;> rfl

theorem linesOf_ne_nil (member : label ∈ labels) (forward : label.span.start ≤ label.span.stop)
    (within : label.span.stop ≤ source.utf8ByteSize) : linesOf source labels ≠ [] := by
  have whole := extent_splitOn source.toList
  rw [Bytes.size_toList] at whole
  obtain ⟨line, is_line, below, above⟩ := exists_line_at 1 0 label.span.start
    ((source.toList.splitOn '\n').map String.ofList) (Nat.zero_le _) (by omega)
  obtain ⟨touched, is_touched⟩ :=
    Option.isSome_iff_exists.1 (touchedLine?_isSome member above (Nat.le_trans below forward))
  exact List.ne_nil_of_mem (List.mem_filterMap.2 ⟨line, is_line, is_touched⟩)

theorem canCut_iff : canCut source label = true ↔ label.span.BetweenCharacters source := by
  rw [canCut, Bool.and_eq_true]
  rfl

theorem draw?_isSome_iff (title : String) (member : label ∈ labels)
    (forward : label.span.start ≤ label.span.stop) (within : label.span.stop ≤ source.utf8ByteSize) :
    (draw? title source labels).isSome = true ↔ ∀ l ∈ labels, canCut source l = true := by
  unfold draw?
  dsimp only
  cases last : (linesOf source labels).getLast? with
  | none => exact absurd (List.getLast?_eq_none_iff.1 last) (linesOf_ne_nil member forward within)
  | some line =>
      rw [← List.all_eq_true]
      dsimp only
      split <;> simp_all

end Snippet

/-! ## The end of a source -/

/-- A source that ends in a quote, as far as its lexemes are not trivia, and whose last character has more
than one byte. -/
def SplitsCharacter (source : String) : Prop :=
  EndsInQuote source ∧ ∃ c, source.toList.getLast? = some c ∧ 1 < c.utf8Size

section
variable {source : String} {l : Lexeme} {e : SourceError}

theorem Rule.eq_quote_of_read {r : Rule} {cs : List Char} (read : r.read cs = .ok .quote) : r = .quote := by
  cases r with
  | quote => rfl
  | barIdentifier | string =>
      simp only [Rule.read, Except.map] at read
      split at read <;> cases read
  | integer | pointReal | fractionReal | exponentReal | specialReal =>
      simp only [Rule.read, readInteger, readReal, readSpecialReal] at read
      split at read <;> cases read
  | _ => cases read

theorem Lexeme.text_eq_quote (member : l ∈ lex source) (isQuote : l.result = .ok .quote) :
    l.text.toList = ['\''] := by
  cases Lexeme.origin member with
  | none _ _ invalid => cases invalid.symm.trans isQuote
  | rule best text result =>
      obtain rfl := Rule.eq_quote_of_read (result.symm.trans isQuote)
      rw [text]
      exact Regex.matches_text_iff.1 (Rule.longest_of_best? best).matched

theorem EndsInQuote.getLast?_eq (ends : EndsInQuote source) (kept : l ∈ significant (lex source))
    (stop : l.stop = source.utf8ByteSize) : source.toList.getLast? = some '\'' := by
  obtain ⟨q, last, isQuote⟩ := ends
  obtain ⟨others, split⟩ := List.getLast?_eq_some_iff.1 last
  have q_member : q ∈ lex source := List.mem_of_mem_filter (List.mem_of_getLast? last)
  -- A lexeme before the quote ends before the quote does.
  have same : l = q := by
    rw [split] at kept
    obtain earlier | is_q := List.mem_append.1 kept
    · have increase : (significant (lex source)).Pairwise fun l m => l.stop < m.stop :=
        (lex_tiling source).stops_increase.sublist List.filter_sublist
      rw [split] at increase
      have less := (List.pairwise_append.1 increase).2.2 l earlier q List.mem_cons_self
      have within : q.stop ≤ source.utf8ByteSize := (Lexeme.cuts q_member).within
      omega
    · exact List.mem_singleton.1 is_q
  obtain ⟨before, text, after, whole, own, -, stop'⟩ := Lexeme.split q_member
  have own' : text = ['\''] := by
    rw [← Lexeme.text_eq_quote q_member isQuote, own, String.toList_ofList]
  have rest : Bytes.size after = 0 := by
    rw [← same, stop, ← Bytes.size_toList, whole, ← List.append_assoc, Bytes.size_append (before ++ text)] at stop'
    omega
  rw [whole, own', Bytes.size_eq_zero.1 rest, List.append_nil, List.getLast?_concat]

theorem isBoundary_end (source : String) : Bytes.isBoundary source.utf8ByteSize source.toList = true := by
  have whole := Bytes.isBoundary_append source.toList []
  rwa [List.append_nil, Bytes.size_toList] at whole

theorem isBoundary_last_iff {c : Char} (last : source.toList.getLast? = some c) :
    Bytes.isBoundary (source.utf8ByteSize - 1) source.toList = true ↔ c.utf8Size = 1 := by
  obtain ⟨others, split⟩ := List.getLast?_eq_some_iff.1 last
  rw [← Bytes.size_toList, split]
  exact Bytes.isBoundary_before_last others c

end

/-! ## Labels between characters -/

namespace Repl

section
variable {source : String} {e : SourceError} {drawn : Span × String}

theorem drawn_placed (unread : Unread source e) (member : drawn ∈ drawable source (errorLabels e)) :
    drawn.1.Cuts source ∨
      EndsInQuote source ∧ drawn.1 = ⟨source.utf8ByteSize - 1, source.utf8ByteSize⟩ := by
  obtain ⟨label, origin, shows, -⟩ := mem_drawable member
  obtain cuts | ⟨ends, place⟩ := errorLabels_placed unread label origin
  · rw [widened?_eq_self cuts.nonempty] at shows
    exact .inl (Option.some.inj shows ▸ cuts)
  · rw [place] at shows
    exact .inr ⟨ends, Option.some.inj (shows.symm.trans (widened?_at_end ends.size_pos))⟩

theorem exists_drawn_at_end (unread : Unread source e) (splits : SplitsCharacter source) :
    ∃ drawn ∈ drawable source (errorLabels e),
      drawn.1 = ⟨source.utf8ByteSize - 1, source.utf8ByteSize⟩ := by
  obtain ⟨ends, c, last, wide⟩ := splits
  have dangling := danglingQuote_mem_errors ends
  cases unread with
  | form ok _ =>
      rw [List.isEmpty_iff.1 ok] at dangling
      cases dangling
  | parse errors =>
      obtain ⟨shown, shows, drawn, member, meets⟩ :=
        drawable_meets (.parse errors) (List.mem_map_of_mem dangling)
      cases (widened?_at_end ends.size_pos).symm.trans shows
      obtain ⟨label, origin, drawn_shows, -⟩ := mem_drawable member
      obtain ⟨error, found, rfl⟩ := List.mem_map.1 origin
      refine ⟨drawn, member, ?_⟩
      -- What is drawn there instead would be at a lexeme that reaches up to the end, and only the quote can.
      obtain ⟨l, kept, place⟩ | ⟨-, place⟩ := parse_errors_placed source error found
      · have cuts := Lexeme.cuts (List.mem_of_mem_filter kept)
        rw [← place, widened?_eq_self cuts.nonempty] at drawn_shows
        have stop : l.stop = source.utf8ByteSize := by
          have behind := meets.2
          rw [← Option.some.inj drawn_shows] at behind
          change source.utf8ByteSize - 1 < l.stop at behind
          have within : l.stop ≤ source.utf8ByteSize := cuts.within
          omega
        cases last.symm.trans (ends.getLast?_eq kept stop)
        exact absurd wide (by decide)
      · rw [place] at drawn_shows
        exact Option.some.inj (drawn_shows.symm.trans (widened?_at_end ends.size_pos))

theorem drawn_between_characters_iff (unread : Unread source e) :
    (∀ drawn ∈ drawable source (errorLabels e), drawn.1.BetweenCharacters source) ↔
      ¬ SplitsCharacter source := by
  constructor
  · intro between splits
    obtain ⟨drawn, member, place⟩ := exists_drawn_at_end unread splits
    obtain ⟨-, c, last, wide⟩ := splits
    have start := (between drawn member).1
    rw [place] at start
    rw [isBoundary_last_iff last] at start
    exact Nat.ne_of_gt wide start
  · intro whole drawn member
    obtain cuts | ⟨ends, place⟩ := drawn_placed unread member
    · exact ⟨cuts.start, cuts.stop⟩
    · rw [place]
      refine ⟨?_, isBoundary_end source⟩
      obtain ⟨c, last⟩ : ∃ c, source.toList.getLast? = some c := by
        rw [← Option.isSome_iff_exists, List.getLast?_isSome, ne_eq, ← Bytes.size_eq_zero, Bytes.size_toList]
        exact Nat.ne_of_gt ends.size_pos
      refine (isBoundary_last_iff last).2 ?_
      have narrow : ¬ 1 < c.utf8Size := fun wide => whole ⟨ends, c, last, wide⟩
      have positive := c.utf8Size_pos
      omega

/-- The label that is drawn for an error. -/
def shownLabel (drawn : Span × String) : Label := ⟨drawn.1, paint (some .red) drawn.2, some .red⟩

theorem report_isSome (title source : String) (e : SourceError) :
    (report title source e).result.isSome =
      (Snippet.draw? title source ((drawable source (errorLabels e)).map shownLabel)).isSome := by
  unfold report
  dsimp only
  split
  · rename_i lines drawn
    change Snippet.draw? title source ((drawable source (errorLabels e)).map shownLabel) = some lines at drawn
    rw [drawn]
    rfl
  · rename_i refused
    change Snippet.draw? title source ((drawable source (errorLabels e)).map shownLabel) = none at refused
    rw [refused]
    rfl

theorem report_isSome_iff (title : String) (unread : Unread source e) :
    (report title source e).result.isSome = true ↔
      ∀ drawn ∈ drawable source (errorLabels e), drawn.1.BetweenCharacters source := by
  obtain ⟨drawn, member⟩ := List.exists_mem_of_ne_nil _ (drawable_ne_nil unread)
  have order := drawable_inOrder source (errorLabels_forward unread)
  have shown : shownLabel drawn ∈ (drawable source (errorLabels e)).map shownLabel :=
    List.mem_map_of_mem member
  rw [report_isSome, Snippet.draw?_isSome_iff title shown (Nat.le_of_lt (order.nonempty drawn member))
    (order.within drawn member), List.forall_mem_map]
  exact forall₂_congr fun _ _ => Snippet.canCut_iff

end

/-- The labels of a source that can not be read end between characters.  They start between characters, and
the errors are drawn, exactly if the source does not end in a quote with a wide last character behind it. -/
theorem error_labels_between_characters {source : String} {s : Session} {e : SourceError}
    (failed : (s.read source).1 = .error e) :
    (∀ drawn ∈ drawable source (errorLabels e), Bytes.isBoundary drawn.1.stop source.toList = true) ∧
    ((∀ drawn ∈ drawable source (errorLabels e), drawn.1.BetweenCharacters source) ↔
      ¬ SplitsCharacter source) ∧
    ∀ title, (report title source e).result.isSome = true ↔ ¬ SplitsCharacter source := by
  have unread := Session.unread failed
  have between := drawn_between_characters_iff unread
  refine ⟨fun drawn member => ?_, between, fun title => (report_isSome_iff title unread).trans between⟩
  obtain cuts | ⟨-, place⟩ := drawn_placed unread member
  · exact cuts.stop
  · rw [place]
    exact isBoundary_end source

/-- Wide characters elsewhere do no harm. -/
theorem error_labels_between_characters_narrow_end :
    ∃ errors, (({} : Session).read "(λ . '; é.").1 = .error (.parse errors) ∧
      (∀ drawn ∈ drawable "(λ . '; é." (errorLabels (.parse errors)),
        drawn.1.BetweenCharacters "(λ . '; é.") ∧
      (report "repl" "(λ . '; é." (.parse errors)).result.isSome = true := by
  have failed : (({} : Session).read "(λ . '; é.").1 = .error (.parse [⟨⟨1, 3⟩, .lexer .invalid⟩,
      ⟨⟨12, 12⟩, .danglingQuote⟩, ⟨⟨0, 1⟩, .unclosedList⟩, ⟨⟨4, 5⟩, .misplacedDot⟩]) := by rfl
  have narrow : ¬ SplitsCharacter "(λ . '; é." := by
    rintro ⟨-, c, last, wide⟩
    have is_dot : "(λ . '; é.".toList.getLast? = some '.' := by decide
    cases is_dot.symm.trans last
    exact absurd wide (by decide)
  obtain ⟨-, between, drawn⟩ := error_labels_between_characters failed
  exact ⟨_, failed, between.2 narrow, (drawn "repl").2 narrow⟩

/-- The error is shown at the second byte of the last character, and the run ends there. -/
theorem dangling_quote_before_wide_end :
    ∃ errors, (({} : Session).read "'; é").1 = .error (.parse errors) ∧
      (∃ drawn ∈ drawable "'; é" (errorLabels (.parse errors)),
        drawn.1 = ⟨4, 5⟩ ∧ Bytes.isBoundary 4 "'; é".toList = false) ∧
      (report "repl" "'; é" (.parse errors)).result = none := by
  have failed : (({} : Session).read "'; é").1 = .error (.parse [⟨⟨5, 5⟩, .danglingQuote⟩]) := by rfl
  have drawn : drawable "'; é" (errorLabels (.parse [⟨⟨5, 5⟩, .danglingQuote⟩])) =
      [(⟨4, 5⟩, ParseError.message ⟨⟨5, 5⟩, .danglingQuote⟩)] := by
    rw [drawable, errorLabels, List.map_singleton, List.mergeSort_singleton]
    rfl
  have inside : Bytes.isBoundary 4 "'; é".toList = false := by decide
  refine ⟨_, failed, ⟨_, drawn ▸ List.mem_cons_self, rfl, inside⟩, ?_⟩
  rw [← Option.not_isSome_iff_eq_none, report_isSome_iff "repl" (Session.unread failed), drawn]
  intro between
  cases inside.symm.trans (between _ List.mem_cons_self).1

end Repl

end StoreScheme
