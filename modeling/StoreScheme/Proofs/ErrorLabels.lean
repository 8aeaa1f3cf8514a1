import StoreScheme.Proofs.Expr.Failures
import StoreScheme.Proofs.Tree.ErrorPlaces
import StoreScheme.Repl

/-!
# Labels of errors

The labels of a source that can not be read can always be drawn.  They stand at lexemes, or from one lexeme
to another; the only empty one is at the end of the source and is widened there.  Whatever labels there are,
those to be drawn come one after the other, and what is left out for an error overlaps another one.

* `Span.Cuts`: places of a source that are not empty and lie between characters
* `errorLabels_placed`: the places of the errors in a source
* `Repl.InOrder`: labels that can be drawn
* `Repl.keepDisjoint_cons`: what becomes of one label
* `Repl.keepDisjoint_inOrder`, `Repl.mem_keepDisjoint`, `Repl.keepDisjoint_meets`: what becomes of all
* `Repl.error_labels_drawable`: labels of errors, and of anything
-/

namespace StoreScheme

/-! ## Places in a source -/

structure Span.Cuts (source : String) (span : Span) : Prop where
  nonempty : span.start < span.stop
  within : span.stop ≤ source.utf8ByteSize
  start : Bytes.isBoundary span.start source.toList = true
  stop : Bytes.isBoundary span.stop source.toList = true

/-- Two places have a byte in common. -/
def Span.Meets (a b : Span) : Prop := a.start < b.stop ∧ b.start < a.stop

section
variable {source : String} {l : Lexeme} {s : Session} {e : SourceError}

theorem Lexeme.split (member : l ∈ lex source) :
    ∃ before text after, source.toList = before ++ (text ++ after) ∧ l.text = String.ofList text ∧
      l.start = Bytes.size before ∧ l.stop = Bytes.size (before ++ text) := by
  obtain ⟨before, text, after, whole, own, start⟩ := (lex_tiling source).cut member
  rw [Nat.zero_add] at start
  refine ⟨before, text, after, whole, own, start, ?_⟩
  rw [Tiling.stop_eq own, start, Bytes.size_append]

theorem Lexeme.cuts (member : l ∈ lex source) : l.span.Cuts source := by
  obtain ⟨before, text, after, whole, -, start, stop⟩ := Lexeme.split member
  refine ⟨(lex_tiling source).forall_start_lt_stop l member, stop_le_of_mem_lex member, ?_, ?_⟩
  · change Bytes.isBoundary l.start _ = true
    rw [start, whole]
    exact Bytes.isBoundary_append _ _
  · change Bytes.isBoundary l.stop _ = true
    rw [stop, whole, ← List.append_assoc]
    exact Bytes.isBoundary_append _ _

theorem lex_pairwise_cuts (source : String) :
    (lex source).Pairwise fun l m => Span.Cuts source ⟨l.start, m.stop⟩ := by
  refine (lex_tiling source).stops_increase.imp_of_mem fun {l m} first second less => ?_
  have cutsFirst := Lexeme.cuts first
  have cutsSecond := Lexeme.cuts second
  exact ⟨Nat.lt_trans cutsFirst.nonempty less, cutsSecond.within, cutsFirst.start, cutsSecond.stop⟩

/-! ## Places of errors -/

/-- A source is not read because of its parse errors, or because of a form if it has none. -/
inductive Unread (source : String) : SourceError → Prop
  | parse : (parse source).errors ≠ [] → Unread source (.parse (parse source).errors)
  | form {folds : Bool} {fresh : Identity} {e : SyntaxError} : (parse source).isOk = true →
    (Form.ofTree folds (parse source).tree).run fresh = .error e → Unread source (.form e)

theorem Session.unread (failed : (s.read source).1 = .error e) : Unread source e := by
  have refused : readForms s.options.foldCase s.memory.fresh source = .error e := by
    unfold Session.read at failed
    split at failed
    · cases failed
    · cases failed
      assumption
  unfold readForms at refused
  dsimp only at refused
  split at refused
  · rename_i ok
    split at refused
    · cases refused
    · cases refused
      exact .form ok ‹_›
  · rename_i errors
    cases refused
    exact .parse (by simpa using errors)

open Repl in
theorem errorLabels_placed (unread : Unread source e) : ∀ label ∈ errorLabels e,
    label.1.Cuts source ∨ EndsInQuote source ∧ label.1 = ⟨source.utf8ByteSize, source.utf8ByteSize⟩ := by
  cases unread with
  | parse _ =>
      refine List.forall_mem_map.2 fun e member => ?_
      refine (parse_errors_placed source e member).imp_left ?_
      rintro ⟨l, kept, place⟩
      rw [← place]
      exact Lexeme.cuts (List.mem_of_mem_filter kept)
  | @form folds _ _ ok failed =>
      have places := Form.ofTree_failsAt ok folds (fun _ => Lexeme.cuts) (lex_pairwise_cuts source)
      exact List.forall_mem_singleton.2 (.inl (places _ _ failed).1)

open Repl in
theorem errorLabels_ne_nil (unread : Unread source e) : errorLabels e ≠ [] := by
  cases unread with
  | parse errors => simpa [errorLabels] using errors
  | form _ _ => simp [errorLabels]

theorem EndsInQuote.size_pos (ends : EndsInQuote source) : 0 < source.utf8ByteSize := by
  obtain ⟨q, last, -⟩ := ends
  have cuts := Lexeme.cuts (List.mem_of_mem_filter (List.mem_of_getLast? last))
  exact Nat.lt_of_lt_of_le (Nat.zero_lt_of_lt cuts.nonempty) cuts.within

end

/-! ## Labels to be drawn -/

namespace Repl

abbrev Labels := List (Span × String)

/-- The place where a label is drawn: an empty one is widened by the byte before it. -/
def widened? (span : Span) : Option Span :=
  if span.isEmpty then
    if span.start = 0 then none else some ⟨span.start - 1, span.stop⟩
  else some span

/-- Labels that can be drawn in a source of some size. -/
structure InOrder (size : Nat) (labels : Labels) : Prop where
  sorted : labels.Pairwise fun a b => a.1.start ≤ b.1.start
  disjoint : labels.Pairwise fun a b => a.1.stop ≤ b.1.start
  nonempty : ∀ label ∈ labels, label.1.start < label.1.stop
  within : ∀ label ∈ labels, label.1.stop ≤ size

section
variable {size stop : Nat} {span shown : Span} {label drawn : Span × String} {labels : Labels}

theorem widened?_cases (shows : widened? span = some shown) :
    span.start < span.stop ∧ shown = span ∨
      span.stop ≤ span.start ∧ 0 < span.start ∧ shown = ⟨span.start - 1, span.stop⟩ := by
  unfold widened? at shows
  split at shows
  · rename_i empty
    split at shows
    · cases shows
    · cases shows
      exact .inr ⟨by simpa [Span.isEmpty] using empty, by omega, rfl⟩
  · rename_i nonempty
    cases shows
    exact .inl ⟨by simpa [Span.isEmpty] using nonempty, rfl⟩

theorem widened?_eq_self (nonempty : span.start < span.stop) : widened? span = some span :=
  if_neg (by simpa [Span.isEmpty] using nonempty)

theorem widened?_at_end (positive : 0 < size) : widened? ⟨size, size⟩ = some ⟨size - 1, size⟩ := by
  simp [widened?, Span.isEmpty, Nat.ne_of_gt positive]

theorem start_lt_stop_of_widened? (forward : span.start ≤ span.stop) (shows : widened? span = some shown) :
    shown.start < shown.stop := by
  obtain ⟨nonempty, rfl⟩ | ⟨-, positive, rfl⟩ := widened?_cases shows
  · exact nonempty
  · exact Nat.lt_of_lt_of_le (Nat.sub_lt positive Nat.one_pos) forward

theorem start_le_of_widened? (shows : widened? span = some shown) : shown.start ≤ span.start := by
  obtain ⟨-, rfl⟩ | ⟨-, -, rfl⟩ := widened?_cases shows
  · exact Nat.le_refl _
  · exact Nat.sub_le _ _

theorem stop_of_widened? (shows : widened? span = some shown) : shown.stop = span.stop := by
  obtain ⟨-, rfl⟩ | ⟨-, -, rfl⟩ := widened?_cases shows <;> rfl

/-- A label is drawn where it fits behind the labels before it, or left out. -/
theorem keepDisjoint_cons (size stop : Nat) (label : Span × String) (rest : Labels) :
    (∃ shown, widened? label.1 = some shown ∧ stop ≤ shown.start ∧ shown.stop ≤ size ∧
      keepDisjoint size stop (label :: rest) = (shown, label.2) :: keepDisjoint size shown.stop rest) ∨
    ((∀ shown, widened? label.1 = some shown → shown.stop ≤ size → shown.start < stop) ∧
      keepDisjoint size stop (label :: rest) = keepDisjoint size stop rest) := by
  obtain ⟨span, text⟩ := label
  cases shows : widened? span with
  | none =>
      refine .inr ⟨nofun, ?_⟩
      rw [widened?] at shows
      simp only [keepDisjoint, shows]
  | some shown =>
      have unfolds : keepDisjoint size stop ((span, text) :: rest) =
          if stop ≤ shown.start ∧ shown.stop ≤ size then (shown, text) :: keepDisjoint size shown.stop rest
          else keepDisjoint size stop rest := by
        rw [widened?] at shows
        simp only [keepDisjoint, shows]
      by_cases fits : stop ≤ shown.start ∧ shown.stop ≤ size
      · exact .inl ⟨shown, rfl, fits.1, fits.2, unfolds.trans (if_pos fits)⟩
      · refine .inr ⟨?_, unfolds.trans (if_neg fits)⟩
        rintro _ ⟨⟩ within
        exact Nat.lt_of_not_le fun start => fits ⟨start, within⟩

theorem mem_keepDisjoint (member : drawn ∈ keepDisjoint size stop labels) :
    ∃ label ∈ labels, widened? label.1 = some drawn.1 ∧ label.2 = drawn.2 := by
  induction labels generalizing stop with
  | nil => cases member
  | cons first rest ih =>
      obtain ⟨shown, shows, -, -, kept⟩ | ⟨-, dropped⟩ := keepDisjoint_cons size stop first rest
      · rw [kept] at member
        obtain rfl | member := List.mem_cons.1 member
        · exact ⟨first, List.mem_cons_self, shows, rfl⟩
        · obtain ⟨label, origin, same⟩ := ih member
          exact ⟨label, List.mem_cons_of_mem _ origin, same⟩
      · rw [dropped] at member
        obtain ⟨label, origin, same⟩ := ih member
        exact ⟨label, List.mem_cons_of_mem _ origin, same⟩

theorem InOrder.cons (behind : ∀ next ∈ labels, drawn.1.stop ≤ next.1.start)
    (nonempty : drawn.1.start < drawn.1.stop) (within : drawn.1.stop ≤ size)
    (order : InOrder size labels) : InOrder size (drawn :: labels) where
  sorted := List.pairwise_cons.2
    ⟨fun next member => Nat.le_trans (Nat.le_of_lt nonempty) (behind next member), order.sorted⟩
  disjoint := List.pairwise_cons.2 ⟨behind, order.disjoint⟩
  nonempty := List.forall_mem_cons.2 ⟨nonempty, order.nonempty⟩
  within := List.forall_mem_cons.2 ⟨within, order.within⟩

theorem keepDisjoint_inOrder (stop : Nat) (forward : ∀ label ∈ labels, label.1.start ≤ label.1.stop) :
    (∀ drawn ∈ keepDisjoint size stop labels, stop ≤ drawn.1.start) ∧
      InOrder size (keepDisjoint size stop labels) := by
  induction labels generalizing stop with
  | nil => exact ⟨nofun, .nil, .nil, nofun, nofun⟩
  | cons first rest ih =>
      obtain ⟨first_forward, rest_forward⟩ := List.forall_mem_cons.1 forward
      obtain ⟨shown, shows, start, within, kept⟩ | ⟨-, dropped⟩ := keepDisjoint_cons size stop first rest
      · have nonempty := start_lt_stop_of_widened? first_forward shows
        obtain ⟨behind, order⟩ := ih shown.stop rest_forward
        rw [kept]
        refine ⟨List.forall_mem_cons.2 ⟨start, fun drawn member => ?_⟩, order.cons behind nonempty within⟩
        -- No label ends before it starts, so the place from which on labels are kept only moves on.
        exact Nat.le_trans start (Nat.le_trans (Nat.le_of_lt nonempty) (behind drawn member))
      · rw [dropped]
        exact ih stop rest_forward

/-- A label that is left out, though it fits into the source, meets one that is drawn. -/
theorem keepDisjoint_meets (stop : Nat) (forward : ∀ label ∈ labels, label.1.start ≤ label.1.stop)
    (sorted : labels.Pairwise fun a b => a.1.start ≤ b.1.start) (member : label ∈ labels)
    (shows : widened? label.1 = some shown) (within : shown.stop ≤ size)
    (place : label.1.start < label.1.stop ∨ label.1.stop = size) :
    shown.start < stop ∨ ∃ drawn ∈ keepDisjoint size stop labels, drawn.1.Meets shown := by
  induction labels generalizing stop with
  | nil => cases member
  | cons first rest ih =>
      obtain ⟨first_forward, rest_forward⟩ := List.forall_mem_cons.1 forward
      obtain ⟨first_le, rest_sorted⟩ := List.pairwise_cons.1 sorted
      obtain ⟨seen, seen_shows, start, seen_within, kept⟩ | ⟨short, dropped⟩ :=
        keepDisjoint_cons size stop first rest
      · have nonempty := start_lt_stop_of_widened? first_forward seen_shows
        rw [kept]
        refine .inr ?_
        obtain rfl | member := List.mem_cons.1 member
        · cases shows.symm.trans seen_shows
          exact ⟨_, List.mem_cons_self, nonempty, nonempty⟩
        · obtain overlaps | ⟨drawn, later, meets⟩ := ih seen.stop rest_forward rest_sorted member
          · refine ⟨_, List.mem_cons_self, ?_, overlaps⟩
            change seen.start < shown.stop
            -- An empty label could be displaced by one that starts where it stands, but not at the end.
            have before := Nat.le_trans (start_le_of_widened? seen_shows) (first_le label member)
            have ends := stop_of_widened? shows
            omega
          · exact ⟨drawn, List.mem_cons_of_mem _ later, meets⟩
      · rw [dropped]
        obtain rfl | member := List.mem_cons.1 member
        · exact .inl (short shown shows within)
        · exact ih stop rest_forward rest_sorted member

end

/-! ## Labels of a source -/

section
variable {source : String} {e : SourceError} {label : Span × String} {labels : Labels}

theorem drawable_inOrder (source : String) (forward : ∀ label ∈ labels, label.1.start ≤ label.1.stop) :
    InOrder source.utf8ByteSize (drawable source labels) :=
  (keepDisjoint_inOrder 0 fun label member => forward label (List.mem_mergeSort.1 member)).2

theorem mem_drawable {drawn : Span × String} (member : drawn ∈ drawable source labels) :
    ∃ label ∈ labels, widened? label.1 = some drawn.1 ∧ label.2 = drawn.2 := by
  obtain ⟨label, origin, same⟩ := mem_keepDisjoint member
  exact ⟨label, List.mem_mergeSort.1 origin, same⟩

theorem mergeSort_sorted (labels : Labels) :
    (labels.mergeSort fun a b => a.1.start ≤ b.1.start).Pairwise fun a b => a.1.start ≤ b.1.start := by
  refine (List.pairwise_mergeSort (fun a b c first second => ?_) (fun a b => ?_) labels).imp of_decide_eq_true
  · exact decide_eq_true (Nat.le_trans (of_decide_eq_true first) (of_decide_eq_true second))
  · simpa using Nat.le_total a.1.start b.1.start

theorem errorLabels_forward (unread : Unread source e) :
    ∀ label ∈ errorLabels e, label.1.start ≤ label.1.stop := by
  intro label member
  obtain cuts | ⟨-, place⟩ := errorLabels_placed unread label member
  · exact Nat.le_of_lt cuts.nonempty
  · exact place ▸ Nat.le_refl _

theorem drawable_meets (unread : Unread source e) (member : label ∈ errorLabels e) :
    ∃ shown, widened? label.1 = some shown ∧
      ∃ drawn ∈ drawable source (errorLabels e), drawn.1.Meets shown := by
  obtain ⟨shown, shows, within, place⟩ : ∃ shown, widened? label.1 = some shown ∧
      shown.stop ≤ source.utf8ByteSize ∧
      (label.1.start < label.1.stop ∨ label.1.stop = source.utf8ByteSize) := by
    obtain cuts | ⟨ends, place⟩ := errorLabels_placed unread label member
    · exact ⟨_, widened?_eq_self cuts.nonempty, cuts.within, .inl cuts.nonempty⟩
    · rw [place]
      exact ⟨_, widened?_at_end ends.size_pos, Nat.le_refl _, .inr rfl⟩
  have forward : ∀ label ∈ (errorLabels e).mergeSort fun a b => a.1.start ≤ b.1.start,
      label.1.start ≤ label.1.stop :=
    fun label member => errorLabels_forward unread label (List.mem_mergeSort.1 member)
  have meets := keepDisjoint_meets 0 forward (mergeSort_sorted _) (List.mem_mergeSort.2 member)
    shows within place
  exact ⟨shown, shows, meets.resolve_left (Nat.not_lt_zero _)⟩

theorem drawable_ne_nil (unread : Unread source e) : drawable source (errorLabels e) ≠ [] := by
  obtain ⟨label, member⟩ := List.exists_mem_of_ne_nil _ (errorLabels_ne_nil unread)
  obtain ⟨-, -, drawn, drawn_member, -⟩ := drawable_meets unread member
  exact List.ne_nil_of_mem drawn_member

end

/-- The labels of a source that can not be read are drawn in order, at least one of them, and each error
is met by one of them.  Whatever labels are asked for, those that are drawn stand in order within the
source, each at the place of a label with its text. -/
theorem error_labels_drawable (source : String) :
    (∀ (s : Session) (e : SourceError), (s.read source).1 = .error e →
      drawable source (errorLabels e) ≠ [] ∧
      InOrder source.utf8ByteSize (drawable source (errorLabels e)) ∧
      ∀ label ∈ errorLabels e, ∃ shown, widened? label.1 = some shown ∧
        ∃ drawn ∈ drawable source (errorLabels e), drawn.1.Meets shown) ∧
    ∀ labels : Labels, (∀ label ∈ labels, label.1.start ≤ label.1.stop) →
      InOrder source.utf8ByteSize (drawable source labels) ∧
      ∀ drawn ∈ drawable source labels,
        ∃ label ∈ labels, widened? label.1 = some drawn.1 ∧ label.2 = drawn.2 := by
  refine ⟨fun s e failed => ?_, fun labels forward => ⟨drawable_inOrder source forward, fun _ => mem_drawable⟩⟩
  have unread := Session.unread failed
  exact ⟨drawable_ne_nil unread, drawable_inOrder source (errorLabels_forward unread),
    fun _ => drawable_meets unread⟩

/-- The errors are found in another order than that of their places, and one of them is empty. -/
theorem error_labels_drawable_out_of_order :
    ∃ errors : List ParseError, errors.map (·.span) = [⟨5, 5⟩, ⟨0, 1⟩, ⟨2, 3⟩] ∧
      (({} : Session).read "( . '").1 = .error (.parse errors) ∧
      drawable "( . '" (errorLabels (.parse errors)) ≠ [] ∧
      InOrder 5 (drawable "( . '" (errorLabels (.parse errors))) ∧
      InOrder 5 (drawable "( . '" [(⟨4, 6⟩, "c"), (⟨2, 2⟩, "b"), (⟨0, 0⟩, "a")]) := by
  have failed : (({} : Session).read "( . '").1 =
      .error (.parse [⟨⟨5, 5⟩, .danglingQuote⟩, ⟨⟨0, 1⟩, .unclosedList⟩, ⟨⟨2, 3⟩, .misplacedDot⟩]) := by rfl
  obtain ⟨drawn, order, -⟩ := (error_labels_drawable "( . '").1 _ _ failed
  exact ⟨_, by rfl, failed, drawn, order, ((error_labels_drawable "( . '").2 _ (by decide)).1⟩

end Repl

end StoreScheme
