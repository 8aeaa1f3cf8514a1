import StoreScheme.Proofs.Expr.WellFormed
import StoreScheme.Proofs.Trace.Invariant
import StoreScheme.Proofs.Value.Identities

/-!
# Identities of quoted data

Building gives every pair of quoted data an identity of its own.  Put down in a ledger, these identities
stand for just the pairs that they were given to.

* `Build.Mints`: building with the supply of a ledger, which grows with every pair
* `Literal.ofDatum_mints`, `Expr.ofDatum_mints`, `Form.ofData_mints`: what building gives is known
* `readForms_known`: the same for the forms of a source
-/

namespace StoreScheme

namespace Build

variable {α β : Type} {L : Ledger} {K : Ledger → α → Prop} {K' : Ledger → β → Prop}

/-- What holds of a result and of the ledger after it, if there is a result. -/
def Mints (L : Ledger) (K : Ledger → α → Prop) (x : Build α) : Prop :=
  ∀ a next, x.run L.length = .ok (a, next) → ∃ M, L <+: M ∧ M.length = next ∧ K M a

theorem Mints.pure {a : α} (known : K L a) : Mints L K (Pure.pure a : Build α) := by
  intro _ _ run
  cases run
  exact ⟨L, List.prefix_refl L, rfl, known⟩

theorem Mints.fail (span : Span) (kind : SyntaxErrorKind) : Mints L K (Build.fail span kind) := by
  intro _ _ run
  cases run

theorem Mints.bind {x : Build α} {f : α → Build β} (first : Mints L K x)
    (rest : ∀ M a, L <+: M → K M a → Mints M K' (f a)) : Mints L K' (x >>= f) := by
  intro b next run
  rw [StateT.run_bind] at run
  cases h : x.run L.length with
  | error e =>
      rw [h] at run
      cases run
  | ok result =>
      obtain ⟨a, after⟩ := result
      rw [h] at run
      obtain ⟨M, grown, rfl, known⟩ := first a after h
      obtain ⟨N, grown', length, known'⟩ := rest M a grown known b next run
      exact ⟨N, grown.trans grown', length, known'⟩

theorem Mints.map {x : Build α} {f : α → β} (minted : Mints L K x)
    (known : ∀ M a, K M a → K' M (f a)) : Mints L K' (f <$> x) := by
  rw [map_eq_pure_bind]
  exact minted.bind fun M a _ holds => .pure (known M a holds)

-- Identities that are not given to anything leave gaps in the ledger.
theorem Yields.mints {P : α → Prop} {x : Build α} (yields : Yields P x) :
    Mints L (fun _ a => P a) x := by
  intro a next run
  obtain ⟨grown, holds⟩ := yields L.length a next run
  refine ⟨L ++ List.replicate (next - L.length) .void, List.prefix_append _ _, ?_, holds⟩
  simp [Nat.add_sub_cancel' grown]

theorem cons_mints {car cdr : Literal} (knownCar : car.Known L) (knownCdr : cdr.Known L) :
    Mints L (fun M l => l.Known M) (Build.cons car cdr) := by
  intro _ _ run
  cases run
  have grown : L <+: L ++ [.ofLiteral (.pair L.length car cdr)] := List.prefix_append _ _
  exact ⟨_, grown, by simp, L.has_new _, knownCar.mono grown, knownCdr.mono grown⟩

end Build

open Build

/-! ## Quoted data -/

namespace Literal

mutual

theorem ofDatum_mints (f : FoldCase) (d : Datum) (L : Ledger) :
    Mints L (fun M l => l.Known M) (ofDatum f d) := by
  match d with
  | .atom _ (.number n) => exact .pure trivial
  | .atom _ (.string s) => exact .pure trivial
  | .atom _ (.boolean b) => exact .pure trivial
  | .atom span (.symbol identifier) => exact .pure trivial
  | .quoted span none => exact .fail _ _
  | .quoted _ (some d) =>
      refine (ofDatum_mints f d L).bind fun M quoted _ known => ?_
      have null : Literal.Known M .null := trivial
      exact (cons_mints known null).bind fun N rest _ known => cons_mints trivial known
  | .list _ before none => exact ofItems_mints f before trivial
  | .list _ before (some after) =>
      exact (ofTail_mints f after L).bind fun M tail _ known => ofItems_mints f before known

theorem ofTail_mints (f : FoldCase) (ds : List Datum) (L : Ledger) :
    Mints L (fun M l => l.Known M) (ofTail f ds) := by
  match ds with
  | [] => exact .pure trivial
  | [d] => exact ofDatum_mints f d L
  | _ :: d :: ds => exact ofTail_mints f (d :: ds) L

theorem ofItems_mints (f : FoldCase) (ds : List Datum) {L : Ledger} {tail : Literal}
    (known : tail.Known L) : Mints L (fun M l => l.Known M) (ofItems f tail ds) := by
  match ds with
  | [] => exact .pure known
  | d :: ds =>
      refine (ofItems_mints f ds known).bind fun M cdr _ knownCdr => ?_
      exact (ofDatum_mints f d M).bind fun N car later knownCar => cons_mints knownCar (knownCdr.mono later)

end

end Literal

/-! ## Expressions -/

namespace Expr

theorem ofName_mints (span : Span) (name : String) (L : Ledger) :
    Mints L (fun M e => e.Known M) (ofName span name) := by
  unfold ofName
  split
  · exact .pure (.primitive _)
  · exact .fail _ _
  · exact .pure (.ref _)

mutual

theorem ofDatum_mints (f : FoldCase) (d : Datum) (L : Ledger) :
    Mints L (fun M e => e.Known M) (ofDatum f d) := by
  match d with
  | .atom _ (.number n) => exact .pure (.number n)
  | .atom _ (.string s) => exact .pure (.string s)
  | .atom _ (.boolean b) => exact .pure (.boolean b)
  | .atom span (.symbol identifier) => exact ofName_mints _ _ L
  | .quoted span none => exact .fail _ _
  | .quoted _ (some d) => exact .map (Literal.ofDatum_mints f d L) fun _ _ => .literal
  | .list span before (some after) =>
      unfold ofDatum
      split
      · exact .fail _ _
      · exact .fail _ _
  | .list span [] none => exact .fail _ _
  | .list span (head :: rest) none =>
      unfold ofDatum
      split
      · refine (ofDatum_mints f head L).bind fun M operator _ knownOperator => ?_
        refine (ofData_mints f _ M).bind fun N operands later knownOperands => ?_
        exact .pure (.apply (knownOperator.mono later) knownOperands)
      · exact .map (Literal.ofDatum_mints f _ L) fun _ _ => .literal
      · exact .fail _ _
      · rename_i target value _
        refine (bindable_yields f target).mints.bind fun M name _ _ => ?_
        exact (ofDatum_mints f value M).bind fun N value _ known => .pure (.assign known)
      · rename_i test consequent _
        refine (ofDatum_mints f test L).bind fun M test _ knownTest => ?_
        refine (ofDatum_mints f consequent M).bind fun N consequent later knownConsequent => ?_
        exact .pure (.ifElse (knownTest.mono later) knownConsequent (by simp))
      · rename_i test consequent alternative _
        refine (ofDatum_mints f test L).bind fun M test _ knownTest => ?_
        refine (ofDatum_mints f consequent M).bind fun N consequent later knownConsequent => ?_
        refine (ofDatum_mints f alternative N).bind fun N' alternative later' knownAlternative => ?_
        refine .pure (.ifElse (knownTest.mono (later.trans later')) (knownConsequent.mono later') ?_)
        intro e member
        cases member
        exact knownAlternative
      · rename_i params body _
        refine (distinctNames_yields f [] params).mints.bind fun M params _ _ => ?_
        exact (ofData_mints f body M).bind fun N body _ known => .pure (.lambda known)
      · rename_i bindings body _
        refine (ofBindings_mints f bindings L).bind fun M values _ knownValues => ?_
        refine (distinctNames_yields f [] _).mints.bind fun N names later _ => ?_
        refine (ofData_mints f body N).bind fun N' body later' knownBody => .pure ?_
        exact .letIn (fun e member => (knownValues e member).mono (later.trans later')) knownBody
      · exact .fail _ _

theorem ofData_mints (f : FoldCase) (ds : List Datum) (L : Ledger) :
    Mints L (fun M es => ∀ e ∈ es, e.Known M) (ofData f ds) := by
  match ds with
  | [] => exact .pure (by simp)
  | d :: ds =>
      refine (ofDatum_mints f d L).bind fun M e _ known => ?_
      refine (ofData_mints f ds M).bind fun N es later knowns => .pure ?_
      exact List.forall_mem_cons.2 ⟨known.mono later, knowns⟩

theorem ofBindings_mints (f : FoldCase) (ds : List Datum) (L : Ledger) :
    Mints L (fun M es => ∀ e ∈ es, e.Known M) (ofBindings f ds) := by
  match ds with
  | [] => exact .pure (by simp)
  | .list _ [_, value] none :: ds =>
      refine (ofDatum_mints f value L).bind fun M e _ known => ?_
      refine (ofBindings_mints f ds M).bind fun N es later knowns => .pure ?_
      exact List.forall_mem_cons.2 ⟨known.mono later, knowns⟩
  | .atom _ _ :: _ => exact .fail _ _
  | .quoted _ _ :: _ => exact .fail _ _
  | .list _ [] _ :: _ => exact .fail _ _
  | .list _ [_] _ :: _ => exact .fail _ _
  | .list _ [_, _] (some _) :: _ => exact .fail _ _
  | .list _ (_ :: _ :: _ :: _) _ :: _ => exact .fail _ _

end

end Expr

/-! ## Forms -/

namespace Form

def Known (L : Ledger) (x : Form) : Prop := x.root.Known L

theorem Known.mono {L M : Ledger} {x : Form} (later : L <+: M) (known : x.Known L) : x.Known M :=
  Expr.Known.mono later known

theorem ofDefinition_mints (f : FoldCase) (span : Span) (ds : List Datum) (L : Ledger) :
    Mints L (fun M x => x.Known M) (ofDefinition f span ds) := by
  unfold ofDefinition
  split
  · exact .fail _ _
  · exact .fail _ _
  · rename_i target params body
    refine (bindable_yields f target).mints.bind fun M name _ _ => ?_
    refine (distinctNames_yields f [] params).mints.bind fun N params _ _ => ?_
    exact (Expr.ofData_mints f body N).bind fun N' body _ known => .pure (.lambda known)
  · rename_i target value _ _ _
    refine (bindable_yields f target).mints.bind fun M name _ _ => ?_
    exact (Expr.ofDatum_mints f value M).bind fun N value _ known => .pure known
  · exact .fail _ _

theorem ofDatum_mints (f : FoldCase) (d : Datum) (L : Ledger) :
    Mints L (fun M x => x.Known M) (ofDatum f d) := by
  have asExpr : Mints L (fun M x => x.Known M) (Form.expr <$> Expr.ofDatum f d) :=
    .map (Expr.ofDatum_mints f d L) fun _ _ known => known
  unfold ofDatum
  split
  · split
    · split
      · exact .fail _ _
      · exact ofDefinition_mints f _ _ L
    · exact asExpr
  · exact asExpr

theorem ofData_mints (f : FoldCase) (ds : List Datum) (L : Ledger) :
    Mints L (fun M xs => ∀ x ∈ xs, x.Known M) (ofData f ds) := by
  induction ds generalizing L with
  | nil => exact .pure (by simp)
  | cons d ds ih =>
      refine (ofDatum_mints f d L).bind fun M x _ known => ?_
      refine (ih M).bind fun N xs later knowns => .pure ?_
      exact List.forall_mem_cons.2 ⟨known.mono later, knowns⟩

end Form

theorem readForms_known {foldCase : Bool} {next : Identity} {source : String} {xs : List Form}
    {L : Ledger} (read : readForms foldCase L.length source = .ok (xs, next)) :
    ∃ M, L <+: M ∧ M.length = next ∧ ∀ x ∈ xs, x.Known M := by
  unfold readForms at read
  dsimp only at read
  split at read
  · split at read
    · rename_i built
      cases read
      exact Form.ofData_mints _ _ L xs next built
    · cases read
  · cases read

end StoreScheme
