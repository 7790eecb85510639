import StyleCalc.Proofs.Framing
import StyleCalc.Proofs.NormalForm
import StyleCalc.Proofs.Readback
import StyleCalc.Scan

set_option autoImplicit false

namespace StyleCalc

namespace Scan

open Text

theorem has_call_behind (before : Option Char) (front rest : List Char)
    (plain : ∀ c, (before.toList ++ front).getLast? = some c → isWord c = false) (starts : startsCall rest) :
    hasCall before (front ++ rest) := by
  induction front generalizing before with
  | nil =>
      cases rest with
      | nil => cases starts
      | cons c rest =>
          have open' : before.any isWord = false := by
            cases before with
            | none => rfl
            | some b => exact plain b rfl
          rw [List.nil_append, hasCall, starts, open']
          rfl
  | cons d front ih =>
      rw [List.cons_append, hasCall, Bool.or_eq_true]
      refine .inr (ih (some d) fun c last => plain c ?_)
      rwa [List.getLast?_append_of_ne_nil _ (List.cons_ne_nil d front)]

theorem has_call_framed (s t : List Char) (framed : Framed s t) (starts : ∀ rest, startsCall (s ++ rest)) :
    hasCall none t := by
  obtain ⟨front, rest, rfl, plain, _⟩ := framed
  refine has_call_behind none front _ ?_ (starts rest)
  intro c last
  refine plain c ?_
  rwa [List.head?_reverse]

theorem starts_call (name : String) (member : name ∈ dynamicFunctions) (rest : List Char) :
    startsCall (name.toList ++ '(' :: rest) := by
  have small : ∀ w ∈ dynamicFunctions, (w.toList ++ ['(']).map fold = w.toList ++ ['('] := by decide
  have dropped := dropWord_append (name.toList ++ ['(']) rest (small name member)
  rw [List.append_assoc, List.singleton_append] at dropped
  rw [startsCall, List.any_eq_true]
  exact ⟨name, member, by rw [dropped]; rfl⟩

theorem has_unit_behind (front rest : List Char) (c : Char) (digit : Text.isDigit c) (starts : startsUnit rest) :
    hasUnit (front ++ c :: rest) := by
  induction front with
  | nil =>
      rw [List.nil_append, hasUnit, starts, digit]
      rfl
  | cons d front ih =>
      rw [List.cons_append, hasUnit, Bool.or_eq_true]
      exact .inr ih

theorem starts_unit (unit : String) (member : unit ∈ relativeUnits) (rest : List Char) (stop : Bars isWord rest) :
    startsUnit (unit.toList ++ rest) := by
  have small : ∀ w ∈ relativeUnits, w.toList.map fold = w.toList := by decide
  rw [startsUnit, List.any_eq_true]
  refine ⟨unit, member, ?_⟩
  rw [dropWord_append unit.toList rest (small unit member)]
  cases rest with
  | nil => rfl
  | cons c rest => simp [stop c rfl]

end Scan

namespace Numeric

theorem text_digit (n : Numeric Float) (finite : Scalar.isFinite n.value) :
    ∃ s c, n.text.toList = s ++ c :: n.units.toList ∧ c.isDigit := by
  have written (x : Float) (finite : Scalar.isFinite x) :
      ∃ s c, (Scalar.text x ++ n.units).toList = s ++ c :: n.units.toList ∧ c.isDigit := by
    obtain ⟨numeral, chars, plain, _⟩ := Double.text_numeral x finite
    obtain ⟨s, c, split, digit⟩ := numeral.plain_last plain
    exact ⟨s, c, by rw [String.toList_append, ← chars, split, List.append_assoc, List.singleton_append], digit⟩
  rw [text]
  split
  · exact written _ (Double.index_finite 0 (by decide))
  · exact written n.value finite

end Numeric

namespace Node

open Scan

variable {α : Type}

-- What stands in an expression outside of every calculation and conversion.
inductive Exposed (root : Node α) : Node α → Prop where
  | root : Exposed root root
  | part (node part : Node α) (previous : Exposed root node) (noCalculation : ∀ inner, node ≠ .calculation inner)
      (noConversion : ∀ inner, node ≠ .num inner) (member : part ∈ node.parts) : Exposed root part

def Enclosed (root : Node α) : Prop :=
  ∀ node, Exposed root node → node.isSum = false ∧ node.isProduct = false

theorem exposed_in_part (root part node : Node α) (noCalculation : ∀ inner, root ≠ .calculation inner)
    (noConversion : ∀ inner, root ≠ .num inner) (member : part ∈ root.parts) (exposed : Exposed part node) :
    Exposed root node := by
  induction exposed with
  | root => exact .part root part .root noCalculation noConversion member
  | part node part _ noCalculation noConversion member ih => exact .part node part ih noCalculation noConversion member

theorem changing_part (ns : List (Node α)) (changing : allConstant ns = false) :
    ∃ n ∈ ns, n.isConstant = false := by
  rw [allConstant_eq_all] at changing
  simpa using changing

theorem enclosed_of_parts (root : Node α) (plain : root.isSum = false ∧ root.isProduct = false)
    (each : (∀ inner, root ≠ .calculation inner) → (∀ inner, root ≠ .num inner) →
      ∀ part ∈ root.parts, part.Enclosed) : root.Enclosed := by
  have split (node : Node α) (exposed : Exposed root node) : node = root ∨
      (∀ inner, root ≠ .calculation inner) ∧ (∀ inner, root ≠ .num inner) ∧ ∃ part ∈ root.parts, Exposed part node := by
    induction exposed with
    | root => exact .inl rfl
    | part node part _ noCalculation noConversion member ih =>
        right
        rcases ih with rfl | ⟨rootCalculation, rootConversion, first, among, within⟩
        · exact ⟨noCalculation, noConversion, part, member, .root⟩
        · exact ⟨rootCalculation, rootConversion, first, among,
            .part node part within noCalculation noConversion member⟩
  intro node exposed
  rcases split node exposed with rfl | ⟨noCalculation, noConversion, part, member, within⟩
  · exact plain
  · exact each noCalculation noConversion part member node within

variable [Scalar α]

def ShowsCall (node : Node α) : Prop :=
  ∀ rest, startsCall (node.text.toList ++ rest)

theorem shows_call (node : Node α) (name : String) (member : name ∈ dynamicFunctions) (behind : List Char)
    (split : node.text.toList = name.toList ++ '(' :: behind) : node.ShowsCall := by
  intro rest
  rw [split, List.append_assoc, List.cons_append]
  exact starts_call name member (behind ++ rest)

theorem changing_shows_call (node : Node α) (enclosed : node.Enclosed) (changing : node.isConstant = false) :
    ∃ inner, node.Occurs inner ∧ inner.ShowsCall := by
  have within (part : Node α) (member : part ∈ node.parts) (noCalculation : ∀ inner, node ≠ .calculation inner)
      (noConversion : ∀ inner, node ≠ .num inner) (changing : part.isConstant = false) :
      ∃ inner, node.Occurs inner ∧ inner.ShowsCall := by
    have smaller := part_smaller node part member
    obtain ⟨inner, occurs, shows⟩ := changing_shows_call part
      (fun n exposed => enclosed n (exposed_in_part node part n noCalculation noConversion member exposed)) changing
    exact ⟨inner, occurs_in_part node part inner member occurs, shows⟩
  cases node with
  | raw css => cases changing
  | numeric n => cases changing
  | concat ns =>
      rw [isConstant] at changing
      obtain ⟨n, member, changing⟩ := changing_part ns changing
      exact within n member nofun nofun changing
  | call name args axes =>
      rw [isConstant] at changing
      obtain ⟨n, member, changing⟩ := changing_part args changing
      exact within n member nofun nofun changing
  | url address =>
      have given : address ≠ "" := by
        rintro rfl
        cases changing
      refine ⟨_, .root, shows_call _ "url" (by decide) ('"' :: (address.toList ++ ['"', ')'])) ?_⟩
      rw [text, quotedAddress, if_neg given]
      simp
  | var name fallback =>
      cases fallback with
      | none =>
          refine ⟨_, .root, shows_call _ "var" (by decide) (name.toList ++ [')']) ?_⟩
          rw [text]
          simp
      | some value =>
          refine ⟨_, .root,
            shows_call _ "var" (by decide) (name.toList ++ ',' :: ' ' :: (value.text.toList ++ [')'])) ?_⟩
          rw [text]
          simp
  | calculation inner =>
      refine ⟨_, .root, shows_call _ "calc" (by decide) (inner.text.toList ++ [')']) ?_⟩
      rw [text]
      simp
  | sum left op right => cases (enclosed _ .root).1
  | product left op right => cases (enclosed _ .root).2
  | num inner =>
      refine ⟨_, .root, shows_call _ "num" (by decide) (inner.text.toList ++ [')']) ?_⟩
      rw [text]
      simp
  | index =>
      refine ⟨_, .root, shows_call _ "index" (by decide) [')'] ?_⟩
      rw [text]
      rfl
termination_by sizeOf node

theorem scan_misses_nothing (node : Node Float) :
    (node.Enclosed →
      (node.isConstant = false → needsResolution node.text false) ∧
      (needsResolution node.text false = false → ∀ (ctx : Context Float) (scope : Scope),
        (node.resolveIn ctx scope).1 = .ok (some node))) ∧
    ∀ n, node.Occurs (.numeric n) → Scalar.isFinite n.value →
      n.units ∈ ["em", "rem", "vw", "vh", "vmin", "vmax", "deg", "grad", "s"] → needsResolution node.text true := by
  refine ⟨fun enclosed => ?_, ?_⟩
  · have found (changing : node.isConstant = false) : needsResolution node.text false := by
      obtain ⟨inner, occurs, shows⟩ := changing_shows_call node enclosed changing
      rw [needsResolution, has_call_framed _ _ (occurs_framed node inner occurs) shows]
      rfl
    refine ⟨found, ?_⟩
    intro quiet ctx scope
    have constant : node.isConstant := by
      rw [← Bool.not_eq_false]
      intro changing
      rw [found changing] at quiet
      cases quiet
    rw [resolve_in_of_constant ctx node scope constant]
  · intro n occurs finite relative
    obtain ⟨s, c, split, digit⟩ := n.text_digit finite
    obtain ⟨front, rest, whole, _, stop⟩ := occurs_framed node _ occurs
    have unit := has_unit_behind (front ++ s) (n.units.toList ++ rest) c (Text.isDigit_of_ascii c digit)
      (starts_unit n.units relative rest stop)
    have same : node.text.toList = (front ++ s) ++ c :: (n.units.toList ++ rest) := by
      rw [whole, text, split]
      simp only [List.append_assoc, List.cons_append]
    rw [needsResolution, same, unit, Bool.and_true, Bool.or_true]

def shadow : Node Float :=
  .call "calc-shadow" [.numeric ⟨.length, 2.5, "em"⟩, .calculation (.sum .index .add (.numeric (Numeric.count 1)))] none

theorem shadow_scanned :
    shadow.Enclosed ∧ needsResolution shadow.text false ∧ needsResolution shadow.text true ∧
    needsResolution (text (.raw "recalc(1)" : Node Float)) false = false ∧
    ((Node.raw "recalc(1)" : Node Float).resolveIn (.page fun _ => none) Scope.start).1 =
      .ok (some (.raw "recalc(1)")) := by
  have enclosed : shadow.Enclosed := by
    refine enclosed_of_parts _ ⟨rfl, rfl⟩ fun _ _ part member => ?_
    rcases List.mem_pair.mp member with rfl | rfl
    · exact enclosed_of_parts _ ⟨rfl, rfl⟩ fun _ _ => nofun
    · exact enclosed_of_parts _ ⟨rfl, rfl⟩ fun noCalculation => absurd rfl (noCalculation _)
  have word : Enclosed (.raw "recalc(1)" : Node Float) := enclosed_of_parts _ ⟨rfl, rfl⟩ fun _ _ => nofun
  have quiet : needsResolution (text (.raw "recalc(1)" : Node Float)) false = false := by decide +kernel
  have length : shadow.Occurs (.numeric ⟨.length, 2.5, "em"⟩) := .part _ _ .root List.mem_cons_self
  obtain ⟨calls, units⟩ := scan_misses_nothing shadow
  exact ⟨enclosed, (calls enclosed).1 rfl, units _ length (by decide) (by decide), quiet,
    ((scan_misses_nothing (.raw "recalc(1)")).1 word).2 quiet _ _⟩

end Node

end StyleCalc
